import YangBinding.Compile.Event
import Mathlib.Data.List.Nodup

namespace YangBinding

-- Where items are picked by those before them, the last one is seen with all others before it.
theorem filter_zipIdx_append_singleton {α : Type} (pick : List α → α → Bool) (items : List α)
    (last : α) :
    (((items ++ [last]).zipIdx.filter fun item =>
      pick ((items ++ [last]).take item.2) item.1).map Prod.fst) =
    ((items.zipIdx.filter fun item => pick (items.take item.2) item.1).map Prod.fst) ++
      if pick items last then [last] else [] := by
  have hinit : (items.zipIdx.filter fun item =>
      pick ((items ++ [last]).take item.2) item.1) =
      items.zipIdx.filter fun item => pick (items.take item.2) item.1 := by
    apply List.filter_congr
    intro item hitem
    have hplace : item.2 ≤ items.length := by
      have hbounds := (List.mem_zipIdx hitem).2.1
      omega
    rw [List.take_append_of_le_length hplace]
  have hlast : ([(last, items.length)].filter fun item =>
      pick ((items ++ [last]).take item.2) item.1).map Prod.fst =
      if pick items last then [last] else [] := by
    rw [List.filter_singleton, List.take_left]
    cases pick items last <;> rfl
  rw [List.zipIdx_append, List.filter_append, List.map_append, hinit]
  congr 1
  simpa using hlast

-- What a report says apart from its wording: the kind of its remark.
def Report.kind (r : Report) : RemarkKind := r.diagnostic.remark.kind

theorem Report.sameSubject_iff (a b : Report) :
    a.sameSubject b ↔ a.node = b.node ∧ a.kind = b.kind := by
  simp [sameSubject, Report.kind]

namespace Reports

theorem addAll_cons (reports : Reports) (r : Report) (more : List Report) :
    reports.addAll (r :: more) = (reports.add r).addAll more := rfl

theorem subset_add (reports : Reports) (r : Report) : reports ⊆ reports.add r := by
  unfold add
  split
  · exact List.Subset.refl _
  · exact List.subset_append_left _ _

theorem mem_add {reports : Reports} {r kept : Report} (h : kept ∈ reports.add r) :
    kept ∈ reports ∨ kept = r := by
  unfold add at h
  split at h
  · exact .inl h
  · simpa using h

-- A report that is left out has one of its kind about its statement to stand for it.
theorem exists_kept_add (reports : Reports) (r : Report) :
    ∃ kept ∈ reports.add r, r.sameSubject kept := by
  unfold add
  split
  · rename_i h
    exact List.any_eq_true.mp h
  · exact ⟨r, List.mem_append_right _ (List.mem_singleton_self r), by simp [Report.sameSubject]⟩

theorem add_of_node_notMem {reports : Reports} {r : Report}
    (h : r.node ∉ reports.map Report.node) : reports.add r = reports ++ [r] := by
  have hnone : ¬ reports.any r.sameSubject := by
    intro hany
    obtain ⟨kept, hk, hsame⟩ := List.any_eq_true.mp hany
    have hnode := ((r.sameSubject_iff kept).mp hsame).1
    exact h (hnode ▸ List.mem_map_of_mem hk)
  rw [add, if_neg hnone]

-- Nothing is left out when no statement is reported twice.
theorem addAll_of_nodup (reports : Reports) (more : List Report)
    (h : ((reports ++ more).map Report.node).Nodup) : reports.addAll more = reports ++ more := by
  induction more generalizing reports with
  | nil => simp [addAll]
  | cons r rest ih =>
      have hnew : r.node ∉ reports.map Report.node := by
        rw [List.map_append, List.map_cons] at h
        intro hm
        exact (List.nodup_append.mp h).2.2 _ hm _ List.mem_cons_self rfl
      have hrest := ih (reports ++ [r]) (by simpa using h)
      rw [addAll_cons, add_of_node_notMem hnew, hrest, List.append_assoc, List.singleton_append]

end Reports

namespace Ledger

theorem reports_subset_record (ledger : Ledger) (event : Event) :
    ledger.reports ⊆ (ledger.record event).reports := by
  cases event with
  | claim node name path =>
      simp only [record]
      split
      · exact Reports.subset_add _ _
      · exact List.Subset.refl _
  | report r => exact Reports.subset_add _ _

theorem mem_reports_record {ledger : Ledger} {event : Event} {r : Report}
    (h : r ∈ (ledger.record event).reports) :
    r ∈ ledger.reports ∨ event = .report r ∨ r.kind = .duplicateClassName := by
  cases event with
  | claim node name path =>
      simp only [record] at h
      split at h
      · rcases Reports.mem_add h with h | rfl
        · exact .inl h
        · exact .inr (.inr rfl)
      · exact .inl h
  | report other =>
      rcases Reports.mem_add h with h | rfl
      · exact .inl h
      · exact .inr (.inl rfl)

theorem reports_subset_foldl (ledger : Ledger) (events : List Event) :
    ledger.reports ⊆ (events.foldl record ledger).reports := by
  induction events generalizing ledger with
  | nil => exact List.Subset.refl _
  | cons event rest ih => exact List.Subset.trans (reports_subset_record ledger event) (ih _)

theorem mem_reports_foldl {ledger : Ledger} {events : List Event} {r : Report}
    (h : r ∈ (events.foldl record ledger).reports) :
    r ∈ ledger.reports ∨ .report r ∈ events ∨ r.kind = .duplicateClassName := by
  induction events generalizing ledger with
  | nil => exact .inl h
  | cons event rest ih =>
      rcases ih h with h | h | h
      · rcases mem_reports_record h with h | rfl | h
        · exact .inl h
        · exact .inr (.inl List.mem_cons_self)
        · exact .inr (.inr h)
      · exact .inr (.inl (List.mem_cons_of_mem _ h))
      · exact .inr (.inr h)

theorem exists_kept_foldl {ledger : Ledger} {events : List Event} {r : Report}
    (h : .report r ∈ events) :
    ∃ kept ∈ (events.foldl record ledger).reports, r.sameSubject kept := by
  induction events generalizing ledger with
  | nil => simp at h
  | cons event rest ih =>
      rcases List.mem_cons.mp h with rfl | h
      · obtain ⟨kept, hk, hsame⟩ := Reports.exists_kept_add ledger.reports r
        exact ⟨kept, reports_subset_foldl (ledger.record (.report r)) rest hk, hsame⟩
      · exact ih h

end Ledger

-- A report comes through when no other of its kind is about its statement. Claims of class names
-- lead to reports of a kind of their own.
theorem diagnostic_mem_diagnosticsOf {events : List Event} {r : Report} (h : .report r ∈ events)
    (hkind : r.kind ≠ .duplicateClassName)
    (hunique : ∀ other, .report other ∈ events → r.sameSubject other → other = r) :
    r.diagnostic ∈ diagnosticsOf events := by
  have hexists : ∃ kept ∈ (events.foldl Ledger.record .empty).reports, r.sameSubject kept :=
    Ledger.exists_kept_foldl h
  obtain ⟨kept, hk, hsame⟩ := hexists
  have hkept : kept = r := by
    rcases Ledger.mem_reports_foldl hk with hm | hm | hm
    · simp [Ledger.empty] at hm
    · exact hunique kept hm hsame
    · exact absurd (((r.sameSubject_iff kept).mp hsame).2.trans hm) hkind
  exact List.mem_map.mpr ⟨kept, hk, by rw [hkept]⟩

end YangBinding
