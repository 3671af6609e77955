import YangBinding.Proofs.Reports
import Mathlib.Data.List.Induction
import Mathlib.Data.List.Infix

namespace YangBinding

-- The reports with none before them of the same kind about the same statement.
def firstReports (reports : List Report) : List Report :=
  (reports.zipIdx.filter fun (r, i) =>
    ∀ earlier ∈ reports.take i, ¬ (r.node = earlier.node ∧ r.kind = earlier.kind)).map Prod.fst

theorem firstReports_append_singleton (reports : List Report) (r : Report) :
    firstReports (reports ++ [r]) = firstReports reports ++
      if ∀ earlier ∈ reports, ¬ (r.node = earlier.node ∧ r.kind = earlier.kind) then [r]
      else [] := by
  have hstep := filter_zipIdx_append_singleton (fun before (r : Report) =>
    decide (∀ earlier ∈ before, ¬ (r.node = earlier.node ∧ r.kind = earlier.kind))) reports r
  simp only [decide_eq_true_eq] at hstep
  exact hstep

-- `Reiterates before reports longer`: behind the reports `before`, the list `longer` is `reports`
-- with others put in that each are of the kind of an earlier one and about its statement.
inductive Reiterates : List Report → List Report → List Report → Prop
  | nil (before : List Report) : Reiterates before [] []
  | next (r : Report) {before reports longer : List Report}
      (rest : Reiterates (before ++ [r]) reports longer) :
      Reiterates before (r :: reports) (r :: longer)
  | again (r : Report) {earlier : Report} {before reports longer : List Report}
      (mem : earlier ∈ before) (node : r.node = earlier.node) (kind : r.kind = earlier.kind)
      (rest : Reiterates before reports longer) : Reiterates before reports (r :: longer)

namespace Reports

theorem addAll_append (reports : Reports) (more others : List Report) :
    reports.addAll (more ++ others) = (reports.addAll more).addAll others :=
  List.foldl_append

theorem any_sameSubject_of_sameSubject {reports : Reports} {r other : Report}
    (h : r.sameSubject other) (hany : reports.any other.sameSubject) :
    reports.any r.sameSubject := by
  obtain ⟨kept, hmem, hkept⟩ := List.any_eq_true.mp hany
  rw [Report.sameSubject_iff] at h hkept
  have hsame : r.sameSubject kept := by
    rw [Report.sameSubject_iff]
    exact ⟨h.1.trans hkept.1, h.2.trans hkept.2⟩
  exact List.any_eq_true.mpr ⟨kept, hmem, hsame⟩

-- Of what was reported some report is kept, so looking among the kept ones is looking among all.
theorem any_sameSubject_add (reports : Reports) (added r : Report) :
    (reports.add added).any r.sameSubject = (reports.any r.sameSubject || r.sameSubject added) := by
  unfold add
  split
  · rename_i hkept
    by_cases hadded : r.sameSubject added
    · rw [any_sameSubject_of_sameSubject hadded hkept, Bool.true_or]
    · rw [Bool.not_eq_true] at hadded
      rw [hadded, Bool.or_false]
  · rw [List.any_append, List.any_cons, List.any_nil, Bool.or_false]

theorem any_sameSubject_addAll (reports : Reports) (more : List Report) (r : Report) :
    (reports.addAll more).any r.sameSubject =
      (reports.any r.sameSubject || more.any r.sameSubject) := by
  induction more generalizing reports with
  | nil => rw [addAll, List.foldl_nil, List.any_nil, Bool.or_false]
  | cons first rest ih =>
      rw [addAll_cons, ih, any_sameSubject_add, List.any_cons, Bool.or_assoc]

theorem addAll_nil_eq_firstReports (reports : List Report) :
    addAll [] reports = firstReports reports := by
  induction reports using List.reverseRecOn with
  | nil => rfl
  | append_singleton init r ih =>
      have hany : (addAll [] init).any r.sameSubject ↔
          ¬ ∀ earlier ∈ init, ¬ (r.node = earlier.node ∧ r.kind = earlier.kind) := by
        rw [any_sameSubject_addAll, List.any_nil, Bool.false_or, List.any_eq_true]
        simp only [Report.sameSubject_iff, not_forall, not_not, exists_prop]
      have hlast : addAll [] (init ++ [r]) = (addAll [] init).add r := addAll_append [] init [r]
      rw [hlast, firstReports_append_singleton, add, ← ih]
      by_cases hfirst : ∀ earlier ∈ init, ¬ (r.node = earlier.node ∧ r.kind = earlier.kind)
      · rw [if_neg fun h => hany.mp h hfirst, if_pos hfirst]
      · rw [if_pos (hany.mpr hfirst), if_neg hfirst, List.append_nil]

theorem prefix_addAll (reports : Reports) (more : List Report) :
    reports <+: reports.addAll more := by
  induction more generalizing reports with
  | nil => exact List.prefix_refl _
  | cons r rest ih =>
      have hstep : reports <+: reports.add r := by
        unfold add
        split
        · exact List.prefix_refl _
        · exact List.prefix_append _ _
      exact hstep.trans (ih _)

-- The invariant: of each report so far one is kept that is of its kind and about its statement.
theorem addAll_reiterates {before reports longer : List Report}
    (h : Reiterates before reports longer) {kept : Reports}
    (hkept : ∀ earlier ∈ before, kept.any earlier.sameSubject) :
    kept.addAll longer = kept.addAll reports := by
  induction h generalizing kept with
  | nil => rfl
  | next r _ ih =>
      apply ih
      intro earlier hearlier
      rw [any_sameSubject_add, Bool.or_eq_true]
      rcases List.mem_append.mp hearlier with hmem | hmem
      · exact .inl (hkept earlier hmem)
      · rw [List.mem_singleton.mp hmem, Report.sameSubject_iff]
        exact .inr ⟨rfl, rfl⟩
  | again r mem node kind _ ih =>
      have hknown : kept.any r.sameSubject := by
        refine any_sameSubject_of_sameSubject ?_ (hkept _ mem)
        rw [Report.sameSubject_iff]
        exact ⟨node, kind⟩
      rw [addAll_cons, add, if_pos hknown]
      exact ih hkept

end Reports

theorem first_reports_are_kept (reports : List Report) :
    Reports.addAll [] reports = firstReports reports ∧
    (∀ longer, Reiterates [] reports longer →
      Reports.addAll [] longer = Reports.addAll [] reports) ∧
    ∀ start, start <+: reports → Reports.addAll [] start <+: Reports.addAll [] reports := by
  refine ⟨Reports.addAll_nil_eq_firstReports reports, ?_, ?_⟩
  · intro longer hlonger
    exact Reports.addAll_reiterates hlonger (by simp)
  · rintro start ⟨rest, rfl⟩
    rw [Reports.addAll_append]
    exact Reports.prefix_addAll _ _

def typeReport (node : Nat) (path typeName : String) : Report :=
  ⟨node, ⟨path, .unsupportedType typeName⟩⟩

-- The second report about statement 1 differs from the first in the type that it names.
theorem second_type_of_statement_left_out :
    Reports.addAll [] [typeReport 1 "/a/" "decimal64", typeReport 1 "/a/" "bits",
      typeReport 2 "/b/" "bits"] =
        [typeReport 1 "/a/" "decimal64", typeReport 2 "/b/" "bits"] ∧
    Reports.addAll [] [typeReport 1 "/a/" "decimal64"] <+: Reports.addAll []
      [typeReport 1 "/a/" "decimal64", typeReport 2 "/b/" "bits"] := by
  obtain ⟨hfirst, hagain, hstart⟩ := first_reports_are_kept
    [typeReport 1 "/a/" "decimal64", typeReport 2 "/b/" "bits"]
  have hlonger : Reiterates [] [typeReport 1 "/a/" "decimal64", typeReport 2 "/b/" "bits"]
      [typeReport 1 "/a/" "decimal64", typeReport 1 "/a/" "bits", typeReport 2 "/b/" "bits"] :=
    .next _ (.again _ (List.mem_append_right _ List.mem_cons_self) rfl rfl (.next _ (.nil _)))
  refine ⟨?_, hstart _ ⟨[typeReport 2 "/b/" "bits"], rfl⟩⟩
  rw [hagain _ hlonger, hfirst]
  decide

end YangBinding
