import YangBinding.Java.Name
import Mathlib.Data.List.Basic

namespace YangBinding

namespace Text

-- A stop ends a piece and is in none.
theorem not_stop_of_mem_pieces {stop : Char → Bool} {cs piece : List Char}
    (h : piece ∈ pieces stop cs) {c : Char} (hc : c ∈ piece) : ¬ stop c := by
  induction cs generalizing piece with
  | nil =>
      rw [pieces, List.mem_singleton] at h
      simp [h] at hc
  | cons first rest ih =>
      rw [pieces] at h
      split at h
      · rcases List.mem_cons.mp h with rfl | h
        · simp at hc
        · exact ih h hc
      · rename_i hfirst
        split at h
        · obtain rfl := List.mem_singleton.mp h
          rwa [List.mem_singleton.mp hc]
        · rename_i head more heq
          rcases List.mem_cons.mp h with rfl | h
          · rcases List.mem_cons.mp hc with rfl | hc
            · exact hfirst
            · exact ih (heq ▸ List.mem_cons_self) hc
          · exact ih (heq ▸ List.mem_cons_of_mem _ h) hc

-- Upper case lies beyond the code points of digits and signs, in both tables.
theorem upperRuns_beyond : ∀ run ∈ upperRuns, 0x40 < (run.first : Int) + run.offset := by
  decide +kernel

theorem upperExpansions_beyond : ∀ entry ∈ upperExpansions, ∀ image ∈ entry.2, 0x40 < image := by
  decide +kernel

theorem CaseRun.lt_image {run : CaseRun} {bound n image : Nat}
    (hrun : (bound : Int) < run.first + run.offset) (h : run.image? n = some image) :
    bound < image := by
  unfold image? at h
  split at h
  · have himage := Option.some.inj h
    omega
  · simp at h

-- An image comes from a run, else from an expansion, else it is the code point itself and its only
-- image.
theorem caseImage_cases {runs : List CaseRun} {expansions : List (Nat × List Nat)} {n image : Nat}
    (h : image ∈ caseImage runs expansions n) :
    (∃ run ∈ runs, run.image? n = some image) ∨
      (∃ entry ∈ expansions, image ∈ entry.2) ∨
      (image = n ∧ caseImage runs expansions n = [n] ∧ ∀ run ∈ runs, run.image? n = none) := by
  unfold caseImage at h ⊢
  split at h
  · rename_i found hfound
    obtain ⟨run, hrun, himage⟩ := List.exists_of_findSome?_eq_some hfound
    rw [List.mem_singleton.mp h]
    exact .inl ⟨run, hrun, himage⟩
  · rename_i hnone
    cases hlookup : expansions.lookup n with
    | none =>
        rw [hlookup, Option.getD_none, List.mem_singleton] at h
        exact .inr (.inr ⟨h, rfl, List.findSome?_eq_none_iff.mp hnone⟩)
    | some images =>
        rw [hlookup, Option.getD_some] at h
        obtain ⟨before, after, heq, -⟩ := List.lookup_eq_some_iff.mp hlookup
        exact .inr (.inl ⟨(n, images), by simp [heq], h⟩)

theorem upper_image (n : Nat) {image : Nat}
    (h : image ∈ caseImage upperRuns upperExpansions n) : image = n ∨ 0x40 < image := by
  rcases caseImage_cases h with ⟨run, hrun, himage⟩ | ⟨entry, hentry, himage⟩ | ⟨heq, -⟩
  · exact .inr (CaseRun.lt_image (upperRuns_beyond run hrun) himage)
  · exact .inr (upperExpansions_beyond entry hentry image himage)
  · exact .inl heq

theorem toNat_ofNat_cases (n : Nat) : (Char.ofNat n).toNat = n ∨ (Char.ofNat n).toNat = 0 := by
  unfold Char.ofNat
  by_cases hvalid : n.isValidChar
  · rw [dif_pos hvalid]
    exact .inl rfl
  · rw [dif_neg hvalid]
    exact .inr rfl

end Text

namespace Java

-- No digit or sign is the upper case of something else.
theorem eq_of_mem_upper {c d : Char} (h : d ∈ Text.upper c) (hd : d.toNat ≤ 0x40)
    (hne : d.toNat ≠ 0) : d = c := by
  obtain ⟨image, himage, rfl⟩ := List.mem_map.mp h
  rcases Text.upper_image c.toNat himage with rfl | hbeyond
  · exact Char.ofNat_toNat c
  · have hvalid := Text.toNat_ofNat_cases image
    omega

theorem eq_of_mem_upper_of_isDivider {c d : Char} (h : d ∈ Text.upper c) (hd : isDivider d) :
    d = c := by
  simp only [isDivider, Bool.or_eq_true, beq_iff_eq] at hd
  rcases hd with rfl | rfl
  · exact eq_of_mem_upper h (by decide) (by decide)
  · exact eq_of_mem_upper h (by decide) (by decide)

theorem not_isDivider_of_mem_className {ident : String} {c : Char}
    (h : c ∈ (className ident).toList) : ¬ isDivider c := by
  rw [className, String.toList_ofList] at h
  obtain ⟨segment, hsegment, hc⟩ := List.mem_flatMap.mp h
  have hpiece := (List.mem_filter.mp hsegment).1
  cases segment with
  | nil => simp [Text.upperFirst] at hc
  | cons first rest =>
      rw [Text.upperFirst, List.mem_append] at hc
      rcases hc with hc | hc
      · intro hdivider
        obtain rfl := eq_of_mem_upper_of_isDivider hc hdivider
        exact Text.not_stop_of_mem_pieces hpiece List.mem_cons_self hdivider
      · exact Text.not_stop_of_mem_pieces hpiece (List.mem_cons_of_mem _ hc)

end Java

end YangBinding
