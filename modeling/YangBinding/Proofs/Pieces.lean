import YangBinding.Text.Blank
import Mathlib.Data.List.Basic

namespace YangBinding.Text

variable {stop : Char → Bool}

theorem pieces_ne_nil (stop : Char → Bool) (cs : List Char) : pieces stop cs ≠ [] := by
  cases cs with
  | nil => simp [pieces]
  | cons c rest =>
      rw [pieces]
      split
      · simp
      · split <;> simp

theorem pieces_cons_of_not {c : Char} (h : ¬ stop c) {cs piece : List Char}
    {rest : List (List Char)} (hrest : pieces stop cs = piece :: rest) :
    pieces stop (c :: cs) = (c :: piece) :: rest := by
  rw [pieces, if_neg h, hrest]

-- A stop parts the pieces before it from those behind it.
theorem pieces_append_cons {c : Char} (h : stop c) (before after : List Char) :
    pieces stop (before ++ c :: after) = pieces stop before ++ pieces stop after := by
  induction before with
  | nil => simp [pieces, h]
  | cons first before ih =>
      rw [List.cons_append, pieces]
      by_cases hfirst : stop first
      · rw [if_pos hfirst, ih, pieces, if_pos hfirst, List.cons_append]
      · obtain ⟨piece, rest, heq⟩ := List.exists_cons_of_ne_nil (pieces_ne_nil stop before)
        rw [if_neg hfirst, ih, heq, List.cons_append, pieces_cons_of_not hfirst heq,
          List.cons_append]

theorem pieces_of_forall_not {cs : List Char} (h : ∀ c ∈ cs, ¬ stop c) :
    pieces stop cs = [cs] := by
  induction cs with
  | nil => rfl
  | cons c cs ih =>
      obtain ⟨hc, hcs⟩ := List.forall_mem_cons.mp h
      exact pieces_cons_of_not hc (ih hcs)

-- The characters of a text are those of its pieces and the stops between them.
theorem mem_of_mem_pieces {cs piece : List Char} (h : piece ∈ pieces stop cs) {c : Char}
    (hc : c ∈ piece) : c ∈ cs := by
  induction cs generalizing piece with
  | nil =>
      rw [pieces, List.mem_singleton] at h
      simp [h] at hc
  | cons first rest ih =>
      by_cases hfirst : stop first
      · rw [pieces, if_pos hfirst] at h
        rcases List.mem_cons.mp h with rfl | h
        · simp at hc
        · exact List.mem_cons_of_mem _ (ih h hc)
      · obtain ⟨head, more, heq⟩ := List.exists_cons_of_ne_nil (pieces_ne_nil stop rest)
        rw [pieces_cons_of_not hfirst heq] at h
        rw [heq] at ih
        rcases List.mem_cons.mp h with rfl | h
        · rcases List.mem_cons.mp hc with rfl | hc
          · exact List.mem_cons_self
          · exact List.mem_cons_of_mem _ (ih List.mem_cons_self hc)
        · exact List.mem_cons_of_mem _ (ih (List.mem_cons_of_mem _ h) hc)

theorem exists_piece_of_mem {cs : List Char} {c : Char} (h : c ∈ cs) (hc : ¬ stop c) :
    ∃ piece ∈ pieces stop cs, c ∈ piece := by
  induction cs with
  | nil => simp at h
  | cons first rest ih =>
      rcases List.mem_cons.mp h with rfl | h
      · obtain ⟨head, more, heq⟩ := List.exists_cons_of_ne_nil (pieces_ne_nil stop rest)
        exact ⟨_, by rw [pieces_cons_of_not hc heq]; exact List.mem_cons_self, List.mem_cons_self⟩
      · obtain ⟨piece, hpiece, hmem⟩ := ih h
        by_cases hfirst : stop first
        · rw [pieces, if_pos hfirst]
          exact ⟨piece, List.mem_cons_of_mem _ hpiece, hmem⟩
        · obtain ⟨head, more, heq⟩ := List.exists_cons_of_ne_nil (pieces_ne_nil stop rest)
          rw [pieces_cons_of_not hfirst heq]
          rw [heq] at hpiece
          rcases List.mem_cons.mp hpiece with rfl | hpiece
          · exact ⟨_, List.mem_cons_self, List.mem_cons_of_mem _ hmem⟩
          · exact ⟨piece, List.mem_cons_of_mem _ hpiece, hmem⟩

-- What is written behind a text without a stop goes to its last piece.
theorem pieces_append_of_forall_not {ending : List Char} (h : ∀ c ∈ ending, ¬ stop c)
    (cs : List Char) : ∃ init last, pieces stop cs = init ++ [last] ∧
      pieces stop (cs ++ ending) = init ++ [last ++ ending] := by
  induction cs with
  | nil => exact ⟨[], [], rfl, by rw [List.nil_append, pieces_of_forall_not h]; rfl⟩
  | cons first rest ih =>
      obtain ⟨init, last, hrest, hall⟩ := ih
      rw [List.cons_append]
      by_cases hfirst : stop first
      · rw [pieces, if_pos hfirst, hrest, pieces, if_pos hfirst, hall]
        exact ⟨[] :: init, last, rfl, rfl⟩
      · cases init with
        | nil =>
            rw [pieces_cons_of_not hfirst hrest, pieces_cons_of_not hfirst hall]
            exact ⟨[], first :: last, rfl, rfl⟩
        | cons piece init =>
            rw [pieces_cons_of_not hfirst hrest, pieces_cons_of_not hfirst hall]
            exact ⟨(first :: piece) :: init, last, rfl, rfl⟩

-- Cutting a text at a character and joining the pieces by it gives the text.
theorem intercalate_pieces (c : Char) (cs : List Char) :
    [c].intercalate (pieces (· == c) cs) = cs := by
  induction cs with
  | nil => rfl
  | cons first cs ih =>
      obtain ⟨piece, rest, heq⟩ := List.exists_cons_of_ne_nil (pieces_ne_nil (· == c) cs)
      rw [heq] at ih
      by_cases hfirst : first == c
      · rw [pieces, if_pos hfirst, heq, List.intercalate_cons_cons, ih, eq_of_beq hfirst,
          List.nil_append, List.singleton_append]
      · rw [pieces, if_neg hfirst, heq]
        cases rest with
        | nil => simpa using ih
        | cons next rest =>
            rw [List.intercalate_cons_cons] at ih ⊢
            rw [List.cons_append, List.cons_append, ih]

-- What was joined by a character comes apart again at it, where no part has it.
theorem pieces_intercalate {c : Char} {parts : List (List Char)} (hne : parts ≠ [])
    (h : ∀ part ∈ parts, c ∉ part) : pieces (· == c) ([c].intercalate parts) = parts := by
  induction parts with
  | nil => exact absurd rfl hne
  | cons part parts ih =>
      obtain ⟨hpart, hparts⟩ := List.forall_mem_cons.mp h
      have hplain : pieces (· == c) part = [part] :=
        pieces_of_forall_not fun d hd heq => hpart (eq_of_beq heq ▸ hd)
      cases parts with
      | nil => rw [List.intercalate_singleton, hplain]
      | cons next parts =>
          rw [List.intercalate_cons_cons, List.append_assoc, List.singleton_append,
            pieces_append_cons (by simp), hplain, ih (List.cons_ne_nil _ _) hparts,
            List.singleton_append]

end YangBinding.Text
