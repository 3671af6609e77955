import YangBinding.Json.Printer
import YangBinding.Json.Reader
import Mathlib.Data.List.Basic

namespace YangBinding.Json

section Strings

section Steps

variable {c e h₁ h₂ h₃ h₄ : Char} {unit : Nat}

-- What the reader does at the end of a string and at each form of a character.
theorem readString_quote (cs : List Char) (p : Position) :
    readString ('"' :: cs) p = .ok ([], ⟨cs, p.past '"'⟩) := by
  rw [readString]
  rfl

theorem readString_plain (hquote : c ≠ '"') (hslash : c ≠ '\\') (hcontrol : ¬ c.toNat < 0x20)
    (cs : List Char) (p : Position) : readString (c :: cs) p =
      (readString cs (p.past c)).map fun (text, k) => (c :: text, k) := by
  rw [readString, if_neg (mt beq_iff_eq.mp hquote), if_neg (mt beq_iff_eq.mp hslash),
    if_neg hcontrol]

theorem readString_letter (hescape : shortEscape? e = some c) (cs : List Char) (p : Position) :
    readString ('\\' :: e :: cs) p =
      (readString cs ((p.past '\\').past e)).map fun (text, k) => (c :: text, k) := by
  have hu : e ≠ 'u' := by
    rintro rfl
    simp [shortEscape?] at hescape
  rw [readString]
  simp [hu, hescape]

theorem readString_number (hunit : hexUnit? h₁ h₂ h₃ h₄ = some unit) (hlow : ¬ isLowSurrogate unit)
    (hhigh : ¬ isHighSurrogate unit) (cs : List Char) (p : Position) :
    readString ('\\' :: 'u' :: h₁ :: h₂ :: h₃ :: h₄ :: cs) p =
      (readString cs (((p.past '\\').past 'u').pastAll [h₁, h₂, h₃, h₄])).map
        fun (text, k) => (Char.ofNat unit :: text, k) := by
  rw [readString]
  simp [hunit, hlow, hhigh]

end Steps

-- How a character can be printed: by a letter, by its number, or as it is.
inductive Escape (c : Char) : List Char → Prop
  | letter {e} : shortEscape? e = some c → e ≠ 'u' → Escape c ['\\', e]
  | number : c.toNat < 0x20 → Escape c
      ['\\', 'u', '0', '0', Nat.digitChar (c.toNat / 16), Nat.digitChar (c.toNat % 16)]
  | plain : c ≠ '"' → c ≠ '\\' → ¬ c.toNat < 0x20 → Escape c [c]

theorem escape_escapeChar (c : Char) : Escape c (escapeChar c) := by
  unfold escapeChar
  by_cases hquote : c = '"'
  · subst hquote
    exact .letter (by decide) (by decide)
  by_cases hslash : c = '\\'
  · subst hslash
    exact .letter (by decide) (by decide)
  by_cases hback : c = '\x08'
  · subst hback
    exact .letter (by decide) (by decide)
  by_cases hfeed : c = '\x0c'
  · subst hfeed
    exact .letter (by decide) (by decide)
  by_cases hline : c = '\n'
  · subst hline
    exact .letter (by decide) (by decide)
  by_cases hreturn : c = '\r'
  · subst hreturn
    exact .letter (by decide) (by decide)
  by_cases htab : c = '\t'
  · subst htab
    exact .letter (by decide) (by decide)
  simp only [beq_eq_false_iff_ne.mpr hquote, beq_eq_false_iff_ne.mpr hslash,
    beq_eq_false_iff_ne.mpr hback, beq_eq_false_iff_ne.mpr hfeed, beq_eq_false_iff_ne.mpr hline,
    beq_eq_false_iff_ne.mpr hreturn, beq_eq_false_iff_ne.mpr htab, Bool.false_eq_true, if_false]
  by_cases hcontrol : c.toNat < 0x20
  · rw [if_pos hcontrol]
    exact .number hcontrol
  · rw [if_neg hcontrol]
    exact .plain hquote hslash hcontrol

theorem hexUnit?_digits {n : Nat} (h : n < 0x20) :
    hexUnit? '0' '0' (Nat.digitChar (n / 16)) (Nat.digitChar (n % 16)) = some n := by
  decide +revert

-- What is printed for a character is read as that character, whatever comes behind it.
theorem readString_escape {c : Char} {shown : List Char} (h : Escape c shown) (tail : List Char)
    (p : Position) : ∃ q, readString (shown ++ tail) p =
      (readString tail q).map fun (text, k) => (c :: text, k) := by
  cases h with
  | letter himage _ => exact ⟨_, readString_letter himage tail p⟩
  | number hcontrol =>
      have hlow : ¬ isLowSurrogate c.toNat := by
        simp only [isLowSurrogate, Bool.and_eq_true, decide_eq_true_eq]
        omega
      have hhigh : ¬ isHighSurrogate c.toNat := by
        simp only [isHighSurrogate, Bool.and_eq_true, decide_eq_true_eq]
        omega
      have hread := readString_number (hexUnit?_digits hcontrol) hlow hhigh tail p
      rw [Char.ofNat_toNat] at hread
      exact ⟨_, hread⟩
  | plain hquote hslash hcontrol => exact ⟨_, readString_plain hquote hslash hcontrol tail p⟩

theorem readString_flatMap_escapeChar (text rest : List Char) (p : Position) :
    ∃ q, readString (text.flatMap escapeChar ++ '"' :: rest) p = .ok (text, ⟨rest, q⟩) := by
  induction text generalizing p with
  | nil => exact ⟨_, readString_quote rest p⟩
  | cons c text ih =>
      rw [List.flatMap_cons, List.append_assoc]
      obtain ⟨next, hnext⟩ := readString_escape (escape_escapeChar c)
        (text.flatMap escapeChar ++ '"' :: rest) p
      obtain ⟨q, hq⟩ := ih next
      exact ⟨q, by rw [hnext, hq]; rfl⟩

theorem toList_literal (s : String) :
    (literal s).toList = '"' :: (s.toList.flatMap escapeChar ++ ['"']) := by
  simp [literal]

theorem string_literal (s : String) (rest : List Char) (p : Position) :
    ∃ q, Cursor.string ⟨(literal s).toList ++ rest, p⟩ = .ok (s, ⟨rest, q⟩) := by
  obtain ⟨q, hq⟩ := readString_flatMap_escapeChar s.toList rest (p.past '"')
  refine ⟨q, ?_⟩
  rw [toList_literal, List.cons_append, List.append_assoc, List.singleton_append]
  simp only [Cursor.string, Cursor.advance, hq, Except.map, String.ofList_toList]

end Strings

section Numbers

theorem digitValue_digitChar {n : Nat} (h : n < 10) : digitValue (Nat.digitChar n) = n := by
  rw [digitValue, Nat.toNat_digitChar_of_lt_ten h]
  omega

theorem appendDigits_append {bound n m : Nat} {front : List Char}
    (h : appendDigits bound n front = (m, [])) (back : List Char) :
    appendDigits bound n (front ++ back) = appendDigits bound m back := by
  induction front generalizing n with
  | nil =>
      rw [appendDigits] at h
      rw [List.nil_append, (Prod.mk.inj h).1]
  | cons c front ih =>
      rw [appendDigits] at h
      rw [List.cons_append, appendDigits]
      split at h
      · rename_i hbound
        rw [if_pos hbound]
        exact ih h
      · simp at h

-- The digits of a number below the bound are all taken.
theorem appendDigits_toDigits {bound n : Nat} (h : n < bound) :
    appendDigits bound 0 (Nat.toDigits 10 n) = (n, []) := by
  induction n using Nat.strongRecOn with
  | ind n ih =>
      by_cases hsmall : n < 10
      · rw [Nat.toDigits_of_lt_base hsmall, appendDigits, digitValue_digitChar hsmall]
        simp [appendDigits, h]
      · have hdigit : n % 10 < 10 := Nat.mod_lt n (by omega)
        have hsum : n / 10 * 10 + n % 10 = n := Nat.div_add_mod' n 10
        rw [Nat.toDigits_of_base_le (by omega) (by omega),
          appendDigits_append (ih (n / 10) (by omega) (by omega)), appendDigits,
          digitValue_digitChar hdigit, hsum, if_pos h, appendDigits]

-- Only zero starts with a zero.
theorem head?_toDigits_ne {n : Nat} (h : 0 < n) : (Nat.toDigits 10 n).head? ≠ some '0' := by
  induction n using Nat.strongRecOn with
  | ind n ih =>
      by_cases hsmall : n < 10
      · rw [Nat.toDigits_of_lt_base hsmall, List.head?_cons]
        intro heq
        have hvalue := digitValue_digitChar hsmall
        rw [Option.some.inj heq] at hvalue
        exact absurd hvalue.symm (Nat.ne_of_gt h)
      · rw [Nat.toDigits_of_base_le (by omega) (by omega),
          List.head?_append_of_ne_nil _ (List.ne_nil_of_length_pos Nat.length_toDigits_pos)]
        exact ih (n / 10) (by omega) (by omega)

-- What can come behind a printed value: nothing, a comma or a new line.
inductive Ends : List Char → Prop
  | nil : Ends []
  | comma {cs} : Ends (',' :: cs)
  | line {cs} : Ends ('\n' :: cs)

theorem exists_toDigits_eq_cons (n : Nat) : ∃ c cs, Nat.toDigits 10 n = c :: cs ∧ c.isDigit := by
  obtain ⟨c, cs, hcs⟩ := List.exists_cons_of_ne_nil
    (List.ne_nil_of_length_pos (Nat.length_toDigits_pos (b := 10) (n := n)))
  have hmem : c ∈ Nat.toDigits 10 n := by
    rw [hcs]
    exact List.mem_cons_self
  exact ⟨c, cs, hcs, Nat.isDigit_of_mem_toDigits (by omega) (by omega) hmem⟩

theorem digits_toDigits (n : Nat) {rest : List Char} (hrest : Ends rest) (p : Position) :
    ∃ q, Cursor.digits ⟨Nat.toDigits 10 n ++ rest, p⟩ = (Nat.toDigits 10 n, ⟨rest, q⟩) := by
  have hdigits : ∀ c ∈ Nat.toDigits 10 n, c.isDigit := fun c hc =>
    Nat.isDigit_of_mem_toDigits (by omega) (by omega) hc
  have htake : rest.takeWhile Char.isDigit = [] := by
    cases hrest <;> rfl
  have hdrop : rest.dropWhile Char.isDigit = rest := by
    cases hrest <;> rfl
  refine ⟨⟨p.line, p.column + (Nat.toDigits 10 n).length⟩, ?_⟩
  unfold Cursor.digits
  rw [List.takeWhile_append_of_pos hdigits, List.dropWhile_append_of_pos hdigits, htake, hdrop,
    List.append_nil]

-- A digit behind a leading zero would be a fault.
theorem leading_zero_alone {n : Nat} {c : Char} {cs rest : List Char}
    (h : Nat.toDigits 10 n = c :: cs) (hrest : Ends rest) :
    (c == '0' && ((cs ++ rest).head?.any Char.isDigit)) = false := by
  by_cases hn : 0 < n
  · have hne := head?_toDigits_ne hn
    rw [h, List.head?_cons] at hne
    have hc : c ≠ '0' := fun heq => hne (congrArg some heq)
    rw [beq_eq_false_iff_ne.mpr hc, Bool.false_and]
  · obtain rfl : n = 0 := by omega
    obtain ⟨rfl, rfl⟩ := List.cons.inj h
    cases hrest <;> rfl

theorem readNumber_toDigits {n : Nat} (h : n < significandBound) {rest : List Char}
    (hrest : Ends rest) (p : Position) :
    ∃ q, readNumber false ⟨Nat.toDigits 10 n ++ rest, p⟩ = .ok (.int n, ⟨rest, q⟩) := by
  obtain ⟨q, hq⟩ := digits_toDigits n hrest p
  have hall := appendDigits_toDigits h
  obtain ⟨c, cs, hcs, hdigit⟩ := exists_toDigits_eq_cons n
  have hzero := leading_zero_alone hcs hrest
  refine ⟨q, ?_⟩
  rw [hcs] at hq hall ⊢
  unfold readNumber
  simp only [List.cons_append] at hq ⊢
  simp only [hdigit, hzero, hq, hall, Bool.not_true, Bool.false_eq_true, if_false]
  cases hrest <;> rfl

end Numbers

section Gaps

-- Blanks as they stand between tokens.
def Gaps (cs : List Char) : Prop := ∀ c ∈ cs, Cursor.isGap c

theorem skipGaps_append {gaps : List Char} (hgaps : Gaps gaps) {c : Char}
    (hc : Cursor.isGap c = false) (cs : List Char) (p : Position) :
    ∃ q, Cursor.skipGaps ⟨gaps ++ c :: cs, p⟩ = ⟨c :: cs, q⟩ := by
  unfold Cursor.skipGaps
  induction gaps generalizing p with
  | nil => exact ⟨p, by simp [Cursor.skipGapsFrom, hc]⟩
  | cons gap gaps ih =>
      obtain ⟨hgap, hrest⟩ := List.forall_mem_cons.mp hgaps
      obtain ⟨q, hq⟩ := ih hrest (p.past gap)
      exact ⟨q, by rw [List.cons_append, ← hq]; simp [Cursor.skipGapsFrom, hgap]⟩

theorem skipGaps_cons {c : Char} (hc : Cursor.isGap c = false) (cs : List Char) (p : Position) :
    Cursor.skipGaps ⟨c :: cs, p⟩ = ⟨c :: cs, p⟩ := by
  simp [Cursor.skipGaps, Cursor.skipGapsFrom, hc]

variable {gaps : List Char} (hgaps : Gaps gaps) (fuel depth : Nat) (trail : Trail) (p : Position)
include hgaps

theorem readValue_scalar {c : Char} (hgap : Cursor.isGap c = false) (hlist : (c == '[') = false)
    (hobject : (c == '\x7b') = false) (cs : List Char) :
    ∃ q, readValue fuel depth trail ⟨gaps ++ c :: cs, p⟩ =
      onTrail trail (readScalar c ⟨c :: cs, q⟩) := by
  obtain ⟨q, hq⟩ := skipGaps_append hgaps hgap cs p
  refine ⟨q, ?_⟩
  cases depth with
  | zero =>
      rw [readValue]
      simp only [hq, hlist, hobject, Bool.false_eq_true, if_false]
  | succ depth =>
      rw [readValue]
      simp only [hq, hlist, hobject, Bool.false_eq_true, if_false]

theorem readValue_list (cs : List Char) :
    ∃ q, readValue fuel (depth + 1) trail ⟨gaps ++ '[' :: cs, p⟩ =
      (readElements (readValue fuel depth) trail fuel 0 ⟨cs, q⟩).map
        fun (items, k) => (.arr items, k) := by
  obtain ⟨q, hq⟩ := skipGaps_append hgaps (c := '[') rfl cs p
  refine ⟨q.past '[', ?_⟩
  rw [readValue]
  simp only [hq]
  rfl

theorem readValue_object (cs : List Char) :
    ∃ q, readValue fuel (depth + 1) trail ⟨gaps ++ '\x7b' :: cs, p⟩ =
      (readFields (readValue fuel depth) trail fuel true ⟨cs, q⟩).map
        fun (fields, k) => (.obj fields, k) := by
  obtain ⟨q, hq⟩ := skipGaps_append hgaps (c := '\x7b') rfl cs p
  refine ⟨q.past '\x7b', ?_⟩
  rw [readValue]
  simp only [hq]
  rfl

end Gaps

-- A text that is read as a value, with blanks in front of it and other tokens behind it.
structure Reads (fuel depth : Nat) (text : List Char) (v : Json) : Prop where
  opens : ∃ c cs, text = c :: cs ∧ Cursor.isGap c = false ∧ (c == ']') = false
  reads : ∀ gaps, Gaps gaps → ∀ rest, Ends rest → ∀ trail p,
    ∃ q, readValue fuel depth trail ⟨gaps ++ (text ++ rest), p⟩ = .ok (v, ⟨rest, q⟩)

theorem reads_literal (fuel depth : Nat) (s : String) :
    Reads fuel depth (literal s).toList (.str s) := by
  constructor
  · exact ⟨_, _, toList_literal s, rfl, rfl⟩
  · intro gaps hgaps rest _ trail p
    obtain ⟨next, hnext⟩ := readValue_scalar hgaps fuel depth trail p (c := '"') rfl rfl rfl
      (s.toList.flatMap escapeChar ++ ['"'] ++ rest)
    obtain ⟨q, hq⟩ := string_literal s rest next
    refine ⟨q, ?_⟩
    rw [toList_literal, List.cons_append] at hq ⊢
    have hscalar : readScalar '"' ⟨'"' :: (s.toList.flatMap escapeChar ++ ['"'] ++ rest), next⟩ =
        .ok (.str s, ⟨rest, q⟩) := by
      change Except.map _ (Cursor.string _) = _
      rw [hq]
      rfl
    rw [hnext, hscalar]
    rfl

theorem reads_toDigits (fuel depth : Nat) {n : Nat} (h : n < significandBound) :
    Reads fuel depth (Nat.toDigits 10 n) (.int n) := by
  obtain ⟨c, cs, hcs, hdigit⟩ := exists_toDigits_eq_cons n
  have hne {d : Char} (hd : d.isDigit = false) : (c == d) = false := by
    refine beq_eq_false_iff_ne.mpr fun heq => ?_
    rw [heq, hd] at hdigit
    exact nomatch hdigit
  have hgap : Cursor.isGap c = false := by
    rw [Cursor.isGap, hne rfl, hne rfl, hne rfl, hne rfl]
    rfl
  constructor
  · exact ⟨c, cs, hcs, hgap, hne rfl⟩
  · intro gaps hgaps rest hrest trail p
    obtain ⟨next, hnext⟩ := readValue_scalar hgaps fuel depth trail p hgap (hne rfl) (hne rfl)
      (cs ++ rest)
    obtain ⟨q, hq⟩ := readNumber_toDigits h hrest next
    refine ⟨q, ?_⟩
    rw [hcs, List.cons_append] at hq ⊢
    have hscalar : readScalar c ⟨c :: (cs ++ rest), next⟩ = .ok (.int n, ⟨rest, q⟩) := by
      rw [readScalar, hne rfl, hne rfl, hne rfl, hne rfl, hdigit]
      exact hq
    rw [hnext, hscalar]
    rfl

section Blocks

-- What stands behind an element of a container: the next one on its line after a comma, or the
-- closing bracket on a line of its own.
def moreLines (closing : List Char) : List (List Char) → List Char
  | [] => '\n' :: closing
  | line :: more => ',' :: '\n' :: (line ++ moreLines closing more)

-- What stands behind the opening bracket of a container.
def firstLines (indent closing : List Char) : List (List Char) → List Char
  | [] => closing
  | line :: more => '\n' :: (line ++ moreLines (indent ++ closing) more)

theorem ends_moreLines (closing rest : List Char) (lines : List (List Char)) :
    Ends (moreLines closing lines ++ rest) := by
  cases lines with
  | nil => exact .line
  | cons line more => exact .comma

-- A container takes a character for each line besides the line itself.
theorem length_le_length_firstLines (indent closing : List Char) (lines : List (List Char)) :
    lines.length + lines.flatten.length ≤ (firstLines indent closing lines).length := by
  have hmore (bracket : List Char) (more : List (List Char)) :
      more.length + more.flatten.length ≤ (moreLines bracket more).length := by
    induction more with
    | nil => exact Nat.zero_le _
    | cons line more ih =>
        simp only [moreLines, List.length_cons, List.flatten_cons, List.length_append]
        omega
  cases lines with
  | nil => exact Nat.zero_le _
  | cons line more =>
      have hrest := hmore (indent ++ closing) more
      simp only [firstLines, List.length_cons, List.flatten_cons, List.length_append]
      omega

theorem length_le_of_mem_lines (indent closing : List Char) {lines : List (List Char)}
    {line : List Char} (h : line ∈ lines) :
    line.length ≤ (firstLines indent closing lines).length := by
  have hline := (List.sublist_flatten_of_mem h).length_le
  have hlines := length_le_length_firstLines indent closing lines
  omega

theorem toList_intercalate (line closing : String) (more : List String) :
    (String.intercalate ",\n" (line :: more)).toList ++ '\n' :: closing.toList =
      line.toList ++ moreLines closing.toList (more.map String.toList) := by
  induction more generalizing line with
  | nil => simp [moreLines]
  | cons next more ih =>
      rw [List.map_cons, moreLines, ← ih next]
      simp

theorem toList_block (opening closing indent : String) (lines : List String) :
    (block opening closing indent lines).toList =
      opening.toList ++ firstLines indent.toList closing.toList (lines.map String.toList) := by
  cases lines with
  | nil => simp [block, firstLines]
  | cons line more =>
      have hlines := toList_intercalate line (indent ++ closing) more
      rw [String.toList_append] at hlines
      rw [List.map_cons, firstLines, ← hlines]
      simp [block]

theorem prettyItems_eq (indent : String) (items : List Json) :
    prettyItems indent items = items.map fun item => indent ++ pretty indent item := by
  induction items with
  | nil => rfl
  | cons item rest ih => rw [prettyItems, ih, List.map_cons]

theorem prettyFields_eq (indent : String) (fields : List (String × Json)) :
    prettyFields indent fields = fields.map fun field =>
      indent ++ literal field.1 ++ ": " ++ pretty indent field.2 := by
  induction fields with
  | nil => rfl
  | cons field rest ih => rw [prettyFields, ih, List.map_cons]

-- A field as it stands on its line.
def fieldText (text : Json → List Char) (field : String × Json) : List Char :=
  (literal field.1).toList ++ (':' :: ' ' :: text field.2)

theorem length_le_fieldText (text : Json → List Char) (field : String × Json) :
    (text field.2).length ≤ (fieldText text field).length := by
  simp only [fieldText, List.length_append, List.length_cons]
  omega

theorem toList_pretty_arr (indent : String) (items : List Json) :
    (pretty indent (.arr items)).toList = '[' :: firstLines indent.toList [']']
      (items.map fun item => (indent ++ "  ").toList ++ (pretty (indent ++ "  ") item).toList) := by
  rw [pretty, toList_block, prettyItems_eq, List.map_map]
  simp [Function.comp_def]

theorem toList_pretty_obj (indent : String) (fields : List (String × Json)) :
    (pretty indent (.obj fields)).toList = '\x7b' :: firstLines indent.toList ['\x7d']
      (fields.map fun field => (indent ++ "  ").toList ++
        fieldText (fun value => (pretty (indent ++ "  ") value).toList) field) := by
  rw [pretty, toList_block, prettyFields_eq, List.map_map]
  simp [Function.comp_def, fieldText]

end Blocks

section Lists

variable {read : Trail → Cursor → Except Refusal (Json × Cursor)} {trail : Trail}
  {fuel index : Nat} {k next after last : Cursor}

theorem readElements_step {item : Json} {items : List Json}
    (hnext : nextElement? trail (index == 0) k = .ok (some next))
    (hitem : read (.index index :: trail) next = .ok (item, after))
    (hitems : readElements read trail fuel (index + 1) after = .ok (items, last)) :
    readElements read trail (fuel + 1) index k = .ok (item :: items, last) := by
  rw [readElements, hnext]
  change (read (.index index :: trail) next >>= _) = _
  rw [hitem]
  change (readElements read trail fuel (index + 1) after >>= _) = _
  rw [hitems]
  rfl

variable {gaps : List Char} (hgaps : Gaps gaps) (p : Position)
include hgaps

theorem readElements_close (rest : List Char) :
    ∃ q, readElements read trail (fuel + 1) index ⟨gaps ++ ']' :: rest, p⟩ =
      .ok ([], ⟨rest, q⟩) := by
  obtain ⟨q, hq⟩ := skipGaps_append hgaps (c := ']') rfl rest p
  have hend : nextElement? trail (index == 0) ⟨gaps ++ ']' :: rest, p⟩ = .ok none := by
    rw [nextElement?, hq]
    rfl
  refine ⟨q.past ']', ?_⟩
  rw [readElements, hend, hq]
  rfl

theorem nextElement?_first {c : Char} (hgap : Cursor.isGap c = false) (hend : (c == ']') = false)
    (cs : List Char) :
    ∃ q, nextElement? trail true ⟨gaps ++ c :: cs, p⟩ = .ok (some ⟨c :: cs, q⟩) := by
  obtain ⟨q, hq⟩ := skipGaps_append hgaps hgap cs p
  refine ⟨q, ?_⟩
  rw [nextElement?, hq]
  simp [hend]

theorem nextElement?_comma {c : Char} (hgap : Cursor.isGap c = false) (hend : (c == ']') = false)
    (cs : List Char) :
    ∃ q, nextElement? trail false ⟨',' :: (gaps ++ c :: cs), p⟩ = .ok (some ⟨c :: cs, q⟩) := by
  obtain ⟨q, hq⟩ := skipGaps_append hgaps hgap cs (p.past ',')
  refine ⟨q, ?_⟩
  rw [nextElement?, skipGaps_cons rfl]
  simp [Cursor.advance, hq, hend]

end Lists

section Objects

variable {read : Trail → Cursor → Except Refusal (Json × Cursor)} {trail : Trail} {fuel : Nat}
  {first : Bool} {k key colon after last : Cursor}

theorem readFields_step {name : String} {value : Json} {fields : List (String × Json)}
    (hkey : nextKey? trail first k = .ok (some (name, key)))
    (hcolon : passColon trail key = .ok colon)
    (hvalue : read (.field name :: trail) colon = .ok (value, after))
    (hfields : readFields read trail fuel false after = .ok (fields, last)) :
    readFields read trail (fuel + 1) first k = .ok ((name, value) :: fields, last) := by
  rw [readFields, hkey]
  change (passColon trail key >>= _) = _
  rw [hcolon]
  change (read (.field name :: trail) colon >>= _) = _
  rw [hvalue]
  change (readFields read trail fuel false after >>= _) = _
  rw [hfields]
  rfl

theorem passColon_colon (cs : List Char) (p : Position) :
    passColon trail ⟨':' :: cs, p⟩ = .ok ⟨cs, p.past ':'⟩ := by
  rw [passColon, skipGaps_cons rfl]
  rfl

variable {gaps : List Char} (hgaps : Gaps gaps) (p : Position)
include hgaps

theorem readFields_close (rest : List Char) :
    ∃ q, readFields read trail (fuel + 1) first ⟨gaps ++ '\x7d' :: rest, p⟩ =
      .ok ([], ⟨rest, q⟩) := by
  obtain ⟨q, hq⟩ := skipGaps_append hgaps (c := '\x7d') rfl rest p
  have hend : nextKey? trail first ⟨gaps ++ '\x7d' :: rest, p⟩ = .ok none := by
    rw [nextKey?, hq]
    rfl
  refine ⟨q.past '\x7d', ?_⟩
  rw [readFields, hend, hq]
  rfl

theorem nextKey?_first (name : String) (cs : List Char) :
    ∃ q, nextKey? trail true ⟨gaps ++ ((literal name).toList ++ cs), p⟩ =
      .ok (some (name, ⟨cs, q⟩)) := by
  obtain ⟨body, hbody⟩ : ∃ body, (literal name).toList = '"' :: body := ⟨_, toList_literal name⟩
  obtain ⟨next, hnext⟩ := skipGaps_append hgaps (c := '"') rfl (body ++ cs) p
  obtain ⟨q, hq⟩ := string_literal name cs next
  refine ⟨q, ?_⟩
  rw [hbody, List.cons_append] at hq ⊢
  rw [nextKey?, hnext]
  simp [hq, onTrail, Except.map, Except.mapError]

theorem nextKey?_comma (name : String) (cs : List Char) :
    ∃ q, nextKey? trail false ⟨',' :: (gaps ++ ((literal name).toList ++ cs)), p⟩ =
      .ok (some (name, ⟨cs, q⟩)) := by
  obtain ⟨body, hbody⟩ : ∃ body, (literal name).toList = '"' :: body := ⟨_, toList_literal name⟩
  obtain ⟨next, hnext⟩ := skipGaps_append hgaps (c := '"') rfl (body ++ cs) (p.past ',')
  obtain ⟨q, hq⟩ := string_literal name cs next
  refine ⟨q, ?_⟩
  rw [hbody, List.cons_append] at hq ⊢
  rw [nextKey?, skipGaps_cons rfl]
  simp [Cursor.advance, hnext, hq, onTrail, Except.map, Except.mapError]

end Objects

section Reading

variable {fuel depth : Nat} {inner outer : List Char} (hinner : Gaps inner) (houter : Gaps outer)
include hinner houter

-- The induction is on the elements that are left.
theorem readElements_moreLines {text : Json → List Char} {items : List Json}
    (hitems : ∀ item ∈ items, Reads fuel depth (text item) item) {bound : Nat}
    (hbound : items.length < bound) (index : Nat) (rest : List Char) (trail : Trail)
    (p : Position) : ∃ q, readElements (readValue fuel depth) trail bound (index + 1)
        ⟨moreLines (outer ++ [']']) (items.map fun item => inner ++ text item) ++ rest, p⟩ =
      .ok (items, ⟨rest, q⟩) := by
  induction items generalizing bound index p with
  | nil =>
      obtain ⟨bound, rfl⟩ := Nat.exists_eq_add_of_lt hbound
      have hgaps : Gaps ('\n' :: outer) := List.forall_mem_cons.mpr ⟨rfl, houter⟩
      rw [List.map_nil, moreLines, List.cons_append, List.append_assoc, List.singleton_append]
      exact readElements_close hgaps p rest
  | cons item items ih =>
      obtain ⟨hitem, hmore⟩ := List.forall_mem_cons.mp hitems
      obtain ⟨c, cs, htext, hgap, hend⟩ := hitem.opens
      obtain ⟨bound, rfl⟩ : ∃ more, bound = more + 1 := ⟨bound - 1, by omega⟩
      have hgaps : Gaps ('\n' :: inner) := List.forall_mem_cons.mpr ⟨rfl, hinner⟩
      rw [List.map_cons, moreLines, htext]
      simp only [List.cons_append, List.append_assoc]
      obtain ⟨start, hstart⟩ := nextElement?_comma hgaps p hgap hend
        (cs ++ (moreLines (outer ++ [']']) (items.map fun item => inner ++ text item) ++ rest))
      obtain ⟨next, hnext⟩ := hitem.reads [] (List.forall_mem_nil _) _
        (ends_moreLines (outer ++ [']']) rest (items.map fun item => inner ++ text item))
        (.index (index + 1) :: trail) start
      obtain ⟨q, hq⟩ := ih hmore (Nat.lt_of_succ_lt_succ hbound) (index + 1) next
      rw [htext] at hnext
      exact ⟨q, readElements_step hstart hnext hq⟩

theorem readElements_firstLines {text : Json → List Char} {items : List Json}
    (hitems : ∀ item ∈ items, Reads fuel depth (text item) item) {bound : Nat}
    (hbound : items.length < bound) (rest : List Char) (trail : Trail) (p : Position) :
    ∃ q, readElements (readValue fuel depth) trail bound 0
        ⟨firstLines outer [']'] (items.map fun item => inner ++ text item) ++ rest, p⟩ =
      .ok (items, ⟨rest, q⟩) := by
  obtain ⟨bound, rfl⟩ : ∃ more, bound = more + 1 := ⟨bound - 1, by omega⟩
  cases items with
  | nil => exact readElements_close (List.forall_mem_nil _) p rest
  | cons item items =>
      obtain ⟨hitem, hmore⟩ := List.forall_mem_cons.mp hitems
      obtain ⟨c, cs, htext, hgap, hend⟩ := hitem.opens
      have hgaps : Gaps ('\n' :: inner) := List.forall_mem_cons.mpr ⟨rfl, hinner⟩
      rw [List.map_cons, firstLines, htext]
      simp only [List.cons_append, List.append_assoc]
      obtain ⟨start, hstart⟩ := nextElement?_first hgaps p hgap hend
        (cs ++ (moreLines (outer ++ [']']) (items.map fun item => inner ++ text item) ++ rest))
      obtain ⟨next, hnext⟩ := hitem.reads [] (List.forall_mem_nil _) _
        (ends_moreLines (outer ++ [']']) rest (items.map fun item => inner ++ text item))
        (.index 0 :: trail) start
      obtain ⟨q, hq⟩ := readElements_moreLines hinner houter hmore
        (Nat.lt_of_succ_lt_succ hbound) 0 rest trail next
      rw [htext] at hnext
      exact ⟨q, readElements_step hstart hnext hq⟩

theorem readFields_moreLines {text : Json → List Char} {fields : List (String × Json)}
    (hfields : ∀ field ∈ fields, Reads fuel depth (text field.2) field.2) {bound : Nat}
    (hbound : fields.length < bound) (rest : List Char) (trail : Trail) (p : Position) :
    ∃ q, readFields (readValue fuel depth) trail bound false
        ⟨moreLines (outer ++ ['\x7d']) (fields.map fun field => inner ++ fieldText text field) ++
          rest, p⟩ = .ok (fields, ⟨rest, q⟩) := by
  induction fields generalizing bound p with
  | nil =>
      obtain ⟨bound, rfl⟩ := Nat.exists_eq_add_of_lt hbound
      have hgaps : Gaps ('\n' :: outer) := List.forall_mem_cons.mpr ⟨rfl, houter⟩
      rw [List.map_nil, moreLines, List.cons_append, List.append_assoc, List.singleton_append]
      exact readFields_close hgaps p rest
  | cons field fields ih =>
      obtain ⟨hfield, hmore⟩ := List.forall_mem_cons.mp hfields
      obtain ⟨bound, rfl⟩ : ∃ more, bound = more + 1 := ⟨bound - 1, by omega⟩
      have hgaps : Gaps ('\n' :: inner) := List.forall_mem_cons.mpr ⟨rfl, hinner⟩
      have hspace : Gaps [' '] := List.forall_mem_singleton.mpr rfl
      have hends := ends_moreLines (outer ++ ['\x7d']) rest
        (fields.map fun field => inner ++ fieldText text field)
      rw [List.map_cons, moreLines, fieldText]
      simp only [List.cons_append, List.append_assoc]
      obtain ⟨key, hkey⟩ := nextKey?_comma hgaps p field.1 (':' :: ' ' :: (text field.2 ++
        (moreLines (outer ++ ['\x7d']) (fields.map fun field => inner ++ fieldText text field) ++
          rest)))
      obtain ⟨next, hnext⟩ := hfield.reads [' '] hspace _ hends (.field field.1 :: trail)
        (key.past ':')
      obtain ⟨q, hq⟩ := ih hmore (Nat.lt_of_succ_lt_succ hbound) next
      exact ⟨q, readFields_step hkey (passColon_colon _ _) hnext hq⟩

theorem readFields_firstLines {text : Json → List Char} {fields : List (String × Json)}
    (hfields : ∀ field ∈ fields, Reads fuel depth (text field.2) field.2) {bound : Nat}
    (hbound : fields.length < bound) (rest : List Char) (trail : Trail) (p : Position) :
    ∃ q, readFields (readValue fuel depth) trail bound true
        ⟨firstLines outer ['\x7d'] (fields.map fun field => inner ++ fieldText text field) ++
          rest, p⟩ = .ok (fields, ⟨rest, q⟩) := by
  obtain ⟨bound, rfl⟩ : ∃ more, bound = more + 1 := ⟨bound - 1, by omega⟩
  cases fields with
  | nil => exact readFields_close (List.forall_mem_nil _) p rest
  | cons field fields =>
      obtain ⟨hfield, hmore⟩ := List.forall_mem_cons.mp hfields
      have hgaps : Gaps ('\n' :: inner) := List.forall_mem_cons.mpr ⟨rfl, hinner⟩
      have hspace : Gaps [' '] := List.forall_mem_singleton.mpr rfl
      have hends := ends_moreLines (outer ++ ['\x7d']) rest
        (fields.map fun field => inner ++ fieldText text field)
      rw [List.map_cons, firstLines, fieldText]
      simp only [List.cons_append, List.append_assoc]
      obtain ⟨key, hkey⟩ := nextKey?_first hgaps p field.1 (':' :: ' ' :: (text field.2 ++
        (moreLines (outer ++ ['\x7d']) (fields.map fun field => inner ++ fieldText text field) ++
          rest)))
      obtain ⟨next, hnext⟩ := hfield.reads [' '] hspace _ hends (.field field.1 :: trail)
        (key.past ':')
      obtain ⟨q, hq⟩ := readFields_moreLines hinner houter hmore (Nat.lt_of_succ_lt_succ hbound)
        rest trail next
      exact ⟨q, readFields_step hkey (passColon_colon _ _) hnext hq⟩

theorem reads_arr {text : Json → List Char} {items : List Json}
    (hitems : ∀ item ∈ items, Reads fuel depth (text item) item) (hbound : items.length < fuel) :
    Reads fuel (depth + 1)
      ('[' :: firstLines outer [']'] (items.map fun item => inner ++ text item)) (.arr items) := by
  constructor
  · exact ⟨_, _, rfl, rfl, rfl⟩
  · intro gaps hgaps rest _ trail p
    rw [List.cons_append]
    obtain ⟨next, hnext⟩ := readValue_list hgaps fuel depth trail p
      (firstLines outer [']'] (items.map fun item => inner ++ text item) ++ rest)
    obtain ⟨q, hq⟩ := readElements_firstLines hinner houter hitems hbound rest trail next
    exact ⟨q, by rw [hnext, hq]; rfl⟩

theorem reads_obj {text : Json → List Char} {fields : List (String × Json)}
    (hfields : ∀ field ∈ fields, Reads fuel depth (text field.2) field.2)
    (hbound : fields.length < fuel) :
    Reads fuel (depth + 1)
      ('\x7b' :: firstLines outer ['\x7d'] (fields.map fun field => inner ++ fieldText text field))
      (.obj fields) := by
  constructor
  · exact ⟨_, _, rfl, rfl, rfl⟩
  · intro gaps hgaps rest _ trail p
    rw [List.cons_append]
    obtain ⟨next, hnext⟩ := readValue_object hgaps fuel depth trail p
      (firstLines outer ['\x7d'] (fields.map fun field => inner ++ fieldText text field) ++ rest)
    obtain ⟨q, hq⟩ := readFields_firstLines hinner houter hfields hbound rest trail next
    exact ⟨q, by rw [hnext, hq]; rfl⟩

end Reading

-- Values of strings and counts, with containers nested so deep at most.
inductive Plain : Nat → Json → Prop
  | str {depth} (s : String) : Plain depth (.str s)
  | int {depth} {n : Nat} : n < significandBound → Plain depth (.int n)
  | arr {depth items} : (∀ item ∈ items, Plain depth item) → Plain (depth + 1) (.arr items)
  | obj {depth fields} : (∀ field ∈ fields, Plain depth (Prod.snd field)) →
      Plain (depth + 1) (.obj fields)

theorem toList_pretty_int (indent : String) (n : Nat) :
    (pretty indent (.int n)).toList = Nat.toDigits 10 n := by
  rw [pretty, compact]
  · exact Nat.toList_repr
  all_goals exact fun _ => nofun

theorem gaps_deeper {indent : String} (h : Gaps indent.toList) : Gaps (indent ++ "  ").toList := by
  have htwo : Gaps [' ', ' '] := List.forall_mem_cons.mpr ⟨rfl, List.forall_mem_singleton.mpr rfl⟩
  rw [String.toList_append]
  exact List.forall_mem_append.mpr ⟨h, htwo⟩

-- The induction is on the value. The fuel is the same for all that is inside it, so each part has
-- to be no longer than the whole.
theorem reads_pretty {fuel depth : Nat} {v : Json} (h : Plain depth v) {indent : String}
    (hindent : Gaps indent.toList) (hfuel : (pretty indent v).toList.length < fuel) :
    Reads fuel depth (pretty indent v).toList v := by
  induction h generalizing indent with
  | str s => exact reads_literal _ _ s
  | int hn =>
      rw [toList_pretty_int]
      exact reads_toDigits _ _ hn
  | @arr depth items _ ih =>
      rw [toList_pretty_arr] at hfuel ⊢
      rw [List.length_cons] at hfuel
      refine reads_arr (gaps_deeper hindent) hindent (fun item hitem => ?_) ?_
      · have hline := length_le_of_mem_lines indent.toList [']'] (List.mem_map_of_mem
          (f := fun item => (indent ++ "  ").toList ++ (pretty (indent ++ "  ") item).toList) hitem)
        rw [List.length_append] at hline
        exact ih item hitem (gaps_deeper hindent) (by omega)
      · have hlines := length_le_length_firstLines indent.toList [']'] (items.map fun item =>
          (indent ++ "  ").toList ++ (pretty (indent ++ "  ") item).toList)
        rw [List.length_map] at hlines
        omega
  | @obj depth fields _ ih =>
      rw [toList_pretty_obj] at hfuel ⊢
      rw [List.length_cons] at hfuel
      refine reads_obj (gaps_deeper hindent) hindent (fun field hfield => ?_) ?_
      · have hline := length_le_of_mem_lines indent.toList ['\x7d'] (List.mem_map_of_mem
          (f := fun field => (indent ++ "  ").toList ++
            fieldText (fun value => (pretty (indent ++ "  ") value).toList) field) hfield)
        have hvalue := length_le_fieldText
          (fun value => (pretty (indent ++ "  ") value).toList) field
        rw [List.length_append] at hline
        exact ih field hfield (gaps_deeper hindent) (by omega)
      · have hlines := length_le_length_firstLines indent.toList ['\x7d'] (fields.map fun field =>
          (indent ++ "  ").toList ++
            fieldText (fun value => (pretty (indent ++ "  ") value).toList) field)
        rw [List.length_map] at hlines
        omega

theorem parse_pretty {v : Json} (h : Plain depthLimit v) : parse (pretty "" v) = .ok v := by
  have hfuel : (pretty "" v).toList.length < (pretty "" v).length + 1 := by
    rw [String.length_toList]
    exact Nat.lt_succ_self _
  have hnone : Gaps [] := List.forall_mem_nil _
  have hreads : Reads ((pretty "" v).length + 1) depthLimit (pretty "" v).toList v :=
    reads_pretty h hnone hfuel
  obtain ⟨q, hq⟩ := hreads.reads [] hnone [] .nil [] .start
  rw [List.nil_append, List.append_nil] at hq
  rw [parse, Cursor.ofText, hq]
  rfl

end YangBinding.Json
