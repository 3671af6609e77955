import YangBinding.Proofs.Json.Numeral
import YangBinding.Proofs.Outcome

namespace YangBinding.Json

section Strings

-- How a string is spelled behind its opening quote, up to and including the closing one.
inductive SpellsString : List Char → List Char → Prop
  | close : SpellsString [] ['"']
  | plain {c text body} : c ≠ '"' → c ≠ '\\' → ¬ c.toNat < 0x20 → SpellsString text body →
      SpellsString (c :: text) (c :: body)
  | letter {e c text body} : shortEscape? e = some c → SpellsString text body →
      SpellsString (c :: text) ('\\' :: e :: body)
  | number {h₁ h₂ h₃ h₄ unit text body} : hexUnit? h₁ h₂ h₃ h₄ = some unit →
      ¬ isLowSurrogate unit → ¬ isHighSurrogate unit → SpellsString text body →
      SpellsString (Char.ofNat unit :: text) ('\\' :: 'u' :: h₁ :: h₂ :: h₃ :: h₄ :: body)
  | pair {h₁ h₂ h₃ h₄ high l₁ l₂ l₃ l₄ low text body} : hexUnit? h₁ h₂ h₃ h₄ = some high →
      isHighSurrogate high → hexUnit? l₁ l₂ l₃ l₄ = some low → isLowSurrogate low →
      SpellsString text body →
      SpellsString (joinSurrogates high low :: text)
        ('\\' :: 'u' :: h₁ :: h₂ :: h₃ :: h₄ :: '\\' :: 'u' :: l₁ :: l₂ :: l₃ :: l₄ :: body)

-- A character that may stand for itself.
def isPlain (c : Char) : Bool := c != '"' && c != '\\' && !decide (c.toNat < 0x20)

theorem SpellsString.of_isPlain (text : List Char) (h : text.all isPlain) :
    SpellsString text (text ++ ['"']) := by
  induction text with
  | nil => exact .close
  | cons c text ih =>
      rw [List.all_cons, Bool.and_eq_true] at h
      obtain ⟨hc, htext⟩ := h
      simp only [isPlain, Bool.and_eq_true, bne_iff_ne, Bool.not_eq_true', decide_eq_false_iff_not]
        at hc
      obtain ⟨⟨hquote, hslash⟩, hcontrol⟩ := hc
      exact .plain hquote hslash hcontrol (ih htext)

theorem not_isLowSurrogate_of_isHighSurrogate {n : Nat} (h : isHighSurrogate n) :
    isLowSurrogate n = false := by
  simp only [isHighSurrogate, Bool.and_eq_true, decide_eq_true_eq] at h
  simp only [isLowSurrogate, Bool.and_eq_false_iff, decide_eq_false_iff_not]
  omega

section Steps

variable {c e h₁ h₂ h₃ h₄ l₁ l₂ l₃ l₄ : Char} {high low : Nat} {cs text : List Char}
  {p : Position} {k : Cursor}

theorem map_cons_eq_ok_iff {result : Except Fault (List Char × Cursor)} :
    (result.map fun (text, k) => (c :: text, k)) = .ok (text, k) ↔
      ∃ tail, result = .ok (tail, k) ∧ text = c :: tail := by
  rw [Except.map_eq_ok_iff]
  constructor
  · rintro ⟨⟨tail, k'⟩, hresult, heq⟩
    obtain ⟨rfl, rfl⟩ := Prod.mk.inj heq
    exact ⟨tail, hresult, rfl⟩
  · rintro ⟨tail, hresult, rfl⟩
    exact ⟨(tail, k), hresult, rfl⟩

theorem readString_pair (hunit : hexUnit? h₁ h₂ h₃ h₄ = some high) (hhigh : isHighSurrogate high)
    (hunit' : hexUnit? l₁ l₂ l₃ l₄ = some low) (hlow : isLowSurrogate low) (cs : List Char)
    (p : Position) :
    readString ('\\' :: 'u' :: h₁ :: h₂ :: h₃ :: h₄ ::
        '\\' :: 'u' :: l₁ :: l₂ :: l₃ :: l₄ :: cs) p =
      (readString cs (((((p.past '\\').past 'u').pastAll [h₁, h₂, h₃, h₄]).past '\\').past
        'u' |>.pastAll [l₁, l₂, l₃, l₄])).map
          fun (text, k) => (joinSurrogates high low :: text, k) := by
  rw [readString]
  simp [hunit, not_isLowSurrogate_of_isHighSurrogate hhigh, hhigh, hunit', hlow]

-- Behind `\u` stands the number of a unit, and the unit is not the second of a pair.
theorem unit_of_readString (h : readString ('\\' :: 'u' :: cs) p = .ok (text, k)) :
    ∃ h₁ h₂ h₃ h₄ unit rest, cs = h₁ :: h₂ :: h₃ :: h₄ :: rest ∧
      hexUnit? h₁ h₂ h₃ h₄ = some unit ∧ ¬ isLowSurrogate unit := by
  rw [readString] at h
  rcases cs with _ | ⟨h₁, _ | ⟨h₂, _ | ⟨h₃, _ | ⟨h₄, rest⟩⟩⟩⟩
  iterate 4 simp at h
  cases hunit : hexUnit? h₁ h₂ h₃ h₄ with
  | none => simp [hunit] at h
  | some unit =>
      refine ⟨h₁, h₂, h₃, h₄, unit, rest, rfl, hunit, fun hlow => ?_⟩
      simp [hunit, hlow] at h

-- Behind the first unit of a pair stands the second.
theorem low_of_readString (hunit : hexUnit? h₁ h₂ h₃ h₄ = some high) (hhigh : isHighSurrogate high)
    (h : readString ('\\' :: 'u' :: h₁ :: h₂ :: h₃ :: h₄ :: cs) p = .ok (text, k)) :
    ∃ l₁ l₂ l₃ l₄ low rest, cs = '\\' :: 'u' :: l₁ :: l₂ :: l₃ :: l₄ :: rest ∧
      hexUnit? l₁ l₂ l₃ l₄ = some low ∧ isLowSurrogate low := by
  rw [readString] at h
  simp only [Char.reduceBEq, Bool.false_eq_true, if_false, if_true, hunit,
    not_isLowSurrogate_of_isHighSurrogate hhigh, hhigh] at h
  rcases cs with _ | ⟨b, _ | ⟨u, cs⟩⟩
  · cases h
  · by_cases hb : b = '\\' <;> simp [hb] at h
  obtain rfl : b = '\\' := by
    by_contra hb
    simp [hb] at h
  obtain rfl : u = 'u' := by
    by_contra hu
    simp [hu] at h
  rcases cs with _ | ⟨l₁, _ | ⟨l₂, _ | ⟨l₃, _ | ⟨l₄, rest⟩⟩⟩⟩
  iterate 4 simp at h
  cases hunit' : hexUnit? l₁ l₂ l₃ l₄ with
  | none => simp [hunit'] at h
  | some low =>
      refine ⟨l₁, l₂, l₃, l₄, low, rest, rfl, hunit', ?_⟩
      by_contra hlow
      simp [hunit', hlow] at h

theorem shortEscape_of_readString (hu : e ≠ 'u')
    (h : readString ('\\' :: e :: cs) p = .ok (text, k)) : ∃ c, shortEscape? e = some c := by
  rw [readString] at h
  cases hescape : shortEscape? e with
  | none => simp [hu, hescape] at h
  | some c => exact ⟨c, rfl⟩

theorem not_control_of_readString (hquote : c ≠ '"') (hslash : c ≠ '\\')
    (h : readString (c :: cs) p = .ok (text, k)) : ¬ c.toNat < 0x20 := by
  intro hcontrol
  rw [readString] at h
  simp [hquote, hslash, hcontrol] at h

-- The reader takes what spells one character, and goes on behind it.
def TakesChar (cs text : List Char) (k : Cursor) : Prop :=
  ∃ spelled rest q tail, cs = spelled ++ rest ∧ spelled ≠ [] ∧ readString rest q = .ok (tail, k) ∧
    ∀ {body}, SpellsString tail body → SpellsString text (spelled ++ body)

theorem takesChar_of_backslash (h : readString ('\\' :: cs) p = .ok (text, k)) :
    TakesChar ('\\' :: cs) text k := by
  cases cs with
  | nil => cases h
  | cons e cs =>
      by_cases hu : e = 'u'
      · subst hu
        obtain ⟨h₁, h₂, h₃, h₄, unit, rest, rfl, hunit, hlow⟩ := unit_of_readString h
        by_cases hhigh : isHighSurrogate unit
        · obtain ⟨l₁, l₂, l₃, l₄, low, rest, rfl, hunit', hlow'⟩ := low_of_readString hunit hhigh h
          rw [readString_pair hunit hhigh hunit' hlow'] at h
          obtain ⟨tail, htail, rfl⟩ := map_cons_eq_ok_iff.mp h
          exact ⟨['\\', 'u', h₁, h₂, h₃, h₄, '\\', 'u', l₁, l₂, l₃, l₄], rest, _, tail, rfl, nofun,
            htail, .pair hunit hhigh hunit' hlow'⟩
        · rw [readString_number hunit hlow hhigh] at h
          obtain ⟨tail, htail, rfl⟩ := map_cons_eq_ok_iff.mp h
          exact ⟨['\\', 'u', h₁, h₂, h₃, h₄], rest, _, tail, rfl, nofun, htail,
            .number hunit hlow hhigh⟩
      · obtain ⟨c, hescape⟩ := shortEscape_of_readString hu h
        rw [readString_letter hescape] at h
        obtain ⟨tail, htail, rfl⟩ := map_cons_eq_ok_iff.mp h
        exact ⟨['\\', e], cs, _, tail, rfl, nofun, htail, .letter hescape⟩

theorem takesChar_of_readString (hquote : c ≠ '"') (h : readString (c :: cs) p = .ok (text, k)) :
    TakesChar (c :: cs) text k := by
  by_cases hslash : c = '\\'
  · subst hslash
    exact takesChar_of_backslash h
  · have hcontrol := not_control_of_readString hquote hslash h
    rw [readString_plain hquote hslash hcontrol] at h
    obtain ⟨tail, htail, rfl⟩ := map_cons_eq_ok_iff.mp h
    exact ⟨[c], cs, _, tail, rfl, nofun, htail, .plain hquote hslash hcontrol⟩

end Steps

theorem readString_of_spells {text body : List Char} (h : SpellsString text body)
    (more : List Char) (p : Position) :
    ∃ q, readString (body ++ more) p = .ok (text, ⟨more, q⟩) := by
  induction h generalizing p with
  | close => exact ⟨_, readString_quote more p⟩
  | plain hquote hslash hcontrol _ ih =>
      obtain ⟨q, hq⟩ := ih _
      exact ⟨q, (readString_plain hquote hslash hcontrol _ _).trans (congrArg (Except.map _) hq)⟩
  | letter hescape _ ih =>
      obtain ⟨q, hq⟩ := ih _
      exact ⟨q, (readString_letter hescape _ _).trans (congrArg (Except.map _) hq)⟩
  | number hunit hlow hhigh _ ih =>
      obtain ⟨q, hq⟩ := ih _
      exact ⟨q, (readString_number hunit hlow hhigh _ _).trans (congrArg (Except.map _) hq)⟩
  | pair hunit hhigh hunit' hlow _ ih =>
      obtain ⟨q, hq⟩ := ih _
      exact ⟨q, (readString_pair hunit hhigh hunit' hlow _ _).trans (congrArg (Except.map _) hq)⟩

-- The induction is on the length, since a character may take more than one.
theorem spells_of_readString {cs text : List Char} {p : Position} {k : Cursor}
    (h : readString cs p = .ok (text, k)) :
    ∃ body, cs = body ++ k.rest ∧ SpellsString text body := by
  induction hlength : cs.length using Nat.strongRecOn generalizing cs text p with
  | ind n ih =>
      cases cs with
      | nil => cases h
      | cons c cs =>
          by_cases hquote : c = '"'
          · subst hquote
            cases (readString_quote cs p).symm.trans h
            exact ⟨['"'], rfl, .close⟩
          · obtain ⟨spelled, rest, q, tail, heq, hne, htail, hspells⟩ :=
              takesChar_of_readString hquote h
            have hshorter : rest.length < n := by
              have hpos := List.length_pos_of_ne_nil hne
              rw [← hlength, heq, List.length_append]
              omega
            obtain ⟨body, rfl, hbody⟩ := ih rest.length hshorter htail rfl
            exact ⟨spelled ++ body, by rw [heq, List.append_assoc], hspells hbody⟩

theorem string_of_spells {text body : List Char} (h : SpellsString text body) (more : List Char)
    (p : Position) :
    ∃ q, Cursor.string ⟨'"' :: (body ++ more), p⟩ = .ok (String.ofList text, ⟨more, q⟩) := by
  obtain ⟨q, hq⟩ := readString_of_spells h more (p.past '"')
  exact ⟨q, by simp only [Cursor.string, Cursor.advance, hq, Except.map]⟩

theorem spells_of_string {cs : List Char} {p : Position} {s : String} {k : Cursor}
    (h : Cursor.string ⟨'"' :: cs, p⟩ = .ok (s, k)) :
    ∃ text body, s = String.ofList text ∧ cs = body ++ k.rest ∧ SpellsString text body := by
  obtain ⟨⟨text, k'⟩, hread, heq⟩ := Except.map_eq_ok_iff.mp h
  obtain ⟨rfl, rfl⟩ := Prod.mk.inj heq
  obtain ⟨body, hbody, hs⟩ := spells_of_readString hread
  exact ⟨text, body, rfl, hbody, hs⟩

end Strings

section Scalars

def signText (negative : Bool) : List Char := if negative then ['-'] else []

-- The values that are no containers.
inductive SpellsScalar : Json → List Char → Prop
  | null : SpellsScalar .null ['n', 'u', 'l', 'l']
  | yes : SpellsScalar (.bool true) ['t', 'r', 'u', 'e']
  | no : SpellsScalar (.bool false) ['f', 'a', 'l', 's', 'e']
  | number {negative v} {n : Numeral} : n.value? negative = some v →
      SpellsScalar v (signText negative ++ n.text)
  | string {text body} : SpellsString text body →
      SpellsScalar (.str (String.ofList text)) ('"' :: body)

-- Whether a character behind a number would be taken for a part of it.
def continuesNumber (body : List Char) (c : Char) : Bool :=
  c.isDigit || (!body.any isMark && (isMark c || (!body.contains '.' && c == '.')))

def startsNumber (c : Char) : Bool := c == '-' || c.isDigit

-- What stands behind a value is no part of it. Only a number does not tell where it ends.
def Stops (body more : List Char) : Prop :=
  body.head?.any startsNumber → NotNext (continuesNumber body) more

theorem isMark_eq_false_of_isDigit {c : Char} (h : c.isDigit) : isMark c = false := by
  by_contra hmark
  rw [Bool.not_eq_false] at hmark
  rw [isDigit_eq_false_of_isMark hmark] at h
  exact nomatch h

theorem Digits.any_isMark {ds : List Char} (h : Digits ds) : ds.any isMark = false := by
  rw [List.any_eq_false]
  intro c hc
  rw [isMark_eq_false_of_isDigit (h.2 c hc)]
  exact nofun

theorem Digits.notMem {ds : List Char} (h : Digits ds) {c : Char} (hc : c.isDigit = false) :
    c ∉ ds := by
  intro hmem
  rw [h.2 c hmem] at hc
  exact nomatch hc

theorem any_isMark_numeral (negative : Bool) (n : Numeral) :
    (signText negative ++ n.text).any isMark = n.exponent.isSome := by
  have hsign : (signText negative).any isMark = false := by
    cases negative with
    | false => rfl
    | true => rfl
  have hfraction : (n.fraction.elim [] ('.' :: ·)).any isMark = false := by
    cases hds : n.fraction with
    | none => rfl
    | some ds => exact (n.fraction_isDigits ds hds).any_isMark
  have hexponent : (exponentText n.exponent).any isMark = n.exponent.isSome := by
    cases n.exponent with
    | none => rfl
    | some e => simp [exponentText, Exponent.text, e.isMark_mark]
  rw [Numeral.text, List.any_append, List.any_append, List.any_append, hsign,
    n.whole_isDigits.any_isMark, hfraction, hexponent]
  rfl

theorem contains_point_numeral (negative : Bool) (n : Numeral) :
    (signText negative ++ n.text).contains '.' = n.fraction.isSome := by
  have hsign : '.' ∉ signText negative := by
    cases negative with
    | false => exact List.not_mem_nil
    | true => decide
  have hexponent : '.' ∉ exponentText n.exponent := by
    cases n.exponent with
    | none => exact List.not_mem_nil
    | some e =>
        have hmark : '.' ≠ e.mark := fun heq => by
          have hmark := e.isMark_mark
          rw [← heq] at hmark
          exact nomatch hmark
        have hsign : '.' ∉ e.sign := by
          have hmem := e.sign_mem
          simp only [List.mem_cons, List.not_mem_nil, or_false] at hmem
          rcases hmem with h | h | h <;> rw [h] <;> decide
        have hdigits := e.digits_isDigits.notMem (show ('.' : Char).isDigit = false from rfl)
        simp [exponentText, Exponent.text, hmark, hsign, hdigits]
  have hwhole := n.whole_isDigits.notMem (show ('.' : Char).isDigit = false from rfl)
  cases hfraction : n.fraction with
  | none => simp [Numeral.text, hfraction, hsign, hwhole, hexponent]
  | some ds => simp [Numeral.text, hfraction]

theorem Numeral.exists_cons (n : Numeral) : ∃ c cs, n.text = c :: cs ∧ c.isDigit := by
  obtain ⟨c, cs, hcs, hdigit⟩ := n.whole_isDigits.exists_cons
  exact ⟨c, _, by rw [Numeral.text, hcs, List.cons_append], hdigit⟩

theorem startsNumber_numeral (negative : Bool) (n : Numeral) :
    ∃ c cs, signText negative ++ n.text = c :: cs ∧ startsNumber c := by
  obtain ⟨c, cs, hcs, hdigit⟩ := n.exists_cons
  cases negative with
  | false => exact ⟨c, cs, hcs, by rw [startsNumber, hdigit, Bool.or_true]⟩
  | true => exact ⟨'-', n.text, rfl, rfl⟩

theorem stops_numeral_iff {negative : Bool} {n : Numeral} {more : List Char} :
    Stops (signText negative ++ n.text) more ↔ NotNext n.continues more := by
  have hstart : (signText negative ++ n.text).head?.any startsNumber := by
    obtain ⟨c, cs, hcs, hstart⟩ := startsNumber_numeral negative n
    rw [hcs]
    exact hstart
  have hcontinues : continuesNumber (signText negative ++ n.text) = n.continues := by
    funext c
    rw [continuesNumber, any_isMark_numeral, contains_point_numeral, Numeral.continues,
      Option.not_isSome, Option.not_isSome]
  rw [Stops, hcontinues]
  exact ⟨fun h => h hstart, fun h _ => h⟩

theorem stops_of_not_startsNumber {c : Char} (h : startsNumber c = false) (cs more : List Char) :
    Stops (c :: cs) more := by
  intro hstart
  rw [List.head?_cons, Option.any_some, h] at hstart
  exact nomatch hstart

theorem readWord_append (word more : List Char) (p : Position) :
    ∃ q, readWord word ⟨word ++ more, p⟩ = .ok ⟨more, q⟩ := by
  induction word generalizing p with
  | nil => exact ⟨p, rfl⟩
  | cons c word ih =>
      obtain ⟨q, hq⟩ := ih (p.past c)
      exact ⟨q, by simpa [readWord] using hq⟩

theorem rest_of_readWord {word : List Char} {k k' : Cursor} (h : readWord word k = .ok k') :
    k.rest = word ++ k'.rest := by
  induction word generalizing k with
  | nil =>
      rw [readWord] at h
      rw [Except.ok.inj h, List.nil_append]
  | cons c word ih =>
      rw [readWord] at h
      split at h
      · exact nomatch h
      · rename_i d cs hrest
        split at h
        · rename_i heq
          have htail : cs = word ++ k'.rest := ih h
          rw [hrest, heq, htail, List.cons_append]
        · exact nomatch h

-- The first character tells a value apart from blanks and from what closes a container.
structure OpensScalar (c : Char) : Prop where
  gap : Cursor.isGap c = false
  list : (c == '[') = false
  object : (c == '\x7b') = false
  close : (c == ']') = false

theorem opensScalar_of_startsNumber {c : Char} (h : startsNumber c) : OpensScalar c := by
  have hne {d : Char} (hd : startsNumber d = false) : (c == d) = false := by
    refine beq_eq_false_iff_ne.mpr fun heq => ?_
    rw [heq, hd] at h
    exact nomatch h
  refine ⟨?_, hne rfl, hne rfl, hne rfl⟩
  rw [Cursor.isGap, hne rfl, hne rfl, hne rfl, hne rfl]
  rfl

theorem SpellsScalar.opens {v : Json} {body : List Char} (h : SpellsScalar v body) :
    ∃ c cs, body = c :: cs ∧ OpensScalar c := by
  cases h with
  | null => exact ⟨_, _, rfl, rfl, rfl, rfl, rfl⟩
  | yes => exact ⟨_, _, rfl, rfl, rfl, rfl, rfl⟩
  | no => exact ⟨_, _, rfl, rfl, rfl, rfl, rfl⟩
  | @number negative v n _ =>
      obtain ⟨c, cs, hcs, hstart⟩ := startsNumber_numeral negative n
      exact ⟨c, cs, hcs, opensScalar_of_startsNumber hstart⟩
  | string _ => exact ⟨_, _, rfl, rfl, rfl, rfl, rfl⟩

theorem readScalar_of_isDigit {c : Char} (h : c.isDigit) (k : Cursor) :
    readScalar c k = readNumber false k := by
  have hne {d : Char} (hd : d.isDigit = false) : (c == d) = false := by
    refine beq_eq_false_iff_ne.mpr fun heq => ?_
    rw [heq, hd] at h
    exact nomatch h
  rw [readScalar, hne rfl, hne rfl, hne rfl, hne rfl, h]
  rfl

theorem readScalar_of_spells {v : Json} {c : Char} {cs more : List Char}
    (h : SpellsScalar v (c :: cs)) (hstops : Stops (c :: cs) more) (p : Position) :
    ∃ q, readScalar c ⟨c :: (cs ++ more), p⟩ = .ok (v, ⟨more, q⟩) := by
  generalize hbody : c :: cs = body at h
  cases h with
  | null =>
      obtain ⟨rfl, rfl⟩ := List.cons.inj hbody
      obtain ⟨q, hq⟩ := readWord_append ['u', 'l', 'l'] more (p.past 'n')
      exact ⟨q, congrArg (Except.map _) hq⟩
  | yes =>
      obtain ⟨rfl, rfl⟩ := List.cons.inj hbody
      obtain ⟨q, hq⟩ := readWord_append ['r', 'u', 'e'] more (p.past 't')
      exact ⟨q, congrArg (Except.map _) hq⟩
  | no =>
      obtain ⟨rfl, rfl⟩ := List.cons.inj hbody
      obtain ⟨q, hq⟩ := readWord_append ['a', 'l', 's', 'e'] more (p.past 'f')
      exact ⟨q, congrArg (Except.map _) hq⟩
  | @number negative v n hvalue =>
      rw [hbody, stops_numeral_iff] at hstops
      cases negative with
      | true =>
          obtain ⟨rfl, rfl⟩ := List.cons.inj hbody
          exact readNumber_eq_ok_iff.mpr ⟨n, rfl, hstops, hvalue⟩
      | false =>
          obtain ⟨d, ds, hds, hdigit⟩ := n.exists_cons
          obtain ⟨rfl, rfl⟩ := List.cons.inj (hbody.trans hds)
          rw [readScalar_of_isDigit hdigit]
          exact readNumber_eq_ok_iff.mpr ⟨n, by rw [hds]; rfl, hstops, hvalue⟩
  | @string text body hs =>
      obtain ⟨rfl, rfl⟩ := List.cons.inj hbody
      obtain ⟨q, hq⟩ := string_of_spells hs more p
      exact ⟨q, congrArg (Except.map _) hq⟩

theorem spells_of_readScalar {c : Char} {cs : List Char} {p : Position} {v : Json} {k : Cursor}
    (h : readScalar c ⟨c :: cs, p⟩ = .ok (v, k)) :
    ∃ body, c :: cs = body ++ k.rest ∧ SpellsScalar v body ∧ Stops body k.rest := by
  have hword {word : List Char} {w : Json}
      (h : ((readWord word ⟨cs, p.past c⟩).map fun k => (w, k)) = .ok (v, k)) :
      v = w ∧ c :: cs = c :: word ++ k.rest := by
    obtain ⟨k', hread, heq⟩ := Except.map_eq_ok_iff.mp h
    obtain ⟨rfl, rfl⟩ := Prod.mk.inj heq
    have hrest : cs = word ++ k'.rest := rest_of_readWord hread
    exact ⟨rfl, by rw [hrest, List.cons_append]⟩
  unfold readScalar at h
  split at h
  · rename_i hc
    obtain ⟨rfl, hrest⟩ := hword h
    obtain rfl := beq_iff_eq.mp hc
    exact ⟨_, hrest, .null, stops_of_not_startsNumber rfl _ _⟩
  split at h
  · rename_i hc
    obtain ⟨rfl, hrest⟩ := hword h
    obtain rfl := beq_iff_eq.mp hc
    exact ⟨_, hrest, .yes, stops_of_not_startsNumber rfl _ _⟩
  split at h
  · rename_i hc
    obtain ⟨rfl, hrest⟩ := hword h
    obtain rfl := beq_iff_eq.mp hc
    exact ⟨_, hrest, .no, stops_of_not_startsNumber rfl _ _⟩
  split at h
  · rename_i hc
    obtain rfl := beq_iff_eq.mp hc
    obtain ⟨n, hrest, hmore, hvalue⟩ := readNumber_eq_ok_iff.mp ⟨k.position, h⟩
    have htext : cs = n.text ++ k.rest := hrest
    exact ⟨signText true ++ n.text, by rw [htext]; rfl, .number hvalue, stops_numeral_iff.mpr hmore⟩
  split at h
  · obtain ⟨n, hrest, hmore, hvalue⟩ := readNumber_eq_ok_iff.mp ⟨k.position, h⟩
    exact ⟨signText false ++ n.text, hrest, .number hvalue, stops_numeral_iff.mpr hmore⟩
  split at h
  · rename_i hc
    obtain rfl := beq_iff_eq.mp hc
    obtain ⟨⟨s, k'⟩, hstring, heq⟩ := Except.map_eq_ok_iff.mp h
    obtain ⟨rfl, rfl⟩ := Prod.mk.inj heq
    obtain ⟨text, body, rfl, rfl, hs⟩ := spells_of_string hstring
    exact ⟨'"' :: body, rfl, .string hs, stops_of_not_startsNumber rfl _ _⟩
  · exact nomatch h

end Scalars

end YangBinding.Json
