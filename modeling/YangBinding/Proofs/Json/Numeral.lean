import YangBinding.Proofs.Json.RoundTrip

namespace YangBinding.Json

def Digits (cs : List Char) : Prop := cs ≠ [] ∧ ∀ c ∈ cs, c.isDigit

theorem Digits.exists_cons {ds : List Char} (h : Digits ds) : ∃ c cs, ds = c :: cs ∧ c.isDigit := by
  obtain ⟨c, cs, rfl⟩ := List.exists_cons_of_ne_nil h.1
  exact ⟨c, cs, rfl, h.2 c List.mem_cons_self⟩

-- The text does not go on with such a character.
def NotNext (isSuch : Char → Bool) (more : List Char) : Prop :=
  ∀ c ∈ more.head?, isSuch c = false

theorem NotNext.mono {isSuch other : Char → Bool} {more : List Char} (h : NotNext isSuch more)
    (himp : ∀ c, isSuch c = false → other c = false) : NotNext other more :=
  fun c hc => himp c (h c hc)

theorem NotNext.any_head? {isSuch : Char → Bool} {more : List Char} (h : NotNext isSuch more) :
    more.head?.any isSuch = false := by
  cases hhead : more.head? with
  | none => rfl
  | some c => exact h c hhead

def isMark (c : Char) : Bool := c == 'e' || c == 'E'

theorem isDigit_eq_false_of_isMark {c : Char} (h : isMark c) : c.isDigit = false := by
  simp only [isMark, Bool.or_eq_true, beq_iff_eq] at h
  rcases h with rfl | rfl
  · rfl
  · rfl

structure Exponent where
  mark : Char
  sign : List Char
  digits : List Char
  isMark_mark : isMark mark
  sign_mem : sign ∈ [[], ['+'], ['-']]
  digits_isDigits : Digits digits

-- A number without its sign.
structure Numeral where
  whole : List Char
  fraction : Option (List Char)
  exponent : Option Exponent
  whole_isDigits : Digits whole
  -- A zero in front stands alone.
  whole_of_zero : whole.head? = some '0' → whole = ['0']
  fraction_isDigits : ∀ ds ∈ fraction, Digits ds

def Exponent.text (e : Exponent) : List Char := e.mark :: (e.sign ++ e.digits)

def exponentText (exponent : Option Exponent) : List Char := exponent.elim [] Exponent.text

namespace Numeral

def text (n : Numeral) : List Char :=
  n.whole ++ (n.fraction.elim [] ('.' :: ·) ++ exponentText n.exponent)

-- Whether a character behind the numeral would be taken for a part of it.
def continues (n : Numeral) (c : Char) : Bool :=
  c.isDigit || (n.exponent.isNone && (isMark c || (n.fraction.isNone && c == '.')))

end Numeral

section Values

def scaled? (negative : Bool) (significand : Nat) (exponent : Int) : Option Json :=
  (Binary64.ofDigits? significand exponent).map (signed negative)

-- The value of digits with an exponent behind them. One of too many digits leaves only zero.
def Exponent.value? (e : Exponent) (negative : Bool) (significand : Nat) (start : Int) :
    Option Json :=
  match appendDigits exponentBound 0 e.digits with
  | (exponent, []) =>
    scaled? negative significand (if e.sign = ['-'] then start - exponent else start + exponent)
  | _ => if significand ≠ 0 ∧ e.sign ≠ ['-'] then none else some (signed negative .zero)

def exponentValue? (negative : Bool) (significand : Nat) (start : Int) :
    Option Exponent → Option Json
  | none => scaled? negative significand start
  | some e => e.value? negative significand start

-- The value of a numeral. Digits of the significand that leave 64 bits only count by their number.
def Numeral.value? (n : Numeral) (negative : Bool) : Option Json :=
  let (significand, left) := appendDigits significandBound 0 n.whole
  match n.fraction with
  | some ds =>
    let (significand, rest) := appendDigits significandBound significand ds
    exponentValue? negative significand
      ((left.length : Int) - ((ds.length - rest.length : Nat) : Int)) n.exponent
  | none =>
    if n.exponent.isNone && left.isEmpty then some (wholeNumber negative significand)
    else exponentValue? negative significand left.length n.exponent

end Values

section Reading

-- The result is a value with `more` left behind it, or a fault if there is no value.
def Leaves (result : Except Fault (Json × Cursor)) (value? : Option Json) (more : List Char) :
    Prop :=
  ∃ q, ∀ v k, result = .ok (v, k) ↔ value? = some v ∧ k = ⟨more, q⟩

theorem digits_append {ds more : List Char} (hds : ∀ c ∈ ds, c.isDigit)
    (hmore : NotNext Char.isDigit more) (p : Position) :
    Cursor.digits ⟨ds ++ more, p⟩ = (ds, ⟨more, ⟨p.line, p.column + ds.length⟩⟩) := by
  have htake : more.takeWhile Char.isDigit = [] := by
    cases more with
    | nil => rfl
    | cons c cs => rw [List.takeWhile_cons_of_neg (by simp [hmore c rfl])]
  have hdrop : more.dropWhile Char.isDigit = more := by
    cases more with
    | nil => rfl
    | cons c cs => rw [List.dropWhile_cons_of_neg (by simp [hmore c rfl])]
  unfold Cursor.digits
  rw [List.takeWhile_append_of_pos hds, List.dropWhile_append_of_pos hds, htake, hdrop,
    List.append_nil]

variable {negative : Bool} {significand : Nat} {more : List Char}

theorem leaves_readScaled (exponent : Int) (q : Position) :
    Leaves (readScaled negative significand exponent ⟨more, q⟩)
      (scaled? negative significand exponent) more := by
  refine ⟨q, fun v k => ?_⟩
  unfold readScaled scaled?
  cases Binary64.ofDigits? significand exponent with
  | none => simp
  | some x => simp [eq_comm]

theorem exponentSign_append {sign ds : List Char} (hsign : sign ∈ [[], ['+'], ['-']])
    (hds : Digits ds) (p : Position) :
    ∃ q, Cursor.exponentSign ⟨sign ++ (ds ++ more), p⟩ =
      (decide (sign = ['-']), ⟨ds ++ more, q⟩) := by
  obtain ⟨c, cs, rfl, hdigit⟩ := hds.exists_cons
  have hplus : (c == '+') = false := beq_eq_false_iff_ne.mpr fun heq => by simp [heq] at hdigit
  have hminus : (c == '-') = false := beq_eq_false_iff_ne.mpr fun heq => by simp [heq] at hdigit
  simp only [List.mem_cons, List.not_mem_nil, or_false] at hsign
  rcases hsign with rfl | rfl | rfl
  · exact ⟨p, by simp [Cursor.exponentSign, hplus, hminus]⟩
  · exact ⟨p.past '+', rfl⟩
  · exact ⟨p.past '-', rfl⟩

theorem leaves_readExponent (e : Exponent) (start : Int) (hmore : NotNext Char.isDigit more)
    (p : Position) :
    Leaves (readExponent negative significand start ⟨e.sign ++ (e.digits ++ more), p⟩)
      (e.value? negative significand start) more := by
  obtain ⟨next, hnext⟩ := @exponentSign_append more _ _ e.sign_mem e.digits_isDigits p
  have hdigits := digits_append e.digits_isDigits.2 hmore next
  obtain ⟨c, cs, hcs, hdigit⟩ := e.digits_isDigits.exists_cons
  unfold readExponent Exponent.value?
  rw [hnext]
  simp only [hdigits]
  rw [hcs, List.cons_append]
  simp only [hdigit, Bool.not_true, Bool.false_eq_true, if_false]
  rw [← hcs]
  cases happend : appendDigits exponentBound 0 e.digits with
  | mk exponent left =>
      cases left with
      | nil => simpa using leaves_readScaled _ _
      | cons d left =>
          have hcond : (significand ≠ 0 ∧ (!decide (e.sign = ['-'])) = true) ↔
              significand ≠ 0 ∧ e.sign ≠ ['-'] := by
            rw [Bool.not_eq_true', decide_eq_false_iff_not]
          refine ⟨⟨next.line, next.column + e.digits.length⟩, fun v k => ?_⟩
          simp only [hcond]
          by_cases hlarge : significand ≠ 0 ∧ e.sign ≠ ['-']
          · rw [if_pos hlarge, if_pos hlarge]
            exact ⟨nofun, nofun⟩
          · rw [if_neg hlarge, if_neg hlarge]
            simp [eq_comm]

theorem leaves_readFraction {ds : List Char} (hds : Digits ds) (before : Nat)
    (exponent : Option Exponent)
    (hmore : NotNext (fun c => c.isDigit || (exponent.isNone && isMark c)) more) (p : Position) :
    Leaves (readFraction negative significand before ⟨ds ++ (exponentText exponent ++ more), p⟩)
      (let (significand, rest) := appendDigits significandBound significand ds
      exponentValue? negative significand
        ((before : Int) - ((ds.length - rest.length : Nat) : Int)) exponent) more := by
  have hempty : ds.isEmpty = false := List.isEmpty_eq_false_iff.mpr hds.1
  have hdigit : NotNext Char.isDigit more := hmore.mono fun c h => (Bool.or_eq_false_iff.mp h).1
  cases happend : appendDigits significandBound significand ds with
  | mk scaled left =>
      cases exponent with
      | none =>
          unfold readFraction
          rw [exponentText, Option.elim_none, List.nil_append, digits_append hds.2 hdigit]
          simp only [hempty, happend, Bool.false_eq_true, if_false]
          cases more with
          | nil => exact leaves_readScaled _ _
          | cons c cs =>
              have hmark : (c == 'e' || c == 'E') = false :=
                (Bool.or_eq_false_iff.mp (hmore c rfl)).2
              simp only [hmark, Bool.false_eq_true, if_false]
              exact leaves_readScaled _ _
      | some e =>
          have hnext : NotNext Char.isDigit (e.text ++ more) := fun c hc => by
            obtain rfl := Option.some.inj hc
            exact isDigit_eq_false_of_isMark e.isMark_mark
          have hmark : (e.mark == 'e' || e.mark == 'E') = true := e.isMark_mark
          unfold readFraction
          rw [exponentText, Option.elim_some, digits_append hds.2 hnext]
          simp only [hempty, happend, Bool.false_eq_true, if_false, Exponent.text,
            List.cons_append, hmark, if_true, Cursor.advance, List.append_assoc]
          exact leaves_readExponent e _ hdigit _

theorem Numeral.notNext_isDigit (n : Numeral) (hmore : NotNext n.continues more) :
    NotNext Char.isDigit (n.fraction.elim [] ('.' :: ·) ++ exponentText n.exponent ++ more) := by
  cases n.fraction with
  | some ds =>
      intro c hc
      obtain rfl := Option.some.inj hc
      rfl
  | none =>
      cases n.exponent with
      | some e =>
          intro c hc
          obtain rfl := Option.some.inj hc
          exact isDigit_eq_false_of_isMark e.isMark_mark
      | none => exact hmore.mono fun c h => (Bool.or_eq_false_iff.mp h).1

theorem Numeral.zero_alone (n : Numeral) {c : Char} {cs tail : List Char} (hcs : n.whole = c :: cs)
    (htail : NotNext Char.isDigit tail) :
    (c == '0' && (cs ++ tail).head?.any Char.isDigit) = false := by
  by_cases hc : c = '0'
  · have halone := n.whole_of_zero (by rw [hcs, hc]; rfl)
    rw [hcs] at halone
    rw [(List.cons.inj halone).2, List.nil_append, htail.any_head?, Bool.and_false]
  · rw [beq_eq_false_iff_ne.mpr hc, Bool.false_and]

theorem leaves_wholeNumber (left : List Char) (q : Position) :
    Leaves (if left.isEmpty then .ok (wholeNumber negative significand, ⟨more, q⟩)
        else readScaled negative significand left.length ⟨more, q⟩)
      (if left.isEmpty then some (wholeNumber negative significand)
        else scaled? negative significand left.length) more := by
  split
  · exact ⟨q, fun v k => by simp [eq_comm]⟩
  · exact leaves_readScaled _ _

theorem leaves_readNumber (n : Numeral) (hmore : NotNext n.continues more) (p : Position) :
    Leaves (readNumber negative ⟨n.text ++ more, p⟩) (n.value? negative) more := by
  have htail := n.notNext_isDigit hmore
  have hdigits := digits_append n.whole_isDigits.2 htail p
  obtain ⟨c, cs, hcs, hdigit⟩ := n.whole_isDigits.exists_cons
  have hzero := n.zero_alone hcs htail
  rw [Numeral.text, List.append_assoc]
  unfold readNumber
  rw [hdigits, hcs, List.cons_append]
  simp only [hdigit, hzero, Bool.not_true, Bool.false_eq_true, if_false]
  rw [← hcs]
  unfold Numeral.value?
  cases happend : appendDigits significandBound 0 n.whole with
  | mk significand left =>
      cases hfraction : n.fraction with
      | some ds =>
          have hnext : NotNext (fun c => c.isDigit || (n.exponent.isNone && isMark c)) more :=
            hmore.mono fun c h => by simpa [Numeral.continues, hfraction] using h
          have hread := @leaves_readFraction negative significand _ _
            (n.fraction_isDigits ds hfraction) left.length _ hnext
          simp only [Option.elim_some, List.cons_append, List.head?_cons, Cursor.advance,
            List.append_assoc]
          exact hread _
      | none =>
          cases hexponent : n.exponent with
          | some e =>
              have hnext : NotNext Char.isDigit more :=
                hmore.mono fun c h => (Bool.or_eq_false_iff.mp h).1
              have hread := @leaves_readExponent negative significand _ e left.length hnext
              have hmark := e.isMark_mark
              simp only [isMark, Bool.or_eq_true, beq_iff_eq] at hmark
              simp only [Option.elim_none, List.nil_append, exponentText, Option.elim_some,
                Exponent.text, List.cons_append, List.head?_cons, Cursor.advance,
                List.append_assoc, Option.isNone_some, Bool.false_and, Bool.false_eq_true, if_false]
              rcases hmark with hmark | hmark
              · rw [hmark]
                exact hread _
              · rw [hmark]
                exact hread _
          | none =>
              simp only [Option.elim_none, List.nil_append, exponentText, Option.isNone_none,
                Bool.true_and]
              have hnext {d : Char} (hhead : more.head? = some d) : n.continues d = false :=
                hmore d hhead
              simp only [Numeral.continues, hfraction, hexponent] at hnext
              split
              · rename_i hhead
                exact absurd (hnext hhead) (by decide)
              · rename_i hhead
                exact absurd (hnext hhead) (by decide)
              · rename_i hhead
                exact absurd (hnext hhead) (by decide)
              · exact leaves_wholeNumber left _

end Reading

section Shape

-- What was read has the form of a numeral, and what is left does not go on with it.

variable {negative : Bool} {significand : Nat} {r : Json × Cursor}

theorem digits_cases (k : Cursor) :
    ∃ ds more q, k.digits = (ds, ⟨more, q⟩) ∧ k.rest = ds ++ more ∧ (∀ c ∈ ds, c.isDigit) ∧
      NotNext Char.isDigit more := by
  refine ⟨_, _, _, rfl, List.takeWhile_append_dropWhile.symm, ?_, ?_⟩
  · exact List.all_eq_true.mp List.all_takeWhile
  · intro c hc
    have hhead := List.head?_dropWhile_not Char.isDigit k.rest
    rw [hc] at hhead
    exact hhead

theorem exponentSign_cases (k : Cursor) :
    ∃ sign ∈ [[], ['+'], ['-']], k.rest = sign ++ k.exponentSign.2.rest := by
  unfold Cursor.exponentSign
  cases hrest : k.rest with
  | nil => exact ⟨[], by simp, by simp [hrest]⟩
  | cons c cs =>
      by_cases hplus : c = '+'
      · subst hplus
        exact ⟨['+'], by simp, by simp [Cursor.advance, hrest]⟩
      · by_cases hminus : c = '-'
        · subst hminus
          exact ⟨['-'], by simp, by simp [Cursor.advance, hrest]⟩
        · exact ⟨[], by simp, by simp [hplus, hminus, hrest]⟩

theorem exists_exponent {start : Int} {k : Cursor}
    (h : readExponent negative significand start k = .ok r) :
    ∃ sign ds more, sign ∈ [[], ['+'], ['-']] ∧ Digits ds ∧ k.rest = sign ++ (ds ++ more) ∧
      NotNext Char.isDigit more := by
  obtain ⟨sign, hsign, hrest⟩ := exponentSign_cases k
  obtain ⟨ds, more, q, hdigits, hsplit, hds, hmore⟩ := digits_cases k.exponentSign.2
  refine ⟨sign, ds, more, hsign, ⟨?_, hds⟩, by rw [hrest, hsplit], hmore⟩
  unfold readExponent at h
  simp only at h
  split at h
  · simp at h
  · rename_i c cs hcs
    split at h
    · simp at h
    · rename_i hdigit
      rintro rfl
      rw [hcs, List.nil_append] at hsplit
      have hnot := hmore c (by rw [← hsplit]; rfl)
      simp [hnot] at hdigit

theorem exists_fraction {before : Nat} {k : Cursor}
    (h : readFraction negative significand before k = .ok r) :
    ∃ ds exponent more, Digits ds ∧ k.rest = ds ++ (exponentText exponent ++ more) ∧
      NotNext (fun c => c.isDigit || (exponent.isNone && isMark c)) more := by
  obtain ⟨ds, after, q, hdigits, hsplit, hds, hafter⟩ := digits_cases k
  unfold readFraction at h
  rw [hdigits] at h
  simp only at h
  split at h
  · simp at h
  · rename_i hempty
    have hne : Digits ds := ⟨by simpa using hempty, hds⟩
    cases after with
    | nil => exact ⟨ds, none, [], hne, hsplit, by simp [NotNext]⟩
    | cons c cs =>
        simp only at h
        split at h
        · rename_i hmark
          obtain ⟨sign, es, more, hsign, hes, hrest, hmore⟩ := exists_exponent h
          have hcs : cs = sign ++ (es ++ more) := hrest
          refine ⟨ds, some ⟨c, sign, es, hmark, hsign, hes⟩, more, hne, ?_, ?_⟩
          · rw [hsplit, hcs]
            simp [exponentText, Exponent.text]
          · exact hmore.mono fun d hd => by simp [hd]
        · rename_i hmark
          refine ⟨ds, none, c :: cs, hne, hsplit, fun d hd => ?_⟩
          obtain rfl := Option.some.inj hd
          have hdigit := hafter c rfl
          simpa [hdigit, isMark] using hmark

-- The reader refuses a zero in front of other digits.
theorem alone_of_not_leading_zero {c : Char} {cs ds after : List Char}
    (hsplit : c :: cs = ds ++ after) (hds : Digits ds)
    (h : ¬ (c == '0' && cs.head?.any Char.isDigit)) : ds.head? = some '0' → ds = ['0'] := by
  obtain ⟨d, rest, rfl⟩ := List.exists_cons_of_ne_nil hds.1
  rw [List.cons_append] at hsplit
  obtain ⟨rfl, rfl⟩ := List.cons.inj hsplit
  intro hzero
  obtain rfl := Option.some.inj hzero
  cases rest with
  | nil => rfl
  | cons e rest =>
      have hdigit : e.isDigit := hds.2 e (List.mem_cons_of_mem _ List.mem_cons_self)
      exact absurd (by simp [hdigit]) h

theorem exists_numeral_of_exponent {ds tail : List Char} (hwhole : Digits ds)
    (halone : ds.head? = some '0' → ds = ['0']) {mark : Char} (hmark : isMark mark) {start : Int}
    {q : Position} (h : readExponent negative significand start ⟨tail, q⟩ = .ok r) :
    ∃ (n : Numeral) (more : List Char),
      ds ++ mark :: tail = n.text ++ more ∧ NotNext n.continues more := by
  obtain ⟨sign, es, more, hsign, hes, hrest, hmore⟩ := exists_exponent h
  have htail : tail = sign ++ (es ++ more) := hrest
  refine ⟨⟨ds, none, some ⟨mark, sign, es, hmark, hsign, hes⟩, hwhole, halone, nofun⟩, more, ?_, ?_⟩
  · rw [htail]
    simp [Numeral.text, exponentText, Exponent.text]
  · exact hmore.mono fun c hc => by simp [Numeral.continues, hc]

theorem exists_numeral {k : Cursor} (h : readNumber negative k = .ok r) :
    ∃ (n : Numeral) (more : List Char), k.rest = n.text ++ more ∧ NotNext n.continues more := by
  obtain ⟨ds, after, q, hdigits, hsplit, hds, hafter⟩ := digits_cases k
  unfold readNumber at h
  split at h
  · simp at h
  · rename_i c cs hcs
    split at h
    · simp at h
    · rename_i hdigit
      split at h
      · simp at h
      · rename_i hzero
        have hwhole : Digits ds := by
          refine ⟨?_, hds⟩
          rintro rfl
          rw [hcs, List.nil_append] at hsplit
          have hnot := hafter c (by rw [← hsplit]; rfl)
          simp [hnot] at hdigit
        have halone := alone_of_not_leading_zero (hcs ▸ hsplit) hwhole hzero
        rw [hdigits] at h
        simp only at h
        rw [hsplit]
        split at h
        · rename_i hhead
          obtain ⟨tail, rfl⟩ := List.head?_eq_some_iff.mp hhead
          obtain ⟨fs, exponent, more, hfs, hrest, hmore⟩ := exists_fraction h
          have htail : tail = fs ++ (exponentText exponent ++ more) := hrest
          refine ⟨⟨ds, some fs, exponent, hwhole, halone, by simpa using hfs⟩, more, ?_, ?_⟩
          · rw [htail]
            simp [Numeral.text]
          · exact hmore.mono fun d hd => by simpa [Numeral.continues] using hd
        · rename_i hhead
          obtain ⟨tail, rfl⟩ := List.head?_eq_some_iff.mp hhead
          exact exists_numeral_of_exponent hwhole halone rfl h
        · rename_i hhead
          obtain ⟨tail, rfl⟩ := List.head?_eq_some_iff.mp hhead
          exact exists_numeral_of_exponent hwhole halone rfl h
        · rename_i hpoint hlower hupper
          refine ⟨⟨ds, none, none, hwhole, halone, nofun⟩, after, ?_, fun d hd => ?_⟩
          · simp [Numeral.text, exponentText]
          · have hne {e : Char} (hnot : after.head? = some e → False) : d ≠ e :=
              fun heq => hnot (heq ▸ hd)
            simp [Numeral.continues, isMark, hafter d hd, hne hpoint, hne hlower, hne hupper]

end Shape

theorem readNumber_eq_ok_iff {negative : Bool} {k : Cursor} {v : Json} {more : List Char} :
    (∃ q, readNumber negative k = .ok (v, ⟨more, q⟩)) ↔
      ∃ n : Numeral, k.rest = n.text ++ more ∧ NotNext n.continues more ∧
        n.value? negative = some v := by
  constructor
  · rintro ⟨q, h⟩
    obtain ⟨n, left, hrest, hleft⟩ := exists_numeral h
    obtain ⟨q', hread⟩ := @leaves_readNumber negative _ n hleft k.position
    rw [← hrest] at hread
    obtain ⟨hvalue, hk⟩ := (hread _ _).mp h
    obtain rfl : more = left := congrArg Cursor.rest hk
    exact ⟨n, hrest, hleft, hvalue⟩
  · rintro ⟨n, hrest, hmore, hvalue⟩
    obtain ⟨q, hread⟩ := @leaves_readNumber negative _ n hmore k.position
    rw [← hrest] at hread
    exact ⟨q, (hread _ _).mpr ⟨hvalue, rfl⟩⟩

end YangBinding.Json
