import YangBinding.Json.StringLiteral
import Mathlib.Data.List.Basic

namespace YangBinding.Java

section Inputs

-- The code units of a character in UTF-16.
def units (c : Char) : List Nat :=
  if c.toNat < 0x10000 then [c.toNat]
  else [0xD800 + (c.toNat - 0x10000) / 0x400, 0xDC00 + (c.toNat - 0x10000) % 0x400]

-- Where a reader of the text stands: outside of all escapes, behind a backslash, or inside an
-- escape by number, with as many digits to come and this value of those before.
inductive EscapeState where
  | text
  | slash
  | code (left value : Nat)

-- The code units that a program text is made of. An escape by number stands for one unit, wherever
-- in the text it is, and a wrong one ends the reading. Several `u` count as one, and a backslash
-- behind another starts no escape.
def inputs : EscapeState → List Char → List (Option Nat)
  | .text, [] => []
  | .slash, [] => [some 0x5C]
  | .code _ _, [] => [none]
  | .text, c :: rest =>
    if c = '\\' then inputs .slash rest else (units c).map some ++ inputs .text rest
  | .slash, c :: rest =>
    if c = 'u' then inputs (.code 4 0) rest
    else some 0x5C :: ((units c).map some ++ inputs .text rest)
  | .code left value, c :: rest =>
    if left = 4 ∧ c = 'u' then inputs (.code 4 0) rest
    else
      match Json.hexDigit? c with
      | none => [none]
      | some digit =>
        if left = 1 then some (value * 16 + digit) :: inputs .text rest
        else inputs (.code (left - 1) (value * 16 + digit)) rest

theorem length_units_pos (c : Char) : 0 < (units c).length := by
  unfold units
  split
  · exact Nat.one_pos
  · exact Nat.two_pos

-- The units that are read into a state already. Of an escape by number at least two are.
def EscapeState.held : EscapeState → List (Option Nat)
  | .text => []
  | .slash => [some 0x5C]
  | .code _ _ => [some 0x5C, some 0x75]

-- Some units, not more than `count`, in front of what a text stands for or of a wrong escape.
def Within (count : Nat) (rest : List Char) (ins : List (Option Nat)) : Prop :=
  ∃ front tail, ins = front ++ tail ∧ front.length ≤ count ∧
    (tail = inputs .text rest ∨ tail = [none])

section Within

variable {rest : List Char} {count more : Nat} {ins : List (Option Nat)}

theorem Within.mono (h : Within count rest ins) (hmore : count ≤ more) : Within more rest ins := by
  obtain ⟨front, tail, hins, hcount, htail⟩ := h
  exact ⟨front, tail, hins, Nat.le_trans hcount hmore, htail⟩

theorem Within.append (h : Within count rest ins) (shown : List (Option Nat)) :
    Within (shown.length + count) rest (shown ++ ins) := by
  obtain ⟨front, tail, rfl, hcount, htail⟩ := h
  refine ⟨shown ++ front, tail, (List.append_assoc ..).symm, ?_, htail⟩
  rw [List.length_append]
  omega

theorem within_quoted (shown : List (Option Nat)) (rest : List Char) :
    Within (shown.length + 1) rest (shown ++ some 0x22 :: inputs .text rest) :=
  ⟨shown ++ [some 0x22], inputs .text rest, by simp, by simp, .inl rfl⟩

end Within

-- A text up to a quote stands for its own units or for fewer, as an escape by number is longer
-- than what it stands for. Behind the quote no escape is open any more.
theorem inputs_quoted (state : EscapeState) (chars rest : List Char) :
    inputs state (chars ++ '"' :: rest) =
        state.held ++ (chars.flatMap units).map some ++ some 0x22 :: inputs .text rest ∨
      Within (state.held.length + (chars.flatMap units).length) rest
        (inputs state (chars ++ '"' :: rest)) := by
  induction chars generalizing state with
  | nil =>
      cases state with
      | text => exact .inl rfl
      | slash => exact .inl rfl
      | code left value =>
          exact .inr ⟨[], [none], by simp [inputs, Json.hexDigit?], by simp, .inr rfl⟩
  | cons c chars ih =>
      -- Wherever the reader stands, the text behind `c` gives at most one unit beyond its own.
      have hbound : ∀ state, Within (state.held.length + (chars.flatMap units).length + 1) rest
          (inputs state (chars ++ '"' :: rest)) := by
        intro state
        rcases ih state with heq | hwithin
        · rw [heq]
          exact (within_quoted _ rest).mono (by simp)
        · exact hwithin.mono (Nat.le_succ _)
      have hpos := length_units_pos c
      rw [List.flatMap_cons, List.length_append, List.map_append, List.cons_append]
      cases state with
      | text =>
          rw [inputs]
          by_cases hslash : c = '\\'
          · subst hslash
            refine (ih .slash).imp id fun h => h.mono ?_
            simp only [EscapeState.held, List.length_cons, List.length_nil]
            omega
          · rw [if_neg hslash]
            rcases ih .text with heq | hwithin
            · exact .inl (by simp [heq, EscapeState.held])
            · exact .inr ((hwithin.append _).mono (by simp [EscapeState.held]))
      | slash =>
          rw [inputs]
          by_cases hu : c = 'u'
          · subst hu
            refine (ih (.code 4 0)).imp id fun h => h.mono ?_
            simp only [EscapeState.held, List.length_cons, List.length_nil]
            omega
          · rw [if_neg hu]
            rcases ih .text with heq | hwithin
            · exact .inl (by simp [heq, EscapeState.held])
            · refine .inr ((hwithin.append (some 0x5C :: (units c).map some)).mono ?_)
              simp only [EscapeState.held, List.length_cons, List.length_map, List.length_nil]
              omega
      | code left value =>
          refine .inr ?_
          rw [inputs]
          by_cases hu : left = 4 ∧ c = 'u'
          · rw [if_pos hu]
            refine (hbound (.code 4 0)).mono ?_
            simp only [EscapeState.held, List.length_cons]
            omega
          · rw [if_neg hu]
            cases Json.hexDigit? c with
            | none => exact ⟨[], [none], rfl, Nat.zero_le _, .inr rfl⟩
            | some digit =>
                dsimp only
                split
                · refine ((hbound .text).append [some (value * 16 + digit)]).mono ?_
                  simp only [EscapeState.held, List.length_cons, List.length_nil]
                  omega
                · refine (hbound (.code (left - 1) (value * 16 + digit))).mono ?_
                  simp only [EscapeState.held, List.length_cons]
                  omega

end Inputs

section Strings

-- The unit behind a backslash and one letter.
def letterEscape? (n : Nat) : Option Nat :=
  [(0x62, 0x08), (0x73, 0x20), (0x74, 0x09), (0x6E, 0x0A), (0x66, 0x0C), (0x72, 0x0D),
    (0x22, 0x22), (0x27, 0x27), (0x5C, 0x5C)].lookup n

def isOctal (n : Nat) : Bool := 0x30 ≤ n && n ≤ 0x37

-- Where a reader of a string stands: outside of all escapes, behind a backslash, or inside an
-- escape by an octal number, with as many digits that may follow and this value of those before.
inductive StringState where
  | text
  | slash
  | octal (left value : Nat)

-- A unit outside of the escapes: what it stands for, and where the reader stands behind it. No
-- state is behind the quote that ends the string.
def plainStep (n : Nat) : Option (List Nat × Option StringState) :=
  if n = 0x22 then some ([], none)
  else if n = 0x0A ∨ n = 0x0D then none
  else if n = 0x5C then some ([], some .slash)
  else some ([n], some .text)

def stringStep : StringState → Nat → Option (List Nat × Option StringState)
  | .text, n => plainStep n
  | .slash, n =>
    match letterEscape? n with
    | some unit => some ([unit], some .text)
    | none =>
      if isOctal n then some ([], some (.octal (if n ≤ 0x33 then 2 else 1) (n - 0x30))) else none
  | .octal left value, n =>
    if 0 < left ∧ isOctal n then some ([], some (.octal (left - 1) (value * 8 + (n - 0x30))))
    else (plainStep n).map fun (shown, next) => (value :: shown, next)

-- A string from behind its opening quote: its units, and what follows the closing quote.
def readString : StringState → List (Option Nat) → Option (List Nat × List (Option Nat))
  | state, some n :: rest =>
    match stringStep state n with
    | none => none
    | some (shown, none) => some (shown, rest)
    | some (shown, some next) =>
      (readString next rest).map fun (value, rest) => (shown ++ value, rest)
  | _, _ => none

-- The string literal at the start of a text. Three quotes start a text block instead.
def readLiteral (text : List Char) : Option (List Nat × List (Option Nat)) :=
  match inputs .text text with
  | some 0x22 :: rest =>
    if rest.take 2 = [some 0x22, some 0x22] then none else readString .text rest
  | _ => none

-- A unit that a string may hold as it is.
def PlainUnit (n : Nat) : Prop := n ≠ 0x22 ∧ n ≠ 0x0A ∧ n ≠ 0x0D ∧ n ≠ 0x5C

-- How many units are read into a state already, at the least.
def StringState.held : StringState → Nat
  | .text => 0
  | .slash => 1
  | .octal _ _ => 2

theorem plainStep_cases {n : Nat} {shown : List Nat} {next : Option StringState}
    (h : plainStep n = some (shown, next)) :
    (PlainUnit n ∧ shown = [n] ∧ next = some .text) ∨ (n = 0x22 ∧ shown = [] ∧ next = none) ∨
      (shown = [] ∧ next = some .slash) := by
  unfold plainStep at h
  by_cases hquote : n = 0x22
  · rw [if_pos hquote] at h
    cases h
    exact .inr (.inl ⟨hquote, rfl, rfl⟩)
  rw [if_neg hquote] at h
  by_cases hline : n = 0x0A ∨ n = 0x0D
  · rw [if_pos hline] at h
    cases h
  rw [if_neg hline] at h
  by_cases hslash : n = 0x5C
  · rw [if_pos hslash] at h
    cases h
    exact .inr (.inr ⟨rfl, rfl⟩)
  · rw [if_neg hslash] at h
    cases h
    rw [not_or] at hline
    exact .inl ⟨⟨hquote, hline.1, hline.2, hslash⟩, rfl, rfl⟩

-- All that a step can do: take a unit as it is, end the string, or go on in an escape. An escape
-- gives fewer units than it has.
theorem stringStep_cases {state : StringState} {n : Nat} {shown : List Nat}
    {next : Option StringState} (h : stringStep state n = some (shown, next)) :
    (state = .text ∧ PlainUnit n ∧ shown = [n] ∧ next = some .text) ∨
    (n = 0x22 ∧ next = none ∧ (state = .text ∧ shown = [] ∨ shown.length < state.held)) ∨
    ∃ after, next = some after ∧ shown.length + after.held ≤ state.held + 1 ∧
      (after = .text → shown.length < state.held + 1) := by
  cases state with
  | text =>
      rcases plainStep_cases h with ⟨hplain, rfl, rfl⟩ | ⟨hquote, rfl, rfl⟩ | ⟨rfl, rfl⟩
      · exact .inl ⟨rfl, hplain, rfl, rfl⟩
      · exact .inr (.inl ⟨hquote, rfl, .inl ⟨rfl, rfl⟩⟩)
      · exact .inr (.inr ⟨.slash, rfl, by decide, nofun⟩)
  | slash =>
      rw [stringStep] at h
      cases hletter : letterEscape? n with
      | some unit =>
          rw [hletter] at h
          cases h
          exact .inr (.inr ⟨.text, rfl, Nat.le_succ 1, fun _ => Nat.lt_succ_self 1⟩)
      | none =>
          simp only [hletter, Option.ite_none_right_eq_some, Option.some.injEq] at h
          obtain ⟨-, h⟩ := h
          cases h
          exact .inr (.inr ⟨.octal _ _, rfl, Nat.le_refl 2, nofun⟩)
  | octal left value =>
      rw [stringStep] at h
      split at h
      · cases h
        exact .inr (.inr ⟨.octal _ _, rfl, Nat.le_succ 2, nofun⟩)
      · obtain ⟨⟨plain, after⟩, hplain, heq⟩ := Option.map_eq_some_iff.mp h
        cases heq
        rcases plainStep_cases hplain with ⟨-, rfl, rfl⟩ | ⟨hquote, rfl, rfl⟩ | ⟨rfl, rfl⟩
        · exact .inr (.inr ⟨.text, rfl, Nat.le_succ 2, fun _ => Nat.lt_succ_self 2⟩)
        · exact .inr (.inl ⟨hquote, rfl, .inr (Nat.lt_succ_self 1)⟩)
        · exact .inr (.inr ⟨.slash, rfl, Nat.le_succ 2, nofun⟩)

-- A string is as long as its text only if it has no escape.
theorem readString_cases {state : StringState} {ins rest : List (Option Nat)} {value : List Nat}
    (h : readString state ins = some (value, rest)) :
    ∃ read : List Nat, ins = read.map some ++ some 0x22 :: rest ∧
      (state = .text ∧ value = read ∧ (∀ n ∈ read, PlainUnit n) ∨
        value.length < state.held + read.length) := by
  induction ins generalizing state value with
  | nil => cases h
  | cons input ins ih =>
      cases input with
      | none => cases h
      | some n =>
          rw [readString] at h
          cases hstep : stringStep state n with
          | none => simp [hstep] at h
          | some result =>
              obtain ⟨shown, next⟩ := result
              rw [hstep] at h
              rcases stringStep_cases hstep with ⟨rfl, hplain, rfl, rfl⟩ | ⟨rfl, rfl, hshown⟩ |
                ⟨after, rfl, hheld, hstrict⟩
              · obtain ⟨⟨_, _⟩, hrest, heq⟩ := Option.map_eq_some_iff.mp h
                cases heq
                obtain ⟨read, rfl, hread⟩ := ih hrest
                refine ⟨n :: read, rfl, ?_⟩
                rcases hread with ⟨-, rfl, hall⟩ | hshort
                · exact .inl ⟨rfl, rfl, List.forall_mem_cons.mpr ⟨hplain, hall⟩⟩
                · exact .inr (Nat.succ_lt_succ hshort)
              · cases h
                exact ⟨[], rfl, hshown.imp (fun hs => ⟨hs.1, hs.2, nofun⟩) id⟩
              · obtain ⟨⟨_, _⟩, hrest, heq⟩ := Option.map_eq_some_iff.mp h
                cases heq
                obtain ⟨read, rfl, hread⟩ := ih hrest
                refine ⟨n :: read, rfl, .inr ?_⟩
                rw [List.length_append, List.length_cons]
                rcases hread with ⟨htext, rfl, -⟩ | hshort
                · have hless := hstrict htext
                  omega
                · omega

theorem readString_plain {read : List Nat} (h : ∀ n ∈ read, PlainUnit n)
    (rest : List (Option Nat)) :
    readString .text (read.map some ++ some 0x22 :: rest) = some (read, rest) := by
  induction read with
  | nil => rfl
  | cons n read ih =>
      rw [List.forall_mem_cons] at h
      obtain ⟨⟨hquote, hfeed, hreturn, hslash⟩, hread⟩ := h
      have hstep : stringStep .text n = some ([n], some .text) := by
        simp [stringStep, plainStep, hquote, hfeed, hreturn, hslash]
      rw [List.map_cons, List.cons_append, readString, hstep]
      simp [ih hread]

end Strings

section Literals

-- What a string literal may hold as it is: no quote, no backslash and no end of a line.
def isPlain (text : String) : Bool :=
  text.toList.all fun c => c != '"' && c != '\n' && c != '\r' && c != '\\'

def utf16 (text : String) : List Nat := text.toList.flatMap units

-- The text between quotes is a string literal of just that text, in front of `rest`. Reading
-- starts at the opening quote: what stands in front of it is no part of the reading.
def Denotes (text rest : String) : Prop :=
  readLiteral ("\"" ++ text ++ "\"" ++ rest).toList = some (utf16 text, inputs .text rest.toList)

instance (text rest : String) : Decidable (Denotes text rest) := inferInstanceAs (Decidable (_ = _))

theorem units_eq_or (c : Char) : units c = [c.toNat] ∨ ∀ n ∈ units c, 0xD800 ≤ n := by
  unfold units
  split
  · exact .inl rfl
  · refine .inr fun n hn => ?_
    simp only [List.mem_cons, List.not_mem_nil, or_false] at hn
    omega

theorem mem_units_iff {c d : Char} (hd : d.toNat < 0x80) : d.toNat ∈ units c ↔ c = d := by
  rcases units_eq_or c with hself | hhigh
  · rw [hself, List.mem_singleton, Char.toNat_inj]
    exact eq_comm
  · constructor
    · intro hmem
      have hle := hhigh _ hmem
      omega
    · rintro rfl
      have hself : units c = [c.toNat] := if_pos (by omega)
      simp [hself]

theorem mem_utf16_iff {text : String} {d : Char} (hd : d.toNat < 0x80) :
    d.toNat ∈ utf16 text ↔ d ∈ text.toList := by
  simp [utf16, List.mem_flatMap, mem_units_iff hd]

theorem isPlain_iff {text : String} : isPlain text ↔ '"' ∉ text.toList ∧ '\n' ∉ text.toList ∧
    '\r' ∉ text.toList ∧ '\\' ∉ text.toList := by
  simp only [isPlain, List.all_eq_true, Bool.and_eq_true, bne_iff_ne]
  constructor
  · intro h
    exact ⟨fun hmem => (h _ hmem).1.1.1 rfl, fun hmem => (h _ hmem).1.1.2 rfl,
      fun hmem => (h _ hmem).1.2 rfl, fun hmem => (h _ hmem).2 rfl⟩
  · rintro ⟨hquote, hfeed, hreturn, hslash⟩ c hc
    exact ⟨⟨⟨fun heq => hquote (heq ▸ hc), fun heq => hfeed (heq ▸ hc)⟩,
      fun heq => hreturn (heq ▸ hc)⟩, fun heq => hslash (heq ▸ hc)⟩

theorem plainUnit_iff_isPlain {text : String} :
    (∀ n ∈ utf16 text, PlainUnit n) ↔ isPlain text := by
  have hquote : 0x22 ∈ utf16 text ↔ '"' ∈ text.toList :=
    mem_utf16_iff (d := '"') (by decide)
  have hfeed : 0x0A ∈ utf16 text ↔ '\n' ∈ text.toList :=
    mem_utf16_iff (d := '\n') (by decide)
  have hreturn : 0x0D ∈ utf16 text ↔ '\r' ∈ text.toList :=
    mem_utf16_iff (d := '\r') (by decide)
  have hslash : 0x5C ∈ utf16 text ↔ '\\' ∈ text.toList :=
    mem_utf16_iff (d := '\\') (by decide)
  rw [isPlain_iff, ← hquote, ← hfeed, ← hreturn, ← hslash]
  constructor
  · intro h
    exact ⟨fun hmem => (h _ hmem).1 rfl, fun hmem => (h _ hmem).2.1 rfl,
      fun hmem => (h _ hmem).2.2.1 rfl, fun hmem => (h _ hmem).2.2.2 rfl⟩
  · rintro ⟨hquote, hfeed, hreturn, hslash⟩ n hn
    exact ⟨fun heq => hquote (heq ▸ hn), fun heq => hfeed (heq ▸ hn),
      fun heq => hreturn (heq ▸ hn), fun heq => hslash (heq ▸ hn)⟩

theorem inputs_plain {chars : List Char} (h : '\\' ∉ chars) (rest : List Char) :
    inputs .text (chars ++ rest) = (chars.flatMap units).map some ++ inputs .text rest := by
  induction chars with
  | nil => rfl
  | cons c chars ih =>
      rw [List.mem_cons, not_or] at h
      rw [List.cons_append, inputs, if_neg (Ne.symm h.1), ih h.2]
      simp

theorem readLiteral_quote (chars : List Char) :
    readLiteral ('"' :: chars) =
      if (inputs .text chars).take 2 = [some 0x22, some 0x22] then none
      else readString .text (inputs .text chars) := rfl

variable {text rest : String}

theorem toList_quoted (text rest : String) : ("\"" ++ text ++ "\"" ++ rest).toList =
    '"' :: (text.toList ++ '"' :: rest.toList) := by
  simp [String.toList_append]

-- A literal that is as long as the text has no escape of either kind.
theorem isPlain_of_denotes (h : Denotes text rest) : isPlain text := by
  have hread : readString .text (inputs .text (text.toList ++ '"' :: rest.toList)) =
      some (utf16 text, inputs .text rest.toList) := by
    rw [Denotes, toList_quoted, readLiteral_quote] at h
    split at h
    · cases h
    · exact h
  obtain ⟨read, hins, hvalue⟩ := readString_cases hread
  have hle : (utf16 text).length ≤ read.length := by
    rcases hvalue with ⟨-, heq, -⟩ | hshort
    · exact Nat.le_of_eq (congrArg List.length heq)
    · rw [StringState.held, Nat.zero_add] at hshort
      exact Nat.le_of_lt hshort
  rcases inputs_quoted .text text.toList rest.toList with heq | ⟨front, tail, heq, hfront, htail⟩
  · have hself : read = utf16 text := by
      rw [hins, EscapeState.held, List.nil_append] at heq
      exact List.map_injective_iff.mpr (fun _ _ => Option.some.inj) (List.append_cancel_right heq)
    rcases hvalue with ⟨-, -, hplain⟩ | hshort
    · exact plainUnit_iff_isPlain.mp (hself ▸ hplain)
    · rw [hself, StringState.held, Nat.zero_add] at hshort
      exact absurd hshort (Nat.lt_irrefl _)
  · -- Too few units are left for the text and the quote behind it.
    have hboth : front ++ tail = read.map some ++ some 0x22 :: inputs .text rest.toList :=
      heq.symm.trans hins
    have hlength := congrArg List.length hboth
    simp only [List.length_append, List.length_map, List.length_cons] at hlength
    have hfront : front.length ≤ (utf16 text).length := by
      simpa [EscapeState.held, utf16] using hfront
    rcases htail with rfl | rfl
    · omega
    · cases hmore : inputs .text rest.toList with
      | nil =>
          rw [hmore] at hboth
          have hlast := List.append_inj_right' hboth rfl
          cases hlast
      | cons input more =>
          simp only [hmore, List.length_cons, List.length_nil] at hlength
          omega

theorem head?_inputs_ne {chars : List Char} (h : ∀ c ∈ chars.head?, c ≠ '"' ∧ c ≠ '\\') :
    (inputs .text chars).head? ≠ some (some 0x22) := by
  cases chars with
  | nil => exact nofun
  | cons c chars =>
      obtain ⟨hquote, hslash⟩ := h c rfl
      have hmem : 0x22 ∉ units c := mt (mem_units_iff (d := '"') (by decide)).mp hquote
      rw [inputs, if_neg hslash]
      cases hunits : units c with
      | nil =>
          have hpos := length_units_pos c
          simp [hunits] at hpos
      | cons n more =>
          rw [hunits, List.mem_cons, not_or] at hmem
          simpa using Ne.symm hmem.1

theorem denotes_of_isPlain (hrest : ∀ c ∈ rest.toList.head?, c ≠ '"' ∧ c ≠ '\\')
    (h : isPlain text) : Denotes text rest := by
  have hplain := plainUnit_iff_isPlain.mpr h
  have hins : inputs .text (text.toList ++ '"' :: rest.toList) =
      (utf16 text).map some ++ some 0x22 :: inputs .text rest.toList :=
    inputs_plain (isPlain_iff.mp h).2.2.2 _
  have hblock : ¬ ((utf16 text).map some ++ some 0x22 :: inputs .text rest.toList).take 2 =
      [some 0x22, some 0x22] := by
    cases hunits : utf16 text with
    | nil =>
        have hhead := head?_inputs_ne hrest
        cases hmore : inputs .text rest.toList with
        | nil => simp
        | cons input more =>
            rw [hmore] at hhead
            simpa using hhead
    | cons n more =>
        have hquote := (hplain n (hunits ▸ List.mem_cons_self)).1
        simp [hquote]
  rw [Denotes, toList_quoted, readLiteral_quote, hins, if_neg hblock]
  exact readString_plain hplain _

theorem denotes_iff (hrest : ∀ c ∈ rest.toList.head?, c ≠ '"' ∧ c ≠ '\\') :
    Denotes text rest ↔ isPlain text := ⟨isPlain_of_denotes, denotes_of_isPlain hrest⟩

end Literals

end YangBinding.Java
