namespace YangBinding.Glob

-- What a bracket expression lists: single characters and ranges.
structure CharRange where
  first : Char
  last : Char
deriving Repr, DecidableEq

inductive Token where
  | char (c : Char)
  | anyChar
  | anySequence
  | anyDirectories
  | within (ranges : List CharRange)
  | except (ranges : List CharRange)
deriving Repr, DecidableEq

-- Why a pattern is refused.
inductive PatternFault where
  | invalidRange
  | tooManyStars
  | directoriesInside
deriving Repr, DecidableEq

structure PatternError where
  position : Nat
  fault : PatternFault
deriving Repr, DecidableEq

def PatternFault.text : PatternFault → String
  | .invalidRange => "invalid range pattern"
  | .tooManyStars => "wildcards are either regular `*` or recursive `**`"
  | .directoriesInside => "recursive wildcards must form a single path component"

def PatternError.message (e : PatternError) : String :=
  "Pattern syntax error near position " ++ toString e.position ++ ": " ++ e.fault.text

-- The characters of a bracket expression. Two characters with a hyphen between them are a range.
def charRanges : List Char → List CharRange
  | [] => []
  | [a] => [⟨a, a⟩]
  | [a, b] => [⟨a, a⟩, ⟨b, b⟩]
  | a :: b :: c :: rest =>
    if b == '-' then ⟨a, c⟩ :: charRanges rest else ⟨a, a⟩ :: charRanges (b :: c :: rest)

-- Splits off a bracket expression after its opening bracket. Its first character never closes it.
def bracket? (cs : List Char) : Option (List Char × List Char) :=
  match cs with
  | [] => none
  | first :: rest =>
    if rest.contains ']' then
      some (first :: rest.takeWhile (· != ']'), (rest.dropWhile (· != ']')).drop 1)
    else none

-- Reads the tokens of a pattern. `position` is where `cs` starts in it and `before` the character
-- in front of that. The length of the pattern is `fuel` enough.
def tokens : Nat → Nat → Option Char → List Char → Except PatternError (List Token)
  | 0, _, _, _ => .ok []
  | _, _, _, [] => .ok []
  | fuel + 1, position, before, c :: cs =>
    if c == '?' then do
      return .anyChar :: (← tokens fuel (position + 1) (some c) cs)
    else if c == '*' then
      let stars := (c :: cs).takeWhile (· == '*')
      let rest := (c :: cs).dropWhile (· == '*')
      let next := position + stars.length
      if 2 < stars.length then .error ⟨position + 2, .tooManyStars⟩
      else if stars.length = 2 then
        if before.all (· == '/') then
          match rest with
          | [] => .ok [.anyDirectories]
          | d :: rest =>
            if d == '/' then do
              return .anyDirectories :: (← tokens fuel (next + 1) (some d) rest)
            else .error ⟨next, .directoriesInside⟩
        else .error ⟨position - 1, .directoriesInside⟩
      else do
        return .anySequence :: (← tokens fuel next (some c) rest)
    else if c == '[' then
      let negated := cs.head? == some '!'
      match bracket? (if negated then cs.drop 1 else cs) with
      | some (inside, rest) => do
        let token := if negated then Token.except (charRanges inside)
          else Token.within (charRanges inside)
        let width := inside.length + (if negated then 3 else 2)
        return token :: (← tokens fuel (position + width) (some ']') rest)
      | none => .error ⟨position, .invalidRange⟩
    else do
      return .char c :: (← tokens fuel (position + 1) (some c) cs)

def parse (pattern : List Char) : Except PatternError (List Token) :=
  tokens pattern.length 0 none pattern

def CharRange.contains (range : CharRange) (c : Char) : Bool :=
  range.first ≤ c && c ≤ range.last

-- Whether a token stands for exactly the character `c`.
def Token.accepts (c : Char) : Token → Bool
  | .char d => c == d
  | .anyChar => true
  | .within ranges => ranges.any (·.contains c)
  | .except ranges => !ranges.any (·.contains c)
  | _ => false

-- What is left of a list after any number of its elements.
def leftovers {α : Type} : List α → List (List α)
  | [] => [[]]
  | x :: xs => (x :: xs) :: leftovers xs

-- Whether tokens match a name, which holds no slash. A star takes any number of characters.
def matchesName : List Token → List Char → Bool
  | [], cs => cs.isEmpty
  | .anySequence :: rest, cs => (leftovers cs).any (matchesName rest)
  | .anyDirectories :: rest, cs => (leftovers cs).any (matchesName rest)
  | _ :: _, [] => false
  | token :: rest, c :: cs => token.accepts c && matchesName rest cs

-- The text of a component without wildcards.
def literal? : List Token → Option (List Char)
  | [] => some []
  | .char c :: rest => (literal? rest).map (c :: ·)
  | _ :: _ => none

-- Whether a component is a recursive wildcard.
def isRecursive (component : List Token) : Bool := component.contains .anyDirectories

end YangBinding.Glob
