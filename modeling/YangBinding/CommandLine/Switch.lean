import YangBinding.CommandLine.Word

namespace YangBinding.CommandLine

-- How a command line ends before anything is done: it asked for a text, or it is wrong.
inductive Usage where
  | help
  | version
  | missingCommand
  | unknownCommand
  | unknownArgument
  | missingArgument
  | invalidValue
  | repeatedArgument
  | surplusValue
deriving Repr, DecidableEq

-- Only what was asked for is a success.
def Usage.exitCode : Usage → Nat
  | .help => 0
  | .version => 0
  | _ => 2

-- What a switch takes: nothing, one value, or all bare words that follow. The value of a path is
-- not empty.
inductive Takes where
  | help
  | nothing
  | text
  | path
  | texts
deriving Repr, DecidableEq

structure Switch where
  name : String
  letter : Option Char
  takes : Takes
deriving Repr, DecidableEq

def Switch.takesValues (switch : Switch) : Bool :=
  match switch.takes with
  | .text => true
  | .path => true
  | .texts => true
  | _ => false

-- The switches that were given, with their values, in order.
abbrev Given := List (String × List String)

namespace Given

def has (given : Given) (name : String) : Bool := given.any fun entry => entry.1 = name

-- All values of a switch.
def values (given : Given) (name : String) : List String :=
  (given.filter fun entry => entry.1 = name).flatMap Prod.snd

def value? (given : Given) (name : String) : Option String := (given.values name).head?

-- Notes a switch with its values. Only one that takes many values can be given again.
def add (given : Given) (switch : Switch) (values : List String) : Except Usage Given :=
  if switch.takes = .help then .error .help
  else if switch.takesValues && values.isEmpty then .error .invalidValue
  else if switch.takes ≠ .texts && given.has switch.name then .error .repeatedArgument
  else if switch.takes = .path && values.contains "" then .error .invalidValue
  else .ok (given ++ [(switch.name, values)])

end Given

-- A switch whose values are still being gathered.
structure Gathering where
  switch : Switch
  values : List String

def Gathering.takesMore (g : Gathering) : Bool := g.switch.takes = .texts || g.values.isEmpty

structure Scan where
  given : Given
  gathering : Option Gathering

namespace Scan

def start : Scan := ⟨[], none⟩

-- Notes the switch whose values were being gathered.
def settle (scan : Scan) : Except Usage Given :=
  match scan.gathering with
  | none => .ok scan.given
  | some g => scan.given.add g.switch g.values

-- A switch that is complete: it takes no values, or its value is attached to it.
def complete (scan : Scan) (switch : Switch) (values : List String) : Except Usage Scan := do
  let given ← scan.settle
  return ⟨← given.add switch values, none⟩

-- A switch whose values follow.
def gather (scan : Scan) (switch : Switch) : Except Usage Scan := do
  return ⟨← scan.settle, some ⟨switch, []⟩⟩

-- A word that is no switch is a value of the one before it.
def bare (scan : Scan) (word : String) : Except Usage Scan :=
  match scan.gathering with
  | some g =>
    if g.takesMore then .ok ⟨scan.given, some ⟨g.switch, g.values ++ [word]⟩⟩
    else .error .unknownArgument
  | none => .error .unknownArgument

def long (switches : List Switch) (scan : Scan) (name : String) (value : Option String) :
    Except Usage Scan :=
  match switches.find? fun switch => switch.name = name with
  | none => .error .unknownArgument
  | some switch =>
    match value with
    | some value =>
      if switch.takesValues then scan.complete switch [value] else .error .surplusValue
    | none => if switch.takesValues then scan.gather switch else scan.complete switch []

-- Letters stand for switches until one takes a value, which is all that follows it, without an
-- equals sign in front.
def short (switches : List Switch) : Scan → List Char → Except Usage Scan
  | scan, [] => .ok scan
  | scan, letter :: rest =>
    match switches.find? fun switch => switch.letter = some letter with
    | none => .error .unknownArgument
    | some switch =>
      if switch.takesValues then
        match rest with
        | [] => scan.gather switch
        | '=' :: value => scan.complete switch [String.ofList value]
        | value => scan.complete switch [String.ofList value]
      else do short switches (← scan.complete switch []) rest

-- Reads the words after a command. After a stop there is nothing left that they could mean.
def words (switches : List Switch) : Scan → List String → Except Usage Given
  | scan, [] => scan.settle
  | scan, word :: rest =>
    match Word.ofText word with
    | .bare => do words switches (← scan.bare word) rest
    | .stop => if rest.isEmpty then scan.settle else .error .unknownArgument
    | .long name value => do words switches (← scan.long switches name value) rest
    | .short letters => do words switches (← scan.short switches letters) rest

end Scan

end YangBinding.CommandLine
