import YangBinding.Decimal.Binary64

namespace YangBinding

-- A JSON value. An object keeps its fields in the order of the text, repeated names included.
inductive Json where
  | null
  | bool (b : Bool)
  | int (n : Int)
  | float (x : Binary64)
  | str (s : String)
  | arr (items : List Json)
  | obj (fields : List (String × Json))
deriving Inhabited

namespace Json

-- Sets the field `name`: a new name goes to the end, a known one keeps its place.
def setField {α : Type} (name : String) (value : α) :
    List (String × α) → List (String × α)
  | [] => [(name, value)]
  | (other, old) :: rest =>
    if other = name then (name, value) :: rest else (other, old) :: setField name value rest

mutual

-- One field for each name: the last value wins, at the place of the first.
def distinct : Json → Json
  | .arr items => .arr (distinctItems items)
  | .obj fields => .obj (distinctFields [] fields)
  | other => other

def distinctItems : List Json → List Json
  | [] => []
  | item :: rest => distinct item :: distinctItems rest

def distinctFields (seen : List (String × Json)) : List (String × Json) → List (String × Json)
  | [] => seen
  | (name, value) :: rest => distinctFields (setField name (distinct value) seen) rest

end

end Json

end YangBinding
