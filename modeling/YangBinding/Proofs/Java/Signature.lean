import YangBinding.Java.AccessMethod
import Mathlib.Data.List.Basic

namespace YangBinding

-- The parameters of a constructor, as they are written: those without arguments have none.
namespace Constructor

def paramTypes (made : Constructor) : List String :=
  match made.mode with
  | .noArgs => []
  | .keyed form => made.args.map fun key => key.type.inForm form

def paramNames (made : Constructor) : List String :=
  match made.mode with
  | .noArgs => []
  | .keyed _ => made.args.map fun key => Java.valueParam key.identifier

def params (made : Constructor) : String :=
  String.intercalate ", "
    (List.zipWith (fun type name => type ++ " " ++ name) made.paramTypes made.paramNames)

end Constructor

namespace Java

-- `lines` are a method with this signature and body, whatever they say about it.
def Declares (lines : List String) (signature : String) (body : List String) : Prop :=
  ∃ doc throws, lines = method doc signature throws body

-- A line of code that makes an object of a class out of some arguments.
def Creates (line cls : String) (args : List String) : Prop :=
  ∃ before after,
    line = before ++ "new " ++ cls ++ "(" ++ String.intercalate ", " args ++ ")" ++ after

theorem keyParams_eq (keys : List KeyLeaf) (form : ValueForm) (setsPrefix : Bool) :
    keyParams keys form = Constructor.params ⟨.keyed form, keys, setsPrefix⟩ := by
  simp [keyParams, Constructor.params, Constructor.paramTypes, Constructor.paramNames,
    List.zipWith_map, List.zipWith_self]

theorem params_noArgs (name : String) (args : List KeyLeaf) (setsPrefix : Bool) :
    name ++ "(" ++ Constructor.params ⟨.noArgs, args, setsPrefix⟩ ++ ")" = name ++ "()" := by
  rw [String.append_assoc, String.append_assoc]
  rfl

theorem constructorLines_declares (c : ClassSpec) (made : Constructor) :
    ∃ body, Declares (constructorLines c made) (c.name ++ "(" ++ made.params ++ ")") body := by
  cases made with
  | mk mode args setsPrefix =>
      cases mode with
      | noArgs => exact ⟨_, _, _, by rw [params_noArgs]; rfl⟩
      | keyed form => exact ⟨_, _, _, by rw [← keyParams_eq]; rfl⟩

-- The call that reads the value of a leaf.
def getterCall (name : String) : String := "get" ++ className name ++ "Value()"

theorem getLines_declares (c : ClassSpec) (name : String) (type : ValueType) :
    ∃ body, Declares (accessorLines c ⟨.keyLeaf, name, some type, .get .none, false, false⟩)
      (type.wrapper ++ " " ++ getterCall name) body := by
  have hsignature : type.wrapper ++ " " ++ getterCall name =
      type.wrapper ++ " get" ++ className name ++ "Value()" := by
    rw [getterCall, show " get" = " " ++ "get" from rfl]
    simp only [String.append_assoc]
  rw [hsignature]
  exact ⟨_, _, _, rfl⟩

theorem copyLines_creates (c : ClassSpec) (copy : CopyMethod) (h : copy.keys ≠ []) :
    ∃ signature body, Declares (copyLines c copy) signature body ∧
      ∃ line ∈ body, Creates line c.name (copy.keys.map getterCall) := by
  have hkeys : copy.keys.isEmpty = false := by simpa using h
  have hcalls : copy.keys.map getterCall =
      copy.keys.map fun key => "get" ++ className key ++ "Value()" := rfl
  unfold copyLines
  simp only [hkeys, Bool.false_eq_true, if_false]
  rw [hcalls]
  cases copy.shallow with
  | false =>
      refine ⟨_, _, ⟨_, _, rfl⟩, _, List.mem_cons_of_mem _ List.mem_cons_self,
        "    " ++ "return (" ++ c.name ++ ")cloneContent(", ");", ?_⟩
      simp only [Bool.false_eq_true, if_false, String.append_assoc]
  | true =>
      refine ⟨_, _, ⟨_, _, rfl⟩, _, List.mem_cons_of_mem _ List.mem_cons_self,
        "    " ++ "return cloneShallowContent(", ");", ?_⟩
      simp only [if_true, String.append_assoc]

section Add

variable (n : AccessNames) (hasField : Bool)

-- A method that makes a child out of its own parameters.
theorem addLines_keys (keys : List KeyLeaf) (form : ValueForm) :
    ∃ ending, Declares (addLines n hasField (.keys keys form))
      (n.cls ++ " add" ++ n.cls ++ "(" ++ keyParams keys form ++ ")")
      ((n.cls ++ " " ++ n.var ++ " = new " ++ n.cls ++ "(" ++ keyArgs keys ++ ");") :: ending) :=
  ⟨_, _, _, rfl⟩

theorem addLines_none :
    ∃ ending, Declares (addLines n hasField .none) (n.cls ++ " add" ++ n.cls ++ "(" ++ "" ++ ")")
      ((n.cls ++ " " ++ n.var ++ " = new " ++ n.cls ++ "(" ++ "" ++ ");") :: ending) :=
  ⟨_, _, _, rfl⟩

theorem creates_of_new (args : List String) :
    Creates (n.cls ++ " " ++ n.var ++ " = new " ++ n.cls ++ "(" ++ String.intercalate ", " args ++
      ");") n.cls args := by
  refine ⟨n.cls ++ " " ++ n.var ++ " = ", ";", ?_⟩
  rw [show " = new " = " = " ++ "new " from rfl, show ");" = ")" ++ ";" from rfl]
  simp only [String.append_assoc]

theorem addLines_creates (made : Constructor) {lookup : Lookup}
    (h : (lookup = .none ∧ made.mode = .noArgs) ∨
      ∃ form, lookup = .keys made.args form ∧ made.mode = .keyed form) :
    ∃ body, Declares (addLines n hasField lookup)
        (n.cls ++ " add" ++ n.cls ++ "(" ++ made.params ++ ")") body ∧
      ∃ line ∈ body, Creates line n.cls made.paramNames := by
  cases made with
  | mk mode args setsPrefix =>
      rcases h with ⟨rfl, rfl⟩ | ⟨form, rfl, rfl⟩
      · obtain ⟨ending, hlines⟩ := addLines_none n hasField
        exact ⟨_, hlines, _, List.mem_cons_self, creates_of_new n []⟩
      · obtain ⟨ending, hlines⟩ := addLines_keys n hasField args form
        rw [keyParams_eq args form setsPrefix] at hlines
        exact ⟨_, hlines, _, List.mem_cons_self, creates_of_new n _⟩

end Add

end Java

end YangBinding
