import YangBinding.Proofs.Class.KeyAgreement

namespace YangBinding

-- What tells the methods of a class apart: the name, and the types of the parameters as written.
structure Signature where
  name : String
  types : List String
deriving DecidableEq

namespace Operation

-- The word that the name of a method starts with. An iterator has none.
def word : Operation → String
  | .get _ => "get"
  | .set _ => "set"
  | .unset => "unset"
  | .addEmpty | .addChild _ => "add"
  | .delete _ => "delete"
  | .mark _ _ => "mark"
  | .iterate => ""

-- What stands behind that word, for a child with the class `cls` and the variable `var`.
def subject (kind : MemberKind) (cls var : String) : Operation → String
  | .get (.keys _ _) | .addChild _ | .delete _ => cls
  | .get _ | .set _ | .unset => cls ++ "Value"
  | .addEmpty => if kind = .leafList then "Empty" ++ cls else cls
  | .mark edit _ => cls ++ Java.className edit.text
  | .iterate => var ++ "Iterator"

@[simp] theorem subject_get_none (kind : MemberKind) (cls var : String) :
    subject kind cls var (.get .none) = cls ++ "Value" := rfl

def paramTypes (cls : String) (type : ValueType) : Operation → List String
  | .get (.keys keys form) | .addChild (.keys keys form) | .delete (.keys keys form) =>
    keyTypes keys form
  | .addChild .childObject => [cls]
  | .set form | .delete (.value form) | .mark _ (some form) => [type.inForm form]
  | _ => []

def signature (operation : Operation) (kind : MemberKind) (cls var : String) (type : ValueType) :
    Signature :=
  ⟨operation.word ++ operation.subject kind cls var, operation.paramTypes cls type⟩

end Operation

def Accessor.signature (a : Accessor) : Signature :=
  a.operation.signature a.kind (Java.className a.name) (Java.memberName a.name)
    (a.type.getD .string)

def CopyMethod.signature (copy : CopyMethod) : Signature :=
  ⟨if copy.shallow then "cloneShallow" else "clone", []⟩

-- The constructors and methods of a class in the order in which they are written.
def ClassSpec.signatures (c : ClassSpec) : List Signature :=
  c.constructors.map (fun made => ⟨c.name, made.paramTypes⟩) ++
    c.copies.map CopyMethod.signature ++ [⟨"keyNames", []⟩, ⟨"childrenNames", []⟩] ++
    c.accessors.map Accessor.signature ++
    if c.addChildSupport then [⟨"addChild", ["Element"]⟩] else []

namespace Java

-- The text of a signature: the type of the result, if there is one, the name and the parameters.
def Spells (text : String) (s : Signature) : Prop :=
  ∃ result params, (result = "" ∨ ∃ type, result = type ++ " ") ∧ params.length = s.types.length ∧
    text = result ++ s.name ++ "(" ++ String.intercalate ", "
      (List.zipWith (fun type param => type ++ " " ++ param) s.types params) ++ ")"

-- Members of a class with these signatures and no others: methods one after the other, with
-- fields and banners between them.
inductive Writes : List String → List Signature → Prop
  | nil : Writes [] []
  | field (name : String) {lines signatures} : Writes lines signatures →
      Writes (fieldLines name ++ lines) signatures
  | banner (title : String) {lines signatures} : Writes lines signatures →
      Writes (banner title ++ lines) signatures
  | method (doc : List String) (throws : Bool) (body : List String)
      {text signature lines signatures} : Spells text signature → Writes lines signatures →
      Writes (method doc text throws body ++ lines) (signature :: signatures)

namespace Writes

variable {lines others : List String} {signatures more : List Signature}

theorem append (h : Writes lines signatures) (hothers : Writes others more) :
    Writes (lines ++ others) (signatures ++ more) := by
  induction h with
  | nil => exact hothers
  | field name _ ih =>
      rw [List.append_assoc]
      exact .field name ih
  | banner title _ ih =>
      rw [List.append_assoc]
      exact .banner title ih
  | method doc throws body hspells _ ih =>
      rw [List.append_assoc]
      exact .method doc throws body hspells ih

theorem of_declares {text : String} {body : List String} {signature : Signature}
    (h : Declares lines text body) (hspells : Spells text signature) :
    Writes lines [signature] := by
  obtain ⟨doc, throws, rfl⟩ := h
  rw [← List.append_nil (Java.method doc text throws body)]
  exact .method doc throws body hspells .nil

theorem flatMap {α : Type} {write : α → List String} {signature : α → Signature}
    (h : ∀ a, Writes (write a) [signature a]) (xs : List α) :
    Writes (xs.flatMap write) (xs.map signature) := by
  induction xs with
  | nil => exact .nil
  | cons a xs ih =>
      rw [List.flatMap_cons, List.map_cons, ← List.singleton_append]
      exact (h a).append ih

end Writes

section Spelling

-- A method without parameters.
theorem spells_plain (result : String) {text name : String}
    (h : text = result ++ " " ++ name ++ "()") : Spells text ⟨name, []⟩ := by
  refine ⟨result ++ " ", [], .inr ⟨result, rfl⟩, rfl, ?_⟩
  rw [h, show "()" = "(" ++ "" ++ ")" from rfl]
  simp only [String.append_assoc, List.zipWith_nil_left, String.intercalate_nil]

theorem spells_one (result param : String) {text name type : String}
    (h : text = result ++ " " ++ name ++ "(" ++ type ++ " " ++ param ++ ")") :
    Spells text ⟨name, [type]⟩ := by
  refine ⟨result ++ " ", [param], .inr ⟨result, rfl⟩, rfl, ?_⟩
  rw [h]
  simp only [String.append_assoc, List.zipWith_cons_cons, List.zipWith_nil_left,
    String.intercalate_singleton]

theorem spells_keys (result : String) {text name : String} {keys : List KeyLeaf} {form : ValueForm}
    (h : text = result ++ " " ++ name ++ "(" ++ keyParams keys form ++ ")") :
    Spells text ⟨name, keyTypes keys form⟩ := by
  refine ⟨result ++ " ", keys.map fun key => valueParam key.identifier, .inr ⟨result, rfl⟩,
    by simp [keyTypes], ?_⟩
  rw [h, keyParams, keyTypes, List.zipWith_map, List.zipWith_self]

end Spelling

section AccessorMethods

variable (n : AccessNames)

theorem getEntryLines_writes (keys : List KeyLeaf) (form : ValueForm) :
    Writes (getEntryLines n keys form) [⟨"get" ++ n.cls, keyTypes keys form⟩] := by
  refine .of_declares ⟨_, _, rfl⟩ (spells_keys n.cls ?_)
  rw [show " get" = " " ++ "get" from rfl]
  simp only [String.append_assoc]

theorem getValueLines_writes : Writes (getValueLines n) [⟨"get" ++ (n.cls ++ "Value"), []⟩] := by
  refine .of_declares ⟨_, _, rfl⟩ (spells_plain n.type.wrapper ?_)
  rw [show " get" = " " ++ "get" from rfl, show "Value()" = "Value" ++ "()" from rfl]
  simp only [String.append_assoc]

theorem setLines_writes (form : ValueForm) :
    Writes (setLines n form) [⟨"set" ++ (n.cls ++ "Value"), [n.type.inForm form]⟩] := by
  refine .of_declares ⟨_, _, rfl⟩ (spells_one "void" n.param ?_)
  rw [show "void set" = "void" ++ " " ++ "set" from rfl, show "Value(" = "Value" ++ "(" from rfl]
  simp only [String.append_assoc]

theorem unsetLines_writes : Writes (unsetLines n) [⟨"unset" ++ (n.cls ++ "Value"), []⟩] := by
  refine .of_declares ⟨_, _, rfl⟩ (spells_plain "void" ?_)
  rw [show "void unset" = "void" ++ " " ++ "unset" from rfl,
    show "Value()" = "Value" ++ "()" from rfl]
  simp only [String.append_assoc]

theorem addEmptyLines_writes (kind : MemberKind) : Writes (addEmptyLines n kind)
    [⟨"add" ++ (if kind = .leafList then "Empty" ++ n.cls else n.cls), []⟩] := by
  refine .of_declares ⟨_, _, rfl⟩ (spells_plain "void" ?_)
  rw [show "void add" = "void" ++ " " ++ "add" from rfl]
  simp only [String.append_assoc]

theorem markLines_writes (edit : EditOperation) (form : Option ValueForm) :
    Writes (markLines n edit form)
      [⟨"mark" ++ (n.cls ++ className edit.text), form.toList.map n.type.inForm⟩] := by
  cases form with
  | none =>
      refine .of_declares ⟨_, _, rfl⟩ (spells_plain "void" ?_)
      rw [show "void mark" = "void" ++ " " ++ "mark" from rfl]
      simp only [String.append_assoc]
  | some form =>
      refine .of_declares ⟨_, _, rfl⟩ (spells_one "void" n.param ?_)
      rw [show "void mark" = "void" ++ " " ++ "mark" from rfl]
      simp only [String.append_assoc]

theorem iterateLines_writes (kind : MemberKind) :
    Writes (iterateLines n kind) [⟨n.var ++ "Iterator", []⟩] := by
  refine .of_declares ⟨_, _, rfl⟩ (spells_plain
    (if kind = .leafList then "ElementLeafListValueIterator" else "ElementChildrenIterator") ?_)
  rw [show "Iterator()" = "Iterator" ++ "()" from rfl]
  simp only [String.append_assoc]

theorem addLines_writes (hasField : Bool) (lookup : Lookup) : Writes (addLines n hasField lookup)
    [⟨"add" ++ n.cls, (Operation.addChild lookup).paramTypes n.cls n.type⟩] := by
  have hadd : " add" = " " ++ "add" := rfl
  cases lookup with
  | childObject =>
      refine .of_declares ⟨_, _, rfl⟩ (spells_one n.cls n.var ?_)
      rw [hadd]
      simp only [String.append_assoc]
  | keys keys form =>
      refine .of_declares ⟨_, _, rfl⟩ (spells_keys n.cls ?_)
      rw [hadd]
      simp only [String.append_assoc]
  | none | value form =>
      refine .of_declares ⟨_, _, rfl⟩ (spells_plain n.cls ?_)
      rw [hadd, show "()" = "(" ++ "" ++ ")" from rfl]
      simp only [String.append_assoc]

theorem deleteLines_writes (hasField : Bool) (lookup : Lookup) :
    Writes (deleteLines n hasField lookup)
      [⟨"delete" ++ n.cls, (Operation.delete lookup).paramTypes n.cls n.type⟩] := by
  have hdelete : "void delete" = "void" ++ " " ++ "delete" := rfl
  cases lookup with
  | value form =>
      refine .of_declares ⟨_, _, rfl⟩ (spells_one "void" n.param ?_)
      rw [hdelete]
      simp only [String.append_assoc]
  | keys keys form =>
      refine .of_declares ⟨_, _, rfl⟩ (spells_keys "void" ?_)
      rw [hdelete]
      simp only [String.append_assoc]
  | none | childObject =>
      refine .of_declares ⟨_, _, rfl⟩ (spells_plain "void" ?_)
      rw [hdelete, show "()" = "(" ++ "" ++ ")" from rfl]
      simp only [String.append_assoc]

end AccessorMethods

theorem accessorLines_writes (c : ClassSpec) (a : Accessor) :
    Writes (accessorLines c a) [a.signature] := by
  have hcls : (accessNames c a).cls = className a.name := by simp only [accessNames]
  have hvar : (accessNames c a).var = memberName a.name := by simp only [accessNames]
  have htype : (accessNames c a).type = a.type.getD .string := by simp only [accessNames]
  rw [Accessor.signature, ← hcls, ← hvar, ← htype, accessorLines]
  generalize accessNames c a = n
  cases a.operation with
  | get lookup =>
      cases lookup with
      | keys keys form => exact getEntryLines_writes n keys form
      | none | childObject | value _ => exact getValueLines_writes n
  | set form => exact setLines_writes n form
  | unset => exact unsetLines_writes n
  | addEmpty => exact addEmptyLines_writes n a.kind
  | addChild lookup => exact addLines_writes n a.hasField lookup
  | delete lookup => exact deleteLines_writes n a.hasField lookup
  | mark edit form =>
      cases form with
      | none => exact markLines_writes n edit none
      | some form => exact markLines_writes n edit (some form)
  | iterate =>
      rw [Operation.signature, Operation.word, String.empty_append]
      exact iterateLines_writes n a.kind

theorem accessorsLines_writes (c : ClassSpec) (current : Option (MemberKind × String))
    (accessors : List Accessor) :
    Writes (accessorsLines c current accessors) (accessors.map Accessor.signature) := by
  induction accessors generalizing current with
  | nil => exact .nil
  | cons a rest ih =>
      rw [accessorsLines, List.map_cons, ← List.singleton_append, List.append_assoc]
      have hrest := (accessorLines_writes c a).append (ih (some (a.kind, a.name)))
      split
      · exact hrest
      · exact .banner _ hrest

theorem constructorLines_writes (c : ClassSpec) (made : Constructor) :
    Writes (constructorLines c made) [⟨c.name, made.paramTypes⟩] := by
  obtain ⟨body, hdeclares⟩ := constructorLines_declares c made
  refine .of_declares hdeclares ⟨"", made.paramNames, .inl rfl, ?_, ?_⟩
  · obtain ⟨mode, args, setsPrefix⟩ := made
    cases mode with
    | noArgs => rfl
    | keyed form => simp [Constructor.paramTypes, Constructor.paramNames]
  · rw [String.empty_append, Constructor.params]

theorem copyLines_writes (c : ClassSpec) (copy : CopyMethod) :
    Writes (copyLines c copy) [copy.signature] := by
  obtain ⟨shallow, keys⟩ := copy
  cases shallow with
  | false => exact .of_declares ⟨_, _, rfl⟩ (spells_plain "Object" rfl)
  | true => exact .of_declares ⟨_, _, rfl⟩ (spells_plain "Element" rfl)

theorem fields_write (fields : List String) : Writes (fields.flatMap fieldLines) [] := by
  induction fields with
  | nil => exact .nil
  | cons field fields ih => exact .field field ih

-- The class of a container or list is written with its signatures.
theorem elementBody_writes (c : ClassSpec) : Writes (elementBody c) c.signatures := by
  have hkeys : Writes (keyNamesLines c) [⟨"keyNames", []⟩] :=
    .of_declares ⟨_, _, rfl⟩ (spells_plain "String[]" rfl)
  have hchildren : Writes (childrenNamesLines c) [⟨"childrenNames", []⟩] :=
    .of_declares ⟨_, _, rfl⟩ (spells_plain "String[]" rfl)
  have hadd : Writes (if c.addChildSupport then addChildLines c else [])
      (if c.addChildSupport then [⟨"addChild", ["Element"]⟩] else []) := by
    split
    · refine .banner _ (.of_declares ⟨_, _, rfl⟩ (spells_one "void" "child" rfl))
    · exact .nil
  have hconstructors := Writes.flatMap (constructorLines_writes c) c.constructors
  have hcopies := Writes.flatMap (copyLines_writes c) c.copies
  have hall := (((((fields_write c.fields).append hconstructors).append hcopies).append
    hkeys).append hchildren).append (accessorsLines_writes c none c.accessors) |>.append hadd
  simpa only [elementBody, ClassSpec.signatures, List.nil_append, List.append_assoc,
    List.singleton_append, List.cons_append] using hall

end Java

end YangBinding
