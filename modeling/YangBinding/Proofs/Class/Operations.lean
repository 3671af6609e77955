import YangBinding.Proofs.Class.KeyAgreement
import YangBinding.Proofs.Class.Members
import Mathlib.Data.List.Nodup

namespace YangBinding

-- The operations that a child of some kind is given. A leaf goes by its type, and an entry of a
-- list by its keys; neither is looked up by primitive values.
inductive Offers (type : ValueType) (keys : List KeyLeaf) : MemberKind → Operation → Prop
  | readKey : Offers type keys .keyLeaf (.get .none)
  | read : Offers type keys .leaf (.get .none)
  | set {form} : form ∈ Accessor.setForms type → Offers type keys .leaf (.set form)
  | unset : Offers type keys .leaf .unset
  | addEmpty : Offers type keys .leaf .addEmpty
  | mark {edit} : Offers type keys .leaf (.mark edit none)
  | iterateValues : Offers type keys .leafList .iterate
  | setValue {form} : form ∈ Accessor.setForms type → Offers type keys .leafList (.set form)
  | deleteValue {form} : form ≠ .primitive → Offers type keys .leafList (.delete (.value form))
  | addEmptyValue : Offers type keys .leafList .addEmpty
  | markValue {edit form} : form ≠ .primitive → Offers type keys .leafList (.mark edit (some form))
  | addContainer : Offers type keys .container (.addChild .childObject)
  | addNewContainer : Offers type keys .container (.addChild .none)
  | deleteContainer : Offers type keys .container (.delete .none)
  | getEntry {form} : form ≠ .primitive → Offers type keys .list (.get (.keys keys form))
  | iterateEntries : Offers type keys .list .iterate
  | addEntry : Offers type keys .list (.addChild .childObject)
  | addKeyedEntry {form} : form ≠ .primitive → Offers type keys .list (.addChild (.keys keys form))
  | addNewEntry : Offers type keys .list (.addChild .none)
  | deleteEntry {form} : form ≠ .primitive → Offers type keys .list (.delete (.keys keys form))

namespace Offers

variable {type : ValueType} {keys : List KeyLeaf} {kind : MemberKind} {lookup : Lookup}

theorem get_cases (h : Offers type keys kind (.get lookup)) :
    lookup = .none ∨ ∃ form, lookup = .keys keys form ∧ form ≠ .primitive ∧ kind = .list := by
  cases h with
  | readKey | read => exact .inl rfl
  | getEntry hform => exact .inr ⟨_, rfl, hform, rfl⟩

theorem addChild_cases (h : Offers type keys kind (.addChild lookup)) :
    lookup = .none ∨ lookup = .childObject ∨
      ∃ form, lookup = .keys keys form ∧ form ≠ .primitive ∧ kind = .list := by
  cases h with
  | addNewContainer | addNewEntry => exact .inl rfl
  | addContainer | addEntry => exact .inr (.inl rfl)
  | addKeyedEntry hform => exact .inr (.inr ⟨_, rfl, hform, rfl⟩)

theorem set_cases {form : ValueForm} (h : Offers type keys kind (.set form)) :
    form ∈ Accessor.setForms type := by
  cases h with
  | set hform | setValue hform => exact hform

theorem mark_cases {edit : EditOperation} {form : Option ValueForm}
    (h : Offers type keys kind (.mark edit form)) :
    (kind = .leaf ∧ form = none) ∨
      (kind = .leafList ∧ ∃ given, form = some given ∧ given ≠ .primitive) := by
  cases h with
  | mark => exact .inl ⟨rfl, rfl⟩
  | markValue hform => exact .inr ⟨rfl, _, rfl, hform⟩

theorem delete_cases (h : Offers type keys kind (.delete lookup)) :
    (kind = .container ∧ lookup = .none) ∨
      (kind = .leafList ∧ ∃ form, lookup = .value form ∧ form ≠ .primitive) ∨
      (kind = .list ∧ ∃ form, lookup = .keys keys form ∧ form ≠ .primitive) := by
  cases h with
  | deleteContainer => exact .inl ⟨rfl, rfl⟩
  | deleteValue hform => exact .inr (.inl ⟨rfl, _, rfl, hform⟩)
  | deleteEntry hform => exact .inr (.inr ⟨rfl, _, rfl, hform⟩)

-- A child that has no value is not added as an object.
theorem not_addEmpty_and_addChild (h : Offers type keys kind .addEmpty) :
    ¬ Offers type keys kind (.addChild lookup) := by
  intro hchild
  cases h <;> cases hchild

end Offers

-- What a class knows of one of its children, and the operations it has for it.
structure Member where
  name : String
  kind : MemberKind
  type : Option ValueType
  keys : List KeyLeaf
  optional : Bool
  hasField : Bool
  operations : List Operation
  distinct : operations.Nodup
  offers : ∀ operation ∈ operations, Offers (type.getD .string) keys kind operation
  wrapped : (type.getD .string).wrapper ≠ "String" ∧
    (type.getD .string).wrapper ≠ (type.getD .string).primitive
  keyed : kind = .list → keys ≠ []
  dotted : ∀ key ∈ keys, '.' ∈ key.type.wrapper.toList

namespace Member

def accessor (m : Member) (operation : Operation) : Accessor :=
  ⟨m.kind, m.name, m.type, operation, m.optional, m.hasField⟩

def accessors (m : Member) : List Accessor := m.operations.map m.accessor

theorem string_wrapped : ValueType.string.wrapper ≠ "String" ∧
    ValueType.string.wrapper ≠ ValueType.string.primitive := by decide

section Kinds

variable (name : String) {type : ValueType}
  (htype : type.wrapper ≠ "String" ∧ type.wrapper ≠ type.primitive)

def keyLeaf : Member where
  name := name
  kind := .keyLeaf
  type := some type
  keys := []
  optional := false
  hasField := false
  operations := [.get .none]
  distinct := List.nodup_singleton _
  offers := List.forall_mem_singleton.mpr .readKey
  wrapped := htype
  keyed := nofun
  dotted := nofun

def plainLeaf : Member where
  name := name
  kind := .leaf
  type := some type
  keys := []
  optional := true
  hasField := false
  operations := [.get .none] ++ (Accessor.setForms type).map .set ++ [.unset, .addEmpty] ++
    EditOperation.all.map fun edit => .mark edit none
  distinct := by
    unfold Accessor.setForms
    split <;> decide
  offers := by
    simp only [List.forall_mem_append, List.forall_mem_map, List.forall_mem_cons,
      List.not_mem_nil, false_imp_iff, implies_true, and_true]
    exact ⟨⟨⟨.read, fun _ => .set⟩, .unset, .addEmpty⟩, fun _ _ => .mark⟩
  wrapped := htype
  keyed := nofun
  dotted := nofun

def leafList : Member where
  name := name
  kind := .leafList
  type := some type
  keys := []
  optional := false
  hasField := false
  operations := [.iterate] ++ (Accessor.setForms type).map .set ++
    [.delete (.value .wrapped), .delete (.value .string), .addEmpty] ++
    EditOperation.all.flatMap fun edit => [.mark edit (some .wrapped), .mark edit (some .string)]
  distinct := by
    unfold Accessor.setForms
    split <;> decide
  offers := by
    simp only [List.forall_mem_append, List.forall_mem_map, List.forall_mem_flatMap,
      List.forall_mem_cons, List.not_mem_nil, false_imp_iff, implies_true, and_true]
    exact ⟨⟨⟨.iterateValues, fun _ => .setValue⟩, .deleteValue (by decide),
      .deleteValue (by decide), .addEmptyValue⟩,
      fun _ _ => ⟨.markValue (by decide), .markValue (by decide)⟩⟩
  wrapped := htype
  keyed := nofun
  dotted := nofun

def container : Member where
  name := name
  kind := .container
  type := none
  keys := []
  optional := false
  hasField := true
  operations := [.addChild .childObject, .addChild .none, .delete .none]
  distinct := by decide
  offers := by
    simp only [List.forall_mem_cons, List.not_mem_nil, false_imp_iff, implies_true, and_true]
    exact ⟨.addContainer, .addNewContainer, .deleteContainer⟩
  wrapped := string_wrapped
  keyed := nofun
  dotted := nofun

def list {keys : List KeyLeaf} (hne : keys ≠ [])
    (hdotted : ∀ key ∈ keys, '.' ∈ key.type.wrapper.toList) : Member where
  name := name
  kind := .list
  type := none
  keys := keys
  optional := false
  hasField := false
  operations := [.get (.keys keys .wrapped), .get (.keys keys .string), .iterate,
    .addChild .childObject, .addChild (.keys keys .wrapped), .addChild (.keys keys .string),
    .addChild .none, .delete (.keys keys .wrapped), .delete (.keys keys .string)]
  distinct := by simp
  offers := by
    simp only [List.forall_mem_cons, List.not_mem_nil, false_imp_iff, implies_true, and_true]
    exact ⟨.getEntry (by decide), .getEntry (by decide), .iterateEntries, .addEntry,
      .addKeyedEntry (by decide), .addKeyedEntry (by decide), .addNewEntry,
      .deleteEntry (by decide), .deleteEntry (by decide)⟩
  wrapped := string_wrapped
  keyed := fun _ => hne
  dotted := hdotted

end Kinds

end Member

section Building

theorem ValueType.resolve_dotted (name : String) :
    '.' ∈ (ValueType.resolve name).wrapper.toList := by
  have hall : ∀ type ∈ ValueType.builtins, '.' ∈ type.wrapper.toList := by decide +kernel
  obtain ⟨type, htype, hwrapper, -⟩ := ValueType.exists_builtin name
  rw [hwrapper]
  exact hall type htype

theorem Node.dotted_of_mem_keys {list : Node} {keys : List KeyLeaf} (h : list.keys = .ok keys)
    {key : KeyLeaf} (hk : key ∈ keys) : '.' ∈ key.type.wrapper.toList := by
  obtain ⟨leaf, -, heq⟩ := keyLeaf_eq_ok_iff.mp (keyLeaf_of_mem_keys h hk).2
  rw [heq]
  exact ValueType.resolve_dotted _

-- The accessors for a child are those of a member.
theorem Node.exists_member {keyNames : List String} {child : Node} {methods : List Accessor}
    (h : accessors keyNames child = .ok methods) (hdata : child.keyword.isData) :
    ∃ m : Member, m.accessors = methods ∧ m.name = child.arg := by
  have htype : child.valueType.wrapper ≠ "String" ∧
      child.valueType.wrapper ≠ child.valueType.primitive := ValueType.resolve_wrapper_ne _
  unfold accessors at h
  split at h
  · obtain ⟨keys, hkeys, h⟩ := Except.bind_eq_ok_iff.mp h
    obtain ⟨-, -, -, hne⟩ := keys_eq_ok_iff.mp hkeys
    obtain rfl := Except.ok.inj h
    exact ⟨.list child.arg hne fun _ => dotted_of_mem_keys hkeys, rfl, rfl⟩
  · obtain rfl := Except.ok.inj h
    exact ⟨.container child.arg, rfl, rfl⟩
  · obtain rfl := Except.ok.inj h
    unfold Accessor.ofLeaf
    split
    · exact ⟨.keyLeaf child.arg htype, rfl, rfl⟩
    · exact ⟨.plainLeaf child.arg htype, rfl, rfl⟩
  · obtain rfl := Except.ok.inj h
    exact ⟨.leafList child.arg htype, rfl, rfl⟩
  · rename_i hlist hcontainer hleaf hleafList
    cases hk : child.keyword <;> simp_all [Keyword.isData]

theorem Node.exists_members {keyNames : List String} {children : List Node}
    {parts : List (List Accessor)}
    (h : List.Forall₂ (fun child part => accessors keyNames child = .ok part) children parts) :
    ∃ members : List Member, parts.flatten = members.flatMap Member.accessors ∧
      (children.filter fun child => child.keyword.isData).map arg = members.map Member.name := by
  induction h with
  | nil => exact ⟨[], rfl, rfl⟩
  | @cons child part children parts hpart _ ih =>
      obtain ⟨members, hflatten, hnames⟩ := ih
      by_cases hdata : child.keyword.isData
      · obtain ⟨m, rfl, hname⟩ := exists_member hpart hdata
        refine ⟨m :: members, ?_, ?_⟩
        · rw [List.flatten_cons, List.flatMap_cons, hflatten]
        · rw [List.filter_cons_of_pos (by exact hdata), List.map_cons, List.map_cons, hname, hnames]
      · obtain rfl := accessors_eq_nil hpart hdata
        rw [List.filter_cons_of_neg (by exact hdata)]
        exact ⟨members, hflatten, hnames⟩

end Building

end YangBinding
