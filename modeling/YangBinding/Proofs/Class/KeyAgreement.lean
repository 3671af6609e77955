import YangBinding.Proofs.Class.Keys
import YangBinding.Proofs.Class.Mirror
import YangBinding.Proofs.Java.Signature

namespace YangBinding

namespace ClassTree

mutual

-- Every class of a tree with all that is inside it, in the order of `walk`.
def subtrees : ClassTree → List ClassTree
  | .mk spec children => .mk spec children :: subtreesAll children

def subtreesAll : List ClassTree → List ClassTree
  | [] => []
  | tree :: rest => subtrees tree ++ subtreesAll rest

end

theorem walkAll_eq_map_subtreesAll (trees : List ClassTree) :
    walkAll trees = (subtreesAll trees).map spec := by
  induction trees using trees_induction with
  | nil => rfl
  | cons spec children rest ihc ihr =>
      rw [walkAll, walk, subtreesAll, subtrees, List.map_append, List.map_cons, ihc, ihr]
      rfl

theorem walk_eq_map_subtrees (tree : ClassTree) : tree.walk = tree.subtrees.map spec := by
  cases tree with
  | mk spec children =>
      rw [walk, subtrees, walkAll_eq_map_subtreesAll, List.map_cons]
      rfl

theorem mem_subtreesAll_of_mem {tree : ClassTree} {trees : List ClassTree} (h : tree ∈ trees) :
    tree ∈ subtreesAll trees := by
  induction trees with
  | nil => simp at h
  | cons first rest ih =>
      rw [subtreesAll, List.mem_append]
      rcases List.mem_cons.mp h with rfl | h
      · left
        cases tree with
        | mk spec children => exact List.mem_cons_self
      · exact .inr (ih h)

end ClassTree

-- What a method is told about its target, if it reads, adds or deletes a child.
def Operation.lookup? : Operation → Option Lookup
  | .get lookup | .addChild lookup | .delete lookup => some lookup
  | _ => none

namespace Accessor

def isNested (a : Accessor) : Bool := a.kind = .container || a.kind = .list

-- The methods that a class has for a class nested in it.
def ofNested (c : ClassSpec) : List Accessor :=
  match c.keys with
  | none => ofContainer c.tag
  | some keys => ofList c.tag keys

end Accessor

theorem Accessor.filter_isNested_ofNested (c : ClassSpec) :
    (ofNested c).filter isNested = ofNested c := by
  unfold ofNested
  cases c.keys with
  | none => rfl
  | some keys => rfl

theorem Accessor.filter_isNested_map {kind : MemberKind} {name : String} {type : Option ValueType}
    {optional hasField : Bool} {operations : List Operation}
    (h : isNested ⟨kind, name, type, .unset, optional, hasField⟩ = false) :
    (operations.map fun operation =>
      (⟨kind, name, type, operation, optional, hasField⟩ : Accessor)).filter isNested = [] := by
  rw [List.filter_map, List.map_eq_nil_iff, List.filter_eq_nil_iff]
  intro operation _ hnested
  exact Bool.false_ne_true (h.symm.trans hnested)

section Types

theorem ValueType.exists_builtin (name : String) : ∃ type ∈ ValueType.builtins,
    (ValueType.resolve name).wrapper = type.wrapper ∧
      (ValueType.resolve name).primitive = type.primitive := by
  unfold ValueType.resolve
  cases hfind : ValueType.builtins.find? fun t => t.yangType = name with
  | none => exact ⟨.string, List.mem_cons_self, rfl, rfl⟩
  | some type => exact ⟨type, List.mem_of_find?_eq_some hfind, rfl, rfl⟩

-- Values are not wrapped in a plain type, so the wrapped form is told from the two others.
theorem ValueType.resolve_wrapper_ne (name : String) :
    (ValueType.resolve name).wrapper ≠ "String" ∧
      (ValueType.resolve name).wrapper ≠ (ValueType.resolve name).primitive := by
  have hall : ∀ type ∈ ValueType.builtins,
      type.wrapper ≠ "String" ∧ type.wrapper ≠ type.primitive := by decide
  obtain ⟨type, htype, hwrapper, hprimitive⟩ := ValueType.exists_builtin name
  rw [hwrapper, hprimitive]
  exact hall type htype

theorem Node.wrapper_ne_of_mem_keys {list : Node} {keys : List KeyLeaf} (h : list.keys = .ok keys)
    {key : KeyLeaf} (hk : key ∈ keys) :
    key.type.wrapper ≠ "String" ∧ key.type.wrapper ≠ key.type.primitive := by
  obtain ⟨leaf, -, heq⟩ := keyLeaf_eq_ok_iff.mp (keyLeaf_of_mem_keys h hk).2
  rw [heq]
  exact ValueType.resolve_wrapper_ne _

end Types

section Constructors

variable {keys : List KeyLeaf}

def keyTypes (keys : List KeyLeaf) (form : ValueForm) : List String :=
  keys.map fun key => key.type.inForm form

theorem keyTypes_ne {key : KeyLeaf} (hk : key ∈ keys) {first second : ValueForm}
    (h : key.type.inForm first ≠ key.type.inForm second) :
    keyTypes keys first ≠ keyTypes keys second := by
  intro heq
  exact h (List.map_inj_left.mp heq key hk)

theorem not_allStrings_iff : ¬ allStrings keys ↔ ∃ key ∈ keys, ¬ key.type.isString := by
  simp [allStrings]

-- The string and the primitive form differ in a key that is not a string.
theorem keyTypes_string_ne_primitive (h : ¬ allStrings keys) :
    keyTypes keys .string ≠ keyTypes keys .primitive := by
  obtain ⟨key, hk, hplain⟩ := not_allStrings_iff.mp h
  have hne : key.type.primitive ≠ "String" := by simpa [ValueType.isString] using hplain
  exact keyTypes_ne hk hne.symm

theorem Node.constructors_some (topLevel : Bool) (keys : List KeyLeaf) :
    constructors topLevel (some keys) =
      [⟨.noArgs, [], topLevel⟩, ⟨.keyed .wrapped, keys, topLevel⟩,
        ⟨.keyed .string, keys, topLevel⟩] ++
      if allStrings keys then [] else [⟨.keyed .primitive, keys, topLevel⟩] := by
  simp only [constructors, constructorModes]
  cases allStrings keys with
  | false => rfl
  | true => rfl

theorem Node.paramTypes_constructors_nodup (hne : keys ≠ [])
    (hforms : ∀ key ∈ keys, key.type.wrapper ≠ "String" ∧ key.type.wrapper ≠ key.type.primitive)
    (topLevel : Bool) :
    ((constructors topLevel (some keys)).map Constructor.paramTypes).Nodup := by
  obtain ⟨key, hk⟩ := List.exists_mem_of_ne_nil keys hne
  have hempty (form : ValueForm) : keyTypes keys form ≠ [] := by
    intro heq
    exact hne (List.map_eq_nil_iff.mp heq)
  have hstring : keyTypes keys .wrapped ≠ keyTypes keys .string := keyTypes_ne hk (hforms key hk).1
  have hprimitive : keyTypes keys .wrapped ≠ keyTypes keys .primitive :=
    keyTypes_ne hk (hforms key hk).2
  rw [constructors_some]
  by_cases hall : allStrings keys
  · rw [if_pos hall]
    show [[], keyTypes keys .wrapped, keyTypes keys .string].Nodup
    simp [(hempty _).symm, hstring]
  · have hplain := keyTypes_string_ne_primitive hall
    rw [if_neg hall]
    show [[], keyTypes keys .wrapped, keyTypes keys .string, keyTypes keys .primitive].Nodup
    simp [(hempty _).symm, hstring, hprimitive, hplain]

end Constructors

-- A class has a method that is called like this and returns this type.
def ClassSpec.Returns (c : ClassSpec) (call type : String) : Prop :=
  ∃ a ∈ c.accessors, ∃ body, Java.Declares (Java.accessorLines c a) (type ++ " " ++ call) body

-- The constructors, the copying methods and the getters of the class of a list all go by the
-- same keys.
structure KeysAgree (c : ClassSpec) (keys : List KeyLeaf) : Prop where
  keyed : keys ≠ []
  constructors : c.constructors.map (fun made => (made.mode, made.args)) =
    [(.noArgs, []), (.keyed .wrapped, keys), (.keyed .string, keys)] ++
      if ∃ key ∈ keys, ¬ key.type.isString then [(.keyed .primitive, keys)] else []
  declared : ∀ made ∈ c.constructors, ∃ body,
    Java.Declares (Java.constructorLines c made) (c.name ++ "(" ++ made.params ++ ")") body
  distinct : (c.constructors.map Constructor.paramTypes).Nodup
  copies : c.copies.map CopyMethod.shallow = [false, true] ∧
    ∀ copy ∈ c.copies, copy.keys = keys.map KeyLeaf.identifier
  readers : ∀ key ∈ keys, ∃ a ∈ c.accessors, a.kind = .keyLeaf ∧ a.name = key.identifier ∧
    a.type = some key.type ∧ a.operation = .get .none
  copied : ∀ copy ∈ c.copies, ∃ made ∈ c.constructors, made.mode = .keyed .wrapped ∧
    List.Forall₂ c.Returns (copy.keys.map Java.getterCall) made.paramTypes ∧
    ∃ signature body, Java.Declares (Java.copyLines c copy) signature body ∧
      ∃ line ∈ body, Java.Creates line c.name (copy.keys.map Java.getterCall)

-- What class `p` does for class `c` nested in it: it goes by the keys of `c`, and what it makes
-- is made by a constructor of `c`.
structure Serves (p c : ClassSpec) (block : List Accessor) : Prop where
  member : ∀ a ∈ block, a.name = c.tag ∧ (a.kind = .list ↔ c.kind = .list)
  keys : ∀ a ∈ block, ∀ keys form, a.operation.lookup? = some (.keys keys form) →
    c.keys = some keys ∧ (form = .wrapped ∨ form = .string)
  offered : ∀ keys, c.keys = some keys → ∀ form ∈ [ValueForm.wrapped, ValueForm.string],
    ∀ operation ∈ [Operation.get, Operation.addChild, Operation.delete],
      ∃ a ∈ block, a.operation = operation (.keys keys form)
  created : ∀ a ∈ block, ∀ lookup, a.operation = .addChild lookup → lookup ≠ .childObject →
    ∃ made ∈ c.constructors, ∃ body,
      Java.Declares (Java.accessorLines p a)
        (c.name ++ " add" ++ c.name ++ "(" ++ made.params ++ ")") body ∧
      ∃ line ∈ body, Java.Creates line c.name made.paramNames

namespace Node

variable {n : Node} {context : ModuleContext} {topLevel : Bool} {path : String} {c : ClassSpec}

theorem accessors_subset {keyNames : List String} {nodes : List Node}
    {blocks : List (List Accessor)} (h : nodes.mapM (accessors keyNames) = .ok blocks)
    {child : Node} (hchild : child ∈ nodes) {block : List Accessor}
    (hblock : accessors keyNames child = .ok block) : block ⊆ blocks.flatten := by
  obtain ⟨found, hfound, heq⟩ := (Except.mapM_eq_ok_iff.mp h).flip.exists_of_mem_right hchild
  obtain rfl := Except.ok.inj (hblock.symm.trans heq)
  intro a ha
  exact List.mem_flatten.mpr ⟨block, hfound, ha⟩

-- The getter of a key reads the leaf that defines the key.
theorem getter_mem_accessors (h : n.classSpec context topLevel path = .ok c)
    {keys : List KeyLeaf} (hkeys : n.keys = .ok keys) {key : KeyLeaf} (hk : key ∈ keys) :
    ⟨.keyLeaf, key.identifier, some key.type, .get .none, false, false⟩ ∈ c.accessors := by
  obtain ⟨blocks, _, hblocks, -, rfl⟩ := classSpec_eq_ok_iff.mp h
  obtain ⟨hname, hleaf⟩ := keyLeaf_of_mem_keys hkeys hk
  obtain ⟨leaf, hfound, heq⟩ := keyLeaf_eq_ok_iff.mp hleaf
  obtain ⟨hchild, hkeyword, harg⟩ := mem_children_of_findNamed? hfound
  have hblock : accessors n.keyNames leaf =
      .ok (Accessor.ofLeaf leaf.arg leaf.valueType (n.keyNames.contains leaf.arg)) := by
    simp only [accessors, hkeyword]
    rfl
  have hcontains : n.keyNames.contains key.identifier = true := by simpa using hname
  rw [harg, hcontains] at hblock
  apply accessors_subset hblocks hchild hblock
  rw [heq]
  exact List.mem_singleton_self _

theorem keys_of_classSpec (h : n.classSpec context topLevel path = .ok c) {keys : List KeyLeaf}
    (hkeys : c.keys = some keys) : n.keys = .ok keys ∧
      c.constructors = constructors topLevel (some keys) ∧ c.copies = copies (some keys) := by
  obtain ⟨_, found, _, hfound, rfl⟩ := classSpec_eq_ok_iff.mp h
  obtain rfl : found = some keys := hkeys
  exact ⟨(classKeys_eq_ok_some_iff.mp hfound).2, rfl, rfl⟩

-- The getters that a copy calls return what the constructor with wrapped keys takes.
theorem getters_of_classSpec (h : n.classSpec context topLevel path = .ok c) {keys : List KeyLeaf}
    (hkeys : n.keys = .ok keys) :
    List.Forall₂ c.Returns ((keys.map KeyLeaf.identifier).map Java.getterCall)
      (keyTypes keys .wrapped) := by
  rw [List.map_map, keyTypes, List.forall₂_map_left_iff, List.forall₂_map_right_iff,
    List.forall₂_same]
  intro key hk
  exact ⟨_, getter_mem_accessors h hkeys hk, Java.getLines_declares c key.identifier key.type⟩

theorem classSpec_keysAgree (h : n.classSpec context topLevel path = .ok c) {keys : List KeyLeaf}
    (hkeys : c.keys = some keys) : KeysAgree c keys := by
  obtain ⟨hlist, hmade, hcopies⟩ := keys_of_classSpec h hkeys
  obtain ⟨_, _, _, hne⟩ := keys_eq_ok_iff.mp hlist
  have hcopied : ∀ copy ∈ c.copies, copy.keys = keys.map KeyLeaf.identifier := by
    rw [hcopies]
    simp [copies]
  have hwrapped : ⟨.keyed .wrapped, keys, topLevel⟩ ∈ c.constructors := by
    rw [hmade, constructors_some]
    simp
  exact {
    keyed := hne
    constructors := by
      rw [hmade, constructors_some]
      by_cases hall : allStrings keys
      · have hstrings : ¬ ∃ key ∈ keys, ¬ key.type.isString :=
          fun hplain => not_allStrings_iff.mpr hplain hall
        rw [if_pos hall, if_neg hstrings]
        rfl
      · rw [if_neg hall, if_pos (not_allStrings_iff.mp hall)]
        rfl
    declared := fun made _ => Java.constructorLines_declares c made
    distinct := by
      rw [hmade]
      exact paramTypes_constructors_nodup hne (fun _ hk => wrapper_ne_of_mem_keys hlist hk) topLevel
    copies := ⟨by rw [hcopies]; rfl, hcopied⟩
    readers := fun key hk =>
      ⟨_, getter_mem_accessors h hlist hk, rfl, rfl, rfl, rfl⟩
    copied := fun copy hcopy => by
      have hkeyed : copy.keys ≠ [] := by
        rw [hcopied copy hcopy]
        simpa using hne
      refine ⟨_, hwrapped, rfl, ?_, Java.copyLines_creates c copy hkeyed⟩
      rw [hcopied copy hcopy]
      exact getters_of_classSpec h hlist }

end Node

theorem Accessor.creates_nested {p c : ClassSpec} {a : Accessor} {made : Constructor}
    {lookup : Lookup} (hname : c.name = Java.className c.tag) (ha : a.name = c.tag)
    (hadd : a.operation = .addChild lookup)
    (hmade : (lookup = .none ∧ made.mode = .noArgs) ∨
      ∃ form, lookup = .keys made.args form ∧ made.mode = .keyed form) :
    ∃ body, Java.Declares (Java.accessorLines p a)
        (c.name ++ " add" ++ c.name ++ "(" ++ made.params ++ ")") body ∧
      ∃ line ∈ body, Java.Creates line c.name made.paramNames := by
  have hlines : Java.accessorLines p a =
      Java.addLines (Java.accessNames p a) a.hasField lookup := by
    simp only [Java.accessorLines, hadd]
  have hcls : (Java.accessNames p a).cls = c.name := by
    rw [hname, ← ha]
    rfl
  rw [hlines, ← hcls]
  exact Java.addLines_creates _ _ made hmade

theorem Accessor.lookup_of_mem_ofContainer {name : String} {a : Accessor}
    (ha : a ∈ ofContainer name) {lookup : Lookup} (h : a.operation.lookup? = some lookup) :
    lookup = .childObject ∨ lookup = .none := by
  have hmem : lookup ∈ (ofContainer name).filterMap fun a => a.operation.lookup? :=
    List.mem_filterMap.mpr ⟨a, ha, h⟩
  change lookup ∈ [Lookup.childObject, .none, .none] at hmem
  simpa using hmem

theorem Accessor.lookup_of_mem_ofList {name : String} {keys : List KeyLeaf} {a : Accessor}
    (ha : a ∈ ofList name keys) {lookup : Lookup} (h : a.operation.lookup? = some lookup) :
    lookup = .childObject ∨ lookup = .none ∨
      ∃ form, lookup = .keys keys form ∧ (form = .wrapped ∨ form = .string) := by
  have hmem : lookup ∈ (ofList name keys).filterMap fun a => a.operation.lookup? :=
    List.mem_filterMap.mpr ⟨a, ha, h⟩
  change lookup ∈ [.keys keys .wrapped, .keys keys .string, .childObject, .keys keys .wrapped,
    .keys keys .string, .none, .keys keys .wrapped, .keys keys .string] at hmem
  simp only [List.mem_cons, List.not_mem_nil, or_false] at hmem
  grind

theorem Serves.ofContainer (p : ClassSpec) {c : ClassSpec}
    (hname : c.name = Java.className c.tag) (hkind : c.kind ≠ .list) (hkeys : c.keys = none)
    (hmade : ∃ made ∈ c.constructors, made.mode = .noArgs) :
    Serves p c (Accessor.ofContainer c.tag) where
  member a ha := by
    obtain ⟨operation, -, rfl⟩ := List.mem_map.mp ha
    simp [hkind]
  keys a ha keys form hlookup := by
    rcases Accessor.lookup_of_mem_ofContainer ha hlookup with hobject | hnone
    · cases hobject
    · cases hnone
  offered keys hsome := by
    rw [hkeys] at hsome
    simp at hsome
  created a ha lookup hadd hne := by
    obtain ⟨made, hmem, hmode⟩ := hmade
    obtain ⟨operation, -, rfl⟩ := List.mem_map.mp ha
    have hlookup : lookup = .none :=
      (Accessor.lookup_of_mem_ofContainer ha (by rw [hadd]; rfl)).resolve_left hne
    exact ⟨made, hmem, Accessor.creates_nested hname rfl hadd (.inl ⟨hlookup, hmode⟩)⟩

theorem Serves.ofList (p : ClassSpec) {c : ClassSpec} {keys : List KeyLeaf}
    (hname : c.name = Java.className c.tag) (hkind : c.kind = .list) (hkeys : c.keys = some keys)
    {topLevel : Bool} (hmade : c.constructors = Node.constructors topLevel (some keys)) :
    Serves p c (Accessor.ofList c.tag keys) where
  member a ha := by
    obtain ⟨operation, -, rfl⟩ := List.mem_map.mp ha
    simp [hkind]
  keys a ha used form hlookup := by
    rcases Accessor.lookup_of_mem_ofList ha hlookup with hobject | hnone | ⟨_, heq, hform⟩
    · cases hobject
    · cases hnone
    · cases heq
      exact ⟨hkeys, hform⟩
  offered used hsome form hform operation hoperation := by
    obtain rfl : keys = used := Option.some.inj (hkeys.symm.trans hsome)
    refine ⟨_, List.mem_map_of_mem ?_, rfl⟩
    simp only [List.mem_cons, List.not_mem_nil, or_false] at hform hoperation
    rcases hform with rfl | rfl <;> rcases hoperation with rfl | rfl | rfl <;> simp
  created a ha lookup hadd hne := by
    have hlookup := (Accessor.lookup_of_mem_ofList ha (by rw [hadd]; rfl)).resolve_left hne
    obtain ⟨operation, -, rfl⟩ := List.mem_map.mp ha
    rw [hmade, Node.constructors_some]
    rcases hlookup with rfl | ⟨form, rfl, hform⟩
    · exact ⟨⟨.noArgs, [], topLevel⟩, by simp,
        Accessor.creates_nested hname rfl hadd (.inl ⟨rfl, rfl⟩)⟩
    · refine ⟨⟨.keyed form, keys, topLevel⟩, ?_,
        Accessor.creates_nested hname rfl hadd (.inr ⟨form, rfl, rfl⟩)⟩
      rcases hform with rfl | rfl <;> simp

namespace Node

variable {n : Node} {context : ModuleContext} {topLevel : Bool} {path : String} {c : ClassSpec}

-- The block of methods that a class has for a class nested in it fits that class.
theorem classSpec_serves (p : ClassSpec) (h : n.classSpec context topLevel path = .ok c) :
    Serves p c (Accessor.ofNested c) := by
  obtain ⟨_, keys, _, _, rfl⟩ := classSpec_eq_ok_iff.mp h
  cases keys with
  | none => exact Serves.ofContainer p rfl (by simp) rfl ⟨_, List.mem_singleton_self _, rfl⟩
  | some keys => exact Serves.ofList p rfl rfl rfl rfl

theorem accessors_of_hasClass (keyNames : List String)
    (h : n.classSpec context topLevel path = .ok c) (hk : n.keyword.hasClass) :
    accessors keyNames n = .ok (Accessor.ofNested c) := by
  have hkind := classSpec_kind hk h
  obtain ⟨_, keys, _, hkeys, rfl⟩ := classSpec_eq_ok_iff.mp h
  cases keys with
  | none =>
      have hkeyword : n.keyword = .container := by
        rcases hkind with ⟨hkeyword, -⟩ | ⟨-, hlist⟩
        · exact hkeyword
        · cases hlist
      simp only [accessors, hkeyword]
      rfl
  | some keys =>
      obtain ⟨hkeyword, hlist⟩ := classKeys_eq_ok_some_iff.mp hkeys
      simp only [accessors, hkeyword, hlist]
      rfl

theorem filter_isNested_accessors {keyNames : List String} {block : List Accessor}
    (h : accessors keyNames n = .ok block) (hk : ¬ n.keyword.hasClass) :
    block.filter Accessor.isNested = [] := by
  unfold accessors at h
  split at h
  · rename_i hkeyword
    simp [hkeyword, Keyword.hasClass] at hk
  · rename_i hkeyword
    simp [hkeyword, Keyword.hasClass] at hk
  · obtain rfl := Except.ok.inj h
    unfold Accessor.ofLeaf
    split
    · rfl
    · exact Accessor.filter_isNested_map rfl
  · obtain rfl := Except.ok.inj h
    exact Accessor.filter_isNested_map rfl
  · obtain rfl := Except.ok.inj h
    rfl

-- In order, the methods of a class for containers and lists are those for the classes nested
-- in it.
theorem filter_isNested_flatten {keyNames : List String} {nodes : List Node}
    {blocks : List (List Accessor)} {trees : List ClassTree}
    (hblocks : List.Forall₂ (fun child block => accessors keyNames child = .ok block) nodes blocks)
    (htrees : classTrees context topLevel path nodes = .ok trees) :
    blocks.flatten.filter Accessor.isNested =
      trees.flatMap fun tree => Accessor.ofNested tree.spec := by
  induction hblocks generalizing trees with
  | nil =>
      rw [classTrees] at htrees
      obtain rfl := Except.ok.inj htrees
      rfl
  | @cons child block rest blocks hblock _ ih =>
      cases child with
      | mk id keyword arg children =>
          rw [List.flatten_cons, List.filter_append]
          by_cases hk : keyword.hasClass
          · obtain ⟨nested, spec, others, -, hspec, hothers, rfl⟩ :=
              classTrees_cons_of_hasClass hk htrees
            have hnested := accessors_of_hasClass keyNames hspec hk
            obtain rfl := Except.ok.inj (hblock.symm.trans hnested)
            rw [Accessor.filter_isNested_ofNested, ih hothers, List.flatMap_cons]
            rfl
          · rw [classTrees_cons_of_not_hasClass hk] at htrees
            rw [filter_isNested_accessors hblock hk, ih htrees, List.nil_append]

-- Every class inside some statements has its own statement, and so have the classes inside it.
theorem exists_of_mem_subtreesAll {nodes : List Node} {trees : List ClassTree}
    (h : classTrees context topLevel path nodes = .ok trees) {tree : ClassTree}
    (htree : tree ∈ ClassTree.subtreesAll trees) :
    ∃ (n : Node) (topLevel : Bool) (path inner : String),
      n.classSpec context topLevel path = .ok tree.spec ∧
      classTrees context false inner n.children = .ok tree.children := by
  induction nodes using forest_induction generalizing topLevel path trees with
  | nil =>
      rw [classTrees] at h
      obtain rfl := Except.ok.inj h
      simp [ClassTree.subtreesAll] at htree
  | cons id keyword arg children rest ihc ihr =>
      by_cases hk : keyword.hasClass
      · obtain ⟨nested, spec, others, hnested, hspec, hothers, rfl⟩ :=
          classTrees_cons_of_hasClass hk h
        rw [ClassTree.subtreesAll, ClassTree.subtrees, List.mem_append, List.mem_cons] at htree
        rcases htree with (rfl | htree) | htree
        · exact ⟨_, topLevel, path, _, hspec, hnested⟩
        · exact ihc hnested htree
        · exact ihr hothers htree
      · rw [classTrees_cons_of_not_hasClass hk] at h
        exact ihr h htree

end Node

-- A class goes by its own keys, and by the keys of the classes nested in it. The class of a
-- module has no methods for those.
structure TreeAgrees (tree : ClassTree) : Prop where
  own : tree.spec.kind = .list → ∃ keys, tree.spec.keys = some keys ∧ KeysAgree tree.spec keys
  nested : tree.spec.kind ≠ .module →
    tree.spec.accessors.filter Accessor.isNested =
      (tree.children.flatMap fun child => Accessor.ofNested child.spec) ∧
    ∀ child ∈ tree.children, Serves tree.spec child.spec (Accessor.ofNested child.spec)

theorem Node.classTrees_serves {context : ModuleContext} {topLevel : Bool} {path : String}
    {nodes : List Node} {trees : List ClassTree}
    (h : classTrees context topLevel path nodes = .ok trees) (p : ClassSpec) {child : ClassTree}
    (hchild : child ∈ trees) : Serves p child.spec (Accessor.ofNested child.spec) := by
  obtain ⟨n, _, _, _, hspec, -⟩ :=
    exists_of_mem_subtreesAll h (ClassTree.mem_subtreesAll_of_mem hchild)
  exact classSpec_serves p hspec

theorem Node.classTrees_agree {context : ModuleContext} {topLevel : Bool} {path : String}
    {nodes : List Node} {trees : List ClassTree}
    (h : classTrees context topLevel path nodes = .ok trees) {tree : ClassTree}
    (htree : tree ∈ ClassTree.subtreesAll trees) : TreeAgrees tree := by
  obtain ⟨n, _, _, _, hspec, hnested⟩ := exists_of_mem_subtreesAll h htree
  constructor
  · intro hkind
    obtain ⟨keys, hkeys, -⟩ := classSpec_keys_of_kind hspec hkind
    exact ⟨keys, hkeys, classSpec_keysAgree hspec hkeys⟩
  · intro _
    refine ⟨?_, fun child => classTrees_serves hnested tree.spec⟩
    obtain ⟨blocks, _, hblocks, -, heq⟩ := classSpec_eq_ok_iff.mp hspec
    rw [heq]
    exact filter_isNested_flatten (Except.mapM_eq_ok_iff.mp hblocks) hnested

theorem keys_agree_across_classes (forest : Forest) (withSchema : Bool) (compilation : Compilation)
    (h : forest.compile withSchema = .ok compilation) :
    ∀ m ∈ compilation.modules,
      m.model.root.walk = m.model.root.subtrees.map ClassTree.spec ∧
      ∀ tree ∈ m.model.root.subtrees, TreeAgrees tree := by
  intro m hm
  refine ⟨ClassTree.walk_eq_map_subtrees _, ?_⟩
  obtain ⟨root, -, hroot⟩ := (Forest.compile_ok h).1.exists_of_mem_right hm
  obtain ⟨_, _, children, -, -, hchildren, rfl⟩ := Node.compileModule_eq_ok_iff.mp hroot
  intro tree htree
  rcases List.mem_cons.mp htree with rfl | htree
  · exact ⟨nofun, fun hkind => absurd rfl hkind⟩
  · exact Node.classTrees_agree hchildren htree

-- Users with a numeric key, so that all four constructors are there.
def usersInContainer : Statement :=
  .mk .module "m" [.mk .namespaceUri "urn:m" [], .mk .modulePrefix "p" [],
    .mk .container "users" [.mk .list "user" [.mk .key "uid name" [],
      .mk .leaf "uid" [.mk .type "uint32" []], .mk .leaf "name" [.mk .type "string" []]]]]

theorem keys_agree_usersInContainer :
    ∃ compilation, Forest.compile [usersInContainer] false = .ok compilation ∧
      (compilation.modules.flatMap fun m => m.model.root.walk.map fun c =>
        (c.name, c.constructors.map Constructor.paramTypes)) =
        [("P", []), ("Users", [[]]), ("User", [[],
          ["com.tailf.confm.xs.UnsignedInt", "com.tailf.confm.xs.String"],
          ["String", "String"], ["long", "String"]])] ∧
      ∀ m ∈ compilation.modules,
        m.model.root.walk = m.model.root.subtrees.map ClassTree.spec ∧
        ∀ tree ∈ m.model.root.subtrees, TreeAgrees tree := by
  have h : Forest.compile [usersInContainer] false = .ok _ := rfl
  exact ⟨_, h, by decide +kernel, keys_agree_across_classes _ _ _ h⟩

end YangBinding
