import YangBinding.Proofs.Class.Origin

namespace YangBinding

namespace Node

-- The names in `key` statements that define no key: those behind the first `key` of a list, and
-- all in any other statement.
def strayKeyNames (n : Node) : List String :=
  (if n.keyword = .list then (n.search .key).tail else n.search .key).flatMap fun key =>
    Text.words key.arg

theorem map_identifier_of_mapM_keyLeaf {list : Node} {names : List String} {keys : List KeyLeaf}
    (h : names.mapM list.keyLeaf = .ok keys) : keys.map KeyLeaf.identifier = names := by
  have hleaves := Except.mapM_eq_ok_iff.mp h
  induction hleaves with
  | nil => rfl
  | cons hleaf htail ih =>
      obtain ⟨leaf, -, rfl⟩ := keyLeaf_eq_ok_iff.mp hleaf
      rw [List.map_cons, ih (Except.mapM_eq_ok_iff.mpr htail)]

-- The keys of a list come first among the names that its `key` statements give.
theorem keyNames_of_keys {list : Node} {keys : List KeyLeaf} (hlist : list.keyword = .list)
    (h : list.keys = .ok keys) :
    list.keyNames = keys.map KeyLeaf.identifier ++ list.strayKeyNames := by
  obtain ⟨key, hfind, hkeys, -⟩ := keys_eq_ok_iff.mp h
  have hhead : (list.search .key).head? = some key := by
    rw [search, List.head?_filter]
    exact hfind
  obtain ⟨others, hsearch⟩ := List.head?_eq_some_iff.mp hhead
  rw [keyNames, strayKeyNames, if_pos hlist, hsearch, List.flatMap_cons, List.tail_cons,
    map_identifier_of_mapM_keyLeaf hkeys]

theorem keyNames_of_not_list {n : Node} (hlist : n.keyword ≠ .list) :
    n.keyNames = n.strayKeyNames := by
  rw [keyNames, strayKeyNames, if_neg hlist]

theorem args_of_mem_constructors {topLevel : Bool} {keys : Option (List KeyLeaf)}
    {made : Constructor} (h : made ∈ constructors topLevel keys) :
    made.args = if made.mode = .noArgs then [] else keys.getD [] := by
  obtain ⟨mode, -, rfl⟩ := List.mem_map.mp h
  rfl

end Node

-- How the names that a class gives for its keys relate to the keys that its constructors set.
-- Stray names are all that can set them apart, and they lock the leaves that they name.
structure KeysNamed (s : Node) (c : ClassSpec) : Prop where
  kind : c.kind = .container ∨ c.kind = .list
  names : c.keyNames = (c.keys.getD []).map KeyLeaf.identifier ++ s.strayKeyNames
  list : c.kind = .list → ∃ keys, c.keys = some keys ∧
    (c.keyNames = keys.map KeyLeaf.identifier ↔ s.strayKeyNames = [])
  container : c.kind = .container → (c.keyNames = [] ↔ s.strayKeyNames = [])
  readers : s.strayKeyNames = [] → ∀ a ∈ c.accessors, a.kind = .keyLeaf → c.kind = .list ∧
    ∀ made ∈ c.constructors, made.mode ≠ .noArgs → ∃ key ∈ made.args, key.identifier = a.name
  locked : ∀ a ∈ c.accessors, a.kind = .keyLeaf →
    a.name ∉ (c.keys.getD []).map KeyLeaf.identifier → a.name ∈ s.strayKeyNames ∧
      ∀ made ∈ c.constructors, ∀ key ∈ made.args, key.identifier ≠ a.name

namespace Node

variable {s : Node} {context : ModuleContext} {topLevel : Bool} {path : String} {c : ClassSpec}

theorem classSpec_keyNames (h : s.classSpec context topLevel path = .ok c) :
    c.keyNames = (c.keys.getD []).map KeyLeaf.identifier ++ s.strayKeyNames := by
  obtain ⟨_, keys, _, hkeys, rfl⟩ := classSpec_eq_ok_iff.mp h
  cases keys with
  | none => exact keyNames_of_not_list (classKeys_eq_ok_none_iff.mp hkeys)
  | some keys =>
      obtain ⟨hlist, hfound⟩ := classKeys_eq_ok_some_iff.mp hkeys
      exact keyNames_of_keys hlist hfound

theorem classSpec_reader (h : s.classSpec context topLevel path = .ok c) {a : Accessor}
    (ha : a ∈ c.accessors) (hkind : a.kind = .keyLeaf) : a.name ∈ c.keyNames := by
  obtain ⟨blocks, _, hblocks, _, rfl⟩ := classSpec_eq_ok_iff.mp h
  obtain ⟨block, hblock, ha⟩ := List.mem_flatten.mp ha
  obtain ⟨child, -, hchild⟩ := (Except.mapM_eq_ok_iff.mp hblocks).exists_of_mem_right hblock
  exact (of_mem_accessors hchild ha).2.2 hkind

theorem classSpec_args (h : s.classSpec context topLevel path = .ok c) {made : Constructor}
    (hmade : made ∈ c.constructors) :
    made.args = if made.mode = .noArgs then [] else c.keys.getD [] := by
  obtain ⟨_, _, _, _, rfl⟩ := classSpec_eq_ok_iff.mp h
  exact args_of_mem_constructors hmade

theorem classSpec_keysNamed (hk : s.keyword.hasClass)
    (h : s.classSpec context topLevel path = .ok c) : KeysNamed s c := by
  have hnames := classSpec_keyNames h
  have hcontainer (hkind : c.kind = .container) : c.keys = none := by
    obtain ⟨_, keys, _, _, rfl⟩ := classSpec_eq_ok_iff.mp h
    cases keys with
    | none => rfl
    | some keys => cases hkind
  have hkinds : c.kind = .container ∨ c.kind = .list := by
    rcases classSpec_kind hk h with ⟨-, hkind⟩ | ⟨-, hkind⟩
    · exact .inl hkind
    · exact .inr hkind
  refine ⟨hkinds, hnames, ?_, ?_, ?_, ?_⟩
  · intro hkind
    obtain ⟨keys, hkeys, -⟩ := classSpec_keys_of_kind h hkind
    rw [hkeys, Option.getD_some] at hnames
    exact ⟨keys, hkeys, by simp [hnames]⟩
  · intro hkind
    rw [hnames, hcontainer hkind]
    rfl
  · intro hstray a ha hreader
    have hname := classSpec_reader h ha hreader
    rw [hnames, hstray, List.append_nil] at hname
    constructor
    · refine hkinds.resolve_left fun hkind => ?_
      simp [hcontainer hkind] at hname
    · intro made hmade hmode
      rw [classSpec_args h hmade, if_neg hmode]
      exact List.mem_map.mp hname
  · intro a ha hreader hkey
    have hname := classSpec_reader h ha hreader
    rw [hnames, List.mem_append] at hname
    refine ⟨hname.resolve_left hkey, fun made hmade key hmem heq => hkey ?_⟩
    rw [classSpec_args h hmade] at hmem
    split at hmem
    · simp at hmem
    · exact heq ▸ List.mem_map_of_mem hmem

end Node

theorem key_names_split (forest : Forest) (withSchema : Bool) (compilation : Compilation)
    (h : forest.compile withSchema = .ok compilation) :
    List.Forall₂ (fun root m => List.Forall₂ (fun route c => KeysNamed (route.target root) c)
        (Node.routesInto Keyword.hasClass [] root.children)
        (ClassTree.walkAll m.model.root.children))
      (forest.roots.filter fun root => root.keyword = .module) compilation.modules := by
  refine (Forest.forall₂_yields h).imp fun root m hm => ?_
  obtain ⟨_, _, context, -, -, hyields⟩ := hm
  rw [ClassTree.walkAll_eq_map_subtreesAll, List.forall₂_map_right_iff]
  refine hyields.imp fun route tree hyield => ?_
  cases hyield with
  | statement hk hspec _ => exact Node.classSpec_keysNamed hk hspec

-- Two `key` statements in a list. The second one locks a leaf.
def twoKeysInList : Statement :=
  .mk .module "m" [.mk .namespaceUri "urn:m" [], .mk .modulePrefix "p" [],
    .mk .list "b" [.mk .key "k" [], .mk .leaf "k" [], .mk .key "l" [], .mk .leaf "l" []]]

theorem key_names_split_twoKeysInList :
    ∃ compilation, Forest.compile [twoKeysInList] false = .ok compilation ∧
      ((Forest.roots [twoKeysInList]).flatMap fun root =>
        (Node.routesInto Keyword.hasClass [] root.children).map fun route =>
          (route.target root).strayKeyNames) = [["l"]] ∧
      (compilation.modules.flatMap fun m => (ClassTree.walkAll m.model.root.children).map fun c =>
        (c.keyNames, (c.keys.getD []).map KeyLeaf.identifier)) = [(["k", "l"], ["k"])] ∧
      List.Forall₂ (fun root m => List.Forall₂ (fun route c => KeysNamed (route.target root) c)
          (Node.routesInto Keyword.hasClass [] root.children)
          (ClassTree.walkAll m.model.root.children))
        ((Forest.roots [twoKeysInList]).filter fun root => root.keyword = .module)
        compilation.modules := by
  have h : Forest.compile [twoKeysInList] false = .ok _ := rfl
  exact ⟨_, h, by decide +kernel, by decide +kernel, key_names_split _ _ _ h⟩

-- A `key` statement in a container.
def keyInContainer : Statement :=
  .mk .module "m" [.mk .namespaceUri "urn:m" [], .mk .modulePrefix "p" [],
    .mk .container "c" [.mk .key "x" [], .mk .leaf "x" [.mk .type "string" []]]]

-- The class of the container has key names, and its leaf can be read but not set.
theorem container_with_key_names :
    ∃ compilation, Forest.compile [keyInContainer] false = .ok compilation ∧
      ∃ m ∈ compilation.modules, ∃ c ∈ ClassTree.walkAll m.model.root.children,
        c.kind = .container ∧ c.keyNames = ["x"] ∧
        (c.accessors.map fun a => (a.kind, a.name, a.operation)) = [(.keyLeaf, "x", .get .none)] ∧
        c.constructors.flatMap Constructor.args = [] := by
  have h : Forest.compile [keyInContainer] false = .ok _ := rfl
  exact ⟨_, h, _, List.mem_cons_self, _, List.mem_cons_self, by decide +kernel, by decide +kernel,
    by decide +kernel, by decide +kernel⟩

end YangBinding
