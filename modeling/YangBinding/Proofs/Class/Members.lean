import YangBinding.Proofs.Class.Coverage

namespace YangBinding

-- Methods of a class that stand for one child.
structure MemberBlock where
  name : String
  kind : MemberKind
  accessors : List Accessor
  accessors_ne_nil : accessors ≠ []
  uniform : ∀ a ∈ accessors, a.name = name ∧ a.kind = kind

-- The block of a child is called after it and of its kind, and only a container has a field.
structure MemberBlock.Fits (child : Node) (block : MemberBlock) : Prop where
  name : block.name = child.arg
  kind : block.kind ∈ child.keyword.memberKinds
  hasField : ∀ a ∈ block.accessors, a.hasField ↔ block.kind = .container

-- How the parts of a class follow the children of its statement: the data nodes make up the
-- members, and what is neither data nor a key is skipped.
structure MirrorsMembers (s : Node) (tree : ClassTree) (blocks : List MemberBlock) : Prop where
  fits : List.Forall₂ MemberBlock.Fits (s.children.filter fun child => child.keyword.isData) blocks
  accessors : tree.spec.accessors = blocks.flatMap MemberBlock.accessors
  childrenNames : tree.spec.childrenNames = blocks.map MemberBlock.name
  fields : tree.spec.fields =
    (blocks.filter fun block => block.kind = .container).map MemberBlock.name
  nested : (tree.children.map fun inner => inner.spec.tag) =
    (blocks.filter fun block => block.kind = .container ∨ block.kind = .list).map MemberBlock.name
  addChildSupport : tree.spec.addChildSupport ↔ tree.children ≠ []
  skipped : tree.spec.skipped = (s.children.filter fun child =>
    ¬ child.keyword.isData ∧ child.keyword ≠ .key).map fun child => ⟨child.keyword, child.arg⟩

namespace Node

variable {keyNames : List String} {child : Node} {methods : List Accessor}

-- All accessors for a child are of one kind, and those of a container alone have a field.
theorem accessors_uniform (h : accessors keyNames child = .ok methods) :
    ∃ kind, ∀ a ∈ methods, a.kind = kind ∧ (a.hasField ↔ kind = .container) := by
  unfold accessors at h
  split at h
  · obtain ⟨keys, -, h⟩ := Except.bind_eq_ok_iff.mp h
    obtain rfl := Except.ok.inj h
    exact ⟨.list, by simp [Accessor.ofList]⟩
  · obtain rfl := Except.ok.inj h
    exact ⟨.container, by simp [Accessor.ofContainer]⟩
  · obtain rfl := Except.ok.inj h
    unfold Accessor.ofLeaf
    split
    · exact ⟨.keyLeaf, by simp [Accessor.ofKeyLeaf]⟩
    · refine ⟨.leaf, fun a ha => ?_⟩
      obtain ⟨_, -, rfl⟩ := List.mem_map.mp ha
      simp
  · obtain rfl := Except.ok.inj h
    refine ⟨.leafList, fun a ha => ?_⟩
    obtain ⟨_, -, rfl⟩ := List.mem_map.mp ha
    simp
  · obtain rfl := Except.ok.inj h
    exact ⟨.leaf, by simp⟩

theorem exists_block (h : accessors keyNames child = .ok methods)
    (hdata : child.keyword.isData) :
    ∃ block : MemberBlock, block.accessors = methods ∧ block.Fits child := by
  have hne := accessors_ne_nil h hdata
  obtain ⟨a, ha⟩ := List.exists_mem_of_ne_nil _ hne
  obtain ⟨kind, hkind⟩ := accessors_uniform h
  have hfits := (of_mem_accessors h ha).2.1
  rw [(hkind a ha).1] at hfits
  let block : MemberBlock := {
    name := child.arg
    kind := kind
    accessors := methods
    accessors_ne_nil := hne
    uniform := fun b hb => ⟨(of_mem_accessors h hb).1, (hkind b hb).1⟩ }
  exact ⟨block, rfl, rfl, hfits, fun b hb => (hkind b hb).2⟩

theorem accessors_eq_nil (h : accessors keyNames child = .ok methods)
    (hdata : ¬ child.keyword.isData) : methods = [] := by
  refine List.eq_nil_iff_forall_not_mem.mpr fun a ha => ?_
  have hkind := (of_mem_accessors h ha).2.1
  cases hk : child.keyword <;> simp_all [Keyword.isData, Keyword.memberKinds]

-- The children without data leave no gap between the blocks of the others.
theorem exists_blocks {children : List Node} {parts : List (List Accessor)}
    (h : List.Forall₂ (fun child part => accessors keyNames child = .ok part) children parts) :
    ∃ blocks : List MemberBlock, parts.flatten = blocks.flatMap MemberBlock.accessors ∧
      List.Forall₂ MemberBlock.Fits (children.filter fun child => child.keyword.isData) blocks := by
  induction h with
  | nil => exact ⟨[], rfl, .nil⟩
  | @cons child part children parts hpart _ ih =>
      obtain ⟨blocks, hflatten, hfits⟩ := ih
      by_cases hdata : child.keyword.isData
      · obtain ⟨block, rfl, hblock⟩ := exists_block hpart hdata
        refine ⟨block :: blocks, ?_, ?_⟩
        · rw [List.flatten_cons, List.flatMap_cons, hflatten]
        · rw [List.filter_cons_of_pos (by exact hdata)]
          exact .cons hblock hfits
      · obtain rfl := accessors_eq_nil hpart hdata
        rw [List.filter_cons_of_neg (by exact hdata)]
        exact ⟨blocks, hflatten, hfits⟩

end Node

-- The kind of a member tells of its keyword all that the parts of a class depend on.
theorem Keyword.of_mem_memberKinds {keyword : Keyword} {kind : MemberKind}
    (h : kind ∈ keyword.memberKinds) :
    keyword.isData ∧ (kind = .container ↔ keyword = .container) ∧
      (kind = .container ∨ kind = .list ↔ keyword.hasClass) := by
  cases keyword with
  | leaf =>
      rcases List.mem_pair.mp h with rfl | rfl <;> simp [isData, hasClass]
  | leafList | container | list =>
      obtain rfl := List.mem_singleton.mp h
      simp [isData, hasClass]
  | _ => simp [memberKinds] at h

theorem Keyword.isData_of_hasClass (keyword : Keyword) (h : keyword.hasClass) :
    keyword.isData := by
  cases keyword <;> simp_all [hasClass, isData]

section Picking

variable (picks : Keyword → Bool) (picksKind : MemberKind → Bool) {blocks : List MemberBlock}

-- Picking blocks by their kind is picking data nodes by their keyword.
theorem MemberBlock.map_filter_of_fits {nodes : List Node} (h : List.Forall₂ Fits nodes blocks)
    (hkind : ∀ keyword, ∀ kind ∈ keyword.memberKinds, (picksKind kind ↔ picks keyword)) :
    (nodes.filter fun child => picks child.keyword).map Node.arg =
      (blocks.filter fun block => picksKind block.kind).map MemberBlock.name := by
  induction h with
  | nil => rfl
  | @cons child block nodes blocks hblock _ ih =>
      have hsame := hkind _ _ hblock.kind
      by_cases hp : picks child.keyword
      · have hpk : picksKind block.kind := hsame.mpr hp
        rw [List.filter_cons_of_pos (by exact hp), List.filter_cons_of_pos (by exact hpk),
          List.map_cons, List.map_cons, hblock.name, ih]
      · have hpk : ¬ picksKind block.kind := by rwa [hsame]
        rw [List.filter_cons_of_neg (by exact hp), List.filter_cons_of_neg (by exact hpk), ih]

theorem MemberBlock.map_filter_children {children : List Node}
    (h : List.Forall₂ Fits (children.filter fun child => child.keyword.isData) blocks)
    (hdata : ∀ keyword, picks keyword → keyword.isData)
    (hkind : ∀ keyword, ∀ kind ∈ keyword.memberKinds, (picksKind kind ↔ picks keyword)) :
    (children.filter fun child => picks child.keyword).map Node.arg =
      (blocks.filter fun block => picksKind block.kind).map MemberBlock.name := by
  have hpick (child : Node) :
      (picks child.keyword && child.keyword.isData) = picks child.keyword := by
    by_cases hp : picks child.keyword
    · rw [hp, hdata _ hp, Bool.and_self]
    · rw [Bool.eq_false_iff.mpr hp, Bool.false_and]
  rw [← map_filter_of_fits picks picksKind h hkind, List.filter_filter]
  simp only [hpick]

end Picking

namespace Node

variable {context : ModuleContext} {topLevel : Bool} {path : String} {s : Node}

-- The tags of the classes inside a class are the names of the containers and lists inside its
-- statement.
theorem classTrees_tags {trees : List ClassTree}
    (h : classTrees context topLevel path s.children = .ok trees) :
    (trees.map fun inner => inner.spec.tag) =
      (s.children.filter fun child => child.keyword.hasClass).map arg := by
  rw [← List.forall₂_eq_eq_eq, List.forall₂_map_left_iff, List.forall₂_map_right_iff]
  exact (classTrees_forall₂ h).flip.imp fun inner child hspec => classSpec_tag hspec

theorem skippedIn_isSkipped (s : Node) : s.skippedIn isSkipped =
    (s.children.filter fun child => ¬ child.keyword.isData ∧ child.keyword ≠ .key).map
      fun child => ⟨child.keyword, child.arg⟩ := by
  have hskip (child : Node) : isSkipped child =
      decide (¬ child.keyword.isData ∧ child.keyword ≠ .key) := by simp [isSkipped]
  rw [skippedIn, funext hskip]

theorem any_hasClass_iff {trees : List ClassTree}
    (h : classTrees context topLevel path s.children = .ok trees) :
    (s.children.any fun child => child.keyword.hasClass) ↔ trees ≠ [] := by
  rw [← List.length_pos_iff, ← (classTrees_forall₂ h).length_eq, List.length_filter_pos_iff,
    List.any_eq_true]

end Node

-- Every class of a container or list splits into blocks that follow its statement.
theorem Yields.exists_mirrorsMembers {context : ModuleContext} {route : Route} {tree : ClassTree}
    (h : Yields context route tree) (root : Node) :
    ∃ blocks, MirrorsMembers (route.target root) tree blocks := by
  cases h with
  | @statement s around _ _ hspec hnested =>
      obtain ⟨parts, keys, hparts, -, heq⟩ := Node.classSpec_eq_ok_iff.mp hspec
      obtain ⟨blocks, hflatten, hfits⟩ := Node.exists_blocks (Except.mapM_eq_ok_iff.mp hparts)
      refine ⟨blocks, {
        fits := hfits
        accessors := by rw [heq]; exact hflatten
        childrenNames := ?_
        fields := ?_
        nested := ?_
        addChildSupport := by rw [heq]; exact Node.any_hasClass_iff hnested
        skipped := by rw [heq]; exact s.skippedIn_isSkipped }⟩
      · have hnames := MemberBlock.map_filter_children Keyword.isData (fun _ => true) hfits
          (fun _ h => h) fun _ _ h => iff_of_true rfl (Keyword.of_mem_memberKinds h).1
        rw [List.filter_true] at hnames
        rw [heq]
        exact hnames
      · rw [heq]
        exact MemberBlock.map_filter_children (fun keyword => keyword = .container)
          (fun kind => kind = .container) hfits (by simp [Keyword.isData])
          fun _ _ h => by simpa using (Keyword.of_mem_memberKinds h).2.1
      · rw [Node.classTrees_tags hnested]
        exact MemberBlock.map_filter_children Keyword.hasClass
          (fun kind => kind = .container ∨ kind = .list) hfits Keyword.isData_of_hasClass
          fun _ _ h => decide_eq_true_iff.trans (Keyword.of_mem_memberKinds h).2.2

-- What is not a root class stands for a container or list of its module.
theorem members_mirror_statements (forest : Forest) (withSchema : Bool) (compilation : Compilation)
    (h : forest.compile withSchema = .ok compilation) :
    List.Forall₂ (fun root m =>
        m.model.root.walk =
          m.model.root.spec :: (ClassTree.subtreesAll m.model.root.children).map ClassTree.spec ∧
        List.Forall₂ (fun (route : Route) tree =>
            ∃ blocks, MirrorsMembers (route.target root) tree blocks)
          (Node.routesInto Keyword.hasClass [] root.children)
          (ClassTree.subtreesAll m.model.root.children))
      (forest.roots.filter fun root => root.keyword = .module) compilation.modules := by
  refine (Forest.forall₂_yields h).imp fun root m ⟨_, _, _, _, _, hyields⟩ => ⟨?_, ?_⟩
  · rw [ClassTree.walk_eq_map_subtrees, ClassTree.subtrees_eq, List.map_cons]
  · exact hyields.imp fun route tree hyield => hyield.exists_mirrorsMembers root

-- Members of every kind, two of them of one name, between statements without data.
def mixedMembers : Statement :=
  .mk .module "m" [.mk .namespaceUri "urn:m" [], .mk .modulePrefix "p" [],
    .mk .list "l" [.mk .leaf "k" [.mk .type "string" []], .mk (.other "description") "d" [],
      .mk .container "c" [], .mk .key "k" [], .mk .leafList "s" [.mk .type "string" []],
      .mk .list "n" [.mk .key "i" [], .mk .leaf "i" [.mk .type "string" []]], .mk .uses "g" [],
      .mk .container "c" []]]

theorem members_mirror_mixedMembers :
    ∃ compilation, Forest.compile [mixedMembers] false = .ok compilation ∧
      (compilation.modules.map fun m => (ClassTree.walkAll m.model.root.children).map fun c =>
        (c.childrenNames, c.accessors.length, c.fields, c.skipped.length)) =
        [[(["k", "c", "s", "n", "c"], 30, ["c", "c"], 2), ([], 0, [], 0), (["i"], 1, [], 0),
          ([], 0, [], 0)]] ∧
      List.Forall₂ (fun root m =>
          m.model.root.walk =
            m.model.root.spec ::
              (ClassTree.subtreesAll m.model.root.children).map ClassTree.spec ∧
          List.Forall₂ (fun (route : Route) tree =>
              ∃ blocks, MirrorsMembers (route.target root) tree blocks)
            (Node.routesInto Keyword.hasClass [] root.children)
            (ClassTree.subtreesAll m.model.root.children))
        ((Forest.roots [mixedMembers]).filter fun root => root.keyword = .module)
        compilation.modules := by
  have h : Forest.compile [mixedMembers] false = .ok _ := rfl
  exact ⟨_, h, by decide +kernel, members_mirror_statements _ _ _ h⟩

end YangBinding
