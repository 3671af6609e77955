import YangBinding.Compile.Module
import YangBinding.Proofs.Outcome
import YangBinding.Proofs.Route

namespace YangBinding

namespace ClassTree

mutual

-- Every class of a tree with the classes around it, the innermost first, in the order of `walk`.
def lineagesFrom (outer : List ClassSpec) : ClassTree → List (List ClassSpec)
  | .mk spec children => (spec :: outer) :: lineagesInto (spec :: outer) children

def lineagesInto (outer : List ClassSpec) : List ClassTree → List (List ClassSpec)
  | [] => []
  | tree :: rest => lineagesFrom outer tree ++ lineagesInto outer rest

end

def lineages (tree : ClassTree) : List (List ClassSpec) := lineagesFrom [] tree

@[elab_as_elim]
theorem trees_induction {motive : List ClassTree → Prop} (nil : motive [])
    (cons : ∀ spec children rest, motive children → motive rest →
      motive (.mk spec children :: rest)) (trees : List ClassTree) : motive trees :=
  @ClassTree.rec_1 (fun tree => motive tree.children) motive (fun _ _ h => h) nil
    (fun tree rest htree hrest => by
      cases tree with
      | mk spec children => exact cons _ _ _ htree hrest) trees

theorem walkAll_eq_lineagesInto (outer : List ClassSpec) (trees : List ClassTree) :
    walkAll trees = (lineagesInto outer trees).filterMap List.head? := by
  induction trees using trees_induction generalizing outer with
  | nil => rfl
  | cons spec children rest ihc ihr =>
      rw [walkAll, walk, lineagesInto, lineagesFrom, ihc (spec :: outer), ihr outer,
        List.filterMap_append]
      rfl

theorem walk_eq_lineages (tree : ClassTree) :
    tree.walk = tree.lineages.filterMap List.head? := by
  cases tree with
  | mk spec children =>
      rw [walk, lineages, lineagesFrom, walkAll_eq_lineagesInto [spec]]
      rfl

end ClassTree

-- The classes along a route: that of the module, then one for each statement entered.
inductive Built (context : ModuleContext) (root : ClassSpec) : Route → List ClassSpec → Prop
  | root : Built context root [] [root]
  | nested {s around c outer} : Built context root around outer →
      s.classSpec context around.isEmpty (Route.path "/" around) = .ok c →
      Built context root (s :: around) (c :: outer)

namespace Node

-- Everything that goes into a class. The methods and the keys are all that can be missing.
theorem classSpec_eq_ok_iff {n : Node} {context : ModuleContext} {topLevel : Bool} {path : String}
    {c : ClassSpec} :
    n.classSpec context topLevel path = .ok c ↔ ∃ blocks keys,
      n.children.mapM (accessors n.keyNames) = .ok blocks ∧ n.classKeys = .ok keys ∧
      c = {
        name := Java.className n.arg
        tag := n.arg
        kind := if keys.isSome then .list else .container
        namespaceUri := context.namespaceUri
        rootClass := context.rootClass
        modulePrefix := none
        path := path ++ n.arg ++ "/"
        fields := (n.search .container).map arg
        keys := keys
        constructors := constructors topLevel keys
        copies := copies keys
        keyNames := n.keyNames
        childrenNames := n.dataNames
        accessors := blocks.flatten
        addChildSupport := n.children.any fun child => child.keyword.hasClass
        skipped := n.skippedIn isSkipped } := by
  unfold classSpec
  constructor
  · intro h
    obtain ⟨blocks, hblocks, h⟩ := Except.bind_eq_ok_iff.mp h
    obtain ⟨keys, hkeys, h⟩ := Except.bind_eq_ok_iff.mp h
    exact ⟨blocks, keys, hblocks, hkeys, (Except.ok.inj h).symm⟩
  · rintro ⟨blocks, keys, hblocks, hkeys, rfl⟩
    refine Except.bind_eq_ok_iff.mpr ⟨blocks, hblocks, ?_⟩
    exact Except.bind_eq_ok_iff.mpr ⟨keys, hkeys, rfl⟩

theorem classKeys_eq_ok_some_iff {n : Node} {keys : List KeyLeaf} :
    n.classKeys = .ok (some keys) ↔ n.keyword = .list ∧ n.keys = .ok keys := by
  unfold classKeys
  split
  · rename_i hk
    simp [hk, Except.map_eq_ok_iff]
  · rename_i hk
    simp [hk]

theorem classKeys_eq_ok_none_iff {n : Node} : n.classKeys = .ok none ↔ n.keyword ≠ .list := by
  unfold classKeys
  split
  · rename_i hk
    simp [hk, Except.map_eq_ok_iff]
  · rename_i hk
    simp [hk]

theorem classSpec_keys_of_kind {s : Node} {context : ModuleContext} {topLevel : Bool}
    {path : String} {c : ClassSpec} (h : s.classSpec context topLevel path = .ok c)
    (hkind : c.kind = .list) : ∃ keys, c.keys = some keys ∧ s.keys = .ok keys := by
  obtain ⟨_, keys, _, hkeys, rfl⟩ := classSpec_eq_ok_iff.mp h
  cases keys with
  | none => simp at hkind
  | some keys => exact ⟨keys, rfl, (classKeys_eq_ok_some_iff.mp hkeys).2⟩

section Inversion

variable {context : ModuleContext} {topLevel : Bool} {path : String}

theorem classTrees_cons_of_hasClass {id : Nat} {keyword : Keyword} {arg : String}
    {children rest : List Node} {trees : List ClassTree} (hk : keyword.hasClass)
    (h : classTrees context topLevel path (.mk id keyword arg children :: rest) = .ok trees) :
    ∃ nested spec others,
      classTrees context false (path ++ arg ++ "/") children = .ok nested ∧
      (Node.mk id keyword arg children).classSpec context topLevel path = .ok spec ∧
      classTrees context topLevel path rest = .ok others ∧
      trees = .mk spec nested :: others := by
  have hkeyword : (Node.mk id keyword arg children).keyword.hasClass := hk
  rw [classTrees, if_pos hkeyword, classTree] at h
  obtain ⟨tree, htree, h⟩ := Except.bind_eq_ok_iff.mp h
  obtain ⟨nested, hnested, htree⟩ := Except.bind_eq_ok_iff.mp htree
  obtain ⟨spec, hspec, htree⟩ := Except.bind_eq_ok_iff.mp htree
  obtain ⟨others, hothers, h⟩ := Except.bind_eq_ok_iff.mp h
  obtain rfl := Except.ok.inj htree
  exact ⟨nested, spec, others, hnested, hspec, hothers, (Except.ok.inj h).symm⟩

theorem classTrees_cons_of_not_hasClass {id : Nat} {keyword : Keyword} {arg : String}
    {children rest : List Node} (hk : ¬ keyword.hasClass) :
    classTrees context topLevel path (.mk id keyword arg children :: rest) =
      classTrees context topLevel path rest := by
  have hkeyword : ¬ (Node.mk id keyword arg children).keyword.hasClass := hk
  rw [classTrees, if_neg hkeyword]

end Inversion

-- The class trees hold one class for each route through containers and lists, in order.
theorem classTrees_built {context : ModuleContext} {root : ClassSpec} {around : Route}
    {outer : List ClassSpec} {nodes : List Node} {trees : List ClassTree}
    (h : classTrees context around.isEmpty (Route.path "/" around) nodes = .ok trees)
    (houter : Built context root around outer) :
    List.Forall₂ (Built context root) (routesInto Keyword.hasClass around nodes)
      (ClassTree.lineagesInto outer trees) := by
  induction nodes using forest_induction generalizing around outer trees with
  | nil =>
      rw [classTrees] at h
      obtain rfl := Except.ok.inj h
      exact .nil
  | cons id keyword arg children rest ihc ihr =>
      by_cases hk : keyword.hasClass
      · obtain ⟨nested, spec, others, hnested, hspec, hothers, rfl⟩ :=
          classTrees_cons_of_hasClass hk h
        have hself : Built context root (.mk id keyword arg children :: around) (spec :: outer) :=
          .nested houter hspec
        have hinner := @ihc (.mk id keyword arg children :: around) _ _ hnested hself
        rw [routesInto, routesFrom, if_pos hk, ClassTree.lineagesInto, ClassTree.lineagesFrom]
        exact List.rel_append (.cons hself hinner) (ihr hothers houter)
      · rw [classTrees_cons_of_not_hasClass hk] at h
        rw [routesInto, routesFrom, if_neg hk]
        exact ihr h houter

theorem requiredArg_eq_ok_iff {n : Node} {keyword : Keyword} {arg : String} :
    n.requiredArg keyword = .ok arg ↔ ∃ child, n.find? keyword = some child ∧ child.arg = arg := by
  unfold requiredArg
  cases n.find? keyword with
  | none => simp
  | some child => simp

theorem compileModule_eq_ok_iff {n : Node} {withSchema : Bool} {parent : Option Node}
    {m : CompiledModule} :
    n.compileModule withSchema parent = .ok m ↔ ∃ namespaceUri modulePrefix children,
      n.requiredArg .namespaceUri = .ok namespaceUri ∧
      n.requiredArg .modulePrefix = .ok modulePrefix ∧
      classTrees ⟨namespaceUri, Java.className modulePrefix⟩ true "/" n.children = .ok children ∧
      m = ⟨⟨n.arg, n.latestRevision?, .mk (n.rootSpec namespaceUri modulePrefix) children⟩,
        if withSchema then some (n.schema parent namespaceUri "/").table else none⟩ := by
  unfold compileModule
  constructor
  · intro h
    obtain ⟨namespaceUri, hnamespace, h⟩ := Except.bind_eq_ok_iff.mp h
    obtain ⟨modulePrefix, hprefix, h⟩ := Except.bind_eq_ok_iff.mp h
    obtain ⟨children, hchildren, h⟩ := Except.bind_eq_ok_iff.mp h
    exact ⟨namespaceUri, modulePrefix, children, hnamespace, hprefix, hchildren,
      (Except.ok.inj h).symm⟩
  · rintro ⟨namespaceUri, modulePrefix, children, hnamespace, hprefix, hchildren, rfl⟩
    refine Except.bind_eq_ok_iff.mpr ⟨namespaceUri, hnamespace, ?_⟩
    refine Except.bind_eq_ok_iff.mpr ⟨modulePrefix, hprefix, ?_⟩
    exact Except.bind_eq_ok_iff.mpr ⟨children, hchildren, rfl⟩

theorem compileModule_built {n : Node} {withSchema : Bool} {parent : Option Node}
    {m : CompiledModule} (h : n.compileModule withSchema parent = .ok m) :
    ∃ namespaceUri modulePrefix,
      n.requiredArg .namespaceUri = .ok namespaceUri ∧
      n.requiredArg .modulePrefix = .ok modulePrefix ∧
      m.model.module = n.arg ∧ m.model.root.spec = n.rootSpec namespaceUri modulePrefix ∧
      m.schema = (if withSchema then some (n.schema parent namespaceUri "/").table else none) ∧
      List.Forall₂ (Built ⟨namespaceUri, Java.className modulePrefix⟩ m.model.root.spec)
        (n.routes Keyword.hasClass) m.model.root.lineages := by
  obtain ⟨namespaceUri, modulePrefix, children, hnamespace, hprefix, hchildren, rfl⟩ :=
    compileModule_eq_ok_iff.mp h
  refine ⟨namespaceUri, modulePrefix, hnamespace, hprefix, rfl, rfl, rfl, ?_⟩
  exact .cons .root (classTrees_built hchildren .root)

theorem compileRoot_cases {root : Node} {withSchema : Bool} {outcome : Option CompiledModule}
    (h : root.compileRoot withSchema = .ok outcome) :
    (root.keyword = .module ∧ ∃ m, root.compileModule withSchema none = .ok m ∧
      outcome = some m) ∨ (root.keyword = .submodule ∧ outcome = none) := by
  unfold compileRoot at h
  split at h
  · rename_i hk
    obtain ⟨m, hm, rfl⟩ := Except.map_eq_ok_iff.mp h
    exact .inl ⟨hk, m, hm, rfl⟩
  · rename_i hk
    exact .inr ⟨hk, (Except.ok.inj h).symm⟩
  · simp at h

end Node

-- Only the roots that are modules leave something behind.
theorem modules_of_outcomes {withSchema : Bool} {roots : List Node}
    {outcomes : List (Option CompiledModule)}
    (h : List.Forall₂ (fun root outcome => root.compileRoot withSchema = .ok outcome)
      roots outcomes) :
    List.Forall₂ (fun root m => root.compileModule withSchema none = .ok m)
      (roots.filter fun root => root.keyword = .module) (outcomes.filterMap id) := by
  induction h with
  | nil => exact .nil
  | cons hroot _ ih =>
      rcases Node.compileRoot_cases hroot with ⟨hk, m, hm, rfl⟩ | ⟨hk, rfl⟩
      · rw [List.filter_cons_of_pos (by simp [hk])]
        exact .cons hm ih
      · rw [List.filter_cons_of_neg (by simp [hk])]
        exact ih

-- A compilation has one module for each root that is a module, in order.
theorem Forest.compile_ok {forest : Forest} {withSchema : Bool} {compilation : Compilation}
    (h : forest.compile withSchema = .ok compilation) :
    List.Forall₂ (fun root m => root.compileModule withSchema none = .ok m)
      (forest.roots.filter fun root => root.keyword = .module) compilation.modules ∧
    compilation.diagnostics =
      diagnosticsOf (forest.roots.flatMap fun root => root.rootEvents withSchema) := by
  unfold Forest.compile at h
  obtain ⟨outcomes, houtcomes, h⟩ := Except.bind_eq_ok_iff.mp h
  obtain rfl := Except.ok.inj h
  exact ⟨modules_of_outcomes (Except.mapM_eq_ok_iff.mp houtcomes), rfl⟩

end YangBinding
