import YangBinding.Proofs.Class.KeyAgreement

namespace YangBinding

-- The class that a statement leads to where it stands, with the classes inside it.
inductive Yields (context : ModuleContext) : Route → ClassTree → Prop
  | statement {s around tree} : s.keyword.hasClass →
      s.classSpec context around.isEmpty (Route.path "/" around) = .ok tree.spec →
      Node.classTrees context false (Route.path "/" (s :: around)) s.children =
        .ok tree.children →
      Yields context (s :: around) tree

namespace Node

variable {context : ModuleContext}

-- Every class has its statement, and every container and list on the way its class, in order.
theorem classTrees_yield {around : Route} {nodes : List Node} {trees : List ClassTree}
    (h : classTrees context around.isEmpty (Route.path "/" around) nodes = .ok trees) :
    List.Forall₂ (Yields context) (routesInto Keyword.hasClass around nodes)
      (ClassTree.subtreesAll trees) := by
  induction nodes using forest_induction generalizing around trees with
  | nil =>
      rw [classTrees] at h
      obtain rfl := Except.ok.inj h
      exact .nil
  | cons id keyword arg children rest ihc ihr =>
      by_cases hk : keyword.hasClass
      · obtain ⟨nested, spec, others, hnested, hspec, hothers, rfl⟩ :=
          classTrees_cons_of_hasClass hk h
        have hself : Yields context (.mk id keyword arg children :: around) (.mk spec nested) :=
          .statement hk hspec hnested
        have hinner := @ihc (.mk id keyword arg children :: around) _ hnested
        rw [routesInto, routesFrom, if_pos hk, ClassTree.subtreesAll, ClassTree.subtrees]
        exact List.rel_append (.cons hself hinner) (ihr hothers)
      · rw [classTrees_cons_of_not_hasClass hk] at h
        rw [routesInto, routesFrom, if_neg hk]
        exact ihr h

-- The classes directly inside a class are those of the containers and lists directly inside its
-- statement, in order.
theorem classTrees_forall₂ {topLevel : Bool} {path : String} {nodes : List Node}
    {trees : List ClassTree} (h : classTrees context topLevel path nodes = .ok trees) :
    List.Forall₂ (fun child tree => child.classSpec context topLevel path = .ok tree.spec)
      (nodes.filter fun child => child.keyword.hasClass) trees := by
  induction nodes generalizing trees with
  | nil =>
      rw [classTrees] at h
      obtain rfl := Except.ok.inj h
      exact .nil
  | cons child rest ih =>
      cases child with
      | mk id keyword arg children =>
          by_cases hk : keyword.hasClass
          · obtain ⟨nested, spec, others, -, hspec, hothers, rfl⟩ :=
              classTrees_cons_of_hasClass hk h
            rw [List.filter_cons_of_pos (by exact hk)]
            exact .cons hspec (ih hothers)
          · rw [classTrees_cons_of_not_hasClass hk] at h
            rw [List.filter_cons_of_neg (by exact hk)]
            exact ih h

end Node

-- The kinds of member that a child of a class can be.
def Keyword.memberKinds : Keyword → List MemberKind
  | .leaf => [.leaf, .keyLeaf]
  | .leafList => [.leafList]
  | .container => [.container]
  | .list => [.list]
  | _ => []

namespace Accessor

variable {name : String} {a : Accessor}

theorem of_mem_ofKeyLeaf {type : ValueType} (h : a ∈ ofKeyLeaf name type) :
    a.name = name ∧ a.kind = .keyLeaf := by
  rw [List.mem_singleton.mp h]
  exact ⟨rfl, rfl⟩

theorem of_mem_ofPlainLeaf {type : ValueType} (h : a ∈ ofPlainLeaf name type) :
    a.name = name ∧ a.kind = .leaf := by
  obtain ⟨_, -, rfl⟩ := List.mem_map.mp h
  exact ⟨rfl, rfl⟩

theorem of_mem_ofLeafList {type : ValueType} (h : a ∈ ofLeafList name type) :
    a.name = name ∧ a.kind = .leafList := by
  obtain ⟨_, -, rfl⟩ := List.mem_map.mp h
  exact ⟨rfl, rfl⟩

theorem of_mem_ofContainer (h : a ∈ ofContainer name) : a.name = name ∧ a.kind = .container := by
  obtain ⟨_, -, rfl⟩ := List.mem_map.mp h
  exact ⟨rfl, rfl⟩

theorem of_mem_ofList {keys : List KeyLeaf} (h : a ∈ ofList name keys) :
    a.name = name ∧ a.kind = .list := by
  obtain ⟨_, -, rfl⟩ := List.mem_map.mp h
  exact ⟨rfl, rfl⟩

end Accessor

-- The accessors for a child are called after it and of its kind. Only a leaf that a `key`
-- statement names gets that of a key.
theorem Node.of_mem_accessors {keyNames : List String} {child : Node} {block : List Accessor}
    (h : accessors keyNames child = .ok block) {a : Accessor} (ha : a ∈ block) :
    a.name = child.arg ∧ a.kind ∈ child.keyword.memberKinds ∧
      (a.kind = .keyLeaf → a.name ∈ keyNames) := by
  unfold accessors at h
  split at h
  · rename_i hk
    obtain ⟨keys, -, h⟩ := Except.bind_eq_ok_iff.mp h
    obtain rfl := Except.ok.inj h
    obtain ⟨hname, hkind⟩ := Accessor.of_mem_ofList ha
    simp [hname, hkind, hk, Keyword.memberKinds]
  · rename_i hk
    obtain rfl := Except.ok.inj h
    obtain ⟨hname, hkind⟩ := Accessor.of_mem_ofContainer ha
    simp [hname, hkind, hk, Keyword.memberKinds]
  · rename_i hk
    obtain rfl := Except.ok.inj h
    rw [Accessor.ofLeaf] at ha
    split at ha
    · rename_i hkey
      obtain ⟨hname, hkind⟩ := Accessor.of_mem_ofKeyLeaf ha
      have hmem : child.arg ∈ keyNames := by simpa using hkey
      simp [hname, hkind, hk, Keyword.memberKinds, hmem]
    · obtain ⟨hname, hkind⟩ := Accessor.of_mem_ofPlainLeaf ha
      simp [hname, hkind, hk, Keyword.memberKinds]
  · rename_i hk
    obtain rfl := Except.ok.inj h
    obtain ⟨hname, hkind⟩ := Accessor.of_mem_ofLeafList ha
    simp [hname, hkind, hk, Keyword.memberKinds]
  · obtain rfl := Except.ok.inj h
    simp at ha

-- What holds of every statement with a class and of that class holds in all modules.
theorem Forest.forall₂_yields {forest : Forest} {withSchema : Bool} {compilation : Compilation}
    (h : forest.compile withSchema = .ok compilation) :
    List.Forall₂ (fun root m => ∃ namespaceUri modulePrefix context,
        m.model.root.spec = root.rootSpec namespaceUri modulePrefix ∧
        Node.classTrees context true "/" root.children = .ok m.model.root.children ∧
        List.Forall₂ (Yields context) (Node.routesInto Keyword.hasClass [] root.children)
          (ClassTree.subtreesAll m.model.root.children))
      (forest.roots.filter fun root => root.keyword = .module) compilation.modules := by
  refine (compile_ok h).1.imp fun root m hm => ?_
  obtain ⟨namespaceUri, modulePrefix, children, -, -, hchildren, rfl⟩ :=
    Node.compileModule_eq_ok_iff.mp hm
  exact ⟨namespaceUri, modulePrefix, _, rfl, hchildren, Node.classTrees_yield hchildren⟩

end YangBinding
