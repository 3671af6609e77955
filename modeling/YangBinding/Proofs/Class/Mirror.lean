import YangBinding.Proofs.Class.Lineage

namespace YangBinding

-- What a class takes over from its statement `s`, from the class around it and from that of the
-- module. A statement with nothing around it stands directly in the module.
structure ClassMirrors (root : ClassSpec) (s : Node) (around : Route) (c enclosing : ClassSpec) :
    Prop where
  tag : c.tag = s.arg
  kind : (s.keyword = .container ∧ c.kind = .container) ∨ (s.keyword = .list ∧ c.kind = .list)
  name : c.name = Java.className c.tag
  path : c.path = enclosing.path ++ c.tag ++ "/"
  namespaceUri : c.namespaceUri = root.namespaceUri
  rootClass : c.rootClass = root.name
  modulePrefix : c.modulePrefix = none
  constructed : c.constructors ≠ []
  setsPrefix : ∀ constructor ∈ c.constructors, constructor.setsPrefix ↔ around = []

-- The classes around a class mirror the statements around its statement.
inductive Mirrors (root : ClassSpec) : Route → List ClassSpec → Prop
  | root : Mirrors root [] [root]
  | nested {s around c enclosing outer} : Mirrors root around (enclosing :: outer) →
      ClassMirrors root s around c enclosing → Mirrors root (s :: around) (c :: enclosing :: outer)

-- The class tree of a module mirrors its containers and lists, in the order of the text.
structure ModuleMirrors (root : Node) (m : CompiledModule) : Prop where
  module : m.model.module = root.arg
  tag : m.model.root.spec.tag = root.arg
  kind : m.model.root.spec.kind = .module
  path : m.model.root.spec.path = "/"
  namespaceUri : ∃ s, root.find? .namespaceUri = some s ∧ m.model.root.spec.namespaceUri = s.arg
  modulePrefix : ∃ s, root.find? .modulePrefix = some s ∧
    m.model.root.spec.modulePrefix = some s.arg ∧ m.model.root.spec.name = Java.className s.arg
  rootClass : m.model.root.spec.rootClass = m.model.root.spec.name
  constructors : m.model.root.spec.constructors = []
  reached : ∀ route, route ∈ root.routes Keyword.hasClass ↔ route.Leads Keyword.hasClass root
  in_order : ((root.routes Keyword.hasClass).map fun route => (route.target root).id).Pairwise
    (· < ·)
  walk : m.model.root.walk = m.model.root.lineages.filterMap List.head?
  classes : List.Forall₂ (Mirrors m.model.root.spec) (root.routes Keyword.hasClass)
    m.model.root.lineages

theorem Built.path_eq {context : ModuleContext} {root c : ClassSpec} {route : Route}
    {outer : List ClassSpec} (h : Built context root route (c :: outer)) (hroot : root.path = "/") :
    c.path = route.path "/" := by
  cases h with
  | root => exact hroot
  | nested _ hspec =>
      obtain ⟨_, _, _, _, rfl⟩ := Node.classSpec_eq_ok_iff.mp hspec
      rfl

theorem Built.ne_nil {context : ModuleContext} {root : ClassSpec} {route : Route}
    {lineage : List ClassSpec} (h : Built context root route lineage) : lineage ≠ [] := by
  cases h with
  | root => simp
  | nested _ _ => simp

namespace Node

theorem classSpec_kind {s : Node} {context : ModuleContext} {topLevel : Bool} {path : String}
    {c : ClassSpec} (hk : s.keyword.hasClass) (h : s.classSpec context topLevel path = .ok c) :
    (s.keyword = .container ∧ c.kind = .container) ∨ (s.keyword = .list ∧ c.kind = .list) := by
  obtain ⟨_, keys, _, hkeys, rfl⟩ := classSpec_eq_ok_iff.mp h
  cases keys with
  | none =>
      have hne := classKeys_eq_ok_none_iff.mp hkeys
      refine .inl ⟨?_, rfl⟩
      cases hkeyword : s.keyword <;> simp_all [Keyword.hasClass]
  | some keys => exact .inr ⟨(classKeys_eq_ok_some_iff.mp hkeys).1, rfl⟩

theorem constructors_ne_nil (topLevel : Bool) (keys : Option (List KeyLeaf)) :
    constructors topLevel keys ≠ [] := by
  cases keys with
  | none => simp [constructors, constructorModes]
  | some keys => simp [constructors, constructorModes]

theorem setsPrefix_of_mem_constructors {topLevel : Bool} {keys : Option (List KeyLeaf)}
    {constructor : Constructor} (h : constructor ∈ constructors topLevel keys) :
    constructor.setsPrefix = topLevel := by
  obtain ⟨mode, -, rfl⟩ := List.mem_map.mp h
  rfl

theorem classSpec_mirrors {s : Node} {context : ModuleContext} {root c enclosing : ClassSpec}
    {around : Route} (hk : s.keyword.hasClass)
    (h : s.classSpec context around.isEmpty (Route.path "/" around) = .ok c)
    (henclosing : enclosing.path = Route.path "/" around)
    (hnamespace : context.namespaceUri = root.namespaceUri)
    (hclass : context.rootClass = root.name) : ClassMirrors root s around c enclosing := by
  have hkind := classSpec_kind hk h
  obtain ⟨_, keys, _, _, rfl⟩ := classSpec_eq_ok_iff.mp h
  exact {
    tag := rfl
    kind := hkind
    name := rfl
    path := by rw [henclosing]
    namespaceUri := hnamespace
    rootClass := hclass
    modulePrefix := rfl
    constructed := constructors_ne_nil _ _
    setsPrefix := fun constructor hc => by
      rw [setsPrefix_of_mem_constructors hc, List.isEmpty_iff] }

end Node

theorem Built.mirrors {context : ModuleContext} {root : ClassSpec} {start : Node} {route : Route}
    {lineage : List ClassSpec} (h : Built context root route lineage)
    (hroute : route.Leads Keyword.hasClass start) (hpath : root.path = "/")
    (hnamespace : context.namespaceUri = root.namespaceUri)
    (hclass : context.rootClass = root.name) : Mirrors root route lineage := by
  induction h with
  | root => exact .root
  | @nested s around c outer houter hspec ih =>
      obtain ⟨hround, _, hk⟩ := hroute
      cases outer with
      | nil => exact absurd rfl houter.ne_nil
      | cons enclosing outer =>
          have henclosing := houter.path_eq hpath
          exact .nested (ih hround)
            (Node.classSpec_mirrors hk hspec henclosing hnamespace hclass)

theorem Node.compileModule_mirrors {root : Node} (hroot : root.Numbered) {withSchema : Bool}
    {m : CompiledModule} (h : root.compileModule withSchema none = .ok m) :
    ModuleMirrors root m := by
  obtain ⟨namespaceUri, modulePrefix, hnamespace, hprefix, hmodule, hspec, _, hbuilt⟩ :=
    compileModule_built h
  obtain ⟨s, hs, rfl⟩ := requiredArg_eq_ok_iff.mp hnamespace
  obtain ⟨t, ht, rfl⟩ := requiredArg_eq_ok_iff.mp hprefix
  refine {
    module := hmodule
    tag := by rw [hspec]; rfl
    kind := by rw [hspec]; rfl
    path := by rw [hspec]; rfl
    namespaceUri := ⟨s, hs, by rw [hspec]; rfl⟩
    modulePrefix := ⟨t, ht, by rw [hspec]; rfl, by rw [hspec]; rfl⟩
    rootClass := by rw [hspec]; rfl
    constructors := by rw [hspec]; rfl
    reached := fun route => mem_routes_iff
    in_order := hroot.routes_ids _
    walk := ClassTree.walk_eq_lineages _
    classes := ?_ }
  have hall := (List.forall₂_and_left _ _).mpr
    ⟨fun route hr => mem_routes_iff.mp hr, hbuilt⟩
  refine hall.imp fun route lineage ⟨hleads, hb⟩ => ?_
  exact hb.mirrors hleads (by rw [hspec]; rfl) (by rw [hspec]; rfl) (by rw [hspec]; rfl)

theorem compile_mirrors_statements (forest : Forest) (withSchema : Bool) (compilation : Compilation)
    (h : forest.compile withSchema = .ok compilation) :
    List.Forall₂ ModuleMirrors (forest.roots.filter fun root => root.keyword = .module)
      compilation.modules := by
  have hall := (List.forall₂_and_left _ _).mpr
    ⟨fun root hr => (List.mem_filter.mp hr).1, (Forest.compile_ok h).1⟩
  refine hall.imp fun root m ⟨hroot, hm⟩ => ?_
  exact Node.compileModule_mirrors
    (Forest.numbered_of_mem_nodes (Forest.mem_nodes_of_mem_roots hroot)) hm

-- A list in a container, beside a statement that is not entered.
def listInContainer : Statement :=
  .mk .module "m" [.mk .namespaceUri "urn:m" [], .mk .modulePrefix "p" [],
    .mk .container "a" [.mk .list "b" [.mk .key "k" [], .mk .leaf "k" []]],
    .mk .grouping "g" [.mk .container "c" []]]

theorem compile_mirrors_listInContainer :
    ∃ compilation, Forest.compile [listInContainer] false = .ok compilation ∧
      (compilation.modules.flatMap fun m => m.model.root.walk.map ClassSpec.path) =
        ["/", "/a/", "/a/b/"] ∧
      List.Forall₂ ModuleMirrors
        ((Forest.roots [listInContainer]).filter fun root => root.keyword = .module)
        compilation.modules := by
  have h : Forest.compile [listInContainer] false = .ok _ := rfl
  exact ⟨_, h, rfl, compile_mirrors_statements _ _ _ h⟩

end YangBinding
