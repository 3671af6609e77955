import YangBinding.Proofs.Class.Keys
import YangBinding.Proofs.Class.Mirror
import YangBinding.Proofs.Events

namespace YangBinding

theorem Keyword.inSchema_of_hasClass (keyword : Keyword) (h : keyword.hasClass) :
    keyword.inSchema := by
  cases keyword <;> simp_all [hasClass, inSchema]

namespace Built

variable {context : ModuleContext} {root c : ClassSpec} {route : Route} {outer : List ClassSpec}

theorem namespaceUri_eq (h : Built context root route (c :: outer))
    (hroot : root.namespaceUri = context.namespaceUri) : c.namespaceUri = context.namespaceUri := by
  cases h with
  | root => exact hroot
  | nested _ hspec =>
      obtain ⟨_, _, _, _, rfl⟩ := Node.classSpec_eq_ok_iff.mp hspec
      rfl

-- The statements around a statement have their classes around its class.
theorem exists_around {above : Route} (h : Built context root route (c :: outer))
    (hs : above <:+ route) (hne : above ≠ route) :
    ∃ a ∈ outer, ∃ further, Built context root above (a :: further) := by
  induction route generalizing c outer with
  | nil => exact absurd (List.suffix_nil.mp hs) hne
  | cons s around ih =>
      cases h with
      | nested houter _ =>
          have hs := (List.suffix_cons_iff.mp hs).resolve_left hne
          cases outer with
          | nil => exact absurd rfl houter.ne_nil
          | cons a further =>
              by_cases heq : above = around
              · subst heq
                exact ⟨a, List.mem_cons_self, further, houter⟩
              · obtain ⟨b, hb, rest⟩ := ih houter hs heq
                exact ⟨b, List.mem_cons_of_mem _ hb, rest⟩

end Built

-- How the classes of a module and its schema agree, given what was told about tag paths. Only
-- the class of the module has none around it.
structure InLockStep (diagnostics : List Diagnostic) (tree : ClassTree) (table : SchemaTable) :
    Prop where
  walk : tree.walk = tree.lineages.filterMap List.head?
  recorded : ∀ c outer, c :: outer ∈ tree.lineages →
    (∃ record, table.get? c.path = some record ∧ record.namespaceUri = c.namespaceUri) ∨
      ∃ a ∈ outer, ⟨a.path, .duplicateTagPath⟩ ∈ diagnostics
  children : (∀ d ∈ diagnostics, d.remark ≠ .duplicateTagPath) →
    ∀ c enclosing outer, c :: enclosing :: outer ∈ tree.lineages →
      ∃ record, table.get? c.path = some record ∧ record.children = c.childrenNames
  keys : (∀ d ∈ diagnostics, d.remark ≠ .duplicateTagPath) →
    ∀ c ∈ tree.walk, c.kind = .list → ∃ keys, c.keys = some keys ∧ ∀ key ∈ keys,
      ∃ record, table.get? (c.path ++ key.identifier ++ "/") = some record ∧
        record.occurs = ⟨1, some 1⟩

section Lookup

variable {base : String} {seen drawn refused : List Route}

theorem Survey.get?_of_mem_drawn (n : Node) (parent : Option Node) (namespaceUri : String)
    (h : Survey base seen drawn refused) {route : Route} (hr : route ∈ drawn) :
    (Drawing.ofRoutes n parent namespaceUri base drawn refused).table.get? (route.path base) =
      some (route.record n parent namespaceUri base) := by
  have hnodup : (Drawing.ofRoutes n parent namespaceUri base drawn refused).table.paths.Nodup := by
    rw [Drawing.ofRoutes_paths]
    exact h.paths_nodup
  rw [← route.record_tagPath n parent namespaceUri base]
  exact SchemaTable.get?_of_mem hnodup (List.mem_map_of_mem hr)

theorem Survey.get?_of_path_taken (n : Node) (parent : Option Node) (namespaceUri : String)
    (h : Survey base seen drawn refused) {path : String}
    (hp : path ∈ drawn.map (Route.path base)) :
    ∃ record, (Drawing.ofRoutes n parent namespaceUri base drawn refused).table.get? path =
      some record ∧ record.namespaceUri = namespaceUri := by
  obtain ⟨route, hr, rfl⟩ := List.mem_map.mp hp
  exact ⟨_, h.get?_of_mem_drawn n parent namespaceUri hr,
    route.record_namespaceUri n parent namespaceUri base⟩

-- With nothing refused, every statement that is reached has its own record.
theorem Survey.mem_drawn_of_leads {n : Node}
    (h : Survey base (n.routes Keyword.inSchema) drawn []) {route : Route}
    (hr : route.Leads Keyword.inSchema n) : route ∈ drawn := by
  rcases h.settled (Node.mem_routes_iff.mpr hr) with hd | hf | hh
  · exact hd
  · simp at hf
  · obtain ⟨_, hf, _⟩ := hh
    simp at hf

theorem Survey.key_record {n : Node} (parent : Option Node) (namespaceUri : String)
    (h : Survey base (n.routes Keyword.inSchema) drawn []) {s : Node} {around : Route}
    (hs : Route.Leads Keyword.inSchema n (s :: around)) {keys : List KeyLeaf}
    (hkeys : s.keys = .ok keys) {key : KeyLeaf} (hk : key ∈ keys) :
    ∃ record, (Drawing.ofRoutes n parent namespaceUri base drawn []).table.get?
      (Route.path base (s :: around) ++ key.identifier ++ "/") = some record ∧
        record.occurs = ⟨1, some 1⟩ := by
  obtain ⟨hname, leaf, hleaf, hkeyword, harg⟩ := Node.leaf_of_mem_keys hkeys hk
  have hroute : Route.Leads Keyword.inSchema n (leaf :: s :: around) :=
    ⟨hs, hleaf, by rw [hkeyword]; rfl⟩
  have hget := h.get?_of_mem_drawn n parent namespaceUri (h.mem_drawn_of_leads hroute)
  rw [← harg] at hname ⊢
  exact ⟨_, hget, Node.occurs_of_isKeyLeaf hkeyword hname⟩

end Lookup

section Agreement

variable {n : Node} {context : ModuleContext} {root c : ClassSpec} {route : Route}
  {outer : List ClassSpec} {drawn refused : List Route}

-- A class without a record at its path stands inside one whose statement was refused.
theorem Survey.class_recorded (h : Survey "/" (n.routes Keyword.inSchema) drawn refused)
    (hroute : route.Leads Keyword.inSchema n) (hb : Built context root route (c :: outer))
    (hpath : root.path = "/") (hnamespace : root.namespaceUri = context.namespaceUri) :
    (∃ record, (Drawing.ofRoutes n none context.namespaceUri "/" drawn refused).table.get? c.path =
      some record ∧ record.namespaceUri = c.namespaceUri) ∨
    ∃ a ∈ outer, ∃ above ∈ refused, a.path = above.path "/" := by
  have hrecord (hp : route.path "/" ∈ drawn.map (Route.path "/")) :
      ∃ record, (Drawing.ofRoutes n none context.namespaceUri "/" drawn refused).table.get?
        c.path = some record ∧ record.namespaceUri = c.namespaceUri := by
    rw [hb.path_eq hpath, hb.namespaceUri_eq hnamespace]
    exact h.get?_of_path_taken n none context.namespaceUri hp
  rcases h.settled (Node.mem_routes_iff.mpr hroute) with hd | hf | ⟨above, ha, hs, hne⟩
  · exact .inl (hrecord (List.mem_map_of_mem hd))
  · exact .inl (hrecord (h.path_taken hf))
  · obtain ⟨a, haround, _, hbuilt⟩ := hb.exists_around hs hne
    exact .inr ⟨a, haround, above, ha, hbuilt.path_eq hpath⟩

theorem Survey.class_children {enclosing : ClassSpec}
    (h : Survey "/" (n.routes Keyword.inSchema) drawn [])
    (hroute : route.Leads Keyword.inSchema n)
    (hb : Built context root route (c :: enclosing :: outer)) (hpath : root.path = "/") :
    ∃ record, (Drawing.ofRoutes n none context.namespaceUri "/" drawn []).table.get? c.path =
      some record ∧ record.children = c.childrenNames := by
  have hget := h.get?_of_mem_drawn n none context.namespaceUri (h.mem_drawn_of_leads hroute)
  rw [← hb.path_eq hpath] at hget
  refine ⟨_, hget, ?_⟩
  rw [Route.record_children]
  cases hb with
  | nested _ hspec =>
      obtain ⟨_, _, _, _, rfl⟩ := Node.classSpec_eq_ok_iff.mp hspec
      rfl

theorem Survey.class_keys (h : Survey "/" (n.routes Keyword.inSchema) drawn [])
    (hroute : route.Leads Keyword.inSchema n) (hb : Built context root route (c :: outer))
    (hpath : root.path = "/") (hroot : root.kind = .module) (hkind : c.kind = .list) :
    ∃ keys, c.keys = some keys ∧ ∀ key ∈ keys, ∃ record,
      (Drawing.ofRoutes n none context.namespaceUri "/" drawn []).table.get?
        (c.path ++ key.identifier ++ "/") = some record ∧ record.occurs = ⟨1, some 1⟩ := by
  rw [hb.path_eq hpath]
  cases hb with
  | root => simp [hroot] at hkind
  | nested _ hspec =>
      obtain ⟨keys, hkeys, hs⟩ := Node.classSpec_keys_of_kind hspec hkind
      exact ⟨keys, hkeys, fun key hk => h.key_record none context.namespaceUri hroute hs hk⟩

end Agreement

-- Whatever the schema of the module refuses must be among the diagnostics.
theorem Node.compileModule_inLockStep {root : Node} {m : CompiledModule}
    (h : root.compileModule true none = .ok m) {diagnostics : List Diagnostic}
    (htold : ∀ r ∈ (root.schema none "" "/").reports, r.diagnostic ∈ diagnostics) :
    ∃ table, m.schema = some table ∧ InLockStep diagnostics m.model.root table := by
  obtain ⟨namespaceUri, modulePrefix, _, _, _, hspec, hschema, hbuilt⟩ := compileModule_built h
  obtain ⟨inner, refused, hsurvey, hdraw⟩ := root.exists_survey "/"
  rw [hdraw] at hschema htold
  have hpath : m.model.root.spec.path = "/" := by rw [hspec]; rfl
  have hplace {lineage : List ClassSpec} (hl : lineage ∈ m.model.root.lineages) :
      ∃ route : Route, route.Leads Keyword.inSchema root ∧
        Built ⟨namespaceUri, Java.className modulePrefix⟩ m.model.root.spec route lineage := by
    obtain ⟨route, hr, hb⟩ := hbuilt.exists_of_mem_right hl
    exact ⟨route, (mem_routes_iff.mp hr).mono Keyword.inSchema_of_hasClass, hb⟩
  have hrefused (route : Route) (hr : route ∈ refused) :
      ⟨route.path "/", .duplicateTagPath⟩ ∈ diagnostics :=
    htold (route.refusal root "/") (List.mem_map_of_mem hr)
  have hnil (hnone : ∀ d ∈ diagnostics, d.remark ≠ .duplicateTagPath) : refused = [] :=
    List.eq_nil_iff_forall_not_mem.mpr fun route hr => hnone _ (hrefused route hr) rfl
  refine ⟨_, hschema, ClassTree.walk_eq_lineages _, ?_, ?_, ?_⟩
  · intro c outer hl
    obtain ⟨route, hroute, hb⟩ := hplace hl
    rcases hsurvey.class_recorded hroute hb hpath (by rw [hspec]; rfl) with
      hrecord | ⟨a, ha, above, habove, heq⟩
    · exact .inl hrecord
    · exact .inr ⟨a, ha, heq ▸ hrefused above habove⟩
  · intro hnone c enclosing outer hl
    obtain ⟨route, hroute, hb⟩ := hplace hl
    obtain rfl := hnil hnone
    exact hsurvey.class_children hroute hb hpath
  · intro hnone c hc hkind
    rw [ClassTree.walk_eq_lineages] at hc
    obtain ⟨lineage, hl, hhead⟩ := List.mem_filterMap.mp hc
    obtain ⟨outer, rfl⟩ := List.head?_eq_some_iff.mp hhead
    obtain ⟨route, hroute, hb⟩ := hplace hl
    obtain rfl := hnil hnone
    exact hsurvey.class_keys hroute hb hpath (by rw [hspec]; rfl) hkind

theorem classes_in_lockstep_with_schema (forest : Forest) (compilation : Compilation)
    (h : forest.compile true = .ok compilation) (m : CompiledModule)
    (hm : m ∈ compilation.modules) :
    ∃ table, m.schema = some table ∧
      InLockStep compilation.diagnostics m.model.root table := by
  obtain ⟨hmodules, hdiagnostics⟩ := Forest.compile_ok h
  obtain ⟨root, hroot, hcompiled⟩ := hmodules.exists_of_mem_right hm
  obtain ⟨hroot, hk⟩ := List.mem_filter.mp hroot
  refine Node.compileModule_inLockStep hcompiled fun r hr => ?_
  rw [hdiagnostics]
  exact Forest.diagnostic_of_schema_report hroot (by simpa using hk) hr

-- The second container is refused, so the class inside it has no record at its path.
theorem twinContainers_in_lockstep :
    ∃ compilation, Forest.compile [twinContainers] true = .ok compilation ∧
      ⟨"/a/", .duplicateTagPath⟩ ∈ compilation.diagnostics ∧
      ∃ m ∈ compilation.modules, ∃ table, m.schema = some table ∧
        InLockStep compilation.diagnostics m.model.root table := by
  have h : Forest.compile [twinContainers] true = .ok _ := rfl
  refine ⟨_, h, by decide, _, List.mem_cons_self, ?_⟩
  exact classes_in_lockstep_with_schema _ _ h _ List.mem_cons_self

end YangBinding
