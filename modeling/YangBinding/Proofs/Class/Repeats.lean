import YangBinding.Artifacts
import YangBinding.Proofs.Bare
import YangBinding.Proofs.Class.Mirror
import YangBinding.Proofs.Class.Naming
import YangBinding.Proofs.Schema.Accounting
import YangBinding.Proofs.SchemaOption
import Mathlib.Data.List.Induction
import Mathlib.Data.List.Perm.Basic

namespace YangBinding

-- All classes, module by module, an outer class before those inside it.
def Compilation.classes (c : Compilation) : List ClassSpec :=
  c.modules.flatMap fun m => m.model.root.walk

-- The classes that bear the name of an earlier one.
def repeated (classes : List ClassSpec) : List ClassSpec :=
  (classes.zipIdx.filter fun (c, i) =>
    (classes.take i).any fun earlier => earlier.name = c.name).map Prod.fst

theorem repeated_append_singleton (classes : List ClassSpec) (c : ClassSpec) :
    repeated (classes ++ [c]) =
      repeated classes ++ if c.name ∈ classes.map ClassSpec.name then [c] else [] := by
  have hstep := filter_zipIdx_append_singleton (fun before (c : ClassSpec) =>
    before.any fun earlier => earlier.name = c.name) classes c
  have hnamed : (classes.any fun earlier => earlier.name = c.name) = true ↔
      c.name ∈ classes.map ClassSpec.name := by simp
  simp only [hnamed] at hstep
  exact hstep

theorem repeated_eq_nil_iff (classes : List ClassSpec) :
    repeated classes = [] ↔ (classes.map ClassSpec.name).Nodup := by
  induction classes using List.reverseRecOn with
  | nil => simp [repeated]
  | append_singleton init c ih =>
      rw [repeated_append_singleton, List.append_eq_nil_iff, ih, List.map_append, List.map_singleton,
        ← List.concat_eq_append, List.nodup_concat]
      simp [and_comm]

def ClassSpec.claim (c : ClassSpec) : Event := .claim 0 c.name c.path

def ClassSpec.repeatNotice (c : ClassSpec) : Diagnostic := ⟨c.path, .duplicateClassName c.name⟩

theorem told_claims (classes : List ClassSpec) :
    told [] (classes.map ClassSpec.claim) = (repeated classes).map ClassSpec.repeatNotice := by
  induction classes using List.reverseRecOn with
  | nil => simp [told, repeated]
  | append_singleton init c ih =>
      have hnames : (init.map ClassSpec.claim).flatMap Event.names = init.map ClassSpec.name := by
        rw [List.flatMap_map, List.map_eq_flatMap]
        rfl
      have hlast : told (init.map ClassSpec.name) [c.claim] =
          (if c.name ∈ init.map ClassSpec.name then [c] else []).map ClassSpec.repeatNotice := by
        rw [told, told, List.append_nil, ClassSpec.claim, Event.remarks]
        split <;> rfl
      rw [List.map_append, told_append, ih, List.nil_append, hnames, List.map_singleton, hlast,
        repeated_append_singleton, List.map_append]

def Event.isClaim (event : Event) : Bool := event.kind = .duplicateClassName

-- The claims among some events, without their numbers.
def claimsOf (events : List Event) : List Event :=
  (events.filter Event.isClaim).map Event.unnumbered

theorem claimsOf_append (events more : List Event) :
    claimsOf (events ++ more) = claimsOf events ++ claimsOf more := by
  rw [claimsOf, List.filter_append, List.map_append, claimsOf, claimsOf]

theorem claimsOf_eq_nil {events : List Event} (h : ∀ event ∈ events, ¬ event.isClaim) :
    claimsOf events = [] := by
  rw [claimsOf, List.filter_eq_nil_iff.mpr h, List.map_nil]

namespace Node

theorem kind_of_mem_plainEvents {path : String} {n : Node} {event : Event}
    (h : event ∈ plainEvents path n) :
    event.kind = .unsupportedType ∨ event.kind = .unsupportedStatement := by
  have htype (h : event ∈ typeEvents path n) : event.kind = .unsupportedType := by
    dsimp only [typeEvents] at h
    split at h
    · rw [List.mem_singleton.mp h]
      rfl
    · simp at h
  unfold plainEvents at h
  split at h
  · exact .inl (htype h)
  · exact .inl (htype h)
  · rw [List.mem_singleton.mp h]
    exact .inr rfl
  · rw [List.mem_singleton.mp h]
    exact .inr rfl
  · simp at h

theorem claimsOf_plainEvents (path : String) (n : Node) : claimsOf (plainEvents path n) = [] := by
  refine claimsOf_eq_nil fun event hevent => ?_
  rcases kind_of_mem_plainEvents hevent with hk | hk <;> simp [Event.isClaim, hk]

-- The classes are built in the order in which they claim their names.
theorem claimsOf_memberEvents {context : ModuleContext} {topLevel : Bool} {path : String}
    {nodes : List Node} {trees : List ClassTree}
    (h : classTrees context topLevel path nodes = .ok trees) :
    claimsOf (memberEvents path nodes) = (ClassTree.walkAll trees).map ClassSpec.claim := by
  induction nodes using forest_induction generalizing topLevel path trees with
  | nil =>
      rw [classTrees] at h
      obtain rfl := Except.ok.inj h
      simp [memberEvents, claimsOf, ClassTree.walkAll]
  | cons id keyword arg children rest ihc ihr =>
      rw [memberEvents_cons, claimsOf_append, Node.keyword]
      by_cases hk : keyword.hasClass
      · obtain ⟨nested, spec, others, hnested, hspec, hothers, rfl⟩ :=
          classTrees_cons_of_hasClass hk h
        obtain ⟨_, _, _, _, rfl⟩ := classSpec_eq_ok_iff.mp hspec
        rw [if_pos hk, classEvents, ihr hothers, ← List.singleton_append, claimsOf_append,
          ihc hnested, ClassTree.walkAll, ClassTree.walk, List.map_append, List.map_cons]
        rfl
      · rw [classTrees_cons_of_not_hasClass hk] at h
        rw [if_neg hk, claimsOf_plainEvents, List.nil_append, ihr h]

theorem claimsOf_flatMap_topEvents (children : List Node) :
    claimsOf (children.flatMap topEvents) = claimsOf (memberEvents "/" children) := by
  induction children with
  | nil => simp [memberEvents]
  | cons child rest ih =>
      have hfirst : claimsOf (topEvents child) =
          claimsOf (if child.keyword.hasClass then classEvents "/" child
            else plainEvents "/" child) := by
        unfold topEvents
        split
        · rfl
        · rw [claimsOf_plainEvents]
          split
          · rfl
          · rfl
      rw [List.flatMap_cons, memberEvents_cons, claimsOf_append, claimsOf_append, ih, hfirst]

theorem claimsOf_rootEvents (root : Node) (withSchema : Bool) :
    claimsOf (root.rootEvents withSchema) = claimsOf (root.rootEvents false) := by
  cases withSchema with
  | false => rfl
  | true =>
      have hschema : claimsOf root.schemaEvents = [] := by
        refine claimsOf_eq_nil fun event hevent => ?_
        simp [Event.isClaim, kind_of_mem_schemaEvents hevent]
      rw [rootEvents_true, claimsOf_append, hschema, List.append_nil]

theorem claimsOf_rootEvents_of_module {root : Node} (hk : root.keyword = .module)
    {withSchema : Bool} {m : CompiledModule} (h : root.compileModule withSchema none = .ok m) :
    claimsOf (root.rootEvents withSchema) = m.model.root.walk.map ClassSpec.claim := by
  obtain ⟨namespaceUri, modulePrefix, trees, _, hprefix, htrees, rfl⟩ :=
    compileModule_eq_ok_iff.mp h
  obtain ⟨child, hfind, rfl⟩ := requiredArg_eq_ok_iff.mp hprefix
  have hroot : claimsOf [root.rootClaim] =
      [(root.rootSpec namespaceUri child.arg).claim] := by
    rw [rootClaim, hfind]
    rfl
  have hevents : root.rootEvents false = root.moduleEvents false := by
    rw [rootEvents, hk]
  rw [claimsOf_rootEvents, hevents, moduleEvents_false, ← List.singleton_append, claimsOf_append,
    hroot, claimsOf_flatMap_topEvents, claimsOf_memberEvents htrees, ClassTree.walk, List.map_cons]
  rfl

theorem claimsOf_rootEvents_of_not_module {root : Node} (hk : root.keyword ≠ .module)
    (withSchema : Bool) : claimsOf (root.rootEvents withSchema) = [] := by
  rw [claimsOf_rootEvents]
  unfold rootEvents
  split
  · contradiction
  · rfl
  · rfl

end Node

-- Only modules have classes, and each claims the names of its own.
theorem claimsOf_flatMap_rootEvents {withSchema : Bool} {roots : List Node}
    {modules : List CompiledModule}
    (h : List.Forall₂ (fun root m => root.compileModule withSchema none = .ok m)
      (roots.filter fun root => root.keyword = .module) modules) :
    claimsOf (roots.flatMap fun root => root.rootEvents withSchema) =
      (modules.flatMap fun m => m.model.root.walk).map ClassSpec.claim := by
  induction roots generalizing modules with
  | nil =>
      rw [List.filter_nil, List.forall₂_nil_left_iff] at h
      rw [h]
      rfl
  | cons root rest ih =>
      rw [List.flatMap_cons, claimsOf_append]
      by_cases hk : root.keyword = .module
      · rw [List.filter_cons_of_pos (by simpa using hk), List.forall₂_cons_left_iff] at h
        obtain ⟨m, others, hm, hothers, rfl⟩ := h
        rw [Node.claimsOf_rootEvents_of_module hk hm, ih hothers, List.flatMap_cons,
          List.map_append]
      · rw [List.filter_cons_of_neg (by simpa using hk)] at h
        rw [Node.claimsOf_rootEvents_of_not_module hk, ih h, List.nil_append]

theorem Forest.claimsOf_events {forest : Forest} {withSchema : Bool} {compilation : Compilation}
    (h : forest.compile withSchema = .ok compilation) :
    claimsOf (forest.events withSchema) = compilation.classes.map ClassSpec.claim :=
  claimsOf_flatMap_rootEvents (Forest.compile_ok h).1

theorem Forest.repeats_told {forest : Forest} {withSchema : Bool} {compilation : Compilation}
    (h : forest.compile withSchema = .ok compilation) :
    compilation.diagnostics.filter (fun d => d.remark.kind = .duplicateClassName) =
      (repeated compilation.classes).map ClassSpec.repeatNotice := by
  rw [Forest.diagnostics_eq_told h,
    filter_told (fun kind => kind = .duplicateClassName) (by decide), ← told_unnumbered,
    ← told_claims, ← Forest.claimsOf_events h]
  rfl

theorem Forest.class_names_nodup {forest : Forest} {withSchema : Bool} {compilation : Compilation}
    (h : forest.compile withSchema = .ok compilation)
    (hnone : ∀ d ∈ compilation.diagnostics, d.remark.kind ≠ .duplicateClassName) :
    (compilation.classes.map ClassSpec.name).Nodup := by
  have htold := Forest.repeats_told h
  have hempty : compilation.diagnostics.filter
      (fun d => d.remark.kind = .duplicateClassName) = [] :=
    List.filter_eq_nil_iff.mpr fun d hd => by simpa using hnone d hd
  rw [hempty, eq_comm, List.map_eq_nil_iff, repeated_eq_nil_iff] at htold
  exact htold

-- The identifier that a class is named after: the prefix of a module, or the argument of a
-- container or a list.
def ClassSpec.identifier (c : ClassSpec) : String := c.modulePrefix.getD c.tag

-- A class is that of a module, or it is made from a statement of its own.
theorem Forest.statement_of_mem_classes {forest : Forest} {withSchema : Bool}
    {compilation : Compilation} (h : forest.compile withSchema = .ok compilation) {c : ClassSpec}
    (hc : c ∈ compilation.classes) :
    ∃ n ∈ forest.nodes,
      (∃ namespaceUri modulePrefix, n.requiredArg .namespaceUri = .ok namespaceUri ∧
        n.requiredArg .modulePrefix = .ok modulePrefix ∧
        c = n.rootSpec namespaceUri modulePrefix) ∨
      ∃ (context : ModuleContext) (topLevel : Bool) (path : String),
        n.classSpec context topLevel path = .ok c := by
  obtain ⟨m, hm, hc⟩ := List.mem_flatMap.mp hc
  obtain ⟨root, hroot, hmodule⟩ := (Forest.compile_ok h).1.exists_of_mem_right hm
  obtain ⟨namespaceUri, modulePrefix, hnamespace, hmodulePrefix, -, hspec, -, hbuilt⟩ :=
    Node.compileModule_built hmodule
  rw [ClassTree.walk_eq_lineages] at hc
  obtain ⟨lineage, hl, hhead⟩ := List.mem_filterMap.mp hc
  obtain ⟨outer, rfl⟩ := List.head?_eq_some_iff.mp hhead
  obtain ⟨route, hroute, hb⟩ := hbuilt.exists_of_mem_right hl
  have hnode : route.target root ∈ forest.nodes :=
    (Node.mem_routes_iff.mp hroute).target_mem_nodes
      (mem_nodes_of_mem_roots (List.mem_filter.mp hroot).1)
  refine ⟨route.target root, hnode, ?_⟩
  cases hb with
  | root => exact .inl ⟨namespaceUri, modulePrefix, hnamespace, hmodulePrefix, hspec⟩
  | nested _ hnested => exact .inr ⟨_, _, _, hnested⟩

theorem Forest.spec_of_mem_classes {forest : Forest} {withSchema : Bool}
    {compilation : Compilation} (h : forest.compile withSchema = .ok compilation) {c : ClassSpec}
    (hc : c ∈ compilation.classes) :
    (∃ (root : Node) (namespaceUri modulePrefix : String),
        c = root.rootSpec namespaceUri modulePrefix) ∨
      ∃ (n : Node) (context : ModuleContext) (topLevel : Bool) (path : String),
        n.classSpec context topLevel path = .ok c := by
  obtain ⟨n, -, hspec⟩ := statement_of_mem_classes h hc
  rcases hspec with ⟨_, _, -, -, heq⟩ | hspec
  · exact .inl ⟨n, _, _, heq⟩
  · exact .inr ⟨n, hspec⟩

theorem Forest.name_of_mem_classes {forest : Forest} {withSchema : Bool}
    {compilation : Compilation} (h : forest.compile withSchema = .ok compilation) {c : ClassSpec}
    (hc : c ∈ compilation.classes) : c.name = Java.className c.identifier := by
  rcases spec_of_mem_classes h hc with ⟨_, _, _, rfl⟩ | ⟨_, _, _, _, hspec⟩
  · rfl
  · obtain ⟨_, _, _, _, rfl⟩ := Node.classSpec_eq_ok_iff.mp hspec
    rfl

theorem Forest.exists_className {forest : Forest} {withSchema : Bool} {compilation : Compilation}
    (h : forest.compile withSchema = .ok compilation) {c : ClassSpec}
    (hc : c ∈ compilation.classes) : ∃ ident, c.name = Java.className ident :=
  ⟨_, name_of_mem_classes h hc⟩

section Files

-- A file name ends in what stands behind its stem.
theorem append_ne_append {ending other : String} (hle : ending.toList.length ≤ other.toList.length)
    (h : ¬ ending.toList <:+ other.toList) (stem base : String) : stem ++ ending ≠ base ++ other := by
  intro heq
  have hlist : stem.toList ++ ending.toList = base.toList ++ other.toList := by
    rw [← String.toList_append, ← String.toList_append, heq]
  have hsuffix : ending.toList <:+ base.toList ++ other.toList := ⟨stem.toList, hlist⟩
  exact h (List.suffix_of_suffix_length_le hsuffix (List.suffix_append _ _) hle)

theorem java_ne_schema (stem base : String) : stem ++ ".java" ≠ base ++ ".schema" :=
  append_ne_append (by decide) (by decide) stem base

theorem className_ne_packageInfo (ident : String) : Java.className ident ≠ "package-info" := by
  intro heq
  have hmem : '-' ∈ (Java.className ident).toList := by
    rw [heq]
    decide
  exact Java.not_isDivider_of_mem_className hmem rfl

-- The names of the files of classes, and of those of schemas.
def Compilation.sourceNames (c : Compilation) : List String := c.classes.map ClassSpec.fileName

def Compilation.schemaNames (c : Compilation) : List String :=
  c.modules.flatMap fun m => (m.schema.map fun _ => m.model.root.spec.name ++ ".schema").toList

theorem Compilation.map_name_artifacts_perm (c : Compilation) (options : RenderOptions) :
    ((c.artifacts options).map Java.SourceFile.name).Perm
      (c.schemaNames ++ c.sourceNames ++ ["package-info.java"]) := by
  have hmodule (m : CompiledModule) : (m.artifacts options).map Java.SourceFile.name =
      (m.schema.map fun _ => m.model.root.spec.name ++ ".schema").toList ++
        m.model.root.walk.map ClassSpec.fileName := by
    rw [CompiledModule.artifacts, List.map_append, Java.moduleSources, List.map_map]
    cases m.schema with
    | none => rfl
    | some table => rfl
  rw [artifacts, List.map_append, List.map_flatMap, sourceNames, classes, List.map_flatMap]
  simp only [hmodule]
  exact (List.flatMap_append_perm _ _ _).symm.append (List.Perm.refl _)

theorem Compilation.schemaNames_nodup {c : Compilation}
    (h : (c.classes.map ClassSpec.name).Nodup) : c.schemaNames.Nodup := by
  have hroots : (c.modules.map fun m => m.model.root.spec.name).Sublist
      (c.classes.map ClassSpec.name) := by
    rw [classes, List.map_flatMap, List.map_eq_flatMap]
    refine List.Sublist.flatMap_right _ fun m _ => ?_
    cases hroot : m.model.root with
    | mk spec children =>
        rw [ClassTree.walk, List.map_cons]
        exact List.Sublist.cons_cons _ (List.nil_sublist _)
  have hall : ((c.modules.map fun m => m.model.root.spec.name).map (· ++ ".schema")).Nodup :=
    (h.sublist hroots).map fun _ _ heq => (String.append_left_inj ".schema").mp heq
  have hsome : c.schemaNames.Sublist
      ((c.modules.map fun m => m.model.root.spec.name).map (· ++ ".schema")) := by
    rw [List.map_map, List.map_eq_flatMap]
    refine List.Sublist.flatMap_right _ fun m _ => ?_
    cases m.schema with
    | none => exact List.nil_sublist _
    | some table => exact List.Sublist.refl _
  exact hall.sublist hsome

theorem Compilation.sourceNames_nodup {c : Compilation}
    (h : (c.classes.map ClassSpec.name).Nodup) : c.sourceNames.Nodup := by
  have hfiles : c.sourceNames = (c.classes.map ClassSpec.name).map (· ++ ".java") := by
    rw [List.map_map]
    rfl
  rw [hfiles]
  exact h.map fun _ _ heq => (String.append_left_inj ".java").mp heq

theorem Compilation.map_name_artifacts_nodup {c : Compilation}
    (h : (c.classes.map ClassSpec.name).Nodup)
    (hnames : ∀ spec ∈ c.classes, ∃ ident, spec.name = Java.className ident)
    (options : RenderOptions) : ((c.artifacts options).map Java.SourceFile.name).Nodup := by
  have hsource {file : String} (hf : file ∈ c.sourceNames) :
      ∃ ident, file = Java.className ident ++ ".java" := by
    obtain ⟨spec, hspec, rfl⟩ := List.mem_map.mp hf
    obtain ⟨ident, hname⟩ := hnames spec hspec
    exact ⟨ident, by rw [ClassSpec.fileName, hname]⟩
  have hschema {file : String} (hf : file ∈ c.schemaNames) : ∃ stem, file = stem ++ ".schema" := by
    obtain ⟨m, -, hf⟩ := List.mem_flatMap.mp hf
    obtain ⟨_, -, rfl⟩ := Option.map_eq_some_iff.mp (Option.mem_toList.mp hf)
    exact ⟨_, rfl⟩
  rw [(c.map_name_artifacts_perm options).nodup_iff, List.nodup_append, List.nodup_append]
  refine ⟨⟨schemaNames_nodup h, sourceNames_nodup h, ?_⟩, List.nodup_singleton _, ?_⟩
  · intro file hf other ho heq
    obtain ⟨stem, rfl⟩ := hschema hf
    obtain ⟨ident, rfl⟩ := hsource ho
    exact java_ne_schema _ _ heq.symm
  · intro file hf other ho heq
    rw [List.mem_singleton.mp ho] at heq
    rcases List.mem_append.mp hf with hf | hf
    · obtain ⟨stem, rfl⟩ := hschema hf
      exact java_ne_schema "package-info" stem heq.symm
    · obtain ⟨ident, rfl⟩ := hsource hf
      have hstem : Java.className ident ++ ".java" = "package-info" ++ ".java" := heq
      exact className_ne_packageInfo ident ((String.append_left_inj ".java").mp hstem)

end Files

theorem no_class_overwritten_silently (forest : Forest) (withSchema : Bool)
    (compilation : Compilation) (h : forest.compile withSchema = .ok compilation) :
    (compilation.diagnostics.filter fun d => d.remark.kind = .duplicateClassName) =
      ((repeated compilation.classes).map fun c => ⟨c.path, .duplicateClassName c.name⟩) ∧
    ((∀ d ∈ compilation.diagnostics, d.remark.kind ≠ .duplicateClassName) →
      ∀ options, ((compilation.artifacts options).map Java.SourceFile.name).Nodup) := by
  have htold := Forest.repeats_told h
  refine ⟨htold, fun hnone options => ?_⟩
  have hempty : compilation.diagnostics.filter
      (fun d => d.remark.kind = .duplicateClassName) = [] :=
    List.filter_eq_nil_iff.mpr fun d hd => by simpa using hnone d hd
  rw [hempty, eq_comm, List.map_eq_nil_iff, repeated_eq_nil_iff] at htold
  exact Compilation.map_name_artifacts_nodup htold (fun _ hc => Forest.exists_className h hc) options

theorem twinContainers_not_overwritten_silently :
    (∃ compilation, Forest.compile [twinContainers] true = .ok compilation ∧
      (repeated compilation.classes).map ClassSpec.path = ["/a/"] ∧
      (compilation.diagnostics.filter fun d => d.remark.kind = .duplicateClassName) =
        [⟨"/a/", .duplicateClassName "A"⟩]) ∧
    ∃ compilation, Forest.compile [listInContainer] true = .ok compilation ∧
      (∀ d ∈ compilation.diagnostics, d.remark.kind ≠ .duplicateClassName) ∧
      ∀ options, ((compilation.artifacts options).map Java.SourceFile.name).Nodup := by
  have htwin : Forest.compile [twinContainers] true = .ok _ := rfl
  have hlist : Forest.compile [listInContainer] true = .ok _ := rfl
  refine ⟨⟨_, htwin, by decide +kernel, ?_⟩, _, hlist, by decide +kernel, ?_⟩
  · rw [(no_class_overwritten_silently _ _ _ htwin).1]
    decide +kernel
  · exact (no_class_overwritten_silently _ _ _ hlist).2 (by decide +kernel)

end YangBinding
