import YangBinding.Proofs.Told

namespace YangBinding

theorem Event.kind_of_mem_remarks {claimed : List String} {event : Event} {d : Diagnostic}
    (h : d ∈ event.remarks claimed) : d.remark.kind = event.kind := by
  cases event with
  | claim node name path =>
      simp only [remarks] at h
      split at h
      · rw [List.mem_singleton.mp h]
        rfl
      · simp at h
  | report r =>
      rw [List.mem_singleton.mp h]
      rfl

-- Whole kinds of remark can be taken out beforehand, as long as no claim goes with them.
theorem filter_told (keeps : RemarkKind → Bool) (hclaims : keeps .duplicateClassName)
    (claimed : List String) (events : List Event) :
    (told claimed events).filter (fun d => keeps d.remark.kind) =
      told claimed (events.filter fun event => keeps event.kind) := by
  induction events generalizing claimed with
  | nil => rfl
  | cons event rest ih =>
      rw [told, List.filter_append, ih]
      by_cases hkeeps : keeps event.kind
      · have hall : ∀ d ∈ event.remarks claimed, keeps d.remark.kind := by
          intro d hd
          rw [Event.kind_of_mem_remarks hd]
          exact hkeeps
        rw [List.filter_cons, if_pos hkeeps, told, List.filter_eq_self.mpr hall]
      · have hnone : ∀ d ∈ event.remarks claimed, ¬ keeps d.remark.kind := by
          intro d hd
          rw [Event.kind_of_mem_remarks hd]
          exact hkeeps
        have hnames : event.names = [] := by
          cases event with
          | claim node name path => exact absurd hclaims hkeeps
          | report r => rfl
        rw [List.filter_cons, if_neg hkeeps, List.filter_eq_nil_iff.mpr hnone, hnames,
          List.append_nil, List.nil_append]

def CompiledModule.withoutSchema (m : CompiledModule) : CompiledModule := { m with schema := none }

def Compilation.withoutSchemas (c : Compilation) : Compilation where
  modules := c.modules.map CompiledModule.withoutSchema
  diagnostics := c.diagnostics.filter fun d => d.remark.kind ≠ .duplicateTagPath

namespace Node

theorem compileModule_false (n : Node) (parent : Option Node) :
    n.compileModule false parent =
      (n.compileModule true parent).map CompiledModule.withoutSchema := by
  unfold compileModule
  simp only [Except.map_bind_eq]
  rfl

theorem compileRoot_false (root : Node) :
    root.compileRoot false =
      (root.compileRoot true).map (Option.map CompiledModule.withoutSchema) := by
  unfold compileRoot
  split
  · rw [compileModule_false]
    cases root.compileModule true none with
    | error e => rfl
    | ok m => rfl
  · rfl
  · rfl

-- Taking the tag paths out of the events of a root leaves those of building its classes.
theorem filter_rootEvents_true (root : Node) :
    (root.rootEvents true).filter (fun event => event.kind ≠ .duplicateTagPath) =
      root.rootEvents false := by
  have hbuild : ∀ event ∈ root.rootEvents false, decide (event.kind ≠ .duplicateTagPath) := by
    intro event hevent
    simpa using kind_ne_of_mem_rootEvents_false hevent
  have hschema : ∀ event ∈ root.schemaEvents, ¬ decide (event.kind ≠ .duplicateTagPath) := by
    intro event hevent
    simpa using kind_of_mem_schemaEvents hevent
  rw [rootEvents_true, List.filter_append, List.filter_eq_self.mpr hbuild,
    List.filter_eq_nil_iff.mpr hschema, List.append_nil]

end Node

namespace Forest

theorem filter_events_true (forest : Forest) :
    (forest.events true).filter (fun event => event.kind ≠ .duplicateTagPath) =
      forest.events false := by
  rw [events, List.filter_flatMap, events]
  simp only [Node.filter_rootEvents_true]

theorem compile_roots_false (forest : Forest) :
    (forest.roots.mapM fun root : Node => root.compileRoot false) =
      (forest.roots.mapM fun root : Node => root.compileRoot true).map
        (List.map (Option.map CompiledModule.withoutSchema)) := by
  rw [← Except.mapM_map_eq]
  simp only [Node.compileRoot_false]

theorem told_events_false (forest : Forest) :
    told [] (forest.events false) =
      (told [] (forest.events true)).filter fun d => d.remark.kind ≠ .duplicateTagPath := by
  rw [filter_told (fun kind => kind ≠ .duplicateTagPath) (by decide), filter_events_true]

-- What compiling without schemas gives, told from what compiling with them gives.
theorem compile_false (forest : Forest) :
    forest.compile false = (forest.compile true).map Compilation.withoutSchemas := by
  rw [compile_eq_map, compile_eq_map, compile_roots_false, told_events_false]
  cases forest.roots.mapM fun root : Node => root.compileRoot true with
  | error e => rfl
  | ok outcomes =>
      have hmodules : (outcomes.map (Option.map CompiledModule.withoutSchema)).filterMap id =
          (outcomes.filterMap id).map CompiledModule.withoutSchema := by
        rw [List.filterMap_map, List.map_filterMap]
        rfl
      simp only [Except.map, hmodules, Compilation.withoutSchemas]

theorem schema_isSome {forest : Forest} {full : Compilation} (h : forest.compile true = .ok full)
    {m : CompiledModule} (hm : m ∈ full.modules) : m.schema.isSome := by
  obtain ⟨root, -, hroot⟩ := (compile_ok h).1.exists_of_mem_right hm
  obtain ⟨_, _, _, -, -, -, rfl⟩ := Node.compileModule_eq_ok_iff.mp hroot
  rfl

end Forest

theorem Remark.kind_eq_duplicateTagPath_iff (remark : Remark) :
    remark.kind = .duplicateTagPath ↔ remark = .duplicateTagPath := by
  cases remark <;> simp [kind]

theorem schema_option_only_adds (forest : Forest) :
    (∃ e, forest.compile true = .error e ∧ forest.compile false = .error e) ∨
    ∃ full plain, forest.compile true = .ok full ∧ forest.compile false = .ok plain ∧
      List.Forall₂ (fun m bare => bare.model = m.model ∧ m.schema.isSome ∧ bare.schema = none)
        full.modules plain.modules ∧
      plain.diagnostics = full.diagnostics.filter fun d => d.remark ≠ .duplicateTagPath := by
  have hfalse := forest.compile_false
  cases htrue : forest.compile true with
  | error e =>
      left
      rw [htrue] at hfalse
      exact ⟨e, rfl, hfalse⟩
  | ok full =>
      right
      rw [htrue] at hfalse
      refine ⟨full, full.withoutSchemas, rfl, hfalse, ?_, ?_⟩
      · refine List.forall₂_map_right_iff.mpr (List.forall₂_same.mpr fun m hm => ?_)
        exact ⟨rfl, Forest.schema_isSome htrue hm, rfl⟩
      · simp only [Compilation.withoutSchemas, ne_eq, Remark.kind_eq_duplicateTagPath_iff]

end YangBinding
