import YangBinding.Proofs.Bare
import YangBinding.Proofs.Class.Mirror
import YangBinding.Proofs.Schema.Accounting

namespace YangBinding

theorem Event.remarks_sublist {claimed other : List String} (h : claimed ⊆ other)
    (event : Event) : (event.remarks claimed).Sublist (event.remarks other) := by
  cases event with
  | claim node name path =>
      simp only [remarks]
      split
      · rename_i hname
        rw [if_pos (h hname)]
      · exact List.nil_sublist _
  | report r => exact List.Sublist.refl _

-- The more names are claimed beforehand, the more is told.
theorem told_sublist_told {claimed other : List String} (h : claimed ⊆ other)
    (events : List Event) : (told claimed events).Sublist (told other events) := by
  induction events generalizing claimed other with
  | nil => exact List.Sublist.refl _
  | cons event rest ih =>
      have hnames : claimed ++ event.names ⊆ other ++ event.names :=
        List.append_subset.mpr ⟨List.Subset.trans h (List.subset_append_left _ _),
          List.subset_append_right _ _⟩
      exact (event.remarks_sublist h).append (ih hnames)

-- Only what is told of claims depends on the names claimed beforehand.
theorem filter_told_eq_filter_told (claimed other : List String) (events : List Event) :
    (told claimed events).filter (fun d => d.remark.kind ≠ .duplicateClassName) =
      (told other events).filter fun d => d.remark.kind ≠ .duplicateClassName := by
  induction events generalizing claimed other with
  | nil => rfl
  | cons event rest ih =>
      have hremarks : (event.remarks claimed).filter
          (fun d => d.remark.kind ≠ .duplicateClassName) =
          (event.remarks other).filter fun d => d.remark.kind ≠ .duplicateClassName := by
        cases event with
        | claim node name path =>
            simp only [Event.remarks]
            split <;> split <;> simp [Remark.kind]
        | report r => rfl
      rw [told, told, List.filter_append, List.filter_append, hremarks,
        ih (claimed ++ event.names) (other ++ event.names)]

theorem Node.numberAll_append (first : Nat) (forest more : List Statement) :
    numberAll first (forest ++ more) =
      numberAll first forest ++ numberAll (first + Statement.sizeAll forest) more := by
  induction forest generalizing first with
  | nil => simp [numberAll, Statement.sizeAll]
  | cons s rest ih =>
      rw [List.cons_append, numberAll, numberAll, ih, Statement.sizeAll, List.cons_append,
        Nat.add_assoc]

namespace Forest

variable (first second : Forest) (withSchema : Bool)

theorem mapM_compileRoot_append :
    (Forest.roots (first ++ second)).mapM (fun root : Node => root.compileRoot withSchema) = do
      let before ← first.roots.mapM fun root : Node => root.compileRoot withSchema
      let after ← second.roots.mapM fun root : Node => root.compileRoot withSchema
      return before ++ after := by
  have hnumbers := Node.bareAll_numberAll second (0 + Statement.sizeAll first) 0
  rw [Forest.roots, Node.numberAll_append, List.mapM_append,
    ← Node.mapM_compileRoot_bareAll (Node.numberAll (0 + Statement.sizeAll first) second),
    hnumbers, Node.mapM_compileRoot_bareAll]
  rfl

theorem told_events_append :
    told [] (Forest.events (first ++ second) withSchema) =
      told [] (first.events withSchema) ++
        told ((first.events withSchema).flatMap Event.names) (second.events withSchema) := by
  have hnumbers := Node.bareAll_numberAll second (0 + Statement.sizeAll first) 0
  rw [events, Forest.roots, Node.numberAll_append, List.flatMap_append, told_append,
    List.nil_append,
    ← Node.told_bareAll _ (Node.numberAll (0 + Statement.sizeAll first) second), hnumbers,
    Node.told_bareAll]
  rfl

theorem compile_append_failure? :
    (Forest.compile (first ++ second) withSchema).failure? =
      (first.compile withSchema).failure?.or (second.compile withSchema).failure? := by
  rw [compile_eq_map, compile_eq_map, compile_eq_map, Except.failure?_map, Except.failure?_map,
    Except.failure?_map, mapM_compileRoot_append]
  cases first.roots.mapM fun root : Node => root.compileRoot withSchema with
  | error e => rfl
  | ok before =>
      cases second.roots.mapM fun root : Node => root.compileRoot withSchema with
      | error e => rfl
      | ok after => rfl

variable {first second withSchema}

theorem compile_append_ok {a b : Compilation} (hfirst : first.compile withSchema = .ok a)
    (hsecond : second.compile withSchema = .ok b) :
    Forest.compile (first ++ second) withSchema = .ok ⟨a.modules ++ b.modules, a.diagnostics ++
      told ((first.events withSchema).flatMap Event.names) (second.events withSchema)⟩ := by
  rw [compile_eq_map] at hfirst hsecond
  obtain ⟨before, hbefore, rfl⟩ := Except.map_eq_ok_iff.mp hfirst
  obtain ⟨after, hafter, rfl⟩ := Except.map_eq_ok_iff.mp hsecond
  rw [compile_eq_map, mapM_compileRoot_append, hbefore, hafter, told_events_append]
  refine Except.map_eq_ok_iff.mpr ⟨before ++ after, rfl, ?_⟩
  rw [List.filterMap_append]

end Forest

-- The second forest may repeat class names of the first, and nothing else is told of it that it
-- would not lead to alone.
theorem compile_append (first second : Forest) (withSchema : Bool) :
    (∀ e, Forest.compile (first ++ second) withSchema = .error e ↔
      first.compile withSchema = .error e ∨
        (∃ a, first.compile withSchema = .ok a) ∧ second.compile withSchema = .error e) ∧
    ∀ a b, first.compile withSchema = .ok a → second.compile withSchema = .ok b →
      ∃ c rest, Forest.compile (first ++ second) withSchema = .ok c ∧
        c.modules = a.modules ++ b.modules ∧ c.diagnostics = a.diagnostics ++ rest ∧
        (rest.filter fun d => d.remark.kind ≠ .duplicateClassName) =
          (b.diagnostics.filter fun d => d.remark.kind ≠ .duplicateClassName) ∧
        b.diagnostics.Sublist rest := by
  constructor
  · intro e
    rw [← Except.failure?_eq_some_iff, Forest.compile_append_failure?, Option.or_eq_some_iff,
      Except.failure?_eq_some_iff, Except.failure?_eq_some_iff, Except.failure?_eq_none_iff]
  · intro a b hfirst hsecond
    refine ⟨_, _, Forest.compile_append_ok hfirst hsecond, rfl, rfl, ?_, ?_⟩
    · rw [Forest.diagnostics_eq_told hsecond]
      exact filter_told_eq_filter_told _ _ _
    · rw [Forest.diagnostics_eq_told hsecond]
      exact told_sublist_told (List.nil_subset _) _

-- The module, one container and the list are told about only because of the first forest.
theorem compile_append_twinContainers :
    ∃ a b, Forest.compile [listInContainer] true = .ok a ∧
      Forest.compile [twinContainers] true = .ok b ∧
      a.diagnostics.length = 2 ∧ b.diagnostics.length = 3 ∧
      ∃ c rest, Forest.compile ([listInContainer] ++ [twinContainers]) true = .ok c ∧
        c.diagnostics.length = 8 ∧
        c.modules = a.modules ++ b.modules ∧ c.diagnostics = a.diagnostics ++ rest ∧
        (rest.filter fun d => d.remark.kind ≠ .duplicateClassName) =
          (b.diagnostics.filter fun d => d.remark.kind ≠ .duplicateClassName) ∧
        b.diagnostics.Sublist rest := by
  have hfirst : Forest.compile [listInContainer] true = .ok _ := rfl
  have hsecond : Forest.compile [twinContainers] true = .ok _ := rfl
  have hboth : Forest.compile ([listInContainer] ++ [twinContainers]) true = .ok _ := rfl
  obtain ⟨c, rest, hc, hparts⟩ :=
    (compile_append [listInContainer] [twinContainers] true).2 _ _ hfirst hsecond
  refine ⟨_, _, hfirst, hsecond, by decide +kernel, by decide +kernel, c, rest, hc, ?_, hparts⟩
  obtain rfl := Except.ok.inj (hboth.symm.trans hc)
  decide +kernel

end YangBinding
