import YangBinding.Proofs.Class.Lineage
import YangBinding.Proofs.Events

namespace YangBinding

-- The statement that a report is about, and the kind of its remark.
def Report.subject (r : Report) : Nat × RemarkKind := (r.node, r.kind)

namespace Event

def subject : Event → Nat × RemarkKind
  | .claim node _ _ => (node, .duplicateClassName)
  | .report r => r.subject

-- The class names that an event claims.
def names : Event → List String
  | .claim _ name _ => [name]
  | .report _ => []

-- What is to be said of an event that comes after the claims of some names.
def remarks (claimed : List String) : Event → List Diagnostic
  | .claim _ name path => if name ∈ claimed then [⟨path, .duplicateClassName name⟩] else []
  | .report r => [r.diagnostic]

end Event

-- What is to be said of a run of events, with nothing left out for having been said before.
def told (claimed : List String) : List Event → List Diagnostic
  | [] => []
  | event :: rest => event.remarks claimed ++ told (claimed ++ event.names) rest

theorem Reports.add_of_subject_notMem {reports : Reports} {r : Report}
    (h : r.subject ∉ reports.map Report.subject) : reports.add r = reports ++ [r] := by
  have hnone : ¬ reports.any r.sameSubject := by
    intro hany
    obtain ⟨kept, hk, hsame⟩ := List.any_eq_true.mp hany
    obtain ⟨hnode, hkind⟩ := (r.sameSubject_iff kept).mp hsame
    have hsubject : r.subject = kept.subject := Prod.ext hnode hkind
    exact h (hsubject ▸ List.mem_map_of_mem hk)
  rw [add, if_neg hnone]

namespace Ledger

theorem mem_claimed_record {ledger : Ledger} {event : Event} {name : String} :
    name ∈ (ledger.record event).claimed ↔ name ∈ ledger.claimed ++ event.names := by
  cases event with
  | claim node claimed path =>
      simp only [record, Event.names]
      split
      · rename_i h
        have hclaimed : claimed ∈ ledger.claimed := by simpa using h
        rw [List.mem_append, List.mem_singleton]
        constructor
        · exact .inl
        · rintro (h | rfl)
          · exact h
          · exact hclaimed
      · exact Iff.rfl
  | report r => simp [record, Event.names]

-- An event about something new is remarked on in full.
theorem diagnostics_record {ledger : Ledger} {event : Event}
    (h : event.subject ∉ ledger.reports.map Report.subject) :
    (ledger.record event).reports.diagnostics =
      ledger.reports.diagnostics ++ event.remarks ledger.claimed := by
  cases event with
  | claim node name path =>
      simp only [record, Event.remarks, List.contains_iff_mem]
      split
      · rw [Reports.add_of_subject_notMem h]
        simp [Reports.diagnostics]
      · simp
  | report r =>
      simp only [record, Event.remarks]
      rw [Reports.add_of_subject_notMem h]
      simp [Reports.diagnostics]

theorem subjects_record {ledger : Ledger} {event : Event}
    (h : event.subject ∉ ledger.reports.map Report.subject) :
    ((ledger.record event).reports.map Report.subject).Sublist
      (ledger.reports.map Report.subject ++ [event.subject]) := by
  cases event with
  | claim node name path =>
      simp only [record]
      split
      · rw [Reports.add_of_subject_notMem h, List.map_append]
        exact List.Sublist.refl _
      · exact List.sublist_append_left _ _
  | report r =>
      simp only [record]
      rw [Reports.add_of_subject_notMem h, List.map_append]
      exact List.Sublist.refl _

end Ledger

theorem Event.remarks_congr {claimed other : List String}
    (h : ∀ name, name ∈ claimed ↔ name ∈ other) (event : Event) :
    event.remarks claimed = event.remarks other := by
  cases event with
  | claim node name path => simp only [remarks, h name]
  | report r => rfl

theorem told_congr {claimed other : List String} (h : ∀ name, name ∈ claimed ↔ name ∈ other)
    (events : List Event) : told claimed events = told other events := by
  induction events generalizing claimed other with
  | nil => rfl
  | cons event rest ih =>
      have hnames : ∀ name, name ∈ claimed ++ event.names ↔ name ∈ other ++ event.names := by
        intro name
        rw [List.mem_append, List.mem_append, h name]
      rw [told, told, event.remarks_congr h, ih hnames]

theorem told_append (claimed : List String) (events more : List Event) :
    told claimed (events ++ more) =
      told claimed events ++ told (claimed ++ events.flatMap Event.names) more := by
  induction events generalizing claimed with
  | nil => simp [told]
  | cons event rest ih =>
      rw [List.cons_append, told, told, ih, List.flatMap_cons, List.append_assoc,
        List.append_assoc]

theorem Ledger.diagnostics_foldl (ledger : Ledger) (events : List Event)
    (h : (ledger.reports.map Report.subject ++ events.map Event.subject).Nodup) :
    (events.foldl record ledger).reports.diagnostics =
      ledger.reports.diagnostics ++ told ledger.claimed events := by
  induction events generalizing ledger with
  | nil => simp [told]
  | cons event rest ih =>
      have hfresh : event.subject ∉ ledger.reports.map Report.subject := by
        intro hm
        exact (List.nodup_append.mp h).2.2 _ hm _ List.mem_cons_self rfl
      have hrest : ((ledger.record event).reports.map Report.subject ++
          rest.map Event.subject).Nodup := by
        rw [List.map_cons, ← List.singleton_append, ← List.append_assoc] at h
        exact h.sublist ((subjects_record hfresh).append (List.Sublist.refl _))
      rw [List.foldl_cons, ih _ hrest, diagnostics_record hfresh, List.append_assoc, told,
        told_congr fun name => mem_claimed_record]

-- The collector leaves nothing out when no two events are about the same.
theorem diagnosticsOf_eq_told {events : List Event} (h : (events.map Event.subject).Nodup) :
    diagnosticsOf events = told [] events :=
  Ledger.diagnostics_foldl .empty events h

namespace Event

def node (event : Event) : Nat := event.subject.1

def kind (event : Event) : RemarkKind := event.subject.2

end Event

namespace Node

-- The events of a member that has no class of its own.
def plainEvents (path : String) (n : Node) : List Event :=
  match n.keyword with
  | .leaf | .leafList => typeEvents path n
  | .uses | .grouping => [unsupportedEvent path n]
  | _ => []

theorem memberEvents_cons (path : String) (n : Node) (rest : List Node) :
    memberEvents path (n :: rest) =
      (if n.keyword.hasClass then classEvents path n else plainEvents path n) ++
        memberEvents path rest := by
  rw [memberEvents, plainEvents]
  cases n.keyword <;> rfl

theorem plainEvents_nodes_sublist (path : String) (n : Node) :
    ((plainEvents path n).map Event.node).Sublist [n.id] := by
  have htype : ((typeEvents path n).map Event.node).Sublist [n.id] := by
    dsimp only [typeEvents]
    split
    · exact List.Sublist.refl _
    · exact List.nil_sublist _
  unfold plainEvents
  split
  · exact htype
  · exact htype
  · exact List.Sublist.refl _
  · exact List.Sublist.refl _
  · exact List.nil_sublist _

theorem classEvents_eq (path : String) (n : Node) :
    classEvents path n =
      .claim n.id (Java.className n.arg) (path ++ n.arg ++ "/") ::
        memberEvents (path ++ n.arg ++ "/") n.children := by
  cases n with
  | mk id keyword arg children => rw [classEvents, Node.id, Node.arg, Node.children]

theorem memberEvents_nodes_sublist (path : String) (nodes : List Node) :
    ((memberEvents path nodes).map Event.node).Sublist ((preorderAll nodes).map id) := by
  induction nodes using forest_induction generalizing path with
  | nil => simp [memberEvents]
  | cons id keyword arg children rest ihc ihr =>
      rw [memberEvents_cons, preorderAll, List.map_append, List.map_append, preorder]
      refine List.Sublist.append ?_ (ihr path)
      split
      · rw [classEvents, List.map_cons, List.map_cons]
        exact (ihc _).cons_cons _
      · refine (plainEvents_nodes_sublist path _).trans ?_
        rw [List.map_cons]
        exact List.Sublist.cons_cons _ (List.nil_sublist _)

theorem classEvents_nodes_sublist (path : String) (n : Node) :
    ((classEvents path n).map Event.node).Sublist (n.preorder.map id) := by
  rw [classEvents_eq, preorder_eq, List.map_cons, List.map_cons]
  exact (memberEvents_nodes_sublist _ _).cons_cons _

-- The events of a child of a module.
def topEvents (child : Node) : List Event :=
  if child.keyword.hasClass then classEvents "/" child
  else if child.needsExpansion then [unsupportedEvent "/" child]
  else []

theorem topEvents_nodes_sublist (child : Node) :
    ((topEvents child).map Event.node).Sublist (child.preorder.map id) := by
  unfold topEvents
  split
  · exact classEvents_nodes_sublist "/" child
  · split
    · rw [preorder_eq, List.map_cons]
      exact List.Sublist.cons_cons _ (List.nil_sublist _)
    · exact List.nil_sublist _

theorem kind_of_mem_topEvents {child : Node} {r : Report} (h : .report r ∈ topEvents child) :
    r.kind = .unsupportedType ∨ r.kind = .unsupportedStatement := by
  unfold topEvents at h
  split at h
  · exact kind_of_mem_classEvents h
  · split at h
    · obtain rfl := Event.report.inj (List.mem_singleton.mp h)
      exact .inr rfl
    · simp at h

-- The claim of a module's own class.
def rootClaim (n : Node) : Event :=
  .claim n.id (Java.className (((n.find? .modulePrefix).map arg).getD "")) "/"

-- What the schema of a module adds to its events.
def schemaEvents (root : Node) : List Event :=
  if root.keyword = .module then (root.schema none "" "/").reports.map .report else []

theorem moduleEvents_false (n : Node) :
    n.moduleEvents false = n.rootClaim :: n.children.flatMap topEvents := by
  unfold moduleEvents rootClaim topEvents
  simp

theorem rootEvents_true (root : Node) :
    root.rootEvents true = root.rootEvents false ++ root.schemaEvents := by
  unfold rootEvents schemaEvents
  split
  · rename_i hk
    simp [moduleEvents, hk]
  · rename_i hk
    simp [hk]
  · rename_i hk _
    rw [if_neg hk]
    rfl

theorem rootEvents_false_nodes_sublist (root : Node) :
    ((root.rootEvents false).map Event.node).Sublist (root.preorder.map id) := by
  rw [preorder_eq, List.map_cons]
  unfold rootEvents
  split
  · rw [moduleEvents_false, List.map_cons, preorderAll_eq_flatMap, List.map_flatMap,
      List.map_flatMap]
    refine List.Sublist.cons_cons _ ?_
    exact List.Sublist.flatMap_right _ fun child _ => topEvents_nodes_sublist child
  · exact List.Sublist.cons_cons _ (List.nil_sublist _)
  · exact List.nil_sublist _

theorem kind_of_mem_rootEvents_false {root : Node} {r : Report}
    (h : .report r ∈ root.rootEvents false) :
    r.kind = .unsupportedType ∨ r.kind = .unsupportedStatement ∨ r.kind = .submoduleSkipped := by
  unfold rootEvents at h
  split at h
  · rw [moduleEvents_false] at h
    rcases List.mem_cons.mp h with h | h
    · simp [rootClaim] at h
    · obtain ⟨child, -, h⟩ := List.mem_flatMap.mp h
      rcases kind_of_mem_topEvents h with hk | hk
      · exact .inl hk
      · exact .inr (.inl hk)
  · obtain rfl := Event.report.inj (List.mem_singleton.mp h)
    exact .inr (.inr rfl)
  · simp at h

theorem schemaEvents_nodes_sublist (root : Node) :
    (root.schemaEvents.map Event.node).Sublist (root.preorder.map id) := by
  unfold schemaEvents
  split
  · rw [List.map_map]
    exact schema_reports_nodes_sublist root "" "/"
  · exact List.nil_sublist _

theorem kind_of_mem_schemaEvents {root : Node} {event : Event} (h : event ∈ root.schemaEvents) :
    event.kind = .duplicateTagPath := by
  unfold schemaEvents at h
  split at h
  · obtain ⟨r, hr, rfl⟩ := List.mem_map.mp h
    exact kind_of_mem_schema_reports hr
  · simp at h

-- Building classes never finds that a tag path is taken.
theorem kind_ne_of_mem_rootEvents_false {root : Node} {event : Event}
    (h : event ∈ root.rootEvents false) : event.kind ≠ .duplicateTagPath := by
  cases event with
  | claim node name path => simp [Event.kind, Event.subject]
  | report r =>
      have hkind : Event.kind (.report r) = r.kind := rfl
      rcases kind_of_mem_rootEvents_false h with hk | hk | hk <;> simp [hkind, hk]

theorem subjects_nodup_of_nodes {events : List Event} (h : (events.map Event.node).Nodup) :
    (events.map Event.subject).Nodup := by
  have hmap : events.map Event.node = (events.map Event.subject).map Prod.fst := by
    rw [List.map_map]
    rfl
  exact List.Nodup.of_map Prod.fst (hmap ▸ h)

-- A statement is met once while classes are built and once for the schema. What is remarked on it
-- in the two is of different kinds.
theorem rootEvents_subjects_nodup {root : Node} (hroot : (root.preorder.map id).Nodup)
    (withSchema : Bool) : ((root.rootEvents withSchema).map Event.subject).Nodup := by
  have hbuild := subjects_nodup_of_nodes (hroot.sublist root.rootEvents_false_nodes_sublist)
  have hschema := subjects_nodup_of_nodes (hroot.sublist root.schemaEvents_nodes_sublist)
  cases withSchema with
  | false => exact hbuild
  | true =>
      rw [rootEvents_true, List.map_append]
      refine hbuild.append hschema fun subject hb hs => ?_
      obtain ⟨built, hbuilt, rfl⟩ := List.mem_map.mp hb
      obtain ⟨drawn, hdrawn, heq⟩ := List.mem_map.mp hs
      have hkind : built.kind = drawn.kind := congrArg Prod.snd heq.symm
      exact kind_ne_of_mem_rootEvents_false hbuilt (hkind.trans (kind_of_mem_schemaEvents hdrawn))

theorem node_mem_of_mem_rootEvents {root : Node} {withSchema : Bool} {event : Event}
    (h : event ∈ root.rootEvents withSchema) : event.node ∈ root.preorder.map id := by
  have hbuild {event : Event} (h : event ∈ root.rootEvents false) :
      event.node ∈ root.preorder.map id :=
    root.rootEvents_false_nodes_sublist.subset (List.mem_map_of_mem h)
  cases withSchema with
  | false => exact hbuild h
  | true =>
      rw [rootEvents_true, List.mem_append] at h
      rcases h with h | h
      · exact hbuild h
      · exact root.schemaEvents_nodes_sublist.subset (List.mem_map_of_mem h)

end Node

namespace Forest

-- What happens during the compilation of a forest.
def events (forest : Forest) (withSchema : Bool) : List Event :=
  forest.roots.flatMap fun root => root.rootEvents withSchema

theorem events_subjects_nodup (forest : Forest) (withSchema : Bool) :
    ((forest.events withSchema).map Event.subject).Nodup := by
  have hnodes := forest.nodes_ids_nodup
  rw [nodes, Node.preorderAll_eq_flatMap, List.map_flatMap, List.nodup_flatMap] at hnodes
  obtain ⟨hwithin, hacross⟩ := hnodes
  rw [events, List.map_flatMap, List.nodup_flatMap]
  refine ⟨fun root hroot => Node.rootEvents_subjects_nodup (hwithin root hroot) withSchema, ?_⟩
  refine hacross.imp fun {one other} hdisjoint subject hone hother => ?_
  obtain ⟨event, hevent, rfl⟩ := List.mem_map.mp hone
  obtain ⟨twin, htwin, heq⟩ := List.mem_map.mp hother
  have hnode : twin.node = event.node := congrArg Prod.fst heq
  exact hdisjoint (Node.node_mem_of_mem_rootEvents hevent)
    (hnode ▸ Node.node_mem_of_mem_rootEvents htwin)

-- A compilation goes through the roots for its modules, and through the events for what is told.
theorem compile_eq_map (forest : Forest) (withSchema : Bool) :
    forest.compile withSchema =
      (forest.roots.mapM fun root : Node => root.compileRoot withSchema).map fun outcomes =>
        ⟨outcomes.filterMap id, told [] (forest.events withSchema)⟩ := by
  rw [← diagnosticsOf_eq_told (forest.events_subjects_nodup withSchema)]
  unfold compile
  cases forest.roots.mapM fun root : Node => root.compileRoot withSchema with
  | error e => rfl
  | ok outcomes => rfl

theorem diagnostics_eq_told {forest : Forest} {withSchema : Bool} {compilation : Compilation}
    (h : forest.compile withSchema = .ok compilation) :
    compilation.diagnostics = told [] (forest.events withSchema) := by
  rw [compile_eq_map] at h
  obtain ⟨outcomes, -, rfl⟩ := Except.map_eq_ok_iff.mp h
  rfl

end Forest

end YangBinding
