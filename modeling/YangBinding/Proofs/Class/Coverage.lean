import YangBinding.Proofs.Class.Origin
import YangBinding.Proofs.Told

-- A member on the left of two lists related one by one has its partner at the same place.
theorem List.Forall₂.exists_mem_zip {α β : Type} {R : α → β → Prop} {xs : List α} {ys : List β}
    (h : List.Forall₂ R xs ys) {x : α} (hx : x ∈ xs) : ∃ y, (x, y) ∈ xs.zip ys ∧ R x y := by
  induction h with
  | nil => simp at hx
  | @cons head y xs ys hxy _ ih =>
      rcases List.mem_cons.mp hx with rfl | hx
      · exact ⟨y, List.mem_cons_self, hxy⟩
      · obtain ⟨z, hz, hr⟩ := ih hx
        exact ⟨z, List.mem_cons_of_mem _ hz, hr⟩

namespace YangBinding

-- How a child of a statement can show in the class of that statement: by a class of its own in
-- the place of that child, by accessors, or as a statement that was skipped.
inductive Represented (s : Node) (tree : ClassTree) (child : Node) : Prop
  | nested {inner} :
      (child, inner) ∈ (s.children.filter fun n => n.keyword.hasClass).zip tree.children →
      inner.spec.tag = child.arg → Represented s tree child
  | accessor {a} : a ∈ tree.spec.accessors → a.name = child.arg →
      a.kind ∈ child.keyword.memberKinds → Represented s tree child
  | skipped : ⟨child.keyword, child.arg⟩ ∈ tree.spec.skipped → Represented s tree child

namespace Node

theorem classSpec_tag {s : Node} {context : ModuleContext} {topLevel : Bool} {path : String}
    {c : ClassSpec} (h : s.classSpec context topLevel path = .ok c) : c.tag = s.arg := by
  obtain ⟨_, _, _, _, rfl⟩ := classSpec_eq_ok_iff.mp h
  rfl

theorem represented_of_hasClass {s child : Node} {context : ModuleContext} {topLevel : Bool}
    {path : String} {tree : ClassTree}
    (h : classTrees context topLevel path s.children = .ok tree.children)
    (hchild : child ∈ s.children) (hk : child.keyword.hasClass) : Represented s tree child := by
  have hmem : child ∈ s.children.filter fun n => n.keyword.hasClass :=
    List.mem_filter.mpr ⟨hchild, hk⟩
  obtain ⟨inner, hzip, hspec⟩ := (classTrees_forall₂ h).exists_mem_zip hmem
  exact .nested hzip (classSpec_tag hspec)

theorem accessors_ne_nil {keyNames : List String} {child : Node} {block : List Accessor}
    (h : accessors keyNames child = .ok block) (hdata : child.keyword.isData) : block ≠ [] := by
  unfold accessors at h
  split at h
  · obtain ⟨keys, -, h⟩ := Except.bind_eq_ok_iff.mp h
    obtain rfl := Except.ok.inj h
    simp [Accessor.ofList]
  · obtain rfl := Except.ok.inj h
    simp [Accessor.ofContainer]
  · obtain rfl := Except.ok.inj h
    unfold Accessor.ofLeaf
    split
    · simp [Accessor.ofKeyLeaf]
    · simp [Accessor.ofPlainLeaf]
  · obtain rfl := Except.ok.inj h
    simp [Accessor.ofLeafList]
  · rename_i hlist hcontainer hleaf hleafList
    cases hk : child.keyword <;> simp_all [Keyword.isData]

-- In a class every data node has accessors.
theorem represented_of_classSpec {s child : Node} {context : ModuleContext} {topLevel : Bool}
    {path : String} {tree : ClassTree} (h : s.classSpec context topLevel path = .ok tree.spec)
    (hchild : child ∈ s.children) (hdata : child.keyword.isData) : Represented s tree child := by
  obtain ⟨blocks, _, hblocks, _, hspec⟩ := classSpec_eq_ok_iff.mp h
  obtain ⟨block, hmem, hblock⟩ :=
    (Except.mapM_eq_ok_iff.mp hblocks).flip.exists_of_mem_right hchild
  obtain ⟨a, ha⟩ := List.exists_mem_of_ne_nil block (accessors_ne_nil hblock hdata)
  obtain ⟨hname, hkind, -⟩ := of_mem_accessors hblock ha
  have haccessor : a ∈ tree.spec.accessors := by
    rw [hspec]
    exact List.mem_flatten.mpr ⟨block, hmem, ha⟩
  exact .accessor haccessor hname hkind

-- The class of a module has classes inside it and nothing else that stands for a data node.
theorem not_represented_of_top {root child : Node} {namespaceUri modulePrefix : String}
    {tree : ClassTree} (h : tree.spec = root.rootSpec namespaceUri modulePrefix)
    (hdata : child.keyword.isData) (hk : ¬ child.keyword.hasClass) :
    ¬ Represented root tree child := by
  rintro (⟨hzip, -⟩ | ⟨ha, -, -⟩ | hskipped)
  · exact hk (List.mem_filter.mp (List.of_mem_zip hzip).1).2
  · rw [h] at ha
    simp [rootSpec] at ha
  · rw [h] at hskipped
    obtain ⟨other, hother, heq⟩ := List.mem_map.mp hskipped
    have hkeyword : other.keyword = child.keyword := congrArg Skipped.keyword heq
    have hexpand := (List.mem_filter.mp hother).2
    simp only [needsExpansion, hkeyword] at hexpand
    cases hc : child.keyword <;> simp_all [Keyword.isData]

end Node

theorem ClassTree.subtrees_eq (tree : ClassTree) :
    tree.subtrees = tree :: subtreesAll tree.children := by
  cases tree
  rw [subtrees]
  rfl

namespace Ledger

theorem subject_of_mem_reports_record {ledger : Ledger} {event : Event} {r : Report}
    (h : r ∈ (ledger.record event).reports) : r ∈ ledger.reports ∨ event.subject = r.subject := by
  cases event with
  | claim node name path =>
      simp only [record] at h
      split at h
      · rcases Reports.mem_add h with h | rfl
        · exact .inl h
        · exact .inr rfl
      · exact .inl h
  | report other =>
      rcases Reports.mem_add h with h | rfl
      · exact .inl h
      · exact .inr rfl

-- Every report comes from an event about the same.
theorem exists_event_of_mem_reports {ledger : Ledger} {events : List Event} {r : Report}
    (h : r ∈ (events.foldl record ledger).reports) :
    r ∈ ledger.reports ∨ ∃ event ∈ events, event.subject = r.subject := by
  induction events generalizing ledger with
  | nil => exact .inl h
  | cons event rest ih =>
      rcases ih h with h | ⟨other, hother, hsubject⟩
      · rcases subject_of_mem_reports_record h with h | hsubject
        · exact .inl h
        · exact .inr ⟨event, List.mem_cons_self, hsubject⟩
      · exact .inr ⟨other, List.mem_cons_of_mem _ hother, hsubject⟩

end Ledger

namespace Node

theorem node_of_mem_plainEvents {path : String} {n : Node} {event : Event}
    (h : event ∈ plainEvents path n) : event.node = n.id := by
  have hmem := (plainEvents_nodes_sublist path n).subset (List.mem_map_of_mem h)
  exact List.mem_singleton.mp hmem

-- What happens while the members of a class are gone through is about one of them, or about a
-- child of a class further inside.
theorem owner_of_mem_memberEvents {path : String} {nodes : List Node} {event : Event}
    (h : event ∈ memberEvents path nodes) : ∃ m, m.id = event.node ∧
      (m ∈ nodes ∨ ∃ p ∈ preorderAll nodes, p.keyword.hasClass ∧ m ∈ p.children) := by
  induction nodes using forest_induction generalizing path with
  | nil => simp [memberEvents] at h
  | cons id keyword arg children rest ihc ihr =>
      rw [preorderAll, preorder]
      rw [memberEvents_cons, List.mem_append] at h
      rcases h with h | h
      · split at h
        · rename_i hk
          rw [classEvents] at h
          rcases List.mem_cons.mp h with rfl | h
          · exact ⟨_, rfl, .inl List.mem_cons_self⟩
          · obtain ⟨m, hid, hm | ⟨p, hp, hclass, hm⟩⟩ := ihc h
            · exact ⟨m, hid, .inr ⟨_, List.mem_append_left _ List.mem_cons_self, hk, hm⟩⟩
            · have hp' := List.mem_append_left (preorderAll rest)
                (List.mem_cons_of_mem (.mk id keyword arg children) hp)
              exact ⟨m, hid, .inr ⟨p, hp', hclass, hm⟩⟩
        · exact ⟨_, (node_of_mem_plainEvents h).symm, .inl List.mem_cons_self⟩
      · obtain ⟨m, hid, hm | ⟨p, hp, hclass, hm⟩⟩ := ihr h
        · exact ⟨m, hid, .inl (List.mem_cons_of_mem _ hm)⟩
        · exact ⟨m, hid, .inr ⟨p, List.mem_append_right _ hp, hclass, hm⟩⟩

theorem owner_of_mem_topEvents {child : Node} {event : Event} (h : event ∈ topEvents child) :
    (event.node = child.id ∧ child.keyword ≠ .leaf ∧ child.keyword ≠ .leafList) ∨
      ∃ p ∈ child.preorder, p.keyword.hasClass ∧ ∃ m ∈ p.children, m.id = event.node := by
  unfold topEvents at h
  split at h
  · rename_i hk
    rw [classEvents_eq] at h
    rcases List.mem_cons.mp h with rfl | h
    · refine .inl ⟨rfl, ?_, ?_⟩ <;> intro heq <;> simp [heq, Keyword.hasClass] at hk
    · right
      rw [preorder_eq]
      obtain ⟨m, hid, hm | ⟨p, hp, hclass, hm⟩⟩ := owner_of_mem_memberEvents h
      · exact ⟨child, List.mem_cons_self, hk, m, hm, hid⟩
      · exact ⟨p, List.mem_cons_of_mem _ hp, hclass, m, hm, hid⟩
  · split at h
    · rename_i hexpand
      rw [List.mem_singleton.mp h]
      refine .inl ⟨rfl, ?_, ?_⟩ <;> intro heq <;> simp [heq, needsExpansion] at hexpand
    · simp at h

end Node

namespace Forest

-- Building classes is about leaves and leaf-lists only where they stand in a class.
theorem owner_of_mem_events {forest : Forest} {event : Event} (h : event ∈ forest.events false) :
    ∃ m ∈ forest.nodes, m.id = event.node ∧
      ((m.keyword ≠ .leaf ∧ m.keyword ≠ .leafList) ∨
        ∃ p ∈ forest.nodes, p.keyword.hasClass ∧ m ∈ p.children) := by
  obtain ⟨root, hroot, h⟩ := List.mem_flatMap.mp h
  have hnode := mem_nodes_of_mem_roots hroot
  unfold Node.rootEvents at h
  split at h
  · rename_i hk
    rw [Node.moduleEvents_false] at h
    rcases List.mem_cons.mp h with rfl | h
    · exact ⟨root, hnode, rfl, .inl (by simp [hk])⟩
    · obtain ⟨child, hchild, h⟩ := List.mem_flatMap.mp h
      have hc := mem_nodes_of_mem_children hnode hchild
      rcases Node.owner_of_mem_topEvents h with ⟨hid, hkeyword⟩ | ⟨p, hp, hclass, m, hm, hid⟩
      · exact ⟨child, hc, hid.symm, .inl hkeyword⟩
      · have hp' := (Node.preorder_sublist hc).subset hp
        exact ⟨m, mem_nodes_of_mem_children hp' hm, hid, .inr ⟨p, hp', hclass, hm⟩⟩
  · rename_i hk
    rw [List.mem_singleton.mp h]
    exact ⟨root, hnode, rfl, .inl (by simp [hk])⟩
  · simp at h

theorem root_unique {forest : Forest} {root other : Node} (hroot : root ∈ forest.roots)
    (hother : other ∈ forest.roots) {i : Nat} (hi : i ∈ root.preorder.map Node.id)
    (hi' : i ∈ other.preorder.map Node.id) : root = other := by
  have hnodup := forest.nodes_ids_nodup
  rw [nodes, Node.preorderAll_eq_flatMap, List.map_flatMap, List.nodup_flatMap] at hnodup
  have hsymm : Std.Symm (Function.onFun List.Disjoint fun n : Node => n.preorder.map Node.id) :=
    ⟨fun _ _ h => h.symm⟩
  by_contra hne
  exact hnodup.2.forall hroot hother hne hi hi'

-- The reports behind the diagnostics of a compilation.
def reports (forest : Forest) (withSchema : Bool) : Reports :=
  ((forest.events withSchema).foldl Ledger.record .empty).reports

theorem diagnostics_eq_reports {forest : Forest} {withSchema : Bool} {compilation : Compilation}
    (h : forest.compile withSchema = .ok compilation) :
    compilation.diagnostics = (forest.reports withSchema).diagnostics :=
  (compile_ok h).2

section Top

variable {forest : Forest} {root child : Node}

-- A leaf or leaf-list directly in a module is not what building classes is about.
theorem node_ne_of_top_leaf (hroot : root ∈ forest.roots) (hk : root.keyword = .module)
    (hchild : child ∈ root.children) (hleaf : child.keyword = .leaf ∨ child.keyword = .leafList)
    {event : Event} (h : event ∈ forest.events false) : event.node ≠ child.id := by
  intro heq
  have hnode := mem_nodes_of_mem_roots hroot
  obtain ⟨m, hm, hid, hplace⟩ := owner_of_mem_events h
  obtain rfl := eq_of_id_eq hm (mem_nodes_of_mem_children hnode hchild) (hid.trans heq)
  rcases hplace with ⟨hone, hother⟩ | ⟨p, hp, hclass, hmem⟩
  · exact hleaf.elim hone hother
  · rw [parent_unique hp hnode hmem hchild rfl, hk] at hclass
    simp [Keyword.hasClass] at hclass

theorem schema_report_of_event (hroot : root ∈ forest.roots) (hchild : child ∈ root.children)
    {other : Node} (hother : other ∈ forest.roots) {event : Event}
    (h : event ∈ other.schemaEvents) (hid : event.node = child.id) :
    ∃ r ∈ (root.schema none "" "/").reports, r.node = child.id := by
  have hthere : child.id ∈ other.preorder.map Node.id :=
    hid ▸ other.schemaEvents_nodes_sublist.subset (List.mem_map_of_mem h)
  have hhere : child.id ∈ root.preorder.map Node.id := by
    rw [Node.preorder_eq]
    exact List.mem_map_of_mem (List.mem_cons_of_mem _ (Node.mem_preorderAll_of_mem hchild))
  obtain rfl := root_unique hroot hother hhere hthere
  unfold Node.schemaEvents at h
  split at h
  · obtain ⟨r, hr, rfl⟩ := List.mem_map.mp h
    exact ⟨r, hr, hid⟩
  · simp at h

theorem exists_report_of_schema (hroot : root ∈ forest.roots) (hk : root.keyword = .module)
    {r : Report} (hr : r ∈ (root.schema none "" "/").reports) :
    ∃ kept ∈ forest.reports true, kept.node = r.node := by
  have hschema : Event.report r ∈ root.schemaEvents := by
    rw [Node.schemaEvents, if_pos hk]
    exact List.mem_map_of_mem hr
  have hevent : Event.report r ∈ forest.events true := by
    refine List.mem_flatMap.mpr ⟨root, hroot, ?_⟩
    rw [Node.rootEvents_true]
    exact List.mem_append_right _ hschema
  have hexists : ∃ kept ∈ forest.reports true, r.sameSubject kept := Ledger.exists_kept_foldl hevent
  obtain ⟨kept, hkept, hsame⟩ := hexists
  exact ⟨kept, hkept, (((r.sameSubject_iff kept).mp hsame).1).symm⟩

-- Only the schema can report a leaf or leaf-list directly in a module.
theorem reported_top_leaf_iff (hroot : root ∈ forest.roots) (hk : root.keyword = .module)
    (hchild : child ∈ root.children) (hleaf : child.keyword = .leaf ∨ child.keyword = .leafList)
    (withSchema : Bool) : (∃ r ∈ forest.reports withSchema, r.node = child.id) ↔
      withSchema ∧ ∃ r ∈ (root.schema none "" "/").reports, r.node = child.id := by
  constructor
  · rintro ⟨r, hr, hid⟩
    obtain ⟨event, hevent, hsubject⟩ :=
      (Ledger.exists_event_of_mem_reports hr).resolve_left (by simp [Ledger.empty])
    have hnode : event.node = child.id := (congrArg Prod.fst hsubject).trans hid
    cases withSchema with
    | false => exact absurd hnode (node_ne_of_top_leaf hroot hk hchild hleaf hevent)
    | true =>
        obtain ⟨other, hother, hevent⟩ := List.mem_flatMap.mp hevent
        rw [Node.rootEvents_true, List.mem_append] at hevent
        rcases hevent with hevent | hevent
        · have hbuild : event ∈ forest.events false := List.mem_flatMap.mpr ⟨other, hother, hevent⟩
          exact absurd hnode (node_ne_of_top_leaf hroot hk hchild hleaf hbuild)
        · exact ⟨rfl, schema_report_of_event hroot hchild hother hevent hnode⟩
  · rintro ⟨rfl, r, hr, hid⟩
    obtain ⟨kept, hkept, hsame⟩ := exists_report_of_schema hroot hk hr
    exact ⟨kept, hkept, hsame.trans hid⟩

end Top

end Forest

-- A child shows in the class of its statement, or a report is about it.
def Accounted (forest : Forest) (withSchema : Bool) (s : Node) (tree : ClassTree) (child : Node) :
    Prop :=
  Represented s tree child ∨ ∃ r ∈ forest.reports withSchema, r.node = child.id

theorem Keyword.leaf_of_isData {keyword : Keyword} (h : keyword.isData) (hk : ¬ keyword.hasClass) :
    keyword = .leaf ∨ keyword = .leafList := by
  cases keyword <;> simp_all [isData, hasClass]

-- In a container or list, at any depth, every data node shows.
theorem Yields.accounted {context : ModuleContext} {route : Route} {tree : ClassTree}
    (h : Yields context route tree) (forest : Forest) (withSchema : Bool) {root child : Node}
    (hchild : child ∈ (route.target root).children) (hdata : child.keyword.isData) :
    route ≠ [] ∧ Accounted forest withSchema (route.target root) tree child := by
  cases h with
  | statement _ hspec _ =>
      exact ⟨List.cons_ne_nil _ _, .inl (Node.represented_of_classSpec hspec hchild hdata)⟩

-- Directly in a module, a data node without a class is at most reported.
theorem Forest.accounted_top_iff {forest : Forest} {root : Node} (hroot : root ∈ forest.roots)
    (hk : root.keyword = .module) {tree : ClassTree} {namespaceUri modulePrefix : String}
    (hspec : tree.spec = root.rootSpec namespaceUri modulePrefix) {context : ModuleContext}
    (hnested : Node.classTrees context true "/" root.children = .ok tree.children)
    (withSchema : Bool) {child : Node} (hchild : child ∈ root.children)
    (hdata : child.keyword.isData) :
    Accounted forest withSchema root tree child ↔ child.keyword.hasClass ∨
      withSchema ∧ ∃ r ∈ (root.schema none "" "/").reports, r.node = child.id := by
  by_cases hclass : child.keyword.hasClass
  · have hnested := Node.represented_of_hasClass hnested hchild hclass
    exact iff_of_true (.inl hnested) (.inl hclass)
  · have hleaf := Keyword.leaf_of_isData hdata hclass
    have hnone := Node.not_represented_of_top hspec hdata hclass
    rw [Accounted, reported_top_leaf_iff hroot hk hchild hleaf withSchema, or_iff_right hnone,
      or_iff_right hclass]

theorem data_nodes_accounted_iff (forest : Forest) (withSchema : Bool) (compilation : Compilation)
    (h : forest.compile withSchema = .ok compilation) :
    compilation.diagnostics = (forest.reports withSchema).diagnostics ∧
    List.Forall₂ (fun root m => List.Forall₂ (fun (route : Route) tree =>
        ∀ child ∈ (route.target root).children, child.keyword.isData →
          (Accounted forest withSchema (route.target root) tree child ↔
            (route = [] → child.keyword.hasClass ∨
              withSchema ∧ ∃ r ∈ (root.schema none "" "/").reports, r.node = child.id)))
        (root.routes Keyword.hasClass) m.model.root.subtrees)
      (forest.roots.filter fun root => root.keyword = .module) compilation.modules := by
  refine ⟨Forest.diagnostics_eq_reports h, ?_⟩
  have hall := (List.forall₂_and_left _ _).mpr
    ⟨fun root hr => List.mem_filter.mp hr, Forest.forall₂_yields h⟩
  refine hall.imp fun root m ⟨⟨hroot, hk⟩, _, _, context, hspec, hnested, hyields⟩ => ?_
  rw [Node.routes, ClassTree.subtrees_eq]
  refine .cons (fun child hchild hdata => ?_) (hyields.imp fun route tree hyield => ?_)
  · have htop := Forest.accounted_top_iff hroot (of_decide_eq_true hk) hspec hnested withSchema
      hchild hdata
    exact ⟨fun h _ => htop.mp h, fun h => htop.mpr (h rfl)⟩
  · intro child hchild hdata
    obtain ⟨hne, haccounted⟩ := hyield.accounted forest withSchema hchild hdata
    exact iff_of_true haccounted fun h => absurd h hne

-- Of the two leaves of one name the schema tells of the second.
def leavesInModule : Forest :=
  [.mk .module "m" [.mk .namespaceUri "urn:m" [], .mk .modulePrefix "p" [],
    .mk .leaf "x" [.mk .type "string" []], .mk .leaf "x" [.mk .type "string" []],
    .mk .container "c" [.mk .leaf "y" [.mk .type "string" []]]]]

theorem data_nodes_accounted_iff_leavesInModule :
    ∃ compilation, leavesInModule.compile true = .ok compilation ∧
      compilation.diagnostics = [⟨"/x/", .duplicateTagPath⟩] ∧
      compilation.diagnostics = (leavesInModule.reports true).diagnostics ∧
      List.Forall₂ (fun root m => List.Forall₂ (fun (route : Route) tree =>
          ∀ child ∈ (route.target root).children, child.keyword.isData →
            (Accounted leavesInModule true (route.target root) tree child ↔
              (route = [] → child.keyword.hasClass ∨
                true ∧ ∃ r ∈ (root.schema none "" "/").reports, r.node = child.id)))
          (root.routes Keyword.hasClass) m.model.root.subtrees)
        (leavesInModule.roots.filter fun root => root.keyword = .module) compilation.modules := by
  have h : leavesInModule.compile true = .ok _ := rfl
  exact ⟨_, h, by decide +kernel, data_nodes_accounted_iff _ _ _ h⟩

def leafInModule : Forest :=
  [.mk .module "m" [.mk .namespaceUri "urn:m" [], .mk .modulePrefix "p" [],
    .mk .leaf "x" [.mk .type "string" []]]]

-- The leaf leads to no class, no accessor, no skipped statement and no diagnostic.
theorem leaf_of_module_vanishes :
    ∃ compilation, leafInModule.compile false = .ok compilation ∧ compilation.diagnostics = [] ∧
      ∃ m ∈ compilation.modules, m.model.root.children.isEmpty ∧
        m.model.root.spec.accessors = [] ∧ m.model.root.spec.skipped = [] ∧ m.schema = none := by
  have h : leafInModule.compile false = .ok _ := rfl
  exact ⟨_, h, by decide +kernel, _, List.mem_cons_self, by decide +kernel, by decide +kernel,
    by decide +kernel, rfl⟩

end YangBinding
