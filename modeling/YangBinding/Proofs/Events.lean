import YangBinding.Compile.Module
import YangBinding.Proofs.Schema.Accounting
import Mathlib.Data.List.Flatten

namespace YangBinding

namespace Node

theorem kind_of_mem_typeEvents {path : String} {leaf : Node} {r : Report}
    (h : .report r ∈ typeEvents path leaf) : r.kind = .unsupportedType := by
  dsimp only [typeEvents] at h
  split at h
  · obtain rfl := Event.report.inj (List.mem_singleton.mp h)
    rfl
  · simp at h

-- Building classes never reports a tag path.
theorem kind_of_mem_memberEvents {path : String} {nodes : List Node} {r : Report}
    (h : .report r ∈ memberEvents path nodes) :
    r.kind = .unsupportedType ∨ r.kind = .unsupportedStatement := by
  induction nodes using forest_induction generalizing path with
  | nil => simp [memberEvents] at h
  | cons id keyword arg children rest ihc ihr =>
      rw [memberEvents, List.mem_append] at h
      rcases h with h | h
      · have hclass (h : .report r ∈ classEvents path (.mk id keyword arg children)) :
            r.kind = .unsupportedType ∨ r.kind = .unsupportedStatement := by
          rw [classEvents] at h
          rcases List.mem_cons.mp h with h | h
          · simp at h
          · exact ihc h
        split at h
        · exact hclass h
        · exact hclass h
        · exact .inl (kind_of_mem_typeEvents h)
        · exact .inl (kind_of_mem_typeEvents h)
        · obtain rfl := Event.report.inj (List.mem_singleton.mp h)
          exact .inr rfl
        · obtain rfl := Event.report.inj (List.mem_singleton.mp h)
          exact .inr rfl
        · simp at h
      · exact ihr h

theorem kind_of_mem_classEvents {path : String} {n : Node} {r : Report}
    (h : .report r ∈ classEvents path n) :
    r.kind = .unsupportedType ∨ r.kind = .unsupportedStatement := by
  cases n with
  | mk id keyword arg children =>
      rw [classEvents] at h
      rcases List.mem_cons.mp h with h | h
      · simp at h
      · exact kind_of_mem_memberEvents h

-- A report about a tag path comes from the schema of a module.
theorem mem_schema_reports_of_mem_rootEvents {root : Node} {r : Report}
    (h : .report r ∈ root.rootEvents true) (hkind : r.kind = .duplicateTagPath) :
    r ∈ (root.schema none "" "/").reports := by
  unfold rootEvents at h
  split at h
  · rw [moduleEvents, if_pos rfl, List.mem_append] at h
    rcases h with h | h
    · rcases List.mem_cons.mp h with h | h
      · simp at h
      · obtain ⟨child, -, h⟩ := List.mem_flatMap.mp h
        split at h
        · rcases kind_of_mem_classEvents h with hk | hk <;> simp [hk] at hkind
        · split at h
          · obtain rfl := Event.report.inj (List.mem_singleton.mp h)
            simp [Report.kind, Remark.kind] at hkind
          · simp at h
    · obtain ⟨r', hr', heq⟩ := List.mem_map.mp h
      rwa [← Event.report.inj heq]
  · obtain rfl := Event.report.inj (List.mem_singleton.mp h)
    simp [Report.kind, Remark.kind] at hkind
  · simp at h

theorem kind_of_mem_schema_reports {n : Node} {parent : Option Node} {namespaceUri base : String}
    {r : Report} (h : r ∈ (n.schema parent namespaceUri base).reports) :
    r.kind = .duplicateTagPath := by
  obtain ⟨inner, refused, _, hschema⟩ := n.exists_survey base
  rw [hschema] at h
  obtain ⟨route, _, rfl⟩ := List.mem_map.mp h
  rfl

theorem schema_reports_nodes_sublist (root : Node) (namespaceUri base : String) :
    ((root.schema none namespaceUri base).reports.map Report.node).Sublist
      (root.preorder.map id) := by
  obtain ⟨inner, refused, h, hschema⟩ := root.exists_survey base
  have htargets := (h.refused_sublist.map (Route.target root)).trans
    (map_target_routes_sublist Keyword.inSchema root)
  have hnodes : (refused.map (Route.refusal root base)).map Report.node =
      (refused.map (Route.target root)).map id := by
    rw [List.map_map, List.map_map]
    rfl
  rw [hschema]
  exact hnodes ▸ htargets.map id

end Node

namespace Forest

-- No statement is refused twice, over all modules.
theorem schema_reports_nodes_nodup (forest : Forest) :
    ((forest.roots.flatMap fun root => (root.schema none "" "/").reports).map
      Report.node).Nodup := by
  have hnodes : forest.nodes.map Node.id =
      forest.roots.flatMap fun root => root.preorder.map Node.id := by
    rw [nodes, Node.preorderAll_eq_flatMap, List.map_flatMap]
  have hsublist := List.Sublist.flatMap_right forest.roots fun root _ =>
    Node.schema_reports_nodes_sublist root "" "/"
  rw [← hnodes] at hsublist
  rw [List.map_flatMap]
  exact forest.nodes_ids_nodup.sublist hsublist

-- What the schema of a module refuses is told.
theorem diagnostic_of_schema_report {forest : Forest} {root : Node} (hroot : root ∈ forest.roots)
    (hk : root.keyword = .module) {r : Report} (hr : r ∈ (root.schema none "" "/").reports) :
    r.diagnostic ∈ diagnosticsOf (forest.roots.flatMap fun root => root.rootEvents true) := by
  have hkind := Node.kind_of_mem_schema_reports hr
  have hevent : Event.report r ∈ root.rootEvents true := by
    simp [Node.rootEvents, hk, Node.moduleEvents, hr]
  refine diagnostic_mem_diagnosticsOf (List.mem_flatMap.mpr ⟨root, hroot, hevent⟩) ?_ ?_
  · simp [hkind]
  · intro other hother hsame
    obtain ⟨hnode, hsamekind⟩ := (r.sameSubject_iff other).mp hsame
    obtain ⟨root', hroot', hother⟩ := List.mem_flatMap.mp hother
    have hreport := Node.mem_schema_reports_of_mem_rootEvents hother (hsamekind ▸ hkind)
    exact List.inj_on_of_nodup_map forest.schema_reports_nodes_nodup
      (List.mem_flatMap.mpr ⟨root', hroot', hreport⟩) (List.mem_flatMap.mpr ⟨root, hroot, hr⟩)
      hnode.symm

end Forest

end YangBinding
