import YangBinding.Proofs.Reports
import YangBinding.Proofs.Schema.Survey

namespace YangBinding

namespace Route

-- The record of the statement that a route leads to. Only the node at the start has a parent that
-- the route does not tell.
def record (start : Node) (parent : Option Node) (namespaceUri base : String) (route : Route) :
    SchemaRecord :=
  match route with
  | [] => start.schemaRecord parent namespaceUri base
  | s :: around =>
    s.schemaRecord (some (target start around)) namespaceUri (path base (s :: around))

-- The report about a statement that was refused.
def refusal (start : Node) (base : String) (route : Route) : Report :=
  ⟨(target start route).id, ⟨path base route, .duplicateTagPath⟩⟩

theorem record_tagPath (start : Node) (parent : Option Node) (namespaceUri base : String)
    (route : Route) : (route.record start parent namespaceUri base).tagPath = route.path base := by
  cases route with
  | nil => rfl
  | cons s around => rfl

theorem record_namespaceUri (start : Node) (parent : Option Node) (namespaceUri base : String)
    (route : Route) :
    (route.record start parent namespaceUri base).namespaceUri = namespaceUri := by
  cases route with
  | nil => rfl
  | cons s around => rfl

theorem record_children (start : Node) (parent : Option Node) (namespaceUri base : String)
    (route : Route) :
    (route.record start parent namespaceUri base).children = (route.target start).dataNames := by
  cases route with
  | nil => rfl
  | cons s around => rfl

-- In a forest every parent can be looked up.
theorem record_eq_lookup {forest : Forest} {start : Node} (hstart : start ∈ forest.nodes)
    (namespaceUri base : String) {enters : Keyword → Bool} {route : Route}
    (h : route.Leads enters start) :
    route.record start (forest.parent? start.id) namespaceUri base =
      (route.target start).schemaRecord (forest.parent? (route.target start).id) namespaceUri
        (route.path base) := by
  cases route with
  | nil => rfl
  | cons s around =>
      rw [target_cons, Forest.parent?_of_mem_children (h.1.target_mem_nodes hstart) h.2.1]
      rfl

end Route

-- The drawing that a survey stands for.
def Drawing.ofRoutes (start : Node) (parent : Option Node) (namespaceUri base : String)
    (drawn refused : List Route) : Drawing :=
  ⟨⟨drawn.map (Route.record start parent namespaceUri base)⟩,
    refused.map (Route.refusal start base)⟩

theorem Drawing.ofRoutes_paths (start : Node) (parent : Option Node) (namespaceUri base : String)
    (drawn refused : List Route) :
    (Drawing.ofRoutes start parent namespaceUri base drawn refused).table.paths =
      drawn.map (Route.path base) := by
  simp [ofRoutes, SchemaTable.paths, Route.record_tagPath]

namespace Node

section Step

variable (start : Node) (parent : Option Node) (namespaceUri base : String)
  (drawn refused : List Route) (around : Route)
  {id : Nat} {keyword : Keyword} {arg : String} {children : List Node}

theorem draw_of_not_inSchema (hk : ¬ keyword.inSchema) (drawing : Drawing) :
    draw namespaceUri (Route.path base around) (Route.target start around)
      (.mk id keyword arg children) drawing = drawing := by
  rw [draw, if_neg hk]

theorem draw_of_taken (hk : keyword.inSchema)
    (htaken : Route.path base (.mk id keyword arg children :: around) ∈
      drawn.map (Route.path base)) :
    draw namespaceUri (Route.path base around) (Route.target start around)
      (.mk id keyword arg children)
      (.ofRoutes start parent namespaceUri base drawn refused) =
    .ofRoutes start parent namespaceUri base drawn
      (refused ++ [.mk id keyword arg children :: around]) := by
  rw [← Drawing.ofRoutes_paths start parent namespaceUri base drawn refused] at htaken
  rw [draw, if_pos hk]
  dsimp only
  rw [SchemaTable.insert?_of_mem htaken]
  simp [Drawing.ofRoutes, Route.refusal, Route.path, Node.id, Node.arg]

theorem draw_of_free (hk : keyword.inSchema)
    (hfree : Route.path base (.mk id keyword arg children :: around) ∉
      drawn.map (Route.path base)) :
    draw namespaceUri (Route.path base around) (Route.target start around)
      (.mk id keyword arg children)
      (.ofRoutes start parent namespaceUri base drawn refused) =
    drawAll namespaceUri (Route.path base (.mk id keyword arg children :: around))
      (.mk id keyword arg children) children
      (.ofRoutes start parent namespaceUri base
        (drawn ++ [.mk id keyword arg children :: around]) refused) := by
  rw [← Drawing.ofRoutes_paths start parent namespaceUri base drawn refused] at hfree
  rw [draw, if_pos hk]
  dsimp only
  rw [SchemaTable.insert?_of_notMem hfree]
  simp [Drawing.ofRoutes, Route.record, Route.path, Node.arg]

end Step

end Node

theorem Survey.hide_all {base : String} {seen drawn refused routes : List Route}
    (h : Survey base seen drawn refused) (hhidden : ∀ route ∈ routes, route.Hidden refused) :
    Survey base (seen ++ routes) drawn refused := by
  induction routes generalizing seen with
  | nil => simpa using h
  | cons route rest ih =>
      have hfirst := h.hide (hhidden route List.mem_cons_self)
      have hrest := ih hfirst fun r hr => hhidden r (List.mem_cons_of_mem _ hr)
      simpa using hrest

-- Drawing `nodes`, which stand inside `around`, is surveying the routes into them: it goes from
-- what was drawn and refused before to `drawn'` and `refused'`. These depend on neither
-- namespace nor parent. Nothing refused stands around the nodes.
structure Draws (start : Node) (base : String) (around : Route) (nodes : List Node)
    (seen drawn refused drawn' refused' : List Route) : Prop where
  survey : Survey base (seen ++ Node.routesInto Keyword.inSchema around nodes) drawn' refused'
  grows : drawn <+: drawn'
  clear : ∀ outer ∈ refused', ¬ outer <:+ around
  run : ∀ parent namespaceUri,
    Node.drawAll namespaceUri (Route.path base around) (Route.target start around) nodes
      (.ofRoutes start parent namespaceUri base drawn refused) =
    .ofRoutes start parent namespaceUri base drawn' refused'

namespace Draws

variable {start : Node} {base : String} {around : Route} {id : Nat} {keyword : Keyword}
  {arg : String} {children rest : List Node} {seen drawn refused drawn' refused' : List Route}

theorem skip (hk : ¬ keyword.inSchema)
    (h : Draws start base around rest seen drawn refused drawn' refused') :
    Draws start base around (.mk id keyword arg children :: rest) seen drawn refused
      drawn' refused' where
  survey := by
    rw [Node.routesInto, Node.routesFrom, if_neg hk]
    exact h.survey
  grows := h.grows
  clear := h.clear
  run parent namespaceUri := by
    rw [Node.drawAll, Node.draw_of_not_inSchema start namespaceUri base around hk]
    exact h.run parent namespaceUri

theorem refuse (hk : keyword.inSchema)
    (htaken : Route.path base (.mk id keyword arg children :: around) ∈
      drawn.map (Route.path base))
    (h : Draws start base around rest
      (seen ++ [.mk id keyword arg children :: around] ++
        Node.routesInto Keyword.inSchema (.mk id keyword arg children :: around) children)
      drawn (refused ++ [.mk id keyword arg children :: around]) drawn' refused') :
    Draws start base around (.mk id keyword arg children :: rest) seen drawn refused
      drawn' refused' where
  survey := by
    rw [Node.routesInto, Node.routesFrom, if_pos hk]
    simpa using h.survey
  grows := h.grows
  clear := h.clear
  run parent namespaceUri := by
    rw [Node.drawAll,
      Node.draw_of_taken start parent namespaceUri base drawn refused around hk htaken]
    exact h.run parent namespaceUri

theorem draw {drawn₁ refused₁ : List Route} (hk : keyword.inSchema)
    (hfree : Route.path base (.mk id keyword arg children :: around) ∉
      drawn.map (Route.path base))
    (inner : Draws start base (.mk id keyword arg children :: around) children
      (seen ++ [.mk id keyword arg children :: around])
      (drawn ++ [.mk id keyword arg children :: around]) refused drawn₁ refused₁)
    (h : Draws start base around rest
      (seen ++ [.mk id keyword arg children :: around] ++
        Node.routesInto Keyword.inSchema (.mk id keyword arg children :: around) children)
      drawn₁ refused₁ drawn' refused') :
    Draws start base around (.mk id keyword arg children :: rest) seen drawn refused
      drawn' refused' where
  survey := by
    rw [Node.routesInto, Node.routesFrom, if_pos hk]
    simpa using h.survey
  grows := ((List.prefix_append drawn _).trans inner.grows).trans h.grows
  clear := h.clear
  run parent namespaceUri := by
    have hinner := inner.run parent namespaceUri
    rw [Route.target_cons] at hinner
    rw [Node.drawAll,
      Node.draw_of_free start parent namespaceUri base drawn refused around hk hfree, hinner]
    exact h.run parent namespaceUri

end Draws

-- What lies inside a refused statement is hidden.
theorem Route.hidden_of_mem_routesInto {enters : Keyword → Bool} {route inner : Route}
    {nodes : List Node} {refused : List Route} (hroute : route ∈ refused)
    (h : inner ∈ Node.routesInto enters route nodes) : inner.Hidden refused := by
  obtain ⟨hs, hl⟩ := Node.suffix_of_mem_routesInto h
  refine ⟨route, hroute, hs, ?_⟩
  rintro rfl
  exact Nat.lt_irrefl _ hl

-- The invariant of the run is that nothing refused so far stands around the nodes to come.
theorem Node.drawAll_survey (start : Node) (nodes : List Node) {base : String} {around : Route}
    {seen drawn refused : List Route} (h : Survey base seen drawn refused)
    (hclear : ∀ outer ∈ refused, ¬ outer <:+ around) :
    ∃ drawn' refused', Draws start base around nodes seen drawn refused drawn' refused' := by
  induction nodes using forest_induction generalizing around seen drawn refused with
  | nil =>
      refine ⟨drawn, refused, ?_, List.prefix_refl _, hclear, fun _ _ => by rw [drawAll]⟩
      simpa [routesInto] using h
  | cons id keyword arg children rest ihc ihr =>
      let route : Route := .mk id keyword arg children :: around
      have hshown : ¬ route.Hidden refused := by
        rw [Route.hidden_cons_iff]
        rintro ⟨outer, ho, hs⟩
        exact hclear outer ho hs
      by_cases hk : keyword.inSchema
      · by_cases htaken : route.path base ∈ drawn.map (Route.path base)
        · have hclear' : ∀ outer ∈ refused ++ [route], ¬ outer <:+ around := by
            intro outer ho hs
            rcases List.mem_append.mp ho with ho | ho
            · exact hclear outer ho hs
            · rw [List.mem_singleton.mp ho] at hs
              exact Nat.not_succ_le_self _ hs.length_le
          have hinner : ∀ r ∈ routesInto Keyword.inSchema route children,
              r.Hidden (refused ++ [route]) := fun r hr =>
            Route.hidden_of_mem_routesInto (List.mem_append_right refused List.mem_cons_self) hr
          obtain ⟨drawn', refused', hrest⟩ :=
            ihr ((h.refuse hshown htaken).hide_all hinner) hclear'
          exact ⟨drawn', refused', hrest.refuse hk htaken⟩
        · -- A refused route has its tag path taken, so this one is not among them.
          have hinner : ∀ outer ∈ refused, ¬ outer <:+ route := by
            intro outer ho hs
            rcases List.suffix_cons_iff.mp hs with rfl | hs
            · exact htaken (h.path_taken ho)
            · exact hclear outer ho hs
          obtain ⟨drawn₁, refused₁, hchildren⟩ := ihc (h.draw hshown htaken) hinner
          have hclear₁ : ∀ outer ∈ refused₁, ¬ outer <:+ around := fun outer ho hs =>
            hchildren.clear outer ho (hs.trans (List.suffix_cons _ _))
          obtain ⟨drawn', refused', hrest⟩ := ihr hchildren.survey hclear₁
          exact ⟨drawn', refused', hchildren.draw hk htaken hrest⟩
      · obtain ⟨drawn', refused', hrest⟩ := ihr h hclear
        exact ⟨drawn', refused', hrest.skip hk⟩

theorem Node.exists_survey (n : Node) (base : String) :
    ∃ inner refused, Survey base (n.routes Keyword.inSchema) ([] :: inner) refused ∧
      ∀ parent namespaceUri, n.schema parent namespaceUri base =
        .ofRoutes n parent namespaceUri base ([] :: inner) refused := by
  have hfirst : Survey base [[]] [[]] [] :=
    Survey.start.draw (by simp [Route.Hidden]) (by simp)
  have hclear : ∀ outer ∈ ([] : List Route), ¬ outer <:+ [] := by simp
  obtain ⟨drawn, refused, hsurvey, ⟨inner, rfl⟩, -, hrun⟩ :=
    n.drawAll_survey n.children hfirst hclear
  exact ⟨inner, refused, hsurvey, hrun⟩

def ExactlyOne (a b c : Prop) : Prop := (a ∧ ¬ b ∧ ¬ c) ∨ (¬ a ∧ b ∧ ¬ c) ∨ (¬ a ∧ ¬ b ∧ c)

-- What the drawing of a node owes to the statements inside it: `drawn` are the routes to those
-- that have a record, `refused` the routes to those that are reported.
structure SchemaAccount (forest : Forest) (n : Node) (namespaceUri base : String)
    (drawing : Drawing) (drawn refused : List Route) : Prop where
  stored : ∀ record ∈ drawing.table.records, drawing.table.get? record.tagPath = some record
  distinct : drawing.table.paths.Nodup
  first : drawing.table.records.head? =
    some (n.schemaRecord (forest.parent? n.id) namespaceUri base)
  records : drawing.table.records = drawn.map fun route => (route.target n).schemaRecord
    (forest.parent? (route.target n).id) namespaceUri (route.path base)
  -- The reports as a collector keeps them that had none before.
  reports : Reports.addAll [] drawing.reports = refused.map fun route =>
    ⟨(route.target n).id, ⟨route.path base, .duplicateTagPath⟩⟩
  reached : ∀ route, route ∈ drawn ∨ route ∈ refused → route.Leads Keyword.inSchema n
  settled : ∀ route : Route, route.Leads Keyword.inSchema n →
    ExactlyOne (route ∈ drawn) (route ∈ refused) (route.Hidden refused)
  -- Numbers follow the order of the text, so these also say that no statement counts twice.
  drawn_in_order : (drawn.map fun route => (route.target n).id).Pairwise (· < ·)
  refused_in_order : (refused.map fun route => (route.target n).id).Pairwise (· < ·)
  taken : ∀ route ∈ refused, route.path base ∈ drawing.table.paths
  closed : ∀ route ∈ drawn, ∀ name ∈ ((route.target n).schemaRecord
      (forest.parent? (route.target n).id) namespaceUri (route.path base)).children,
    route.path base ++ name ++ "/" ∈ drawing.table.paths ∨
      ∀ child ∈ (route.target n).children, child.keyword.isData → child.arg = name →
        child.keyword = .leafList

theorem Keyword.inSchema_of_isData {keyword : Keyword} (h : keyword.isData)
    (hl : keyword ≠ .leafList) : keyword.inSchema := by
  cases keyword <;> simp_all [isData, inSchema]

theorem Survey.exactlyOne {base : String} {seen drawn refused : List Route}
    (h : Survey base seen drawn refused)
    (hp : seen.Pairwise fun earlier later => ¬ later <:+ earlier) (hn : seen.Nodup)
    {route : Route} (hr : route ∈ seen) :
    ExactlyOne (route ∈ drawn) (route ∈ refused) (route.Hidden refused) := by
  rcases h.settled hr with hd | hf | hh
  · exact .inl ⟨hd, h.drawn_disjoint_refused hn hd, h.not_hidden hp (.inl hd)⟩
  · refine .inr (.inl ⟨fun hd => ?_, hf, h.not_hidden hp (.inr hf)⟩)
    exact h.drawn_disjoint_refused hn hd hf
  · refine .inr (.inr ⟨fun hd => ?_, fun hf => ?_, hh⟩)
    · exact h.not_hidden hp (.inl hd) hh
    · exact h.not_hidden hp (.inr hf) hh

theorem Survey.children_closed {n : Node} (hn : n.Numbered) {base : String}
    {drawn refused : List Route}
    (h : Survey base (n.routes Keyword.inSchema) drawn refused) {route : Route}
    (hd : route ∈ drawn) {child : Node} (hc : child ∈ (route.target n).children)
    (hk : child.keyword.inSchema) :
    route.path base ++ child.arg ++ "/" ∈ drawn.map (Route.path base) := by
  have hroute := Node.mem_routes_iff.mp (h.drawn_sublist.subset hd)
  have hmem : child :: route ∈ n.routes Keyword.inSchema :=
    Node.mem_routes_iff.mpr ⟨hroute, hc, hk⟩
  exact h.child_path_taken (hn.routes_pairwise _) (hn.routes_nodup _) hd hmem

-- Only a leaf-list is a data node without a record of its own.
theorem Survey.names_closed {n : Node} (hn : n.Numbered) {base : String}
    {drawn refused : List Route}
    (h : Survey base (n.routes Keyword.inSchema) drawn refused) {route : Route}
    (hd : route ∈ drawn) (name : String) :
    route.path base ++ name ++ "/" ∈ drawn.map (Route.path base) ∨
      ∀ child ∈ (route.target n).children, child.keyword.isData → child.arg = name →
        child.keyword = .leafList := by
  by_cases hall : ∀ child ∈ (route.target n).children, child.keyword.isData →
      child.arg = name → child.keyword = .leafList
  · exact .inr hall
  · push Not at hall
    obtain ⟨child, hc, hdata, rfl, hl⟩ := hall
    exact .inl (h.children_closed hn hd hc (Keyword.inSchema_of_isData hdata hl))

theorem Drawing.addAll_ofRoutes_reports (n : Node) (parent : Option Node)
    (namespaceUri base : String) (drawn : List Route) {refused : List Route}
    (hids : (refused.map fun route => (route.target n).id).Pairwise (· < ·)) :
    Reports.addAll [] (Drawing.ofRoutes n parent namespaceUri base drawn refused).reports =
      refused.map (Route.refusal n base) := by
  have hnodup : (([] ++ refused.map (Route.refusal n base)).map Report.node).Nodup := by
    rw [List.nil_append, List.map_map]
    exact hids.imp fun hlt => Nat.ne_of_lt hlt
  exact Reports.addAll_of_nodup [] _ hnodup

theorem schema_accounts_for_statements (forest : Forest) (n : Node) (hn : n ∈ forest.nodes)
    (namespaceUri base : String) :
    ∃ drawn refused, SchemaAccount forest n namespaceUri base
      (n.schema (forest.parent? n.id) namespaceUri base) drawn refused := by
  have hnumbered := Forest.numbered_of_mem_nodes hn
  obtain ⟨inner, refused, h, hschema⟩ := n.exists_survey base
  have hids := hnumbered.routes_ids Keyword.inSchema
  have hpaths := Drawing.ofRoutes_paths n (forest.parent? n.id) namespaceUri base
    ([] :: inner) refused
  have hleads {route : Route} (hr : route ∈ [] :: inner ∨ route ∈ refused) :
      route.Leads Keyword.inSchema n :=
    Node.mem_routes_iff.mp (hr.elim (fun hd => h.drawn_sublist.subset hd)
      (fun hf => h.refused_sublist.subset hf))
  have hrefused_order := hids.sublist (h.refused_sublist.map fun route => (route.target n).id)
  rw [hschema]
  have hdistinct : (Drawing.ofRoutes n (forest.parent? n.id) namespaceUri base ([] :: inner)
      refused).table.paths.Nodup := by
    rw [hpaths]
    exact h.paths_nodup
  exact ⟨[] :: inner, refused, {
    stored := fun record hr => SchemaTable.get?_of_mem hdistinct hr
    distinct := hdistinct
    first := rfl
    records := List.map_congr_left fun route hr =>
      Route.record_eq_lookup hn namespaceUri base (hleads (.inl hr))
    reports := Drawing.addAll_ofRoutes_reports n _ namespaceUri base _ hrefused_order
    reached := fun route hr => hleads hr
    settled := fun route hr => h.exactlyOne (hnumbered.routes_pairwise _)
      (hnumbered.routes_nodup _) (Node.mem_routes_iff.mpr hr)
    drawn_in_order := hids.sublist (h.drawn_sublist.map fun route => (route.target n).id)
    refused_in_order := hrefused_order
    taken := fun route hr => hpaths ▸ h.path_taken hr
    closed := fun route hr name _ => hpaths ▸ h.names_closed hnumbered hr name }⟩

-- A module with two containers of one name.
def twinContainers : Statement :=
  .mk .module "m" [.mk .namespaceUri "urn:m" [], .mk .modulePrefix "p" [],
    .mk .container "a" [.mk .list "b" [.mk .key "k" [], .mk .leaf "k" []]],
    .mk .container "a" [.mk .container "c" []],
    .mk .leafList "l" []]

theorem schema_accounts_for_twinContainers :
    Node.number 0 twinContainers ∈ Forest.nodes [twinContainers] ∧
    (Node.schema (Node.number 0 twinContainers) none "urn:m" "/").reports.length = 1 ∧
    ∃ drawn refused, SchemaAccount [twinContainers] (Node.number 0 twinContainers) "urn:m" "/"
      (Node.schema (Node.number 0 twinContainers) (Forest.parent? [twinContainers] 0) "urn:m" "/")
      drawn refused := by
  have h : Node.number 0 twinContainers ∈ Forest.nodes [twinContainers] :=
    Forest.mem_nodes_of_mem_roots List.mem_cons_self
  exact ⟨h, rfl, schema_accounts_for_statements _ _ h "urn:m" "/"⟩

end YangBinding
