import YangBinding.Proofs.Pieces
import YangBinding.Proofs.Schema.Accounting

namespace YangBinding

namespace Route

-- A tag path has a slash behind each argument, so cutting it at the slashes gives the arguments
-- back where they have none themselves.
theorem pieces_path {route : Route} (h : ∀ s ∈ route, '/' ∉ s.arg.toList) :
    ∃ cs, (path "/" route).toList = cs ++ ['/'] ∧
      Text.pieces (· == '/') cs = [] :: (route.map fun s => s.arg.toList).reverse := by
  induction route with
  | nil => exact ⟨[], rfl, rfl⟩
  | cons s around ih =>
      obtain ⟨hs, hround⟩ := List.forall_mem_cons.mp h
      obtain ⟨cs, hpath, hpieces⟩ := ih hround
      have harg : ∀ c ∈ s.arg.toList, ¬ (c == '/') := by
        intro c hc heq
        exact hs (eq_of_beq heq ▸ hc)
      refine ⟨cs ++ '/' :: s.arg.toList, ?_, ?_⟩
      · rw [path, String.toList_append, String.toList_append, hpath]
        simp
      · rw [Text.pieces_append_cons (by simp), hpieces, Text.pieces_of_forall_not harg,
          List.map_cons, List.reverse_cons, List.cons_append]

theorem args_of_path_eq {route other : Route} (hroute : ∀ s ∈ route, '/' ∉ s.arg.toList)
    (hother : ∀ s ∈ other, '/' ∉ s.arg.toList) (h : path "/" route = path "/" other) :
    route.map Node.arg = other.map Node.arg := by
  obtain ⟨cs, hcs, hpieces⟩ := pieces_path hroute
  obtain ⟨ds, hds, hpieces'⟩ := pieces_path hother
  have hsame : cs = ds := by
    have hlist : cs ++ ['/'] = ds ++ ['/'] := by rw [← hcs, ← hds, h]
    exact List.append_cancel_right hlist
  rw [hsame, hpieces'] at hpieces
  have hargs := List.reverse_injective (List.cons.inj hpieces).2
  have htexts := congrArg (List.map String.ofList) hargs
  simpa [List.map_map, Function.comp_def] using htexts.symm

end Route

namespace Survey

variable {base : String} {seen drawn refused : List Route}

-- The tag path of a refused route was taken by one that came before it.
theorem taken_before (h : Survey base seen drawn refused) {route : Route} (hr : route ∈ refused) :
    ∃ before after, seen = before ++ route :: after ∧
      ∃ holder ∈ before, holder ∈ drawn ∧ holder.path base = route.path base := by
  induction h with
  | start => simp at hr
  | @hide seen drawn refused last _ _ ih =>
      obtain ⟨before, after, rfl, hholder⟩ := ih hr
      exact ⟨before, after ++ [last], by simp, hholder⟩
  | @refuse seen drawn refused last hs _ htaken ih =>
      rcases List.mem_append.mp hr with hr | hr
      · obtain ⟨before, after, rfl, hholder⟩ := ih hr
        exact ⟨before, after ++ [last], by simp, hholder⟩
      · obtain rfl := List.mem_singleton.mp hr
        obtain ⟨holder, hholder, hpath⟩ := List.mem_map.mp htaken
        exact ⟨seen, [], rfl, holder, hs.drawn_sublist.subset hholder, hholder, hpath⟩
  | @draw seen drawn refused last _ _ _ ih =>
      obtain ⟨before, after, rfl, holder, hbefore, hholder, hpath⟩ := ih hr
      exact ⟨before, after ++ [last], by simp, holder, hbefore, List.mem_append_left _ hholder,
        hpath⟩

theorem eq_of_path_eq (h : Survey base seen drawn refused) {route other : Route}
    (hroute : route ∈ drawn) (hother : other ∈ drawn) (heq : route.path base = other.path base) :
    route = other := List.inj_on_of_nodup_map h.paths_nodup hroute hother heq

-- What stands around a statement that is not hidden has a record.
theorem around_drawn (h : Survey base seen drawn refused) {s : Node} {around : Route}
    (hseen : around ∈ seen) (hshown : ¬ Route.Hidden refused (s :: around)) : around ∈ drawn := by
  rw [Route.hidden_cons_iff] at hshown
  rcases h.settled hseen with hdrawn | hrefused | ⟨outer, houter, hsuffix, -⟩
  · exact hdrawn
  · exact absurd ⟨around, hrefused, List.suffix_refl _⟩ hshown
  · exact absurd ⟨outer, houter, hsuffix⟩ hshown

end Survey

namespace Node

theorem sublist_preorderAll (nodes : List Node) : nodes.Sublist (preorderAll nodes) := by
  induction nodes with
  | nil => exact List.nil_sublist _
  | cons n rest ih =>
      rw [preorderAll, preorder_eq, List.cons_append]
      exact (ih.trans (List.sublist_append_right _ _)).cons_cons n

theorem Numbered.children_pairwise {n : Node} (h : n.Numbered) :
    n.children.Pairwise fun earlier later => earlier.id < later.id := by
  unfold Numbered at h
  rw [preorder_eq, List.map_cons, List.pairwise_cons, List.pairwise_map] at h
  exact h.2.sublist (sublist_preorderAll n.children)

-- Among the children of a node the numbers tell which come before another.
theorem Numbered.mem_before_iff {n s earlier : Node} (h : n.Numbered) {before after : List Node}
    (hsplit : n.children = before ++ s :: after) (hearlier : earlier ∈ n.children) :
    earlier ∈ before ↔ earlier.id < s.id := by
  have hpairwise := h.children_pairwise
  rw [hsplit, List.pairwise_append, List.pairwise_cons] at hpairwise
  obtain ⟨-, ⟨hafter, -⟩, hbefore⟩ := hpairwise
  constructor
  · intro hmem
    exact hbefore earlier hmem s List.mem_cons_self
  · intro hlt
    rw [hsplit] at hearlier
    rcases List.mem_append.mp hearlier with hmem | hmem
    · exact hmem
    · rcases List.mem_cons.mp hmem with rfl | hmem
      · omega
      · have hgt := hafter earlier hmem
        omega

end Node

-- Statements with a record of their own have no slash in their argument.
def Forest.Slashless (forest : Forest) : Prop :=
  ∀ s ∈ forest.nodes, s.keyword.inSchema → '/' ∉ s.arg.toList

theorem Route.Leads.slashless {forest : Forest} (hforest : forest.Slashless) {n : Node}
    (hn : n ∈ forest.nodes) {route : Route} (h : route.Leads Keyword.inSchema n) :
    ∀ s ∈ route, '/' ∉ s.arg.toList := by
  induction route with
  | nil => simp
  | cons s around ih =>
      have hs := Forest.mem_nodes_of_mem_children (h.1.target_mem_nodes hn) h.2.1
      exact List.forall_mem_cons.mpr ⟨hforest s hs h.2.2, ih h.1⟩

namespace Survey

variable {forest : Forest} {n : Node} {drawn refused : List Route}

-- A tag path that is taken was taken by a child of the same statement.
theorem holder_around (hforest : forest.Slashless) (hn : n ∈ forest.nodes)
    (h : Survey "/" (n.routes Keyword.inSchema) drawn refused) {s : Node} {around holder : Route}
    (hround : around ∈ drawn) (hs : Route.Leads Keyword.inSchema n (s :: around))
    (hholder : holder ∈ drawn) (hpath : holder.path "/" = Route.path "/" (s :: around)) :
    ∃ earlier ∈ (around.target n).children,
      holder = earlier :: around ∧ earlier.keyword.inSchema ∧ earlier.arg = s.arg := by
  have hleads := Node.mem_routes_iff.mp (h.drawn_sublist.subset hholder)
  have hargs := Route.args_of_path_eq (hleads.slashless hforest hn) (hs.slashless hforest hn) hpath
  cases holder with
  | nil => simp at hargs
  | cons earlier outer =>
      obtain ⟨harg, -⟩ := List.cons.inj hargs
      have hshown := h.not_hidden
        ((Forest.numbered_of_mem_nodes hn).routes_pairwise Keyword.inSchema) (.inl hholder)
      have houter := h.around_drawn (Node.mem_routes_iff.mpr hleads.1) hshown
      have hsame : Route.path "/" outer = around.path "/" := by
        rw [Route.path, Route.path, harg, String.append_left_inj, String.append_left_inj] at hpath
        exact hpath
      obtain rfl := h.eq_of_path_eq houter hround hsame
      exact ⟨earlier, hleads.2.1, rfl, hleads.2.2, harg⟩

-- So a child is refused exactly if one with the same argument comes before it.
theorem refused_iff (hforest : forest.Slashless) (hn : n ∈ forest.nodes)
    (h : Survey "/" (n.routes Keyword.inSchema) drawn refused) {s : Node} {around : Route}
    (hround : around ∈ drawn) (hs : Route.Leads Keyword.inSchema n (s :: around)) :
    s :: around ∈ refused ↔ ∃ earlier ∈ (around.target n).children,
      earlier.id < s.id ∧ earlier.keyword.inSchema ∧ earlier.arg = s.arg := by
  have hnumbered := Forest.numbered_of_mem_nodes hn
  have hids := List.pairwise_map.mp (hnumbered.routes_ids Keyword.inSchema)
  -- The holder of a taken tag path comes before the route that is refused for it.
  have hlt {route : Route} (hr : route ∈ refused) : ∃ holder ∈ drawn,
      holder.path "/" = route.path "/" ∧ (holder.target n).id < (route.target n).id := by
    obtain ⟨before, after, hseen, holder, hbefore, hdrawn, hpath⟩ := h.taken_before hr
    rw [hseen, List.pairwise_append] at hids
    exact ⟨holder, hdrawn, hpath, hids.2.2 holder hbefore route List.mem_cons_self⟩
  have hsettled {t : Node} (ht : Route.Leads Keyword.inSchema n (t :: around)) :
      t :: around ∈ drawn ∨ t :: around ∈ refused :=
    h.child_settled (hnumbered.routes_pairwise _) (hnumbered.routes_nodup _) hround
      (Node.mem_routes_iff.mpr ht)
  constructor
  · intro hrefused
    obtain ⟨holder, hholder, hpath, hid⟩ := hlt hrefused
    obtain ⟨earlier, hmem, rfl, hk, harg⟩ := h.holder_around hforest hn hround hs hholder hpath
    exact ⟨earlier, hmem, hid, hk, harg⟩
  · rintro ⟨earlier, hmem, hid, hk, harg⟩
    have hpath : Route.path "/" (earlier :: around) = Route.path "/" (s :: around) := by
      rw [Route.path, Route.path, harg]
    rcases hsettled hs with hdrawn | hrefused
    · rcases hsettled ⟨hs.1, hmem, hk⟩ with hearlier | hearlier
      · obtain ⟨rfl, -⟩ := List.cons.inj (h.eq_of_path_eq hearlier hdrawn hpath)
        omega
      · obtain ⟨holder, hholder, hsame, hbefore⟩ := hlt hearlier
        obtain rfl := h.eq_of_path_eq hholder hdrawn (hsame.trans hpath)
        simp only [Route.target_cons] at hbefore
        omega
    · exact hrefused

-- Where siblings differ nothing is refused, since the first route that was would lead to a sibling.
theorem refused_eq_nil (hforest : forest.Slashless) (hn : n ∈ forest.nodes)
    (h : Survey "/" (n.routes Keyword.inSchema) ([] :: drawn) refused)
    (hdistinct : ∀ p ∈ forest.nodes,
      ((p.children.filter fun s => s.keyword.inSchema).map Node.arg).Nodup) : refused = [] := by
  have hnumbered := Forest.numbered_of_mem_nodes hn
  refine List.eq_nil_iff_forall_not_mem.mpr fun route hr => ?_
  have hleads := Node.mem_routes_iff.mp (h.refused_sublist.subset hr)
  cases route with
  | nil =>
      exact h.drawn_disjoint_refused (hnumbered.routes_nodup _) List.mem_cons_self hr
  | cons s around =>
      have hshown := h.not_hidden (hnumbered.routes_pairwise Keyword.inSchema) (.inr hr)
      have hround := h.around_drawn (Node.mem_routes_iff.mpr hleads.1) hshown
      obtain ⟨earlier, hmem, hid, hk, harg⟩ := (h.refused_iff hforest hn hround hleads).mp hr
      have hsiblings := hdistinct _ (hleads.1.target_mem_nodes hn)
      have hsame := List.inj_on_of_nodup_map hsiblings (List.mem_filter.mpr ⟨hmem, hk⟩)
        (List.mem_filter.mpr hleads.2) harg
      rw [hsame] at hid
      exact Nat.lt_irrefl _ hid

end Survey

-- Numbers tell apart the routes from a node.
theorem Node.Numbered.eq_of_target_id {n : Node} (h : n.Numbered) {enters : Keyword → Bool}
    {route other : Route} (hroute : route.Leads enters n) (hother : other.Leads enters n)
    (heq : (route.target n).id = (other.target n).id) : route = other := by
  have hnodup : ((n.routes enters).map fun route => (route.target n).id).Nodup :=
    (h.routes_ids enters).imp fun hlt => Nat.ne_of_lt hlt
  exact List.inj_on_of_nodup_map hnodup (Node.mem_routes_iff.mpr hroute)
    (Node.mem_routes_iff.mpr hother) heq

-- A collector that had no reports before holds one about a statement.
def Drawing.Refuses (drawing : Drawing) (s : Node) : Prop :=
  ∃ path, ⟨s.id, ⟨path, .duplicateTagPath⟩⟩ ∈ Reports.addAll [] drawing.reports

theorem Drawing.refuses_iff {forest : Forest} {n s : Node} (hn : n ∈ forest.nodes)
    {parent : Option Node} {namespaceUri base : String} {drawn refused : List Route}
    (hrefused : refused.Sublist (n.routes Keyword.inSchema)) {around : Route}
    (hround : around.Leads Keyword.inSchema n) (hs : s ∈ (around.target n).children) :
    (Drawing.ofRoutes n parent namespaceUri base drawn refused).Refuses s ↔
      s :: around ∈ refused := by
  have hnumbered := Forest.numbered_of_mem_nodes hn
  have hids := (hnumbered.routes_ids Keyword.inSchema).sublist
    (hrefused.map fun route => (route.target n).id)
  have houter := hround.target_mem_nodes hn
  rw [Drawing.Refuses, Drawing.addAll_ofRoutes_reports n parent namespaceUri base drawn hids]
  constructor
  · rintro ⟨path, hmem⟩
    obtain ⟨route, hroute, hreport⟩ := List.mem_map.mp hmem
    have hid : (route.target n).id = s.id := congrArg Report.node hreport
    have hleads := Node.mem_routes_iff.mp (hrefused.subset hroute)
    cases route with
    | nil =>
        -- The node itself has a smaller number than what is inside it.
        have hle := hround.id_le_of_suffix hnumbered (List.nil_suffix)
        have hlt := (hround.target_numbered hnumbered).id_lt (Node.mem_preorderAll_of_mem hs)
        omega
    | cons t outer =>
        have hsame : t = s := Forest.eq_of_id_eq (hleads.target_mem_nodes hn)
          (Forest.mem_nodes_of_mem_children houter hs) hid
        subst hsame
        have hparent := Forest.parent_unique (hleads.1.target_mem_nodes hn) houter hleads.2.1 hs rfl
        rwa [← hnumbered.eq_of_target_id hleads.1 hround (congrArg Node.id hparent)]
  · intro hmem
    exact ⟨_, List.mem_map_of_mem hmem⟩

-- What becomes of the statements inside a node that is drawn at the tag path "/": `drawn` are the
-- routes to those that have a record, `refused` the routes to those that are reported.
structure RepeatsRefused (forest : Forest) (n : Node) (namespaceUri : String) (drawing : Drawing)
    (drawn refused : List Route) : Prop where
  records : drawing.table.records =
    drawn.map (Route.record n (forest.parent? n.id) namespaceUri "/")
  reports : Reports.addAll [] drawing.reports = refused.map (Route.refusal n "/")
  settled : ∀ route : Route, route.Leads Keyword.inSchema n →
    ExactlyOne (route ∈ drawn) (route ∈ refused) (route.Hidden refused)
  in_order : (drawn.map fun route => (route.target n).id).Pairwise (· < ·)
  repeated : ∀ around ∈ drawn, ∀ before s after,
    (around.target n).children = before ++ s :: after →
    (drawing.Refuses s ↔ s.keyword.inSchema ∧
      ∃ earlier ∈ before, earlier.keyword.inSchema ∧ earlier.arg = s.arg)
  distinct : (∀ p ∈ forest.nodes,
      ((p.children.filter fun s => s.keyword.inSchema).map Node.arg).Nodup) →
    Reports.addAll [] drawing.reports = [] ∧
      ∀ route : Route, route ∈ drawn ↔ route.Leads Keyword.inSchema n

theorem siblings_decide_refusals (forest : Forest) (hforest : forest.Slashless) (n : Node)
    (hn : n ∈ forest.nodes) (namespaceUri : String) :
    ∃ drawn refused, RepeatsRefused forest n namespaceUri
      (n.schema (forest.parent? n.id) namespaceUri "/") drawn refused := by
  have hnumbered := Forest.numbered_of_mem_nodes hn
  have hids := hnumbered.routes_ids Keyword.inSchema
  obtain ⟨inner, refused, h, hschema⟩ := n.exists_survey "/"
  have hsettled {route : Route} (hr : route.Leads Keyword.inSchema n) :=
    h.exactlyOne (hnumbered.routes_pairwise _) (hnumbered.routes_nodup _)
      (Node.mem_routes_iff.mpr hr)
  have hleads {route : Route} (hd : route ∈ [] :: inner) : route.Leads Keyword.inSchema n :=
    Node.mem_routes_iff.mp (h.drawn_sublist.subset hd)
  have hreports := Drawing.addAll_ofRoutes_reports n (forest.parent? n.id) namespaceUri "/"
    ([] :: inner) (hids.sublist (h.refused_sublist.map fun route => (route.target n).id))
  rw [hschema]
  refine ⟨[] :: inner, refused, {
    records := rfl
    reports := hreports
    settled := fun route hr => hsettled hr
    in_order := hids.sublist (h.drawn_sublist.map fun route => (route.target n).id)
    repeated := ?_
    distinct := ?_ }⟩
  · intro around hround before s after hsplit
    have hround' := hleads hround
    have hs : s ∈ (around.target n).children := by simp [hsplit]
    have hbefore {earlier : Node} (hmem : earlier ∈ (around.target n).children) :
        earlier ∈ before ↔ earlier.id < s.id :=
      (hround'.target_numbered hnumbered).mem_before_iff hsplit hmem
    rw [Drawing.refuses_iff hn h.refused_sublist hround' hs]
    constructor
    · intro hrefused
      have hr := Node.mem_routes_iff.mp (h.refused_sublist.subset hrefused)
      obtain ⟨earlier, hmem, hid, hk, harg⟩ := (h.refused_iff hforest hn hround hr).mp hrefused
      exact ⟨hr.2.2, earlier, (hbefore hmem).mpr hid, hk, harg⟩
    · rintro ⟨hk, earlier, hearlier, hek, harg⟩
      have hmem : earlier ∈ (around.target n).children := by
        rw [hsplit]
        exact List.mem_append_left _ hearlier
      exact (h.refused_iff hforest hn hround ⟨hround', hs, hk⟩).mpr
        ⟨earlier, hmem, (hbefore hmem).mp hearlier, hek, harg⟩
  · intro hdistinct
    obtain rfl := h.refused_eq_nil hforest hn hdistinct
    refine ⟨hreports, fun route => ⟨hleads, fun hr => ?_⟩⟩
    rcases hsettled hr with ⟨hd, -⟩ | ⟨-, hf, -⟩ | ⟨-, -, outer, houter, -⟩
    · exact hd
    · simp at hf
    · simp at houter

-- A statement without an argument stands between two that repeat others, at different depths.
def emptyNames : Statement :=
  .mk .module "m" [.mk .container "" [.mk .container "a" [], .mk .leaf "a" []],
    .mk .container "a" [.mk .leaf "" []], .mk .list "" [.mk .leaf "b" []]]

theorem siblings_decide_emptyNames :
    Forest.Slashless [emptyNames] ∧
    Node.number 0 emptyNames ∈ Forest.nodes [emptyNames] ∧
    ((Node.number 0 emptyNames).schema none "urn:m" "/").reports =
      [⟨3, ⟨"//a/", .duplicateTagPath⟩⟩, ⟨6, ⟨"//", .duplicateTagPath⟩⟩] ∧
    ∃ drawn refused, RepeatsRefused [emptyNames] (Node.number 0 emptyNames) "urn:m"
      ((Node.number 0 emptyNames).schema (Forest.parent? [emptyNames] 0) "urn:m" "/")
      drawn refused := by
  have hforest : Forest.Slashless [emptyNames] := by
    unfold Forest.Slashless
    decide
  have hn : Node.number 0 emptyNames ∈ Forest.nodes [emptyNames] :=
    Forest.mem_nodes_of_mem_roots List.mem_cons_self
  exact ⟨hforest, hn, rfl, siblings_decide_refusals _ hforest _ hn "urn:m"⟩

-- A leaf-list has no record of its own, so it is not refused for a leaf of the same name.
def leafBeforeLeafList : Statement := .mk .module "m" [.mk .leaf "x" [], .mk .leafList "x" []]

theorem leafList_not_refused :
    Forest.Slashless [leafBeforeLeafList] ∧
    Node.number 0 leafBeforeLeafList ∈ Forest.nodes [leafBeforeLeafList] ∧
    ((Node.number 0 leafBeforeLeafList).schema none "" "/").table.get? "/" =
      some ((Node.number 0 leafBeforeLeafList).schemaRecord none "" "/") ∧
    ∃ before s after, (Node.number 0 leafBeforeLeafList).children = before ++ s :: after ∧
      (∃ earlier ∈ before, earlier.keyword.inSchema ∧ earlier.arg = s.arg) ∧
      ¬ ((Node.number 0 leafBeforeLeafList).schema none "" "/").Refuses s := by
  have hforest : Forest.Slashless [leafBeforeLeafList] := by
    unfold Forest.Slashless
    decide
  have hreports : ((Node.number 0 leafBeforeLeafList).schema none "" "/").reports = [] := rfl
  refine ⟨hforest, Forest.mem_nodes_of_mem_roots List.mem_cons_self, rfl,
    [.mk 1 .leaf "x" []], .mk 2 .leafList "x" [], [], rfl, by decide, ?_⟩
  rintro ⟨path, hmem⟩
  rw [hreports] at hmem
  simp [Reports.addAll] at hmem

end YangBinding
