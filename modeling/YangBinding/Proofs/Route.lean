import YangBinding.Proofs.Numbering

namespace YangBinding

-- A way down from a node: the statements entered on it, the innermost first. The empty route
-- stays at the node itself.
abbrev Route := List Node

namespace Route

-- The statement that a route leads to.
def target (start : Node) (route : Route) : Node := route.headD start

-- The tag path of that statement, with the node at `base`.
def path (base : String) : Route → String
  | [] => base
  | s :: around => path base around ++ s.arg ++ "/"

-- Each statement is a child of the one around it and has a keyword that may be entered.
def Leads (enters : Keyword → Bool) (start : Node) : Route → Prop
  | [] => True
  | s :: around =>
    Leads enters start around ∧ s ∈ (target start around).children ∧ enters s.keyword

@[simp] theorem target_nil (start : Node) : target start [] = start := rfl

@[simp] theorem target_cons (start s : Node) (around : Route) :
    target start (s :: around) = s := rfl

theorem target_map (change : Node → Node) (start : Node) (route : Route) :
    target (change start) (route.map change) = change (target start route) := by
  cases route with
  | nil => rfl
  | cons s around => rfl

theorem path_map {change : Node → Node} (harg : ∀ n, (change n).arg = n.arg) (base : String)
    (route : Route) : path base (route.map change) = path base route := by
  induction route with
  | nil => rfl
  | cons s around ih => rw [List.map_cons, path, path, ih, harg]

theorem Leads.mono {enters further : Keyword → Bool} {start : Node} {route : Route}
    (hle : ∀ keyword, enters keyword → further keyword) (h : Leads enters start route) :
    Leads further start route := by
  induction route with
  | nil => trivial
  | cons s around ih => exact ⟨ih h.1, h.2.1, hle _ h.2.2⟩

theorem Leads.target_mem_nodes {enters : Keyword → Bool} {forest : Forest} {start : Node}
    {route : Route} (h : Leads enters start route) (hstart : start ∈ forest.nodes) :
    target start route ∈ forest.nodes := by
  induction route with
  | nil => exact hstart
  | cons s around ih => exact Forest.mem_nodes_of_mem_children (ih h.1) h.2.1

theorem Leads.target_numbered {enters : Keyword → Bool} {start : Node} {route : Route}
    (h : Leads enters start route) (hstart : start.Numbered) : (target start route).Numbered := by
  induction route with
  | nil => exact hstart
  | cons s around ih => exact (ih h.1).child h.2.1

-- What stands around a statement has a smaller number.
theorem Leads.id_le_of_suffix {enters : Keyword → Bool} {start : Node} {route outer : Route}
    (h : Leads enters start route) (hstart : start.Numbered) (hs : outer <:+ route) :
    (target start outer).id ≤ (target start route).id := by
  induction route with
  | nil =>
      obtain rfl := List.suffix_nil.mp hs
      exact Nat.le_refl _
  | cons s around ih =>
      rcases List.suffix_cons_iff.mp hs with rfl | hs
      · exact Nat.le_refl _
      · have hlt := (h.1.target_numbered hstart).id_lt (Node.mem_preorderAll_of_mem h.2.1)
        exact Nat.le_of_lt (Nat.lt_of_le_of_lt (ih h.1 hs) hlt)

end Route

namespace Node

mutual

-- The routes that go on from `around` into a node, in the order of the text.
def routesFrom (enters : Keyword → Bool) (around : Route) : Node → List Route
  | .mk id keyword arg children =>
    let route := .mk id keyword arg children :: around
    if enters keyword then route :: routesInto enters route children else []

def routesInto (enters : Keyword → Bool) (around : Route) : List Node → List Route
  | [] => []
  | n :: rest => routesFrom enters around n ++ routesInto enters around rest

end

-- The routes from a node, that to the node itself first.
def routes (enters : Keyword → Bool) (n : Node) : List Route :=
  [] :: routesInto enters [] n.children

variable {enters : Keyword → Bool}

theorem routesFrom_eq (around : Route) (n : Node) :
    routesFrom enters around n =
      if enters n.keyword then (n :: around) :: routesInto enters (n :: around) n.children
      else [] := by
  cases n with
  | mk id keyword arg children => rw [routesFrom, Node.keyword, Node.children]

theorem routesInto_filter (around : Route) (nodes : List Node) :
    routesInto enters around (nodes.filter fun n => enters n.keyword) =
      routesInto enters around nodes := by
  induction nodes with
  | nil => rfl
  | cons n rest ih =>
      rw [List.filter_cons, routesInto, routesFrom_eq]
      split
      · rename_i hk
        rw [routesInto, routesFrom_eq, if_pos hk, ih]
      · rw [ih, List.nil_append]

theorem suffix_of_mem_routesInto {around route : Route} {nodes : List Node}
    (h : route ∈ routesInto enters around nodes) :
    around <:+ route ∧ around.length < route.length := by
  induction nodes using forest_induction generalizing around with
  | nil => simp [routesInto] at h
  | cons id keyword arg children rest ihc ihr =>
      rw [routesInto, routesFrom, List.mem_append] at h
      rcases h with h | h
      · split at h
        · rcases List.mem_cons.mp h with rfl | h
          · exact ⟨List.suffix_cons _ _, by simp⟩
          · obtain ⟨hs, hl⟩ := ihc h
            exact ⟨(List.suffix_cons _ _).trans hs, Nat.lt_of_succ_lt hl⟩
        · simp at h
      · exact ihr h

theorem leads_of_mem_routesInto {start : Node} {around route : Route} {nodes : List Node}
    (h : route ∈ routesInto enters around nodes) (ha : Route.Leads enters start around)
    (hn : nodes ⊆ (Route.target start around).children) : Route.Leads enters start route := by
  induction nodes using forest_induction generalizing around with
  | nil => simp [routesInto] at h
  | cons id keyword arg children rest ihc ihr =>
      obtain ⟨hfirst, hrest⟩ := List.cons_subset.mp hn
      rw [routesInto, routesFrom, List.mem_append] at h
      rcases h with h | h
      · split at h
        · rename_i hk
          rcases List.mem_cons.mp h with rfl | h
          · exact ⟨ha, hfirst, hk⟩
          · exact ihc h ⟨ha, hfirst, hk⟩ (List.Subset.refl _)
        · simp at h
      · exact ihr h ha hrest

theorem mem_routesInto_of_mem {around : Route} {nodes : List Node} {s : Node} (h : s ∈ nodes)
    (hs : enters s.keyword) : s :: around ∈ routesInto enters around nodes := by
  induction nodes with
  | nil => simp at h
  | cons n rest ih =>
      rw [routesInto, List.mem_append]
      rcases List.mem_cons.mp h with rfl | h
      · left
        cases s with
        | mk id keyword arg children =>
            have hk : enters keyword := hs
            rw [routesFrom, if_pos hk]
            exact List.mem_cons_self
      · exact .inr (ih h)

-- The listing is complete: it goes on below each statement it has reached.
theorem cons_mem_routesInto {around outer : Route} {nodes : List Node} {s t : Node}
    (h : t :: outer ∈ routesInto enters around nodes) (hs : s ∈ t.children)
    (hk : enters s.keyword) : s :: t :: outer ∈ routesInto enters around nodes := by
  induction nodes using forest_induction generalizing around with
  | nil => simp [routesInto] at h
  | cons id keyword arg children rest ihc ihr =>
      rw [routesInto, routesFrom, List.mem_append] at h ⊢
      rcases h with h | h
      · left
        split at h
        · rename_i hkeyword
          rw [if_pos hkeyword]
          refine List.mem_cons_of_mem _ ?_
          rcases List.mem_cons.mp h with heq | h
          · obtain ⟨rfl, rfl⟩ := List.cons.inj heq
            exact mem_routesInto_of_mem hs hk
          · exact ihc h
        · simp at h
      · exact .inr (ihr h)

theorem mem_routes_iff {n : Node} {route : Route} :
    route ∈ n.routes enters ↔ route.Leads enters n := by
  constructor
  · intro h
    rcases List.mem_cons.mp h with rfl | h
    · trivial
    · exact leads_of_mem_routesInto h trivial (List.Subset.refl _)
  · intro h
    induction route with
    | nil => exact List.mem_cons_self
    | cons s around ih =>
        obtain ⟨ha, hs, hk⟩ := h
        refine List.mem_cons_of_mem _ ?_
        cases around with
        | nil => exact mem_routesInto_of_mem hs hk
        | cons t outer =>
            rcases List.mem_cons.mp (ih ha) with heq | hm
            · simp at heq
            · exact cons_mem_routesInto hm hs hk

theorem map_target_routesInto_sublist (enters : Keyword → Bool) (start : Node) (around : Route)
    (nodes : List Node) :
    ((routesInto enters around nodes).map (Route.target start)).Sublist (preorderAll nodes) := by
  induction nodes using forest_induction generalizing around with
  | nil => simp [routesInto]
  | cons id keyword arg children rest ihc ihr =>
      rw [routesInto, routesFrom, preorderAll, preorder, List.map_append]
      refine List.Sublist.append ?_ (ihr around)
      split
      · rw [List.map_cons]
        exact (ihc _).cons_cons _
      · exact List.nil_sublist _

theorem map_target_routes_sublist (enters : Keyword → Bool) (n : Node) :
    ((n.routes enters).map (Route.target n)).Sublist n.preorder := by
  rw [preorder_eq, routes, List.map_cons]
  exact (map_target_routesInto_sublist enters n [] n.children).cons_cons n

theorem Numbered.routes_ids (enters : Keyword → Bool) {n : Node} (h : n.Numbered) :
    ((n.routes enters).map fun route => (route.target n).id).Pairwise (· < ·) := by
  have hs := (map_target_routes_sublist enters n).map id
  rw [List.map_map] at hs
  exact h.sublist hs

-- No route comes back to a statement that stands around an earlier one, or to that one itself.
theorem Numbered.routes_pairwise (enters : Keyword → Bool) {n : Node} (h : n.Numbered) :
    (n.routes enters).Pairwise fun earlier later => ¬ later <:+ earlier := by
  have hids := List.pairwise_map.mp (h.routes_ids enters)
  refine hids.imp_of_mem fun {earlier later} he _ hlt hs => ?_
  have hle := (mem_routes_iff.mp he).id_le_of_suffix h hs
  exact Nat.not_lt.mpr hle hlt

theorem Numbered.routes_nodup (enters : Keyword → Bool) {n : Node} (h : n.Numbered) :
    (n.routes enters).Nodup := by
  refine (h.routes_pairwise enters).imp fun {earlier later} hs heq => ?_
  subst heq
  exact hs (List.suffix_refl _)

end Node

end YangBinding
