import YangBinding.Proofs.Failure.Faults

namespace YangBinding

namespace Node

-- A list has a first `key` statement with identifiers, each the name of one of its leaves.
def KeysDefined (list : Node) : Prop :=
  ∃ key, list.find? .key = some key ∧ Text.words key.arg ≠ [] ∧
    ∀ name ∈ Text.words key.arg, ∃ leaf ∈ list.children, leaf.keyword = .leaf ∧ leaf.arg = name

-- A root that nothing is wrong with.
def Compilable (root : Node) : Prop :=
  root.keyword = .submodule ∨ root.keyword = .module ∧
    (∃ child ∈ root.children, child.keyword = .namespaceUri) ∧
    (∃ child ∈ root.children, child.keyword = .modulePrefix) ∧
    ∀ list around, Route.Leads Keyword.hasClass root (list :: around) → list.keyword = .list →
      list.KeysDefined

theorem keyFault?_eq_none_iff {n : Node} : n.keyFault? = none ↔ n.KeysDefined := by
  unfold keyFault? firstKeyNames KeysDefined
  cases n.find? .key with
  | none => simp
  | some key =>
      by_cases hwords : Text.words key.arg = []
      · simp [hwords]
      · simp [hwords, hasLeaf]

theorem missingFault?_eq_none_iff {n : Node} {keyword : Keyword} :
    n.missingFault? keyword = none ↔ ∃ child ∈ n.children, child.keyword = keyword := by
  simp [missingFault?]

theorem mem_innerFirstAll_iff {n : Node} {around : Route} {nodes : List Node} :
    n ∈ innerFirstAll nodes ↔
      ∃ route ∈ routesInto Keyword.hasClass around nodes, route.head? = some n := by
  induction nodes using forest_induction generalizing around with
  | nil => simp [innerFirstAll, routesInto]
  | cons id keyword arg children rest ihc ihr =>
      rw [innerFirstAll, innerFirst, routesInto, routesFrom]
      split
      · rw [List.mem_append, List.mem_append, List.mem_singleton]
        constructor
        · rintro ((h | rfl) | h)
          · obtain ⟨route, hr, hhead⟩ := (@ihc (.mk id keyword arg children :: around)).mp h
            exact ⟨route, List.mem_append_left _ (List.mem_cons_of_mem _ hr), hhead⟩
          · exact ⟨_, List.mem_append_left _ List.mem_cons_self, rfl⟩
          · obtain ⟨route, hr, hhead⟩ := ihr.mp h
            exact ⟨route, List.mem_append_right _ hr, hhead⟩
        · rintro ⟨route, hr, hhead⟩
          rcases List.mem_append.mp hr with hr | hr
          · rcases List.mem_cons.mp hr with rfl | hr
            · exact .inl (.inr (Option.some.inj hhead).symm)
            · exact .inl (.inl (ihc.mpr ⟨route, hr, hhead⟩))
          · exact .inr (ihr.mpr ⟨route, hr, hhead⟩)
      · simpa using ihr

theorem mem_innerFirstAll_children_iff {n root : Node} :
    n ∈ innerFirstAll root.children ↔
      ∃ around, Route.Leads Keyword.hasClass root (n :: around) := by
  rw [@mem_innerFirstAll_iff n []]
  constructor
  · rintro ⟨route, hr, hhead⟩
    obtain ⟨around, rfl⟩ := List.head?_eq_some_iff.mp hhead
    exact ⟨around, mem_routes_iff.mp (List.mem_cons_of_mem _ hr)⟩
  · rintro ⟨around, h⟩
    rcases List.mem_cons.mp (mem_routes_iff.mpr h) with heq | hr
    · simp at heq
    · exact ⟨_, hr, rfl⟩

theorem listFaults_eq_nil_iff {root : Node} :
    (innerFirstAll root.children).filterMap listFault? = [] ↔
      ∀ list around, Route.Leads Keyword.hasClass root (list :: around) → list.keyword = .list →
        list.KeysDefined := by
  rw [List.filterMap_eq_nil_iff]
  constructor
  · intro h list around hroute hk
    have hnone := h list (mem_innerFirstAll_children_iff.mpr ⟨around, hroute⟩)
    rw [listFault?, if_pos hk] at hnone
    exact keyFault?_eq_none_iff.mp hnone
  · intro h n hn
    obtain ⟨around, hroute⟩ := mem_innerFirstAll_children_iff.mp hn
    by_cases hk : n.keyword = .list
    · rw [listFault?, if_pos hk]
      exact keyFault?_eq_none_iff.mpr (h n around hroute hk)
    · rw [listFault?, if_neg hk]

theorem faults_eq_nil_iff {root : Node} : root.faults = [] ↔ root.Compilable := by
  unfold faults Compilable
  by_cases hm : root.keyword = .module
  · rw [if_pos hm, List.append_eq_nil_iff, List.append_eq_nil_iff, Option.toList_eq_nil_iff,
      Option.toList_eq_nil_iff, missingFault?_eq_none_iff, missingFault?_eq_none_iff,
      listFaults_eq_nil_iff]
    simp [hm, and_assoc]
  · by_cases hs : root.keyword = .submodule
    · simp [hs]
    · simp [hm, hs]

end Node

namespace Statement

mutual

-- Drops what stands inside any statement that is neither a container nor a list.
def pruned : Statement → Statement
  | .mk keyword arg substatements =>
    .mk keyword arg (if keyword.hasClass then prunedAll substatements else [])

def prunedAll : List Statement → List Statement
  | [] => []
  | s :: rest => pruned s :: prunedAll rest

end

def prunedRoot (s : Statement) : Statement :=
  .mk s.keyword s.arg (if s.keyword = .module then prunedAll s.substatements else [])

def face (s : Statement) : Keyword × String := (s.keyword, s.arg)

theorem map_face_prunedAll (forest : List Statement) :
    (prunedAll forest).map face = forest.map face := by
  induction forest with
  | nil => rfl
  | cons s rest ih =>
      cases s with
      | mk keyword arg substatements =>
          rw [prunedAll, pruned, List.map_cons, List.map_cons, ih]
          rfl

end Statement

-- What is left of a forest when only modules at the top, and containers and lists inside them,
-- keep what stands in them.
def Forest.pruned (forest : Forest) : Forest := forest.map Statement.prunedRoot

namespace Node

def face (n : Node) : Keyword × String := (n.keyword, n.arg)

theorem map_face_numberAll (forest : List Statement) (first : Nat) :
    (numberAll first forest).map face = forest.map Statement.face := by
  induction forest generalizing first with
  | nil => rfl
  | cons s rest ih =>
      cases s with
      | mk keyword arg substatements =>
          rw [numberAll, number, List.map_cons, List.map_cons, ih]
          rfl

theorem firstKeyNames_eq_face (n : Node) :
    n.firstKeyNames = (((n.children.map face).find? fun f => f.1 = .key).map fun f =>
      Text.words f.2).getD [] := by
  rw [List.find?_map, Option.map_map]
  rfl

theorem hasLeaf_eq_face (n : Node) (name : String) :
    n.hasLeaf name = (n.children.map face).any fun f => f.1 = .leaf && f.2 = name := by
  rw [List.any_map]
  rfl

theorem missingFault?_eq_face (n : Node) (keyword : Keyword) :
    n.missingFault? keyword =
      if (n.children.map face).any fun f => f.1 = keyword then none
      else some (.missingStatement n.face.1.text n.face.2 keyword.text) := by
  rw [List.any_map]
  rfl

-- A fault of a statement can be told from it and the statements directly inside it, without
-- looking further in.
theorem listFault?_congr {n other : Node} (hface : n.face = other.face)
    (hchildren : n.children.map face = other.children.map face) :
    n.listFault? = other.listFault? := by
  have hkeyword : n.keyword = other.keyword := congrArg Prod.fst hface
  have harg : n.arg = other.arg := congrArg Prod.snd hface
  simp only [listFault?, keyFault?, firstKeyNames_eq_face, hasLeaf_eq_face, hkeyword, harg,
    hchildren]

theorem missingFault?_congr {n other : Node} (hface : n.face = other.face)
    (hchildren : n.children.map face = other.children.map face) (keyword : Keyword) :
    n.missingFault? keyword = other.missingFault? keyword := by
  rw [missingFault?_eq_face, missingFault?_eq_face, hface, hchildren]

theorem listFaults_prunedAll (forest : List Statement) (first other : Nat) :
    (innerFirstAll (numberAll first forest)).filterMap listFault? =
      (innerFirstAll (numberAll other (Statement.prunedAll forest))).filterMap listFault? := by
  induction forest using Statement.forest_induction generalizing first other with
  | nil => rfl
  | cons keyword arg substatements rest ihs ihr =>
      rw [Statement.prunedAll, Statement.pruned, numberAll, numberAll, number, number,
        innerFirstAll, innerFirstAll, innerFirst, innerFirst]
      by_cases hk : keyword.hasClass
      · have hfault : listFault? (.mk first keyword arg (numberAll (first + 1) substatements)) =
            listFault? (.mk other keyword arg
              (numberAll (other + 1) (Statement.prunedAll substatements))) := by
          refine listFault?_congr rfl ?_
          rw [children, children, map_face_numberAll, map_face_numberAll,
            Statement.map_face_prunedAll]
        simp only [hk, if_true, List.filterMap_append, List.filterMap_cons, List.filterMap_nil,
          hfault, ihs (first + 1) (other + 1)]
        rw [ihr]
      · simp only [hk, if_false, List.nil_append, Bool.false_eq_true]
        exact ihr _ _

theorem faults_prunedRoot (s : Statement) (first other : Nat) :
    (number first s).faults = (number other s.prunedRoot).faults := by
  cases s with
  | mk keyword arg substatements =>
      rw [Statement.prunedRoot, number, number]
      by_cases hm : keyword = .module
      · subst hm
        have hchildren : (numberAll (first + 1) substatements).map face =
            (numberAll (other + 1) (Statement.prunedAll substatements)).map face := by
          rw [map_face_numberAll, map_face_numberAll, Statement.map_face_prunedAll]
        have hmissing := @missingFault?_congr
          (.mk first .module arg (numberAll (first + 1) substatements))
          (.mk other .module arg (numberAll (other + 1) (Statement.prunedAll substatements)))
          rfl hchildren
        have hlists := listFaults_prunedAll substatements (first + 1) (other + 1)
        simp only [faults, Node.keyword, Node.children, Statement.keyword, Statement.arg,
          Statement.substatements, if_true, hmissing, hlists]
      · simp only [faults, Node.keyword, Statement.keyword, hm, if_false]
        rfl

theorem flatMap_faults_pruned (forest : List Statement) (first other : Nat) :
    (numberAll first forest).flatMap faults =
      (numberAll other (forest.map Statement.prunedRoot)).flatMap faults := by
  induction forest generalizing first other with
  | nil => rfl
  | cons s rest ih =>
      rw [List.map_cons, numberAll, numberAll, List.flatMap_cons, List.flatMap_cons,
        faults_prunedRoot s first other, ih]

end Node

theorem Forest.faults_pruned (forest : Forest) : forest.pruned.faults = forest.faults :=
  (Node.flatMap_faults_pruned forest 0 0).symm

theorem Forest.faults_eq_nil_iff {forest : Forest} :
    forest.faults = [] ↔ ∀ root ∈ forest.roots, root.Compilable := by
  rw [Forest.faults, List.flatMap_eq_nil_iff]
  simp only [Node.faults_eq_nil_iff]

-- A forest compiles when nothing is wrong with its roots, and else fails with what is noticed
-- first; what is pruned away plays no part.
theorem compile_fails_with_first_fault (forest : Forest) (withSchema : Bool) :
    ((∃ compilation, forest.compile withSchema = .ok compilation) ↔
      ∀ root ∈ forest.roots, root.Compilable) ∧
    (∀ e, forest.compile withSchema = .error e ↔ forest.faults.head? = some e) ∧
    (forest.pruned.compile withSchema).failure? = (forest.compile withSchema).failure? := by
  refine ⟨?_, fun e => ?_, ?_⟩
  · rw [← Except.failure?_eq_none_iff, Forest.compile_failure?, List.head?_eq_none_iff,
      Forest.faults_eq_nil_iff]
  · rw [← Except.failure?_eq_some_iff, Forest.compile_failure?]
  · rw [Forest.compile_failure?, Forest.compile_failure?, Forest.faults_pruned]

end YangBinding
