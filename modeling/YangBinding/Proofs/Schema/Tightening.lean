import YangBinding.Proofs.Opacity
import YangBinding.Proofs.Schema.Redrawing
import Mathlib.Data.List.InsertIdx

namespace YangBinding

-- The flags that say how often a leaf may occur.
inductive BoundFlag where
  | mandatory
  | unique
deriving Repr, DecidableEq

namespace BoundFlag

def keyword : BoundFlag → Keyword
  | .mandatory => .mandatory
  | .unique => .unique

-- The statement that sets the flag.
def statement (flag : BoundFlag) : Statement := .mk flag.keyword "true" []

theorem keyword_isBound (flag : BoundFlag) : flag.keyword.isBound := by
  cases flag with
  | mandatory => rfl
  | unique => rfl

end BoundFlag

-- The bounds once a flag is set: one of the two is moved.
def Occurs.tightened (flag : BoundFlag) (o : Occurs) : Occurs :=
  match flag with
  | .mandatory => { o with least := 1 }
  | .unique => { o with greatest := some 1 }

def SchemaRecord.tightened (flag : BoundFlag) (r : SchemaRecord) : SchemaRecord :=
  { r with occurs := r.occurs.tightened flag }

theorem filter_insertIdx_of_not {α : Type} (p : α → Bool) {a : α} (h : ¬ p a) (xs : List α)
    (position : Nat) : (xs.insertIdx position a).filter p = xs.filter p := by
  induction xs generalizing position with
  | nil =>
      cases position with
      | zero => simp [h]
      | succ position => rfl
  | cons x rest ih =>
      cases position with
      | zero => simp [h]
      | succ position => rw [List.insertIdx_succ_cons, List.filter_cons, List.filter_cons, ih]

namespace Node

section Extension

variable (place position : Nat) (extra : Node)

mutual

-- The node, with `extra` at a position among what the leaf numbered `place` holds.
def extended : Node → Node
  | .mk id keyword arg children =>
    .mk id keyword arg (if id = place ∧ keyword = .leaf
      then (extendedAll children).insertIdx position extra else extendedAll children)

def extendedAll : List Node → List Node
  | [] => []
  | n :: rest => extended n :: extendedAll rest

end

end Extension

variable {place position : Nat} {extra : Node}

theorem extendedAll_eq_map (nodes : List Node) :
    extendedAll place position extra nodes = nodes.map (extended place position extra) := by
  induction nodes with
  | nil => rfl
  | cons n rest ih => rw [extendedAll, ih, List.map_cons]

@[simp] theorem keyword_extended (n : Node) :
    (extended place position extra n).keyword = n.keyword := by
  cases n with
  | mk id keyword arg children => rw [extended, Node.keyword, Node.keyword]

theorem arg_extended (n : Node) : (extended place position extra n).arg = n.arg := by
  cases n with
  | mk id keyword arg children => rw [extended, Node.arg, Node.arg]

theorem children_extended (n : Node) :
    (extended place position extra n).children =
      if n.id = place ∧ n.keyword = .leaf
      then (n.children.map (extended place position extra)).insertIdx position extra
      else n.children.map (extended place position extra) := by
  cases n with
  | mk id keyword arg children => rw [extended, extendedAll_eq_map]; rfl

theorem extendedAll_of_forall_ne {nodes : List Node}
    (h : ∀ n ∈ preorderAll nodes, n.id ≠ place) :
    extendedAll place position extra nodes = nodes := by
  induction nodes using forest_induction with
  | nil => rfl
  | cons id keyword arg children rest ihc ihr =>
      rw [preorderAll, preorder] at h
      have hself : id ≠ place := h _ (List.mem_append_left _ List.mem_cons_self)
      have hchildren := ihc fun n hn =>
        h n (List.mem_append_left _ (List.mem_cons_of_mem _ hn))
      have hrest := ihr fun n hn => h n (List.mem_append_right _ hn)
      rw [extendedAll, extended, if_neg fun hplace => hself hplace.1, hchildren, hrest]

theorem extendedAll_injective :
    Function.Injective (extendedAll place position extra) := by
  intro nodes others h
  induction nodes using forest_induction generalizing others with
  | nil =>
      cases others with
      | nil => rfl
      | cons n rest => simp [extendedAll] at h
  | cons id keyword arg children rest ihc ihr =>
      cases others with
      | nil => simp [extendedAll] at h
      | cons n rest' =>
          cases n with
          | mk id' keyword' arg' children' =>
              rw [extendedAll, extendedAll, extended, extended] at h
              obtain ⟨hfirst, hrest⟩ := List.cons.inj h
              obtain ⟨rfl, rfl, rfl, hchildren⟩ := Node.mk.inj hfirst
              rw [ihr hrest]
              split at hchildren
              · rw [ihc (List.insertIdx_injective position extra hchildren)]
              · rw [ihc hchildren]

theorem extended_injective : Function.Injective (extended place position extra) := by
  intro n other h
  have hall : extendedAll place position extra [n] = extendedAll place position extra [other] := by
    rw [extendedAll_eq_map, extendedAll_eq_map, List.map_singleton, List.map_singleton, h]
  exact (List.cons.inj (extendedAll_injective hall)).1

theorem filter_children_extended (n : Node) {counts : Keyword → Bool}
    (h : n.id = place → n.keyword = .leaf → ¬ counts extra.keyword) :
    ((extended place position extra n).children.filter fun child => counts child.keyword) =
      (n.children.filter fun child => counts child.keyword).map
        (extended place position extra) := by
  have hmap : ((n.children.map (extended place position extra)).filter fun child =>
      counts child.keyword) = (n.children.filter fun child => counts child.keyword).map
        (extended place position extra) := by
    rw [List.filter_map]
    simp only [Function.comp_def, keyword_extended]
  rw [children_extended]
  split
  · rename_i hplace
    rw [filter_insertIdx_of_not (fun child : Node => counts child.keyword) (h hplace.1 hplace.2),
      hmap]
  · exact hmap

theorem extended_discreet (h : extra.keyword.isBound) :
    Discreet (extended place position extra) where
  keyword_eq := keyword_extended
  arg_eq := arg_extended
  children_eq _ hleaf := by rw [children_extended, if_neg fun hplace => hleaf hplace.2]
  filter_eq counts _ hbounds := filter_children_extended _ fun _ _ => hbounds _ h

section Flags

variable {n : Node}

theorem flag_eq_any_head? (n : Node) (keyword : Keyword) :
    n.flag keyword = (n.search keyword).head?.any fun child => child.arg = "true" := by
  rw [flag, find?_eq_head?]

theorem flag_extended_of_not {keyword : Keyword}
    (h : n.id = place → n.keyword = .leaf → extra.keyword ≠ keyword) :
    (extended place position extra n).flag keyword = n.flag keyword := by
  have hsearch : (extended place position extra n).search keyword =
      (n.search keyword).map (extended place position extra) :=
    @filter_children_extended place position extra n (fun k => decide (k = keyword))
      fun hplace hleaf => by simpa using h hplace hleaf
  rw [flag_eq_any_head?, hsearch, List.head?_map, Option.any_map, flag_eq_any_head?]
  simp only [arg_extended]

theorem flag_extended_self (hplace : n.id = place) (hleaf : n.keyword = .leaf)
    (hfree : ∀ child ∈ n.children, child.keyword ≠ extra.keyword)
    (hposition : position ≤ n.children.length) :
    (extended place position extra n).flag extra.keyword = decide (extra.arg = "true") := by
  have hinside : (extended place position extra n).children.Perm
      (extra :: n.children.map (extended place position extra)) := by
    rw [children_extended, if_pos ⟨hplace, hleaf⟩]
    exact List.perm_insertIdx _ _ (by rwa [List.length_map])
  have hnone : (n.children.map (extended place position extra)).filter
      (fun child => child.keyword = extra.keyword) = [] := by
    rw [List.filter_eq_nil_iff]
    intro child hchild
    obtain ⟨other, hother, rfl⟩ := List.mem_map.mp hchild
    simpa using hfree other hother
  have hsearch : (extended place position extra n).search extra.keyword = [extra] := by
    have hperm := hinside.filter fun child => child.keyword = extra.keyword
    rw [List.filter_cons_of_pos (by simp), hnone] at hperm
    exact List.perm_singleton.mp hperm
  rw [flag_eq_any_head?, hsearch]
  rfl

end Flags

section Numbers

theorem bareAll_numberAll_eq_map (statements : List Statement) (first : Nat) :
    bareAll (numberAll first statements) = statements.map fun s => (number 0 s).bare := by
  induction statements generalizing first with
  | nil => rfl
  | cons s rest ih =>
      have hfirst := bareAll_numberAll [s] first 0
      rw [numberAll, numberAll, numberAll, numberAll, bareAll, bareAll, bareAll] at hfirst
      rw [numberAll, bareAll, ih, List.map_cons, (List.cons.inj hfirst).1]

theorem bareAll_numberAll_statementAll (nodes : List Node) (first : Nat) :
    bareAll (numberAll first (statementAll nodes)) = bareAll nodes := by
  induction nodes using forest_induction generalizing first with
  | nil => rfl
  | cons id keyword arg children rest ihc ihr =>
      rw [statementAll, statement, numberAll, number, bareAll, bareAll, bare, bare, ihc, ihr]

-- Numbers aside, inserting a statement and numbering anew is inserting a node.
theorem bareAll_refilledAll_insertIdx {leaf : Node} {nodes : List Node}
    (hself : ∀ n ∈ preorderAll nodes, n.id = leaf.id → n = leaf) (hleaf : leaf.keyword = .leaf)
    (hinner : ∀ n ∈ preorderAll leaf.children, n.id ≠ leaf.id) (position : Nat) (s : Statement)
    (first : Nat) :
    bareAll (numberAll first (refilledAll leaf.id
      ((statementAll leaf.children).insertIdx position s) nodes)) =
      bareAll (extendedAll leaf.id position (number 0 s) nodes) := by
  induction nodes using forest_induction generalizing first with
  | nil => rfl
  | cons id keyword arg children rest ihc ihr =>
      rw [preorderAll, preorder] at hself
      have hchildren := ihc fun n hn =>
        hself n (List.mem_append_left _ (List.mem_cons_of_mem _ hn))
      have hrest := ihr fun n hn => hself n (List.mem_append_right _ hn)
      rw [refilledAll, refilled, extendedAll, extended, numberAll, number, bareAll, bareAll, bare,
        bare, hrest]
      by_cases hplace : id = leaf.id
      · obtain rfl := hself _ (List.mem_append_left _ List.mem_cons_self) hplace
        have hinside : bareAll (numberAll (first + 1)
            ((statementAll children).insertIdx position s)) =
            bareAll (children.insertIdx position (number 0 s)) := by
          rw [bareAll_numberAll_eq_map, List.map_insertIdx,
            ← bareAll_numberAll_eq_map (statementAll children) 0, bareAll_numberAll_statementAll,
            bareAll_eq_map, bareAll_eq_map, List.map_insertIdx]
        have hkeep : extendedAll id position (number 0 s) children = children :=
          extendedAll_of_forall_ne hinner
        have hkeyword : keyword = .leaf := hleaf
        simp only [Node.id, Node.children, hkeyword, and_self, if_true, hinside, hkeep]
      · simp only [hplace, false_and, if_false, hchildren]

end Numbers

section Records

variable {leaf : Node} {flag : BoundFlag} {position : Nat}

-- The change that sets a flag in a leaf.
def flagged (leaf : Node) (flag : BoundFlag) (position : Nat) : Node → Node :=
  extended leaf.id position (.mk 0 flag.keyword "true" [])

theorem flagged_discreet : Discreet (flagged leaf flag position) :=
  extended_discreet flag.keyword_isBound

theorem occurs_flagged_of_ne {n : Node} (h : n.id ≠ leaf.id) {parent : Option Node}
    (hparent : ∀ p ∈ parent, p.keyword.isEntered) :
    (flagged leaf flag position n).occurs (parent.map (flagged leaf flag position)) =
      n.occurs parent := by
  have hflag (keyword : Keyword) : (flagged leaf flag position n).flag keyword = n.flag keyword :=
    flag_extended_of_not fun hplace => absurd hplace h
  unfold occurs
  rw [flagged_discreet.isSingle_eq hparent, flagged_discreet.insideClass_eq,
    flagged_discreet.keyword_eq, hflag, hflag]

-- The rule that the flag belongs to is met, and no other.
theorem occurs_flagged_self (hleaf : leaf.keyword = .leaf)
    (hfree : ∀ child ∈ leaf.children, child.keyword ≠ flag.keyword)
    (hposition : position ≤ leaf.children.length) {parent : Option Node}
    (hparent : ∀ p ∈ parent, p.keyword.isEntered) :
    (flagged leaf flag position leaf).occurs (parent.map (flagged leaf flag position)) =
      (leaf.occurs parent).tightened flag := by
  have hset : (flagged leaf flag position leaf).flag flag.keyword = true :=
    flag_extended_self rfl hleaf hfree hposition
  have hother {keyword : Keyword} (h : flag.keyword ≠ keyword) :
      (flagged leaf flag position leaf).flag keyword = leaf.flag keyword :=
    flag_extended_of_not fun _ _ => h
  unfold occurs
  rw [flagged_discreet.isSingle_eq hparent, flagged_discreet.insideClass_eq,
    flagged_discreet.keyword_eq]
  cases flag with
  | mandatory =>
      have hmandatory : (flagged leaf .mandatory position leaf).flag .mandatory = true := hset
      have hunique := hother (show BoundFlag.mandatory.keyword ≠ .unique by decide)
      simp only [hmandatory, hunique, Bool.or_true, if_true, Occurs.tightened]
  | unique =>
      have hunique : (flagged leaf .unique position leaf).flag .unique = true := hset
      have hmandatory := hother (show BoundFlag.unique.keyword ≠ .mandatory by decide)
      simp only [hmandatory, hunique, Bool.true_or, Bool.or_true, if_true, Occurs.tightened]

theorem schemaRecord_flagged (hleaf : leaf.keyword = .leaf)
    (hfree : ∀ child ∈ leaf.children, child.keyword ≠ flag.keyword)
    (hposition : position ≤ leaf.children.length) {n : Node} (hn : n.keyword.isEntered)
    (hself : n.id = leaf.id → n = leaf) (parent : Option Node)
    (hparent : ∀ p ∈ parent, p.keyword.isEntered) (namespaceUri tagPath : String) :
    (flagged leaf flag position n).schemaRecord (parent.map (flagged leaf flag position))
        namespaceUri tagPath =
      if n.id = leaf.id then (n.schemaRecord parent namespaceUri tagPath).tightened flag
      else n.schemaRecord parent namespaceUri tagPath := by
  rw [schemaRecord, flagged_discreet.dataNames_eq hn]
  split
  · rename_i hid
    obtain rfl := hself hid
    rw [occurs_flagged_self hleaf hfree hposition hparent]
    rfl
  · rename_i hid
    rw [occurs_flagged_of_ne hid hparent]
    rfl

end Records

end Node

theorem Route.Leads.target_isEntered {start : Node} (hstart : start.keyword.isEntered)
    {route : Route} (h : route.Leads Keyword.inSchema start) :
    (route.target start).keyword.isEntered := by
  cases route with
  | nil => exact hstart
  | cons s around => exact Keyword.isEntered_of_inSchema h.2.2

namespace Forest

-- The forest with a statement more at a position among those inside a node.
def insertInside (forest : Forest) (n : Node) (position : Nat) (s : Statement) : Forest :=
  forest.refill n.id ((Node.statementAll n.children).insertIdx position s)

variable {forest : Forest} {leaf : Node} (hmem : leaf ∈ forest.nodes)
  (hleaf : leaf.keyword = .leaf) (flag : BoundFlag) (position : Nat)
include hmem hleaf

theorem bareAll_roots_insertInside :
    Node.bareAll (forest.insertInside leaf position flag.statement).roots =
      Node.bareAll (forest.roots.map (Node.flagged leaf flag position)) := by
  rw [Node.flagged, ← Node.extendedAll_eq_map]
  refine Node.bareAll_refilledAll_insertIdx (fun n hn hid => eq_of_id_eq hn hmem hid) hleaf
    (fun n hn => ?_) position flag.statement 0
  exact Nat.ne_of_gt ((numbered_of_mem_nodes hmem).id_lt hn)

theorem compile_insertInside :
    (forest.insertInside leaf position flag.statement).compile true =
      (forest.roots.mapM fun root : Node => root.compileRoot true).map fun outcomes =>
        ⟨(List.zipWith (fun root => Option.map (CompiledModule.redrawn
            (Node.flagged leaf flag position root))) forest.roots outcomes).filterMap id,
          told [] (forest.events true)⟩ := by
  have hbare := bareAll_roots_insertInside hmem hleaf flag position
  have hmodules : ((forest.insertInside leaf position flag.statement).roots.mapM
      fun root : Node => root.compileRoot true) =
      (forest.roots.mapM fun root : Node => root.compileRoot true).map
        (List.zipWith (fun root => Option.map (CompiledModule.redrawn
          (Node.flagged leaf flag position root))) forest.roots) := by
    rw [← Node.mapM_compileRoot_bareAll, hbare, Node.mapM_compileRoot_bareAll, List.mapM_map,
      ← Except.mapM_map_zipWith]
    simp only [Function.comp_def, Node.flagged_discreet.compileRoot_eq]
  have htold : told [] ((forest.insertInside leaf position flag.statement).events true) =
      told [] (forest.events true) := by
    rw [events, ← Node.told_bareAll, hbare, Node.told_bareAll,
      Node.flagged_discreet.told_map_eq Node.extended_injective, events]
  rw [compile_eq_map, hmodules, htold]
  cases forest.roots.mapM fun root : Node => root.compileRoot true with
  | error e => rfl
  | ok outcomes => rfl

end Forest

theorem modules_of_zipWith {withSchema : Bool} {roots : List Node}
    {outcomes : List (Option CompiledModule)}
    (h : List.Forall₂ (fun root outcome => root.compileRoot withSchema = .ok outcome)
      roots outcomes) (g : Node → CompiledModule → CompiledModule) :
    (List.zipWith (fun root => Option.map (g root)) roots outcomes).filterMap id =
      List.zipWith g (roots.filter fun root => root.keyword = .module)
        (outcomes.filterMap id) := by
  induction h with
  | nil => rfl
  | cons hroot _ ih =>
      rcases Node.compileRoot_cases hroot with ⟨hk, m, -, rfl⟩ | ⟨hk, rfl⟩
      · rw [List.filter_cons_of_pos (by simp [hk])]
        simpa using ih
      · rw [List.filter_cons_of_neg (by simp [hk])]
        simpa using ih

-- How a module changes when a flag is set in a leaf. The two schemas hold records of the same
-- statements, drawn in the same order.
structure TightensModule (flag : BoundFlag) (leaf root : Node) (plain tight : CompiledModule) :
    Prop where
  model : tight.model = plain.model
  schema : ∃ drawn refused, Survey "/" (root.routes Keyword.inSchema) drawn refused ∧
    plain.schema = some ⟨drawn.map
      (Route.record root none plain.model.root.spec.namespaceUri "/")⟩ ∧
    tight.schema = some ⟨drawn.map fun route =>
      let record := route.record root none plain.model.root.spec.namespaceUri "/"
      if (route.target root).id = leaf.id then record.tightened flag else record⟩

-- How a compilation changes, module by module.
structure Tightens (forest : Forest) (flag : BoundFlag) (leaf : Node)
    (plain tight : Compilation) : Prop where
  diagnostics : tight.diagnostics = plain.diagnostics
  count : tight.modules.length = plain.modules.length
  modules : List.Forall₂
    (fun root (pair : CompiledModule × CompiledModule) =>
      TightensModule flag leaf root pair.1 pair.2)
    (forest.roots.filter fun root => root.keyword = .module)
    (plain.modules.zip tight.modules)

section Flagged

variable {forest : Forest} {leaf : Node} (hmem : leaf ∈ forest.nodes)
  (hleaf : leaf.keyword = .leaf) {flag : BoundFlag}
  (hfree : ∀ child ∈ leaf.children, child.keyword ≠ flag.keyword) {position : Nat}
  (hposition : position ≤ leaf.children.length)
include hmem hleaf hfree hposition

theorem Route.record_flagged {root : Node} (hroot : root ∈ forest.nodes)
    (hk : root.keyword.isEntered) {route : Route} (hroute : route.Leads Keyword.inSchema root)
    (namespaceUri base : String) :
    Route.record (Node.flagged leaf flag position root) none namespaceUri base
        (route.map (Node.flagged leaf flag position)) =
      if (route.target root).id = leaf.id
      then (route.record root none namespaceUri base).tightened flag
      else route.record root none namespaceUri base := by
  have hself := Forest.eq_of_id_eq (hroute.target_mem_nodes hroot) hmem
  have hentered := hroute.target_isEntered hk
  cases route with
  | nil =>
      exact Node.schemaRecord_flagged hleaf hfree hposition hentered hself none (by simp)
        namespaceUri base
  | cons s around =>
      have hparent := hroute.1.target_isEntered hk
      rw [List.map_cons, Route.record, Route.target_map, ← List.map_cons,
        Route.path_map Node.flagged_discreet.arg_eq]
      exact Node.schemaRecord_flagged hleaf hfree hposition hentered hself
        (some (Route.target root around)) (by simpa using hparent) namespaceUri _

theorem tightensModule_redrawn {root : Node} (hroot : root ∈ forest.roots)
    (hk : root.keyword = .module) {m : CompiledModule}
    (hm : root.compileModule true none = .ok m) :
    TightensModule flag leaf root m (m.redrawn (Node.flagged leaf flag position root)) := by
  have hentered : root.keyword.isEntered := by rw [hk]; rfl
  have hdiscreet : Node.Discreet (Node.flagged leaf flag position) := Node.flagged_discreet
  obtain ⟨drawn, refused, hsurvey, hschema, hschema'⟩ :=
    hdiscreet.exists_survey_both Node.extended_injective hentered "/"
  obtain ⟨namespaceUri, modulePrefix, children, -, -, -, rfl⟩ :=
    Node.compileModule_eq_ok_iff.mp hm
  refine ⟨rfl, drawn, refused, hsurvey, ?_, ?_⟩
  · rw [if_pos rfl, hschema]
    rfl
  · rw [CompiledModule.redrawn, if_pos rfl, Option.map_some, hschema', Drawing.ofRoutes,
      List.map_map]
    refine congrArg some (congrArg SchemaTable.mk (List.map_congr_left fun route hr => ?_))
    have hleads := Node.mem_routes_iff.mp (hsurvey.drawn_sublist.subset hr)
    exact Route.record_flagged hmem hleaf hfree hposition (Forest.mem_nodes_of_mem_roots hroot)
      hentered hleads _ "/"

theorem tightensModule_forall₂ {modules : List CompiledModule}
    (h : List.Forall₂ (fun root m => root.compileModule true none = .ok m)
      (forest.roots.filter fun root => root.keyword = .module) modules) :
    List.Forall₂
      (fun root (pair : CompiledModule × CompiledModule) =>
        TightensModule flag leaf root pair.1 pair.2)
      (forest.roots.filter fun root => root.keyword = .module)
      (modules.zip (List.zipWith (fun root => CompiledModule.redrawn
        (Node.flagged leaf flag position root))
        (forest.roots.filter fun root => root.keyword = .module) modules)) := by
  have hkept : ∀ root ∈ forest.roots.filter fun root => root.keyword = .module,
      root ∈ forest.roots ∧ root.keyword = .module := by
    intro root hroot
    simpa using List.mem_filter.mp hroot
  generalize (forest.roots.filter fun root => root.keyword = .module) = kept at h hkept
  induction h with
  | nil => exact .nil
  | cons hm _ ih =>
      obtain ⟨hroot, hk⟩ := hkept _ List.mem_cons_self
      rw [List.zipWith_cons_cons, List.zip_cons_cons]
      refine .cons ?_ (ih fun root hr => hkept root (List.mem_cons_of_mem _ hr))
      exact tightensModule_redrawn hmem hleaf hfree hposition hroot hk hm

end Flagged

-- Setting `mandatory` or `unique` in a leaf is seen in the leaf's own record and nowhere else.
theorem flag_tightens_own_record (forest : Forest) (leaf : Node) (hmem : leaf ∈ forest.nodes)
    (hleaf : leaf.keyword = .leaf) (flag : BoundFlag)
    (hfree : ∀ child ∈ leaf.children, child.keyword ≠ flag.keyword) (position : Nat)
    (hposition : position ≤ leaf.children.length) :
    (∀ e, (forest.insertInside leaf position flag.statement).compile true = .error e ↔
      forest.compile true = .error e) ∧
    ∀ plain, forest.compile true = .ok plain →
      ∃ tight, (forest.insertInside leaf position flag.statement).compile true = .ok tight ∧
        Tightens forest flag leaf plain tight := by
  rw [Forest.compile_insertInside hmem hleaf, Forest.compile_eq_map]
  constructor
  · intro e
    rw [← Except.failure?_eq_some_iff, ← Except.failure?_eq_some_iff, Except.failure?_map,
      Except.failure?_map]
  · intro plain hplain
    obtain ⟨outcomes, houtcomes, rfl⟩ := Except.map_eq_ok_iff.mp hplain
    have hall := Except.mapM_eq_ok_iff.mp houtcomes
    have hmodules := modules_of_outcomes hall
    refine ⟨_, Except.map_eq_ok_iff.mpr ⟨outcomes, houtcomes, rfl⟩, rfl, ?_, ?_⟩
    · rw [modules_of_zipWith hall, List.length_zipWith, hmodules.length_eq, Nat.min_self]
    · rw [modules_of_zipWith hall]
      exact tightensModule_forall₂ hmem hleaf hfree hposition hmodules

-- A module whose list has two leaves of one name, so that the second has no record.
def twinLeaves : Statement :=
  .mk .module "m" [.mk .namespaceUri "urn:m" [], .mk .modulePrefix "p" [],
    .mk .list "b" [.mk .key "k" [], .mk .leaf "k" [], .mk .leaf "v" [.mk .type "string" []],
      .mk .leaf "v" []]]

def Compilation.leastBounds (compilation : Compilation) : List Nat :=
  compilation.modules.flatMap fun m => (m.schema.elim [] SchemaTable.records).map fun r =>
    r.occurs.least

theorem mandatory_tightens_twinLeaves :
    Node.mk 6 .leaf "v" [.mk 7 .type "string" []] ∈ Forest.nodes [twinLeaves] ∧
    ∃ plain tight, Forest.compile [twinLeaves] true = .ok plain ∧
      (Forest.insertInside [twinLeaves] (.mk 6 .leaf "v" [.mk 7 .type "string" []]) 1
        BoundFlag.mandatory.statement).compile true = .ok tight ∧
      plain.leastBounds = [1, 0, 1, 0] ∧ tight.leastBounds = [1, 0, 1, 1] ∧
      plain.diagnostics.length = 3 ∧
      Tightens [twinLeaves] .mandatory (.mk 6 .leaf "v" [.mk 7 .type "string" []])
        plain tight := by
  have hmem : Node.mk 6 .leaf "v" [.mk 7 .type "string" []] ∈ Forest.nodes [twinLeaves] :=
    List.mem_of_getElem? (i := 6) rfl
  have hplain : Forest.compile [twinLeaves] true = .ok _ := rfl
  have hflagged : (Forest.insertInside [twinLeaves] (.mk 6 .leaf "v" [.mk 7 .type "string" []]) 1
    BoundFlag.mandatory.statement).compile true = .ok _ := rfl
  obtain ⟨tight, htight, hchange⟩ := (flag_tightens_own_record [twinLeaves] _ hmem rfl .mandatory
    (by simp [Node.children, Node.keyword, BoundFlag.keyword]) 1
    (by simp [Node.children])).2 _ hplain
  refine ⟨hmem, _, tight, hplain, htight, by decide +kernel, ?_, by decide +kernel, hchange⟩
  obtain rfl := Except.ok.inj (hflagged.symm.trans htight)
  decide +kernel

end YangBinding
