import YangBinding.Proofs.Numbering
import YangBinding.Statement.Arena
import Mathlib.Data.List.Nodup

namespace YangBinding

-- A statement as it is spelled: its keyword is any word.
inductive RawStatement where
  | mk (word arg : String) (substatements : List RawStatement)

namespace RawStatement

mutual

-- The statement with its keyword told apart.
def statement : RawStatement → Statement
  | .mk word arg substatements => .mk (.ofText word) arg (statementAll substatements)

def statementAll : List RawStatement → List Statement
  | [] => []
  | s :: rest => statement s :: statementAll rest

end

@[elab_as_elim]
theorem forest_induction {motive : List RawStatement → Prop} (nil : motive [])
    (cons : ∀ word arg substatements rest, motive substatements → motive rest →
      motive (.mk word arg substatements :: rest)) (forest : List RawStatement) :
    motive forest :=
  @RawStatement.rec_1 (fun s => ∀ rest, motive rest → motive (s :: rest)) motive
    (fun _ _ _ hs rest hrest => cons _ _ _ rest hs hrest) nil
    (fun _ rest hs hrest => hs rest hrest) forest

end RawStatement

theorem Keyword.text_ofText (word : String) : (Keyword.ofText word).text = word := by
  unfold ofText
  cases h : known.find? fun keyword => keyword.text = word with
  | none => rfl
  | some keyword => simpa using List.find?_some h

namespace Statement

mutual

-- The statement as it is spelled.
def raw : Statement → RawStatement
  | .mk keyword arg substatements => .mk keyword.text arg (rawAll substatements)

def rawAll : List Statement → List RawStatement
  | [] => []
  | s :: rest => raw s :: rawAll rest

end

mutual

-- The statements of a tree, an outer one before those inside it.
def preorder : Statement → List Statement
  | .mk keyword arg substatements => .mk keyword arg substatements :: preorderAll substatements

def preorderAll : List Statement → List Statement
  | [] => []
  | s :: rest => preorder s ++ preorderAll rest

end

theorem rawAll_statementAll (forest : List RawStatement) :
    rawAll (RawStatement.statementAll forest) = forest := by
  induction forest using RawStatement.forest_induction with
  | nil => rfl
  | cons word arg substatements rest ihs ihr =>
      simp only [RawStatement.statementAll, RawStatement.statement, rawAll, raw, ihs, ihr,
        Keyword.text_ofText]

end Statement

namespace Node

theorem statementAll_numberAll (forest : List Statement) (first : Nat) :
    statementAll (numberAll first forest) = forest := by
  induction forest using Statement.forest_induction generalizing first with
  | nil => rfl
  | cons keyword arg substatements rest ihs ihr =>
      simp only [numberAll, number, statementAll, statement, ihs, ihr]

theorem map_statement_preorderAll (nodes : List Node) :
    (preorderAll nodes).map statement = Statement.preorderAll (statementAll nodes) := by
  induction nodes using forest_induction with
  | nil => rfl
  | cons id keyword arg children rest ihc ihr =>
      simp only [preorderAll, preorder, statementAll, statement, Statement.preorderAll,
        Statement.preorder, List.map_append, List.map_cons, ihc, ihr]

mutual

-- The entries of a node and of all that is inside it, in the order of the numbers.
def entries (parent : Option Nat) : Node → List Entry
  | .mk id keyword arg children =>
    ⟨keyword, arg, children.map Node.id, parent⟩ :: entriesAll (some id) children

def entriesAll (parent : Option Nat) : List Node → List Entry
  | [] => []
  | n :: rest => entries parent n ++ entriesAll parent rest

end

theorem length_entriesAll (parent : Option Nat) (nodes : List Node) :
    (entriesAll parent nodes).length = (preorderAll nodes).length := by
  induction nodes using forest_induction generalizing parent with
  | nil => rfl
  | cons id keyword arg children rest ihc ihr =>
      simp only [entriesAll, entries, preorderAll, preorder, List.length_append,
        List.length_cons, ihc, ihr]

theorem length_entriesAll_numberAll (parent : Option Nat) (forest : List Statement)
    (first : Nat) :
    (entriesAll parent (numberAll first forest)).length = Statement.sizeAll forest := by
  have hids := congrArg List.length (map_id_preorderAll_numberAll forest first)
  rw [List.length_map, List.length_range'] at hids
  rw [length_entriesAll, hids]

theorem length_entries_number (parent : Option Nat) (s : Statement) (first : Nat) :
    ((number first s).entries parent).length = s.size := by
  have hlength := length_entriesAll_numberAll parent [s] first
  simpa [numberAll, entriesAll, Statement.sizeAll] using hlength

end Node

namespace Arena

theorem adopt_toArray (before after : List Entry) (entry : Entry) (child : Nat) :
    adopt before.length child (before ++ entry :: after).toArray =
      (before ++ { entry with children := entry.children ++ [child] } :: after).toArray := by
  rw [adopt, List.modify_toArray]
  congr 1
  induction before with
  | nil => rfl
  | cons first before ih => exact congrArg (first :: ·) ih

-- The table while the block of `entry` is being added: the statements added so far stand after all
-- that was there, and their numbers stand in `entry`, the only old entry that has changed.
def AppendsBlock (forest : List Statement) : Prop :=
  ∀ (before after : List Entry) (entry : Entry),
    insertAll before.length forest (before ++ entry :: after).toArray =
      let nodes := Node.numberAll (before.length + after.length + 1) forest
      (before ++ { entry with children := entry.children ++ nodes.map Node.id } :: after ++
        Node.entriesAll (some before.length) nodes).toArray

theorem AppendsBlock.insert_toArray {keyword : Keyword} {arg : String}
    {substatements : List Statement} (h : AppendsBlock substatements) (parent : Option Nat)
    (entries : List Entry) :
    insert parent (.mk keyword arg substatements) entries.toArray =
      (entries.length, (entries ++ (Node.number entries.length
        (.mk keyword arg substatements)).entries parent).toArray) := by
  have hblock := h entries [] ⟨keyword, arg, [], parent⟩
  rw [insert, List.size_toArray, List.push_toArray, hblock]
  simp [Node.number, Node.entries]

theorem appendsBlock (forest : List Statement) : AppendsBlock forest := by
  induction forest using Statement.forest_induction with
  | nil =>
      intro before after entry
      simp [insertAll, Node.numberAll, Node.entriesAll]
  | cons keyword arg substatements rest ihs ihr =>
      intro before after entry
      let first := Node.number (before.length + after.length + 1) (.mk keyword arg substatements)
      have hinsert : insert (some before.length) (.mk keyword arg substatements)
          (before ++ entry :: after).toArray = (before.length + after.length + 1,
            (before ++ entry :: (after ++ first.entries (some before.length))).toArray) := by
        rw [ihs.insert_toArray]
        simp [first, Nat.add_assoc]
      have hsize : (first.entries (some before.length)).length =
          (Statement.mk keyword arg substatements).size := Node.length_entries_number _ _ _
      rw [insertAll, hinsert]
      dsimp only
      rw [adopt_toArray, ihr, List.length_append, hsize]
      have hnext (size : Nat) : before.length + (after.length + size) + 1 =
          before.length + after.length + 1 + size := by omega
      rw [hnext]
      simp [Node.numberAll, Node.entriesAll, first, Node.number, Node.id]

theorem insert_toArray (parent : Option Nat) (s : Statement) (entries : List Entry) :
    insert parent s entries.toArray =
      (entries.length,
        (entries ++ (Node.number entries.length s).entries parent).toArray) := by
  cases s with
  | mk keyword arg substatements => exact (appendsBlock substatements).insert_toArray parent entries

-- A push adds its entries at the end, so none of the old ones changes.
theorem pushRoot_eq (arena : Arena) (s : Statement) :
    arena.pushRoot s = (arena.size,
      ⟨arena.entries ++ ((Node.number arena.size s).entries none).toArray,
        arena.roots ++ [arena.size]⟩) := by
  have hinsert := insert_toArray none s arena.entries.toList
  rw [Array.toArray_toList, Array.length_toList] at hinsert
  rw [pushRoot, hinsert, ← List.append_toArray, Array.toArray_toList]
  rfl

theorem pushAll_eq (arena : Arena) (forest : Forest) :
    arena.pushAll forest =
      ⟨arena.entries ++ (Node.entriesAll none (Node.numberAll arena.size forest)).toArray,
        arena.roots ++ (Node.numberAll arena.size forest).map Node.id⟩ := by
  induction forest generalizing arena with
  | nil => simp [pushAll, Node.numberAll, Node.entriesAll]
  | cons s rest ih =>
      have hsize : (arena.pushRoot s).2.size = arena.size + s.size := by
        simp [pushRoot_eq, size, Node.length_entries_number]
      have hstep : arena.pushAll (s :: rest) = (arena.pushRoot s).2.pushAll rest := rfl
      have hid : (Node.number arena.size s).id = arena.size := by
        cases s with
        | mk keyword arg substatements => rfl
      rw [hstep, ih, hsize, pushRoot_eq]
      simp [Node.numberAll, Node.entriesAll, hid]

end Arena

-- The entry of a node, with the numbers that stand for what is around it and inside it.
def Forest.entry (forest : Forest) (n : Node) : Entry :=
  ⟨n.keyword, n.arg, n.children.map Node.id, (forest.parent? n.id).map Node.id⟩

theorem Forest.entriesAll_eq (forest : Forest) (parent : Option Nat) {nodes : List Node}
    (hn : nodes ⊆ forest.nodes)
    (hp : ∀ n ∈ nodes, (forest.parent? n.id).map Node.id = parent) :
    Node.entriesAll parent nodes = (Node.preorderAll nodes).map forest.entry := by
  induction nodes using Node.forest_induction generalizing parent with
  | nil => rfl
  | cons id keyword arg children rest ihc ihr =>
      obtain ⟨hfirst, hrest⟩ := List.cons_subset.mp hn
      obtain ⟨hparent, hparents⟩ := List.forall_mem_cons.mp hp
      have hchildren : Node.entriesAll (some id) children =
          (Node.preorderAll children).map forest.entry := by
        refine ihc (some id) (fun _ hc => mem_nodes_of_mem_children hfirst hc) fun child hc => ?_
        rw [parent?_of_mem_children hfirst hc]
        rfl
      have hentry : forest.entry (.mk id keyword arg children) =
          ⟨keyword, arg, children.map Node.id, parent⟩ := by
        rw [← hparent]
        rfl
      rw [Node.entriesAll, Node.entries, Node.preorderAll, Node.preorder, List.map_append,
        List.map_cons, hentry, hchildren, ihr parent hrest hparents]

namespace Arena

-- An arena is the table of the numbered nodes.
theorem ofForest_eq (forest : Forest) :
    ofForest forest =
      ⟨(forest.nodes.map forest.entry).toArray, forest.roots.map Node.id⟩ := by
  have hentries : Node.entriesAll none forest.roots = forest.nodes.map forest.entry := by
    refine forest.entriesAll_eq none (fun _ h => Forest.mem_nodes_of_mem_roots h) fun root hr => ?_
    rw [Forest.parent?_of_mem_roots hr]
    rfl
  rw [ofForest, pushAll_eq, ← hentries]
  simp [empty, size, Forest.roots]

theorem roots_ofForest (forest : Forest) :
    (ofForest forest).roots = forest.roots.map Node.id := by
  rw [ofForest_eq]

theorem get?_ofForest (forest : Forest) (id : Nat) :
    (ofForest forest).get? id = (forest.node? id).map forest.entry := by
  rw [ofForest_eq, get?, Forest.node?]
  simp

theorem size_ofForest (forest : Forest) : (ofForest forest).size = Statement.sizeAll forest := by
  have hids := congrArg List.length forest.map_id_nodes
  rw [List.length_map, List.length_range'] at hids
  rw [ofForest_eq, size, List.size_toArray, List.length_map, hids]

theorem mem_children_ofForest_iff {forest : Forest} {i p : Nat} :
    i ∈ (ofForest forest).children p ↔
      ∃ parent ∈ forest.nodes, parent.id = p ∧ ∃ child ∈ parent.children, child.id = i := by
  rw [children, get?_ofForest]
  cases h : forest.node? p with
  | none =>
      simp only [Option.map_none, Option.getD_none, List.not_mem_nil, false_iff]
      rintro ⟨parent, hp, hid, -⟩
      rw [Forest.node?_eq_some_iff.mpr ⟨hp, hid⟩] at h
      exact Option.some_ne_none _ h
  | some parent =>
      obtain ⟨hp, hid⟩ := Forest.node?_eq_some_iff.mp h
      constructor
      · intro hi
        exact ⟨parent, hp, hid, List.mem_map.mp hi⟩
      · rintro ⟨other, ho, hother, hchild⟩
        obtain rfl := Forest.eq_of_id_eq hp ho (hid.trans hother.symm)
        exact List.mem_map.mpr hchild

theorem parent?_ofForest_eq_some_iff {forest : Forest} {i p : Nat} :
    (ofForest forest).parent? i = some p ↔ i ∈ (ofForest forest).children p := by
  rw [mem_children_ofForest_iff, parent?, get?_ofForest]
  constructor
  · intro h
    obtain ⟨entry, hentry, hparent⟩ := Option.bind_eq_some_iff.mp h
    obtain ⟨n, hn, rfl⟩ := Option.map_eq_some_iff.mp hentry
    obtain ⟨parent, hp, rfl⟩ := Option.map_eq_some_iff.mp hparent
    obtain ⟨hnodes, hchild⟩ := Forest.exists_of_parent? hp
    rw [(Forest.node?_eq_some_iff.mp hn).2] at hchild
    exact ⟨parent, hnodes, rfl, hchild⟩
  · rintro ⟨parent, hp, rfl, child, hc, rfl⟩
    have hchild := Forest.mem_nodes_of_mem_children hp hc
    rw [Forest.node?_eq_some_iff.mpr ⟨hchild, rfl⟩]
    exact congrArg (Option.map Node.id) (Forest.parent?_of_mem_children hp hc)

theorem once_of_mem_children {forest : Forest} {i p : Nat}
    (h : i ∈ (ofForest forest).children p) :
    ((ofForest forest).children p).count i = 1 ∧ p < i := by
  obtain ⟨parent, hp, rfl, child, hc, rfl⟩ := mem_children_ofForest_iff.mp h
  constructor
  · refine List.count_eq_one_of_mem ?_ h
    rw [children, get?_ofForest, Forest.node?_eq_some_iff.mpr ⟨hp, rfl⟩]
    exact Forest.children_ids_nodup hp
  · exact (Forest.numbered_of_mem_nodes hp).id_lt (Node.mem_preorderAll_of_mem hc)

theorem exists_node?_of_lt {forest : Forest} {i : Nat} (hi : i < (ofForest forest).size) :
    ∃ n, forest.node? i = some n := by
  have hentry : ((ofForest forest).get? i).isSome := by
    rw [get?, Array.getElem?_eq_getElem hi]
    rfl
  rw [get?_ofForest, Option.isSome_map] at hentry
  exact Option.isSome_iff_exists.mp hentry

theorem parent?_ofForest_eq_none_iff {forest : Forest} {i : Nat}
    (hi : i < (ofForest forest).size) :
    (ofForest forest).parent? i = none ↔ i ∈ (ofForest forest).roots := by
  obtain ⟨n, hn⟩ := exists_node?_of_lt hi
  obtain ⟨hnodes, rfl⟩ := Forest.node?_eq_some_iff.mp hn
  have hparent : (ofForest forest).parent? n.id = (forest.parent? n.id).map Node.id := by
    rw [parent?, get?_ofForest, hn]
    rfl
  rw [roots_ofForest, hparent, Option.map_eq_none_iff, List.mem_map]
  constructor
  · intro hnone
    rcases Forest.mem_roots_or_children hnodes with hr | ⟨parent, hp, hc⟩
    · exact ⟨n, hr, rfl⟩
    · rw [Forest.parent?_of_mem_children hp hc] at hnone
      exact absurd hnone (Option.some_ne_none _)
  · rintro ⟨root, hr, hid⟩
    rw [← hid]
    exact Forest.parent?_of_mem_roots hr

theorem statement?_eq (arena : Arena) (id : Nat) :
    arena.statement? id = (arena.get? id).bind fun entry =>
      (entry.children.mapM fun child =>
        if id < child then arena.statement? child else none).map
          (.mk entry.keyword entry.arg) := by
  rw [statement?, get?]
  by_cases hid : id < arena.entries.size
  · rw [dif_pos hid, Array.getElem?_eq_getElem hid]
    exact bind_pure_comp _ _
  · rw [dif_neg hid, Array.getElem?_eq_none (Nat.not_lt.mp hid)]
    rfl

theorem mapM_eq_statementAll {read : Nat → Option Statement} {nodes : List Node}
    (h : ∀ n ∈ nodes, read n.id = some n.statement) :
    (nodes.map Node.id).mapM read = some (Node.statementAll nodes) := by
  induction nodes with
  | nil => rfl
  | cons n rest ih =>
      obtain ⟨hfirst, hrest⟩ := List.forall_mem_cons.mp h
      rw [List.map_cons, List.mapM_cons, hfirst, ih hrest]
      rfl

-- Reading back follows the numbers down, which grow, and finds what the nodes hold.
theorem statement?_ofForest_of_mem {forest : Forest} {nodes : List Node}
    (hn : nodes ⊆ forest.nodes) :
    ∀ n ∈ nodes, (ofForest forest).statement? n.id = some n.statement := by
  induction nodes using Node.forest_induction with
  | nil => simp
  | cons id keyword arg children rest ihc ihr =>
      obtain ⟨hfirst, hrest⟩ := List.cons_subset.mp hn
      refine List.forall_mem_cons.mpr ⟨?_, ihr hrest⟩
      have hchildren : (children.map Node.id).mapM (fun child =>
          if id < child then (ofForest forest).statement? child else none) =
            some (Node.statementAll children) := by
        refine mapM_eq_statementAll fun child hc => ?_
        have hlt : id < child.id :=
          (Forest.numbered_of_mem_nodes hfirst).id_lt (Node.mem_preorderAll_of_mem hc)
        rw [if_pos hlt]
        exact ihc (fun _ h => Forest.mem_nodes_of_mem_children hfirst h) child hc
      rw [statement?_eq, get?_ofForest, Forest.node?_eq_some_iff.mpr ⟨hfirst, rfl⟩]
      exact congrArg (Option.map (Statement.mk keyword arg)) hchildren

theorem statement?_ofForest (forest : Forest) (id : Nat) :
    (ofForest forest).statement? id = (Statement.preorderAll forest)[id]? := by
  have hlist : Statement.preorderAll forest = forest.nodes.map Node.statement := by
    rw [Forest.nodes, Node.map_statement_preorderAll, Forest.roots, Node.statementAll_numberAll]
  rw [hlist, List.getElem?_map]
  cases h : forest.node? id with
  | none =>
      have hnone : forest.nodes[id]? = none := h
      rw [statement?_eq, get?_ofForest, h, hnone]
      rfl
  | some n =>
      have hsome : forest.nodes[id]? = some n := h
      obtain ⟨hn, rfl⟩ := Forest.node?_eq_some_iff.mp h
      rw [hsome]
      exact statement?_ofForest_of_mem (List.Subset.refl _) n hn

theorem statements?_ofForest (forest : Forest) : (ofForest forest).statements? = some forest := by
  rw [statements?, roots_ofForest, mapM_eq_statementAll
    (statement?_ofForest_of_mem fun _ h => Forest.mem_nodes_of_mem_roots h), Forest.roots,
    Node.statementAll_numberAll]

end Arena

-- What an arena tells that holds a forest and nothing else.
structure Arena.Holds (arena : Arena) (forest : Forest) : Prop where
  -- Reading back from the top gives the forest, and from a number the statement of that number,
  -- where numbers go by the order of the text.
  readBack : arena.statements? = some forest
  numbered : ∀ id, arena.statement? id = (Statement.preorderAll forest)[id]?
  size_eq : arena.size = Statement.sizeAll forest
  -- The two directions of the links between statements agree.
  parent_iff : ∀ i p, arena.parent? i = some p ↔ i ∈ arena.children p
  child_once : ∀ i p, i ∈ arena.children p → (arena.children p).count i = 1 ∧ p < i
  root_iff : ∀ i < arena.size, arena.parent? i = none ↔ i ∈ arena.roots
  -- The nodes that are compiled are the entries.
  entry_eq : ∀ id, arena.get? id = (forest.node? id).map forest.entry
  roots_eq : arena.roots = forest.roots.map Node.id

theorem Arena.holds_ofForest (forest : Forest) : (ofForest forest).Holds forest where
  readBack := statements?_ofForest forest
  numbered := statement?_ofForest forest
  size_eq := size_ofForest forest
  parent_iff _ _ := parent?_ofForest_eq_some_iff
  child_once _ _ := once_of_mem_children
  root_iff _ := parent?_ofForest_eq_none_iff
  entry_eq := get?_ofForest forest
  roots_eq := roots_ofForest forest

-- What a push leaves as it was, and where it puts the new statement.
structure Arena.Extends (before after : Arena) (id : Nat) : Prop where
  id_eq : id = before.size
  roots_eq : after.roots = before.roots ++ [id]
  entry_eq : ∀ i < before.size, after.get? i = before.get? i

theorem Arena.extends_pushRoot (arena : Arena) (s : Statement) :
    arena.Extends (arena.pushRoot s).2 (arena.pushRoot s).1 := by
  rw [pushRoot_eq]
  exact ⟨rfl, rfl, fun i hi => Array.getElem?_append_left hi⟩

theorem Arena.ofDocuments_eq (documents : List Forest) :
    ofDocuments documents = ofForest documents.flatten := by
  rw [ofDocuments, ofForest, pushAll, List.foldl_flatten]
  rfl

theorem RawStatement.statementAll_eq_map (forest : List RawStatement) :
    statementAll forest = forest.map statement := by
  induction forest with
  | nil => rfl
  | cons s rest ih => rw [statementAll, ih, List.map_cons]

theorem RawStatement.flatten_map_statementAll (documents : List (List RawStatement)) :
    (documents.map statementAll).flatten = statementAll documents.flatten := by
  rw [statementAll_eq_map, List.map_flatten, funext statementAll_eq_map]

-- Whatever documents are merged, the arena holds their statements as they are spelled, and the next
-- push only adds to it.
theorem arena_holds_documents (documents : List (List RawStatement)) :
    let arena := Arena.ofDocuments (documents.map RawStatement.statementAll)
    arena.Holds (RawStatement.statementAll documents.flatten) ∧
      arena.statements?.map Statement.rawAll = some documents.flatten ∧
      ∀ s : RawStatement, arena.Extends (arena.pushRoot s.statement).2
        (arena.pushRoot s.statement).1 := by
  intro arena
  have harena : arena = .ofForest (RawStatement.statementAll documents.flatten) := by
    rw [← RawStatement.flatten_map_statementAll]
    exact Arena.ofDocuments_eq _
  have hholds : arena.Holds (RawStatement.statementAll documents.flatten) := by
    rw [harena]
    exact Arena.holds_ofForest _
  refine ⟨hholds, ?_, fun s => arena.extends_pushRoot s.statement⟩
  rw [hholds.readBack, Option.map_some, Statement.rawAll_statementAll]

end YangBinding
