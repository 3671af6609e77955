import YangBinding.Proofs.Discreet

namespace YangBinding

namespace Node

mutual

-- What counts of a node: it is without numbers, and holds nothing inside statements that are not
-- looked into.
def bare : Node → Node
  | .mk _ keyword arg children =>
    .mk 0 keyword arg (if keyword.isEntered then bareAll children else [])

def bareAll : List Node → List Node
  | [] => []
  | n :: rest => bare n :: bareAll rest

end

theorem bareAll_eq_map (nodes : List Node) : bareAll nodes = nodes.map bare := by
  induction nodes with
  | nil => rfl
  | cons n rest ih => rw [bareAll, ih, List.map_cons]

@[simp] theorem keyword_bare (n : Node) : n.bare.keyword = n.keyword := by
  cases n with
  | mk id keyword arg children => rw [bare, Node.keyword, Node.keyword]

@[simp] theorem arg_bare (n : Node) : n.bare.arg = n.arg := by
  cases n with
  | mk id keyword arg children => rw [bare, Node.arg, Node.arg]

theorem children_bare {n : Node} (h : n.keyword.isEntered) :
    n.bare.children = n.children.map bare := by
  cases n with
  | mk id keyword arg children =>
      have hkeyword : keyword.isEntered := h
      rw [bare, Node.children, Node.children, if_pos hkeyword, bareAll_eq_map]

theorem bareAll_numberAll (forest : List Statement) (first other : Nat) :
    bareAll (numberAll first forest) = bareAll (numberAll other forest) := by
  induction forest using Statement.forest_induction generalizing first other with
  | nil => rfl
  | cons keyword arg substatements rest ihs ihr =>
      simp only [numberAll, number, bareAll, bare]
      rw [ihs (first + 1) (other + 1), ihr]

theorem bare_discreet : Discreet bare where
  keyword_eq := keyword_bare
  arg_eq := arg_bare
  children_eq h _ := children_bare h
  filter_eq counts h _ := by
    rw [children_bare h, List.filter_map]
    simp only [Function.comp_def, keyword_bare]

theorem flag_bare {n : Node} (h : n.keyword.isEntered) (keyword : Keyword) :
    n.bare.flag keyword = n.flag keyword := by
  rw [flag, find?, children_bare h, List.find?_map, Option.any_map, flag, find?]
  simp only [Function.comp_def, keyword_bare, arg_bare]

end Node

def Drawing.unnumbered (drawing : Drawing) : Drawing :=
  { drawing with reports := drawing.reports.map Report.unnumbered }

namespace Node

section Schema

theorem schemaRecord_bare {n : Node} (h : n.keyword.isEntered) {parent : Option Node}
    (hparent : ∀ p ∈ parent, p.keyword.isEntered) (namespaceUri tagPath : String) :
    n.bare.schemaRecord (parent.map bare) namespaceUri tagPath =
      n.schemaRecord parent namespaceUri tagPath := by
  unfold schemaRecord occurs
  rw [bare_discreet.isSingle_eq hparent, bare_discreet.insideClass_eq, keyword_bare, flag_bare h,
    flag_bare h, bare_discreet.dataNames_eq h]

theorem drawAll_bareAll (namespaceUri tagPath : String) {parent : Node}
    (h : parent.keyword.isEntered) (nodes : List Node) (drawing : Drawing) :
    drawAll namespaceUri tagPath parent.bare (bareAll nodes) drawing.unnumbered =
      (drawAll namespaceUri tagPath parent nodes drawing).unnumbered := by
  induction nodes using forest_induction generalizing tagPath parent drawing with
  | nil => rfl
  | cons id keyword arg children rest ihc ihr =>
      have hstep : draw namespaceUri tagPath parent.bare (bare (.mk id keyword arg children))
          drawing.unnumbered =
          (draw namespaceUri tagPath parent (.mk id keyword arg children) drawing).unnumbered := by
        by_cases hk : keyword.inSchema
        · have hentered : keyword.isEntered := Keyword.isEntered_of_inSchema hk
          have hrecord := @schemaRecord_bare (.mk id keyword arg children) hentered (some parent)
            (by simpa using h) namespaceUri (tagPath ++ arg ++ "/")
          have hinner := @ihc (tagPath ++ arg ++ "/") (.mk id keyword arg children) hentered
          rw [bare, if_pos hentered, Option.map_some] at hrecord
          rw [bare, if_pos hentered] at hinner ⊢
          rw [draw, draw, if_pos hk, if_pos hk]
          dsimp only
          rw [hrecord]
          have htable : drawing.unnumbered.table = drawing.table := rfl
          rw [htable]
          cases drawing.table.insert? ((Node.mk id keyword arg children).schemaRecord (some parent)
              namespaceUri (tagPath ++ arg ++ "/")) with
          | none => simp [Drawing.unnumbered, Report.unnumbered]
          | some table => exact hinner { drawing with table := table }
        · rw [bare, draw, draw, if_neg hk, if_neg hk]
      rw [bareAll, drawAll, drawAll, hstep]
      exact ihr tagPath h _

theorem schema_bare {n : Node} (h : n.keyword.isEntered) (namespaceUri base : String) :
    n.bare.schema none namespaceUri base = (n.schema none namespaceUri base).unnumbered := by
  have hrecord := @schemaRecord_bare n h none (by simp) namespaceUri base
  have hinner := drawAll_bareAll namespaceUri base h n.children
    ⟨⟨[n.schemaRecord none namespaceUri base]⟩, []⟩
  rw [Option.map_none] at hrecord
  rw [schema, children_bare h, ← bareAll_eq_map, hrecord]
  exact hinner

end Schema

theorem schemaEvents_bare (root : Node) :
    root.bare.schemaEvents.map Event.unnumbered = root.schemaEvents.map Event.unnumbered := by
  unfold schemaEvents
  rw [keyword_bare]
  split
  · rename_i hk
    rw [schema_bare (by rw [hk]; rfl), Drawing.unnumbered, List.map_map, List.map_map,
      List.map_map]
    rfl
  · rfl

theorem rootEvents_bare (root : Node) (withSchema : Bool) :
    (root.bare.rootEvents withSchema).map Event.unnumbered =
      (root.rootEvents withSchema).map Event.unnumbered := by
  cases withSchema with
  | false => exact bare_discreet.rootEvents_false_eq root
  | true =>
      rw [rootEvents_true, rootEvents_true, List.map_append, List.map_append,
        bare_discreet.rootEvents_false_eq, schemaEvents_bare]

theorem compileModule_bare {n : Node} (hk : n.keyword = .module) (withSchema : Bool) :
    n.bare.compileModule withSchema none = n.compileModule withSchema none := by
  rw [bare_discreet.compileModule_eq hk]
  cases hm : n.compileModule withSchema none with
  | error e => rfl
  | ok m =>
      obtain ⟨_, _, _, -, -, -, rfl⟩ := compileModule_eq_ok_iff.mp hm
      have hn : n.keyword.isEntered := by rw [hk]; rfl
      rw [Except.map, CompiledModule.redrawn, schema_bare hn]
      cases withSchema with
      | false => rfl
      | true => rfl

theorem compileRoot_bare (root : Node) (withSchema : Bool) :
    root.bare.compileRoot withSchema = root.compileRoot withSchema := by
  unfold compileRoot
  rw [keyword_bare]
  split
  · rename_i hk
    rw [compileModule_bare hk]
  · rfl
  · rfl

theorem mapM_compileRoot_bareAll (nodes : List Node) (withSchema : Bool) :
    ((bareAll nodes).mapM fun root => root.compileRoot withSchema) =
      nodes.mapM fun root => root.compileRoot withSchema := by
  rw [bareAll_eq_map, List.mapM_map]
  simp only [Function.comp_def, compileRoot_bare]

theorem told_bareAll (claimed : List String) (nodes : List Node) (withSchema : Bool) :
    told claimed ((bareAll nodes).flatMap fun root => root.rootEvents withSchema) =
      told claimed (nodes.flatMap fun root => root.rootEvents withSchema) := by
  rw [← told_unnumbered claimed, ← told_unnumbered claimed (nodes.flatMap _), List.map_flatMap,
    List.map_flatMap, bareAll_eq_map, List.flatMap_map]
  simp only [rootEvents_bare]

end Node

end YangBinding
