import YangBinding.Proofs.Statement.Arena
import Mathlib.Data.List.Forall2

namespace YangBinding

-- The ways to write a statement in JSON. The fields of an object stand in any order and among any
-- others, each name once. What is empty may be left out, in a list only from the end.
inductive Encodes : RawStatement → Json → Prop
  | object {word arg : String} {substatements : List RawStatement} {items : List Json}
      {fields : List (String × Json)} (distinct : (fields.map Prod.fst).Nodup)
      (keyword : fields.lookup "keyword" = some (.str word))
      (argument : fields.lookup "arg" = some (.str arg) ∨ fields.lookup "arg" = none ∧ arg = "")
      (block : fields.lookup "substmts" = some (.arr items))
      (inside : List.Forall₂ Encodes substatements items) :
      Encodes (.mk word arg substatements) (.obj fields)
  | objectWithoutBlock {word arg : String} {fields : List (String × Json)}
      (distinct : (fields.map Prod.fst).Nodup)
      (keyword : fields.lookup "keyword" = some (.str word))
      (argument : fields.lookup "arg" = some (.str arg) ∨ fields.lookup "arg" = none ∧ arg = "")
      (block : fields.lookup "substmts" = none) : Encodes (.mk word arg []) (.obj fields)
  | list {word arg : String} {substatements : List RawStatement} {items : List Json}
      (inside : List.Forall₂ Encodes substatements items) :
      Encodes (.mk word arg substatements) (.arr [.str word, .str arg, .arr items])
  | listWithoutBlock {word arg : String} :
      Encodes (.mk word arg []) (.arr [.str word, .str arg])
  | listOfWord {word : String} : Encodes (.mk word "" []) (.arr [.str word])

namespace Statement

open Json (Trail Refusal)

-- How a field of a draft ends up: as it is held when the field is not given, else as `read` from
-- what is given, and then nothing may be held before.
def Settles {α : Type} (read : Json → Except Refusal α) (held : Option α) (given : Option Json)
    (result : Option α) : Prop :=
  match given with
  | none => held = result
  | some value => held = none ∧ ∃ a, read value = .ok a ∧ result = some a

section Settles

variable {α : Type} {read : Json → Except Refusal α} {held result : Option α} {name : String}
  {value : Json} {rest : List (String × Json)}

theorem Settles.read_first (hn : name ∉ rest.map Prod.fst)
    (h : Settles read held (((name, value) :: rest).lookup name) result) :
    held = none ∧ ∃ a, read value = .ok a ∧ Settles read (some a) (rest.lookup name) result := by
  rw [List.lookup_cons_self] at h
  obtain ⟨hheld, a, hread, rfl⟩ := h
  have hrest : rest.lookup name = none := by
    rw [List.lookup_eq_none_iff]
    intro field hf
    have hne : name ≠ field.1 := fun heq => hn (heq ▸ List.mem_map_of_mem hf)
    exact bne_iff_ne.mpr hne
  rw [hrest]
  exact ⟨hheld, a, hread, rfl⟩

theorem Settles.pass_first {other : String} (hne : name ≠ other)
    (h : Settles read held (((other, value) :: rest).lookup name) result) :
    Settles read held (rest.lookup name) result := by
  rwa [List.lookup_cons, beq_false_of_ne hne] at h

end Settles

-- The fields are read in their own order, and what comes out does not depend on it.
theorem ofFields_eq_ok {trail : Trail} (draft : Draft) {fields : List (String × Json)}
    {word : String} {arg : Option String} {block : Option (List Statement)}
    (hn : (fields.map Prod.fst).Nodup)
    (hk : Settles (textOfJson (.field "keyword" :: trail)) draft.keyword
      (fields.lookup "keyword") (some word))
    (ha : Settles (textOfJson (.field "arg" :: trail)) draft.arg (fields.lookup "arg") arg)
    (hb : Settles (listOfJson (.field "substmts" :: trail)) draft.substatements
      (fields.lookup "substmts") block) :
    ofFields trail draft fields = .ok (.mk (.ofText word) (arg.getD "") (block.getD [])) := by
  induction fields generalizing draft with
  | nil =>
      obtain ⟨keyword, argument, substatements⟩ := draft
      simp only [Settles, List.lookup_nil] at hk ha hb
      subst hk ha hb
      rfl
  | cons field rest ih =>
      obtain ⟨name, value⟩ := field
      obtain ⟨hfirst, hrest⟩ := List.nodup_cons.mp hn
      by_cases hkeyword : name = "keyword"
      · subst hkeyword
        obtain ⟨hheld, word', hread, hk⟩ := hk.read_first hfirst
        have ha := ha.pass_first (by decide)
        have hb := hb.pass_first (by decide)
        rw [ofFields, if_pos rfl, hheld, Option.isSome_none, if_neg Bool.false_ne_true, hread]
        exact ih _ hrest hk ha hb
      have hk := hk.pass_first (Ne.symm hkeyword)
      rw [ofFields, if_neg hkeyword]
      by_cases harg : name = "arg"
      · subst harg
        obtain ⟨hheld, arg', hread, ha⟩ := ha.read_first hfirst
        have hb := hb.pass_first (by decide)
        rw [if_pos rfl, hheld, Option.isSome_none, if_neg Bool.false_ne_true, hread]
        exact ih _ hrest hk ha hb
      have ha := ha.pass_first (Ne.symm harg)
      rw [if_neg harg]
      by_cases hblock : name = "substmts"
      · subst hblock
        obtain ⟨hheld, block', hread, hb⟩ := hb.read_first hfirst
        rw [if_pos rfl, hheld, Option.isSome_none, if_neg Bool.false_ne_true, hread]
        exact ih _ hrest hk ha hb
      rw [if_neg hblock]
      exact ih _ hrest hk ha (hb.pass_first (Ne.symm hblock))

theorem ofFields_empty_eq_ok {trail : Trail} {fields : List (String × Json)} {word arg : String}
    {block : Option (List Statement)} (hn : (fields.map Prod.fst).Nodup)
    (hk : fields.lookup "keyword" = some (.str word))
    (ha : fields.lookup "arg" = some (.str arg) ∨ fields.lookup "arg" = none ∧ arg = "")
    (hb : Settles (listOfJson (.field "substmts" :: trail)) none (fields.lookup "substmts")
      block) :
    ofFields trail .empty fields = .ok (.mk (.ofText word) arg (block.getD [])) := by
  have hkeyword : Settles (textOfJson (.field "keyword" :: trail)) none
      (fields.lookup "keyword") (some word) := by
    rw [hk]
    exact ⟨rfl, word, rfl, rfl⟩
  rcases ha with ha | ⟨ha, rfl⟩
  · have harg : Settles (textOfJson (.field "arg" :: trail)) none (fields.lookup "arg")
        (some arg) := by
      rw [ha]
      exact ⟨rfl, arg, rfl, rfl⟩
    exact ofFields_eq_ok .empty hn hkeyword harg hb
  · have harg : Settles (textOfJson (.field "arg" :: trail)) none (fields.lookup "arg") none := by
      rw [ha]
      exact rfl
    exact ofFields_eq_ok .empty hn hkeyword harg hb

-- What is inside a statement reads back from any place in a document.
def BlockReads (substatements : List RawStatement) : Prop :=
  ∀ items, List.Forall₂ Encodes substatements items → ∀ trail index,
    allOfJson trail index items = .ok (RawStatement.statementAll substatements)

theorem ofJson_of_encodes {word arg : String} {substatements : List RawStatement}
    (hblock : BlockReads substatements) {value : Json}
    (h : Encodes (.mk word arg substatements) value) (trail : Trail) :
    ofJson trail value = .ok (RawStatement.mk word arg substatements).statement := by
  rw [RawStatement.statement]
  cases h with
  | @object _ _ _ items fields distinct keyword argument block inside =>
      have hb : Settles (listOfJson (.field "substmts" :: trail)) none
          (fields.lookup "substmts") (some (RawStatement.statementAll substatements)) := by
        rw [block]
        exact ⟨rfl, _, hblock items inside _ 0, rfl⟩
      exact ofFields_empty_eq_ok distinct keyword argument hb
  | @objectWithoutBlock _ _ fields distinct keyword argument block =>
      have hb : Settles (listOfJson (.field "substmts" :: trail)) none
          (fields.lookup "substmts") none := by
        rw [block]
        exact rfl
      exact ofFields_empty_eq_ok distinct keyword argument hb
  | @list _ _ _ items inside =>
      have hitems : listOfJson (.index 2 :: trail) (.arr items) =
          .ok (RawStatement.statementAll substatements) := hblock items inside _ 0
      rw [ofJson, ofItems]
      simp only [textOfJson, hitems]
      rfl
  | listWithoutBlock => rfl
  | listOfWord => rfl

theorem blockReads (forest : List RawStatement) : BlockReads forest := by
  induction forest using RawStatement.forest_induction with
  | nil =>
      intro items h trail index
      cases h
      rfl
  | cons word arg substatements rest ihs ihr =>
      intro items h trail index
      cases h with
      | @cons _ value _ more hfirst hrest =>
          rw [allOfJson, ofJson_of_encodes ihs hfirst, RawStatement.statementAll]
          have hmore := ihr more hrest trail (index + 1)
          simp only [hmore]
          rfl

-- A list that starts with a word holds no statements, and an object is no list.
theorem listOfJson_of_encodes {s : RawStatement} {value : Json} (h : Encodes s value)
    (trail : Trail) : ∃ refusal, listOfJson trail value = .error refusal := by
  cases h with
  | object => exact ⟨_, rfl⟩
  | objectWithoutBlock => exact ⟨_, rfl⟩
  | list => exact ⟨_, rfl⟩
  | listWithoutBlock => exact ⟨_, rfl⟩
  | listOfWord => exact ⟨_, rfl⟩

theorem documentOfJson_of_forall₂ {forest : List RawStatement} {items : List Json}
    (h : List.Forall₂ Encodes forest items) :
    documentOfJson (.arr items) = .ok (RawStatement.statementAll forest) := by
  have hread : listOfJson [] (.arr items) = .ok (RawStatement.statementAll forest) :=
    blockReads forest items h [] 0
  rw [documentOfJson, hread]

theorem documentOfJson_of_encodes {s : RawStatement} {value : Json} (h : Encodes s value) :
    documentOfJson value = .ok [s.statement] := by
  obtain ⟨refusal, hlist⟩ := listOfJson_of_encodes h []
  have hread : ofJson [] value = .ok s.statement := by
    cases s with
    | mk word arg substatements => exact ofJson_of_encodes (blockReads substatements) h []
  rw [documentOfJson, hlist, hread]

end Statement

theorem Encodes.forall₂_allToJson (forest : List RawStatement) :
    List.Forall₂ Encodes forest (Statement.allToJson (RawStatement.statementAll forest)) := by
  induction forest using RawStatement.forest_induction with
  | nil => exact .nil
  | cons word arg substatements rest ihs ihr =>
      refine .cons ?_ ihr
      rw [RawStatement.statement, Statement.toJson, Keyword.text_ofText]
      exact .object (by simp) rfl (.inl rfl) rfl ihs

theorem Arena.ofJson_eq_ok {value : Json} {forest : List RawStatement}
    (h : Statement.documentOfJson value = .ok (RawStatement.statementAll forest)) :
    ∃ arena, ofJson value = .ok arena ∧
      arena.statements?.map Statement.rawAll = some forest := by
  refine ⟨ofForest (RawStatement.statementAll forest), ?_, ?_⟩
  · rw [ofJson, h]
    rfl
  · rw [statements?_ofForest, Option.map_some, Statement.rawAll_statementAll]

-- A list of encodings loads as the statements they encode and a single one as that statement,
-- whatever form each statement at any depth has. Every list of statements has encodings.
theorem loading_undoes_encoding :
    (∀ (forest : List RawStatement) (items : List Json), List.Forall₂ Encodes forest items →
      ∃ arena, Arena.ofJson (.arr items) = .ok arena ∧
        arena.statements?.map Statement.rawAll = some forest) ∧
    (∀ (s : RawStatement) (value : Json), Encodes s value →
      ∃ arena, Arena.ofJson value = .ok arena ∧
        arena.statements?.map Statement.rawAll = some [s]) ∧
    ∀ forest : List RawStatement, ∃ items, List.Forall₂ Encodes forest items := by
  refine ⟨fun forest items h => ?_, fun s value h => ?_, fun forest => ?_⟩
  · exact Arena.ofJson_eq_ok (Statement.documentOfJson_of_forall₂ h)
  · exact Arena.ofJson_eq_ok (Statement.documentOfJson_of_encodes h)
  · exact ⟨_, Encodes.forall₂_allToJson forest⟩

-- A module with statements of two depths in it, where the forms take turns.
def turnsForest : List RawStatement :=
  [.mk "module" "m" [.mk "container" "" [.mk "leaf" "x" [], .mk "choice" "" []]]]

def turnsItems : List Json :=
  [.arr [.str "module", .str "m", .arr [.obj [
    ("line", .int 7),
    ("substmts", .arr [.arr [.str "leaf", .str "x"], .arr [.str "choice"]]),
    ("keyword", .str "container")]]]]

theorem turnsForest_encodes : List.Forall₂ Encodes turnsForest turnsItems := by
  have hinside : List.Forall₂ Encodes [.mk "leaf" "x" [], .mk "choice" "" []]
      [.arr [.str "leaf", .str "x"], .arr [.str "choice"]] :=
    .cons .listWithoutBlock (.cons .listOfWord .nil)
  exact .cons (.list (.cons (.object (by simp) rfl (.inr ⟨rfl, rfl⟩) rfl hinside) .nil)) .nil

theorem loading_undoes_turnsItems :
    List.Forall₂ Encodes turnsForest turnsItems ∧
      (∃ arena, Arena.ofJson (.arr turnsItems) = .ok arena ∧
        arena.statements?.map Statement.rawAll = some turnsForest) ∧
      ∃ arena, Arena.ofJson (.arr [.str "leaf", .str "x"]) = .ok arena ∧
        arena.statements?.map Statement.rawAll = some [.mk "leaf" "x" []] :=
  ⟨turnsForest_encodes, loading_undoes_encoding.1 _ _ turnsForest_encodes,
    loading_undoes_encoding.2.1 _ _ .listWithoutBlock⟩

end YangBinding
