import YangBinding.Proofs.Class.KeyNames
import YangBinding.Proofs.Failure.Faults
import YangBinding.Proofs.Pieces

namespace YangBinding

namespace Text

-- A text with these names in it: blanks, a name, blanks and so on, where two names have at least
-- one blank between them.
inductive Spaced : List String → List Char → Prop
  | blanks {gap : List Char} : (∀ c ∈ gap, isBlank c) → Spaced [] gap
  | name {lead : List Char} {name : String} {names : List String} {rest : List Char} :
      (∀ c ∈ lead, isBlank c) → name ≠ "" → (∀ c ∈ name.toList, ¬ isBlank c) →
      (names ≠ [] → ∃ c ∈ rest.head?, isBlank c) → Spaced names rest →
      Spaced (name :: names) (lead ++ name.toList ++ rest)

-- Blanks part pieces, so those in front of a text add empty pieces only.
theorem filter_pieces_append_of_forall {stop : Char → Bool} {gap : List Char}
    (h : ∀ c ∈ gap, stop c) (cs : List Char) :
    (pieces stop (gap ++ cs)).filter (fun piece => !piece.isEmpty) =
      (pieces stop cs).filter fun piece => !piece.isEmpty := by
  induction gap with
  | nil => rfl
  | cons c gap ih =>
      obtain ⟨hc, hgap⟩ := List.forall_mem_cons.mp h
      rw [List.cons_append, pieces, if_pos hc, List.filter_cons_of_neg (by simp), ih hgap]

-- A run of other characters that a stop or the end of the text follows is a piece.
theorem filter_pieces_append_of_forall_not {stop : Char → Bool} {run rest : List Char}
    (hne : run ≠ []) (hrun : ∀ c ∈ run, ¬ stop c) (hrest : ∀ c ∈ rest.head?, stop c) :
    (pieces stop (run ++ rest)).filter (fun piece => !piece.isEmpty) =
      run :: (pieces stop rest).filter fun piece => !piece.isEmpty := by
  cases rest with
  | nil => simp [pieces_of_forall_not hrun, pieces, hne]
  | cons c rest =>
      have hc : stop c := hrest c rfl
      rw [pieces_append_cons hc, pieces_of_forall_not hrun, pieces, if_pos hc,
        List.singleton_append, List.filter_cons_of_pos (by simpa using hne),
        List.filter_cons_of_neg (by simp)]

theorem Spaced.head_blank {names : List String} {rest : List Char} (h : Spaced names rest)
    (hnames : names ≠ [] → ∃ c ∈ rest.head?, isBlank c) : ∀ c ∈ rest.head?, isBlank c := by
  cases h with
  | blanks hgap => exact fun c hc => hgap c (List.mem_of_mem_head? hc)
  | name =>
      obtain ⟨first, hfirst, hblank⟩ := hnames (by simp)
      intro c hc
      rwa [Option.mem_unique hc hfirst]

theorem words_of_spaced {names : List String} {cs : List Char} (h : Spaced names cs) :
    words (String.ofList cs) = names := by
  unfold words
  rw [String.toList_ofList]
  induction h with
  | blanks hgap =>
      have hall := filter_pieces_append_of_forall hgap []
      rw [List.append_nil] at hall
      simp [hall, pieces]
  | @name lead name names rest hlead hne hname hapart hrest ih =>
      have hchars : name.toList ≠ [] := by simpa using hne
      rw [List.append_assoc, filter_pieces_append_of_forall hlead,
        filter_pieces_append_of_forall_not hchars hname (hrest.head_blank hapart),
        List.map_cons, ih, String.ofList_toList]

-- Every text is laid out so.
theorem exists_spaced (cs : List Char) : ∃ names, Spaced names cs := by
  induction cs with
  | nil => exact ⟨[], .blanks (by simp)⟩
  | cons c cs ih =>
      obtain ⟨names, h⟩ := ih
      by_cases hc : isBlank c
      · cases h with
        | blanks hgap => exact ⟨[], .blanks (List.forall_mem_cons.mpr ⟨hc, hgap⟩)⟩
        | @name lead name names rest hlead hne hname hapart hrest =>
            exact ⟨_, .name (List.forall_mem_cons.mpr ⟨hc, hlead⟩) hne hname hapart hrest⟩
      · -- The character starts a name of its own, or it goes to the name that follows directly.
        have hchar : ∀ d ∈ (String.ofList [c]).toList, ¬ isBlank d := by simpa using hc
        have hempty : ∀ d ∈ ([] : List Char), isBlank d := by simp
        cases h with
        | blanks hgap =>
            have hnew := Spaced.name hempty (by simp) hchar (by simp) (.blanks hgap)
            exact ⟨_, by simpa using hnew⟩
        | @name lead name names rest hlead hne hname hapart hrest =>
            cases lead with
            | nil =>
                have hlonger : ∀ d ∈ (String.ofList (c :: name.toList)).toList, ¬ isBlank d := by
                  rw [String.toList_ofList]
                  exact List.forall_mem_cons.mpr ⟨hc, hname⟩
                have hnew := Spaced.name hempty (by simp) hlonger hapart hrest
                exact ⟨_, by simpa using hnew⟩
            | cons blank lead =>
                have hblank : isBlank blank := hlead blank List.mem_cons_self
                have hnew := Spaced.name hempty (by simp) hchar (fun _ => ⟨blank, rfl, hblank⟩)
                  (.name hlead hne hname hapart hrest)
                exact ⟨_, by simpa using hnew⟩

end Text

-- The first among some nodes with a property.
def FirstAmong (p : Node → Prop) (nodes : List Node) (n : Node) : Prop :=
  ∃ before after, nodes = before ++ n :: after ∧ p n ∧ ∀ earlier ∈ before, ¬ p earlier

theorem firstAmong_of_find? {p : Node → Prop} [DecidablePred p] {nodes : List Node} {n : Node} :
    nodes.find? (fun s => p s) = some n ↔ FirstAmong p nodes n := by
  rw [List.find?_eq_some_iff_append]
  constructor
  · rintro ⟨hn, before, after, hnodes, hbefore⟩
    exact ⟨before, after, hnodes, by simpa using hn, by simpa using hbefore⟩
  · rintro ⟨before, after, hnodes, hn, hbefore⟩
    exact ⟨by simpa using hn, before, after, hnodes, by simpa using hbefore⟩

-- What a key takes over from the statements inside its list: the name, and the type from the first
-- `type` statement of the first leaf of that name. A leaf without one has the unknown type "".
structure DefinesKey (list : Node) (name : String) (key : KeyLeaf) : Prop where
  identifier : key.identifier = name
  type : ∃ leaf, FirstAmong (fun s => s.keyword = .leaf ∧ s.arg = name) list.children leaf ∧
    ((∃ t, FirstAmong (fun s => s.keyword = .type) leaf.children t ∧ key.type = .resolve t.arg) ∨
      ((∀ s ∈ leaf.children, s.keyword ≠ .type) ∧ key.type = .resolve ""))

-- What becomes of a list whose first `key` statement has these names in it.
structure KeysFollow (list : Node) (names : List String) : Prop where
  nameless : names = [] → list.keys = .error (.missingKeyStatement list.arg)
  undefined : ∀ before name after, names = before ++ name :: after →
    (∀ earlier ∈ before, list.hasLeaf earlier) → ¬ list.hasLeaf name →
    list.keys = .error (.missingKeyDefinition list.arg name)
  defined : names ≠ [] → (∀ name ∈ names, list.hasLeaf name) → ∃ keys, list.keys = .ok keys ∧
    keys.map KeyLeaf.identifier = names ∧ List.Forall₂ (DefinesKey list) names keys ∧
    (allStrings keys ↔ ∀ key ∈ keys, key.type.primitive = "String")

namespace Node

theorem valueType_of_first (leaf : Node) :
    (∃ t, FirstAmong (fun s => s.keyword = .type) leaf.children t ∧
      leaf.valueType = .resolve t.arg) ∨
    ((∀ s ∈ leaf.children, s.keyword ≠ .type) ∧ leaf.valueType = .resolve "") := by
  unfold valueType
  cases htype : leaf.find? .type with
  | none =>
      have hnone := List.find?_eq_none.mp htype
      exact .inr ⟨by simpa using hnone, rfl⟩
  | some t => exact .inl ⟨t, firstAmong_of_find?.mp htype, rfl⟩

theorem definesKey_of_keyLeaf {list : Node} {name : String} {key : KeyLeaf}
    (h : list.keyLeaf name = .ok key) : DefinesKey list name key := by
  obtain ⟨leaf, hleaf, rfl⟩ := keyLeaf_eq_ok_iff.mp h
  exact ⟨rfl, leaf, firstAmong_of_find?.mp hleaf, leaf.valueType_of_first⟩

theorem allStrings_iff (keys : List KeyLeaf) :
    allStrings keys ↔ ∀ key ∈ keys, key.type.primitive = "String" := by
  simp [allStrings, ValueType.isString]

theorem keysFollow_of_firstKeyNames (list : Node) : KeysFollow list list.firstKeyNames where
  nameless := by
    intro hnames
    rw [← Except.failure?_eq_some_iff, keys_failure?, keyFault?, if_pos hnames]
  undefined := by
    intro before name after hnames hbefore hname
    have hfirst : list.firstKeyNames.find? (fun name => !list.hasLeaf name) = some name :=
      List.find?_eq_some_iff_append.mpr
        ⟨by simpa using hname, before, after, hnames, by simpa using hbefore⟩
    have hne : list.firstKeyNames ≠ [] := by simp [hnames]
    rw [← Except.failure?_eq_some_iff, keys_failure?, keyFault?, if_neg hne, hfirst]
    rfl
  defined := by
    intro hne hall
    have hfirst : list.firstKeyNames.find? (fun name => !list.hasLeaf name) = none :=
      List.find?_eq_none.mpr (by simpa using hall)
    have hok : list.keys.failure? = none := by
      rw [keys_failure?, keyFault?, if_neg hne, hfirst]
      rfl
    obtain ⟨keys, hkeys⟩ := Except.failure?_eq_none_iff.mp hok
    obtain ⟨key, hkey, hleaves, -⟩ := keys_eq_ok_iff.mp hkeys
    have hnames : list.firstKeyNames = Text.words key.arg := by rw [firstKeyNames, hkey]; rfl
    rw [← hnames] at hleaves
    refine ⟨keys, hkeys, map_identifier_of_mapM_keyLeaf hleaves, ?_, allStrings_iff keys⟩
    exact (Except.mapM_eq_ok_iff.mp hleaves).imp fun _ _ => definesKey_of_keyLeaf

end Node

theorem keys_follow_key_statement (list : Node) :
    ((∀ s ∈ list.children, s.keyword ≠ .key) →
      list.keys = .error (.missingKeyStatement list.arg)) ∧
    ∀ key, FirstAmong (fun s => s.keyword = .key) list.children key →
      (∃ names, Text.Spaced names key.arg.toList) ∧
      ∀ names, Text.Spaced names key.arg.toList → KeysFollow list names := by
  constructor
  · intro hnone
    have hfind : list.find? .key = none := List.find?_eq_none.mpr (by simpa using hnone)
    apply list.keysFollow_of_firstKeyNames.nameless
    rw [Node.firstKeyNames, hfind]
    rfl
  · intro key hfirst
    have hfind : list.find? .key = some key := firstAmong_of_find?.mpr hfirst
    refine ⟨Text.exists_spaced _, fun names hspaced => ?_⟩
    have hwords := Text.words_of_spaced hspaced
    rw [String.ofList_toList] at hwords
    have hnames : list.firstKeyNames = names := by
      rw [Node.firstKeyNames, hfind]
      exact hwords
    exact hnames ▸ list.keysFollow_of_firstKeyNames

-- Names twice and in another order than the leaves, with blanks that are not spaces around them,
-- and a second leaf of a name.
def scatteredKeys : Node :=
  .number 0 (.mk .list "l" [.mk .leaf "a" [.mk .type "uint8" []],
    .mk .key "\u3000b\ta\u00a0 b\n" [], .mk .leaf "b" [.mk .type "string" [], .mk .type "int8" []],
    .mk .key "a" [], .mk .leaf "b" [.mk .type "int16" []]])

theorem keys_follow_scatteredKeys :
    ∃ key, FirstAmong (fun s => s.keyword = .key) scatteredKeys.children key ∧
      Text.Spaced ["b", "a", "b"] key.arg.toList ∧
      (∀ name ∈ ["b", "a", "b"], scatteredKeys.hasLeaf name) ∧
      KeysFollow scatteredKeys ["b", "a", "b"] := by
  have hfind : scatteredKeys.children.find? (fun s => s.keyword = .key) = some _ := rfl
  have hfirst := firstAmong_of_find?.mp hfind
  have hlast : Text.Spaced ["b"] "\u00a0 b\n".toList :=
    @Text.Spaced.name "\u00a0 ".toList "b" [] ['\n'] (by simp [Text.isBlank]) (by decide)
      (by simp [Text.isBlank]) (by simp) (.blanks (by simp [Text.isBlank]))
  have hlater : Text.Spaced ["a", "b"] "\ta\u00a0 b\n".toList :=
    @Text.Spaced.name ['\t'] "a" ["b"] "\u00a0 b\n".toList (by simp [Text.isBlank]) (by decide)
      (by simp [Text.isBlank]) (fun _ => ⟨_, rfl, by decide⟩) hlast
  have hspaced : Text.Spaced ["b", "a", "b"] "\u3000b\ta\u00a0 b\n".toList :=
    @Text.Spaced.name "\u3000".toList "b" ["a", "b"] "\ta\u00a0 b\n".toList (by simp [Text.isBlank])
      (by decide) (by simp [Text.isBlank]) (fun _ => ⟨_, rfl, by decide⟩) hlater
  exact ⟨_, hfirst, hspaced, by decide,
    ((keys_follow_key_statement scatteredKeys).2 _ hfirst).2 _ hspaced⟩

end YangBinding
