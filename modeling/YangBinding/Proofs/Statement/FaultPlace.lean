import YangBinding.Proofs.Statement.Encoding

namespace YangBinding

open Json (Segment Trail Refusal)

-- A statement object apart from its keyword and its block: each name stands once, and an argument
-- that is given is a text.
structure PlainFields (fields : List (String × Json)) : Prop where
  distinct : (fields.map Prod.fst).Nodup
  argument : fields.lookup "arg" = none ∨ ∃ arg, fields.lookup "arg" = some (.str arg)

-- Values that are all statements.
def AllEncode (items : List Json) : Prop := ∀ item ∈ items, ∃ s, Encodes s item

-- Statement objects in which one keyword is `found`, which is no text, and all else is as it should
-- be. The numbers tell the way to it, from block to block.
inductive KeywordFault (found : Json) : List Nat → Json → Prop
  | here {fields : List (String × Json)} (plain : PlainFields fields)
      (keyword : fields.lookup "keyword" = some found) (noText : ∀ word, found ≠ .str word)
      (block : fields.lookup "substmts" = none ∨
        ∃ items, fields.lookup "substmts" = some (.arr items) ∧ AllEncode items) :
      KeywordFault found [] (.obj fields)
  | inside {fields : List (String × Json)} {word : String} {before after : List Json}
      {item : Json} {way : List Nat} (plain : PlainFields fields)
      (keyword : fields.lookup "keyword" = some (.str word))
      (block : fields.lookup "substmts" = some (.arr (before ++ item :: after)))
      (others : AllEncode (before ++ after)) (fault : KeywordFault found way item) :
      KeywordFault found (before.length :: way) (.obj fields)

-- The path from a statement to the keyword that a way leads to.
def keywordPath : List Nat → List Segment
  | [] => [.field "keyword"]
  | index :: way => .field "substmts" :: .index index :: keywordPath way

-- Documents with such a statement, alone or in a list, and the path to the keyword.
inductive DocumentFault (found : Json) : List Segment → Json → Prop
  | one {way : List Nat} {value : Json} (fault : KeywordFault found way value) :
      DocumentFault found (keywordPath way) value
  | many {before after : List Json} {item : Json} {way : List Nat}
      (others : AllEncode (before ++ after)) (fault : KeywordFault found way item) :
      DocumentFault found (.index before.length :: keywordPath way) (.arr (before ++ item :: after))

theorem AllEncode.exists_forall₂ {items : List Json} (h : AllEncode items) :
    ∃ forest, List.Forall₂ Encodes forest items := by
  induction items with
  | nil => exact ⟨[], .nil⟩
  | cons item items ih =>
      obtain ⟨⟨s, hs⟩, hitems⟩ := List.forall_mem_cons.mp h
      obtain ⟨forest, hforest⟩ := ih hitems
      exact ⟨s :: forest, .cons hs hforest⟩

namespace Statement

-- How reading one field of a statement ends, where a draft holds `held` of it: it is not given, it
-- is read, or it is refused.
inductive Fate {α : Type} (read : Json → Except Refusal α) (held : Option α)
    (given : Option Json) : Option Refusal → Prop
  | absent : given = none → Fate read held given none
  | read {value a} : held = none → given = some value → read value = .ok a →
      Fate read held given none
  | refused {value refusal} : held = none → given = some value → read value = .error refusal →
      Fate read held given (some refusal)

section Fate

variable {α : Type} {read : Json → Except Refusal α} {held : Option α} {name : String}
  {value : Json} {rest : List (String × Json)} {fate : Option Refusal}

theorem Fate.of_first (h : Fate read held (((name, value) :: rest).lookup name) fate) :
    held = none ∧ ((∃ a, read value = .ok a ∧ fate = none) ∨
      ∃ refusal, read value = .error refusal ∧ fate = some refusal) := by
  rw [List.lookup_cons_self] at h
  cases h with
  | absent hgiven => simp at hgiven
  | read hheld hgiven hread =>
      obtain rfl := Option.some.inj hgiven
      exact ⟨hheld, .inl ⟨_, hread, rfl⟩⟩
  | refused hheld hgiven hread =>
      obtain rfl := Option.some.inj hgiven
      exact ⟨hheld, .inr ⟨_, hread, rfl⟩⟩

theorem Fate.of_other {other : String} (hne : name ≠ other)
    (h : Fate read held (((other, value) :: rest).lookup name) fate) :
    Fate read held (rest.lookup name) fate := by
  rwa [List.lookup_cons, beq_false_of_ne hne] at h

-- A name that stands once is not given again.
theorem Fate.absent_of_notMem (hn : name ∉ rest.map Prod.fst) (held : Option α) :
    Fate read held (rest.lookup name) none := by
  refine .absent (List.lookup_eq_none_iff.mpr fun field hf => bne_iff_ne.mpr ?_)
  exact fun heq => hn (heq ▸ List.mem_map_of_mem hf)

theorem Fate.eq_none_of_absent (h : Fate read held none fate) : fate = none := by
  cases h with
  | absent => rfl
  | read => rfl
  | refused _ hgiven => simp at hgiven

end Fate

-- The refusal of one field is that of the statement, wherever the field stands.
theorem ofFields_eq_error {trail : Trail} (draft : Draft) {fields : List (String × Json)}
    {keywordFate argFate blockFate : Option Refusal} {refusal : Refusal}
    (hn : (fields.map Prod.fst).Nodup)
    (hk : Fate (textOfJson (.field "keyword" :: trail)) draft.keyword
      (fields.lookup "keyword") keywordFate)
    (ha : Fate (textOfJson (.field "arg" :: trail)) draft.arg (fields.lookup "arg") argFate)
    (hb : Fate (listOfJson (.field "substmts" :: trail)) draft.substatements
      (fields.lookup "substmts") blockFate)
    (hsome : some refusal ∈ [keywordFate, argFate, blockFate])
    (honly : ∀ r, some r ∈ [keywordFate, argFate, blockFate] → r = refusal) :
    ofFields trail draft fields = .error refusal := by
  induction fields generalizing draft keywordFate argFate blockFate with
  | nil =>
      rw [hk.eq_none_of_absent, ha.eq_none_of_absent, hb.eq_none_of_absent] at hsome
      simp at hsome
  | cons field rest ih =>
      obtain ⟨name, value⟩ := field
      obtain ⟨hfirst, hrest⟩ := List.nodup_cons.mp hn
      by_cases hkeyword : name = "keyword"
      · subst hkeyword
        have ha := ha.of_other (by decide)
        have hb := hb.of_other (by decide)
        obtain ⟨hheld, hread⟩ := hk.of_first
        rw [ofFields, if_pos rfl, hheld, Option.isSome_none, if_neg Bool.false_ne_true]
        rcases hread with ⟨word, hread, rfl⟩ | ⟨refused, hread, rfl⟩
        · rw [hread]
          exact ih _ hrest (.absent_of_notMem hfirst _) ha hb hsome honly
        · rw [hread, honly refused (by simp)]
          rfl
      have hk := hk.of_other (Ne.symm hkeyword)
      rw [ofFields, if_neg hkeyword]
      by_cases harg : name = "arg"
      · subst harg
        have hb := hb.of_other (by decide)
        obtain ⟨hheld, hread⟩ := ha.of_first
        rw [if_pos rfl, hheld, Option.isSome_none, if_neg Bool.false_ne_true]
        rcases hread with ⟨arg, hread, rfl⟩ | ⟨refused, hread, rfl⟩
        · rw [hread]
          exact ih _ hrest hk (.absent_of_notMem hfirst _) hb hsome honly
        · rw [hread, honly refused (by simp)]
          rfl
      have ha := ha.of_other (Ne.symm harg)
      rw [if_neg harg]
      by_cases hblock : name = "substmts"
      · subst hblock
        obtain ⟨hheld, hread⟩ := hb.of_first
        rw [if_pos rfl, hheld, Option.isSome_none, if_neg Bool.false_ne_true]
        rcases hread with ⟨block, hread, rfl⟩ | ⟨refused, hread, rfl⟩
        · rw [hread]
          exact ih _ hrest hk ha (.absent_of_notMem hfirst _) hsome honly
        · rw [hread, honly refused (by simp)]
          rfl
      rw [if_neg hblock]
      exact ih _ hrest hk ha (hb.of_other (Ne.symm hblock)) hsome honly

theorem fate_of_argument {fields : List (String × Json)} (h : PlainFields fields)
    (trail : Trail) :
    Fate (textOfJson (.field "arg" :: trail)) none (fields.lookup "arg") none := by
  rcases h.argument with habsent | ⟨arg, hgiven⟩
  · exact .absent habsent
  · exact .read rfl hgiven rfl

theorem listOfJson_of_allEncode {items : List Json} (h : AllEncode items) (trail : Trail) :
    ∃ statements, listOfJson trail (.arr items) = .ok statements := by
  obtain ⟨forest, hforest⟩ := h.exists_forall₂
  exact ⟨_, blockReads forest items hforest trail 0⟩

-- The first refusal in a list is that of the list.
theorem allOfJson_eq_error {trail : Trail} {before : List Json} (h : AllEncode before)
    {index : Nat} {item : Json} {refusal : Refusal}
    (hitem : ofJson (.index (index + before.length) :: trail) item = .error refusal)
    (after : List Json) :
    allOfJson trail index (before ++ item :: after) = .error refusal := by
  induction before generalizing index with
  | nil =>
      rw [List.nil_append, allOfJson]
      rw [List.length_nil, Nat.add_zero] at hitem
      rw [hitem]
      rfl
  | cons first before ih =>
      obtain ⟨⟨s, hs⟩, hbefore⟩ := List.forall_mem_cons.mp h
      rw [List.length_cons, Nat.add_comm before.length 1, ← Nat.add_assoc] at hitem
      have hrest := ih hbefore hitem
      have hfirst : ofJson (.index index :: trail) first = .ok s.statement := by
        cases s with
        | mk word arg substatements => exact ofJson_of_encodes (blockReads substatements) hs _
      rw [List.cons_append, allOfJson, hfirst]
      simp only [hrest]
      rfl

-- A statement that is read for itself is refused at the place of the keyword.
theorem ofJson_of_keywordFault {found value : Json} {way : List Nat}
    (h : KeywordFault found way value) (trail : Trail) :
    ofJson trail value =
      .error ⟨(keywordPath way).reverse ++ trail, .wrongType found "a string", none⟩ := by
  induction h generalizing trail with
  | @here fields plain keyword noText block =>
      have hread : textOfJson (.field "keyword" :: trail) found =
          .error ⟨.field "keyword" :: trail, .wrongType found "a string", none⟩ := by
        cases found with
        | str word => exact absurd rfl (noText word)
        | _ => rfl
      have hb : Fate (listOfJson (.field "substmts" :: trail)) none
          (fields.lookup "substmts") none := by
        rcases block with habsent | ⟨items, hgiven, hitems⟩
        · exact .absent habsent
        · obtain ⟨statements, hlist⟩ := listOfJson_of_allEncode hitems (.field "substmts" :: trail)
          exact .read rfl hgiven hlist
      have herror : ofFields trail .empty fields =
          .error ⟨.field "keyword" :: trail, .wrongType found "a string", none⟩ :=
        ofFields_eq_error .empty plain.distinct (.refused rfl keyword hread)
          (fate_of_argument plain trail) hb (by simp) (by simp)
      rw [ofJson, herror]
      rfl
  | @inside fields word before after item way plain keyword block others fault ih =>
      have hbefore : AllEncode before := fun item hi => others item (List.mem_append_left _ hi)
      have hitem := ih (.index before.length :: .field "substmts" :: trail)
      rw [← Nat.zero_add before.length] at hitem
      have hread := allOfJson_eq_error hbefore hitem after
      have hk : Fate (textOfJson (.field "keyword" :: trail)) none (fields.lookup "keyword") none :=
        .read rfl keyword rfl
      have herror : ofFields trail .empty fields = .error
          ⟨(keywordPath way).reverse ++ .index (0 + before.length) :: .field "substmts" :: trail,
            .wrongType found "a string", none⟩ :=
        ofFields_eq_error .empty plain.distinct hk (fate_of_argument plain trail)
          (.refused rfl block hread) (by simp) (by simp)
      rw [ofJson, herror]
      simp [keywordPath]

-- A list of statements is no statement itself, which would start with a text.
theorem ofItems_of_first {first : Json} (h : ∀ word, first ≠ .str word) (rest : List Json)
    (trail : Trail) : ∃ refusal, ofItems trail (first :: rest) = .error refusal := by
  cases first with
  | str word => exact absurd rfl (h word)
  | _ => exact ⟨_, rfl⟩

theorem documentOfJson_eq_error {value : Json} {refusal other : Refusal}
    (hlist : listOfJson [] value = .error refusal) (hone : ofJson [] value = .error other) :
    documentOfJson value = .error ⟨[], .noShape documentShape, none⟩ := by
  rw [documentOfJson, hlist, hone]
  rfl

theorem refusalMessage_eq (origin : String) (refusal : Refusal) :
    refusalMessage origin refusal = "invalid statement tree in " ++ origin ++
      (": at JSON path " ++ Trail.text refusal.trail ++ " → " ++ refusal.message) := by
  have hassoc (start path arrow message : String) : start ++ origin ++ ": at JSON path " ++ path ++
      arrow ++ message = start ++ origin ++ (": at JSON path " ++ path ++ arrow ++ message) := by
    simp only [String.append_assoc]
  exact hassoc _ _ _ _

theorem refusalMessage_noShape (origin : String) :
    refusalMessage origin ⟨[], .noShape documentShape, none⟩ =
      "invalid statement tree in " ++ origin ++
        ": at JSON path . → data did not match any variant of untagged enum RawDocument" := by
  have htail : ": at JSON path " ++ Trail.text [] ++ " → " ++
      Refusal.message ⟨[], .noShape documentShape, none⟩ =
      ": at JSON path . → data did not match any variant of untagged enum RawDocument" := by
    decide +kernel
  exact (refusalMessage_eq origin _).trans
    (congrArg (("invalid statement tree in " ++ origin) ++ ·) htail)

end Statement

theorem Encodes.ne_str {s : RawStatement} {value : Json} (h : Encodes s value) (word : String) :
    value ≠ .str word := by
  rintro rfl
  cases h

theorem KeywordFault.exists_fields {found value : Json} {way : List Nat}
    (h : KeywordFault found way value) : ∃ fields, value = .obj fields := by
  cases h with
  | here => exact ⟨_, rfl⟩
  | inside => exact ⟨_, rfl⟩

-- The place is known to the reader of the shape that a document has.
def PlaceKnown (refusal : Refusal) : Json → Prop
  | .arr items => Statement.listOfJson [] (.arr items) = .error refusal
  | value => Statement.ofJson [] value = .error refusal

theorem DocumentFault.placeKnown {found value : Json} {path : List Segment}
    (h : DocumentFault found path value) :
    PlaceKnown ⟨path.reverse, .wrongType found "a string", none⟩ value := by
  cases h with
  | one fault =>
      have hone := Statement.ofJson_of_keywordFault fault []
      obtain ⟨fields, rfl⟩ := fault.exists_fields
      rwa [List.append_nil] at hone
  | @many before after item way others fault =>
      have hbefore : AllEncode before := fun item hi => others item (List.mem_append_left _ hi)
      have hitem := Statement.ofJson_of_keywordFault fault [.index (0 + before.length)]
      have hlist := Statement.allOfJson_eq_error hbefore hitem after
      rwa [Nat.zero_add, ← List.reverse_cons] at hlist

-- Both shapes are tried and both fail, so the document is refused as a whole.
theorem DocumentFault.documentOfJson_eq {found value : Json} {path : List Segment}
    (h : DocumentFault found path value) :
    Statement.documentOfJson value = .error ⟨[], .noShape Statement.documentShape, none⟩ := by
  have hknown := h.placeKnown
  cases h with
  | one fault =>
      obtain ⟨fields, rfl⟩ := fault.exists_fields
      exact Statement.documentOfJson_eq_error rfl hknown
  | @many before after item way others fault =>
      have hfirst : ∃ first rest, before ++ item :: after = first :: rest ∧
          ∀ word, first ≠ .str word := by
        cases before with
        | nil =>
            obtain ⟨fields, rfl⟩ := fault.exists_fields
            exact ⟨_, _, rfl, by simp⟩
        | cons first before =>
            obtain ⟨s, hs⟩ := others first List.mem_cons_self
            exact ⟨_, _, rfl, hs.ne_str⟩
      obtain ⟨first, rest, heq, hne⟩ := hfirst
      obtain ⟨refusal, hone⟩ := Statement.ofItems_of_first hne rest []
      rw [← heq] at hone
      exact Statement.documentOfJson_eq_error hknown hone

theorem keywordPath_eq_cons (way : List Nat) : ∃ name rest,
    keywordPath way = .field name :: rest ∧ (name = "keyword" ∨ name = "substmts") := by
  cases way with
  | nil => exact ⟨_, _, rfl, .inl rfl⟩
  | cons index way => exact ⟨_, _, rfl, .inr rfl⟩

-- The text of the path starts with the name of a field or with a bracket, so it is not the point
-- that stands for the whole document.
theorem DocumentFault.text_ne {found value : Json} {path : List Segment}
    (h : DocumentFault found path value) : Trail.text path.reverse ≠ "." := by
  have hfirst : ∃ first rest c cs, path = first :: rest ∧ first.text.toList = c :: cs ∧
      c ≠ '.' := by
    cases h with
    | @one way _ fault =>
        obtain ⟨name, rest, heq, rfl | rfl⟩ := keywordPath_eq_cons way
        · exact ⟨_, rest, 'k', "eyword".toList, heq, rfl, by decide⟩
        · exact ⟨_, rest, 's', "ubstmts".toList, heq, rfl, by decide⟩
    | @many before _ _ _ others fault =>
        refine ⟨_, _, '[', (toString before.length ++ "]").toList, rfl, ?_, by decide⟩
        rw [Segment.text, String.append_assoc, String.toList_append]
        rfl
  obtain ⟨first, rest, c, cs, rfl, htext, hne⟩ := hfirst
  intro heq
  have hlist := congrArg String.toList heq
  rw [Trail.text, List.reverse_reverse, String.toList_append, htext] at hlist
  exact hne (List.cons.inj hlist).1

-- A document in which one keyword is no text is refused without its place, at any depth and for
-- any value in place of the keyword. The reader of the shape it has would tell the place.
theorem keyword_fault_loses_place (found value : Json) (path : List Segment)
    (h : DocumentFault found path value) :
    (∃ refusal, Statement.documentOfJson value = .error refusal ∧
      Trail.text refusal.trail = "." ∧ Trail.text refusal.trail ≠ Trail.text path.reverse ∧
      ∀ origin, Statement.refusalMessage origin refusal = "invalid statement tree in " ++ origin ++
        ": at JSON path . → data did not match any variant of untagged enum RawDocument") ∧
    PlaceKnown ⟨path.reverse, .wrongType found "a string", none⟩ value := by
  refine ⟨⟨_, h.documentOfJson_eq, rfl, fun heq => h.text_ne heq.symm, fun origin => ?_⟩,
    h.placeKnown⟩
  exact Statement.refusalMessage_noShape origin

-- A module in which the keyword of the only statement in its block is a number.
def numberedKeyword : Json :=
  .obj [("keyword", .str "module"), ("arg", .str "m"),
    ("substmts", .arr [.obj [("keyword", .int 7)]])]

theorem numberedKeyword_fault : DocumentFault (.int 7) (keywordPath [0]) numberedKeyword := by
  have hinner : KeywordFault (.int 7) [] (.obj [("keyword", .int 7)]) :=
    .here ⟨by simp, .inl rfl⟩ rfl (by simp) (.inl rfl)
  have houter : KeywordFault (.int 7) [([] : List Json).length] numberedKeyword :=
    .inside ⟨by simp, .inr ⟨"m", rfl⟩⟩ rfl rfl (by simp [AllEncode]) hinner
  exact .one houter

theorem keyword_fault_of_numberedKeyword :
    DocumentFault (.int 7) (keywordPath [0]) numberedKeyword ∧
      Trail.text (keywordPath [0]).reverse = "substmts[0].keyword" ∧
      ∃ refusal, Statement.documentOfJson numberedKeyword = .error refusal ∧
        Trail.text refusal.trail = "." := by
  obtain ⟨⟨refusal, herror, htext, -⟩, -⟩ := keyword_fault_loses_place _ _ _ numberedKeyword_fault
  exact ⟨numberedKeyword_fault, by decide, refusal, herror, htext⟩

-- The document does not tell where its keyword is no text, though the statement does.
theorem numberedKeyword_place_lost :
    DocumentFault (.int 7) (keywordPath [0]) numberedKeyword ∧
      ¬ ∃ refusal, Statement.documentOfJson numberedKeyword = .error refusal ∧
        Trail.text refusal.trail = Trail.text (keywordPath [0]).reverse := by
  refine ⟨numberedKeyword_fault, ?_⟩
  rintro ⟨refusal, herror, htext⟩
  rw [numberedKeyword_fault.documentOfJson_eq] at herror
  obtain rfl := Except.error.inj herror
  exact numberedKeyword_fault.text_ne htext.symm

end YangBinding
