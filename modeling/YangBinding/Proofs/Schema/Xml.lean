import YangBinding.Schema.Xml
import Mathlib.Data.List.Forall2

namespace YangBinding

-- An item that neither list holds ends both at the same place.
theorem eq_of_append_cons_eq {α : Type} [DecidableEq α] {a : α} {xs ys us vs : List α}
    (hx : a ∉ xs) (hy : a ∉ ys) (h : xs ++ a :: us = ys ++ a :: vs) : xs = ys ∧ us = vs := by
  have hsplit := congrArg (List.splitOn a) h
  rw [List.splitOn_append_cons_self_of_not_mem hx, List.splitOn_append_cons_self_of_not_mem hy]
    at hsplit
  obtain rfl := (List.cons.inj hsplit).1
  exact ⟨rfl, (List.cons.inj (List.append_cancel_left h)).2⟩

theorem splitOn_append_of_notMem {α : Type} [DecidableEq α] {a : α} {xs : List α} (h : a ∉ xs)
    (ys : List α) : (xs ++ ys).splitOn a = (ys.splitOn a).modifyHead (xs ++ ·) := by
  induction xs with
  | nil => exact (congrFun List.modifyHead_id _).symm
  | cons x rest ih =>
      obtain ⟨hne, hrest⟩ := not_or.mp (List.mem_cons.not.mp h)
      rw [List.cons_append, List.splitOn_cons_eq_if_modifyHead, ih hrest,
        beq_false_of_ne (Ne.symm hne), List.modifyHead_modifyHead]
      rfl

-- The characters behind a text with entities.
def unescapeXml : List Char → List Char
  | '&' :: 'a' :: 'm' :: 'p' :: ';' :: rest => '&' :: unescapeXml rest
  | '&' :: 'l' :: 't' :: ';' :: rest => '<' :: unescapeXml rest
  | '&' :: 'g' :: 't' :: ';' :: rest => '>' :: unescapeXml rest
  | '&' :: 'q' :: 'u' :: 'o' :: 't' :: ';' :: rest => '"' :: unescapeXml rest
  | c :: rest => c :: unescapeXml rest
  | [] => []

-- The characters that have an entity.
def xmlReserved : List Char := ['&', '<', '>', '"']

theorem mem_xmlReserved_iff {c : Char} :
    c ∈ xmlReserved ↔ c = '&' ∨ c = '<' ∨ c = '>' ∨ c = '"' := by
  simp only [xmlReserved, List.mem_cons, List.not_mem_nil, or_false]

theorem escapeXmlChar_of_notMem {c : Char} (h : c ∉ xmlReserved) : escapeXmlChar c = [c] := by
  simp only [mem_xmlReserved_iff, not_or] at h
  obtain ⟨hamp, hlt, hgt, hquot⟩ := h
  simp [escapeXmlChar, hamp, hlt, hgt, hquot]

theorem unescapeXml_escapeXmlChar (c : Char) (rest : List Char) :
    unescapeXml (escapeXmlChar c ++ rest) = c :: unescapeXml rest := by
  by_cases h : c ∈ xmlReserved
  · rcases mem_xmlReserved_iff.mp h with rfl | rfl | rfl | rfl <;> rfl
  · -- An entity starts with a character that is never written as it is.
    have hamp : c ≠ '&' := fun heq => h (mem_xmlReserved_iff.mpr (.inl heq))
    rw [escapeXmlChar_of_notMem h, List.singleton_append, unescapeXml]
    all_goals
      intros
      contradiction

theorem bracket_notMem_escapeXmlChar (c : Char) : '<' ∉ escapeXmlChar c := by
  by_cases h : c ∈ xmlReserved
  · rcases mem_xmlReserved_iff.mp h with rfl | rfl | rfl | rfl <;> decide
  · rw [escapeXmlChar_of_notMem h, List.mem_singleton]
    intro heq
    exact h (mem_xmlReserved_iff.mpr (.inr (.inl heq.symm)))

theorem unescapeXml_escapeXml (s : String) : unescapeXml (escapeXml s).toList = s.toList := by
  rw [escapeXml, String.toList_ofList]
  induction s.toList with
  | nil => rfl
  | cons c rest ih => rw [List.flatMap_cons, unescapeXml_escapeXmlChar, ih]

theorem escapeXml_inj {s t : String} (h : escapeXml s = escapeXml t) : s = t := by
  have hlists := congrArg (fun text => unescapeXml text.toList) h
  rw [unescapeXml_escapeXml, unescapeXml_escapeXml] at hlists
  exact String.toList_inj.mp hlists

theorem bracket_notMem_escapeXml (s : String) : '<' ∉ (escapeXml s).toList := by
  rw [escapeXml, String.toList_ofList, List.mem_flatMap]
  rintro ⟨c, -, hc⟩
  exact bracket_notMem_escapeXmlChar c hc

-- The characters of an element, cut at its brackets.
theorem toList_xmlElement (tag value : String) :
    (xmlElement tag value).toList = List.replicate 8 ' ' ++ '<' :: (tag.toList ++ '>' ::
      ((escapeXml value).toList ++ '<' :: ('/' :: tag.toList ++ ['>', '\n']))) := by
  have hindent : "        <".toList = List.replicate 8 ' ' ++ ['<'] := by decide
  have hopen : ">".toList = ['>'] := by decide
  have hslash : "</".toList = ['<', '/'] := by decide
  have hclose : ">\n".toList = ['>', '\n'] := by decide
  unfold xmlElement
  generalize escapeXml value = text
  simp only [String.toList_append, hindent, hopen, hslash, hclose, List.append_assoc,
    List.cons_append, List.nil_append]

-- The value of an element ends at the next bracket.
theorem xmlElement_append_inj {tag v w : String} {us vs : List Char}
    (h : (xmlElement tag v).toList ++ us = (xmlElement tag w).toList ++ vs) :
    v = w ∧ us = vs := by
  rw [toList_xmlElement, toList_xmlElement] at h
  simp only [List.append_assoc, List.cons_append] at h
  have hopen := (List.cons.inj (List.append_cancel_left h)).2
  have hvalue := (List.cons.inj (List.append_cancel_left hopen)).2
  obtain ⟨hv, hclose⟩ := eq_of_append_cons_eq (bracket_notMem_escapeXml v)
    (bracket_notMem_escapeXml w) hvalue
  have hrest := List.append_cancel_left (List.cons.inj hclose).2
  exact ⟨escapeXml_inj (String.toList_inj.mp hv), (List.cons.inj (List.cons.inj hrest).2).2⟩

theorem xmlElements_append_inj {es fs : List (String × String)} {us vs : List Char}
    (htags : es.map Prod.fst = fs.map Prod.fst)
    (h : (es.flatMap fun e => (xmlElement e.1 e.2).toList) ++ us =
      (fs.flatMap fun f => (xmlElement f.1 f.2).toList) ++ vs) : es = fs ∧ us = vs := by
  induction es generalizing fs with
  | nil =>
      obtain rfl := List.map_eq_nil_iff.mp htags.symm
      exact ⟨rfl, h⟩
  | cons e es ih =>
      obtain ⟨f, more, rfl, htag, hmore⟩ := List.map_eq_cons_iff.mp htags.symm
      obtain ⟨tag, v⟩ := e
      obtain ⟨tag', w⟩ := f
      obtain rfl : tag' = tag := htag
      rw [List.flatMap_cons, List.flatMap_cons, List.append_assoc, List.append_assoc] at h
      obtain ⟨rfl, hrest⟩ := xmlElement_append_inj h
      obtain ⟨rfl, hend⟩ := ih hmore.symm hrest
      exact ⟨rfl, hend⟩

theorem toString_inj {m n : Nat} (h : toString m = toString n) : m = n := by
  rw [Nat.toString_eq_ofList_toDigits, Nat.toString_eq_ofList_toDigits, String.ofList_inj] at h
  have hread := congrArg (fun digits => Nat.ofDigitChars 10 digits 0) h
  simpa only [Nat.ofDigitChars_ten_toDigits] using hread

-- No number has a sign, so the mark of no bound is none.
theorem toString_ne_minus_one (n : Nat) : toString n ≠ "-1" := by
  intro h
  rw [Nat.toString_eq_ofList_toDigits] at h
  have hsign : '-' ∈ Nat.toDigits 10 n := by
    rw [← String.toList_ofList (l := Nat.toDigits 10 n), h]
    decide
  exact absurd (Nat.isDigit_of_mem_toDigits (by decide) (by decide) hsign) (by decide)

theorem Occurs.greatestText_inj {o p : Occurs} (h : o.greatestText = p.greatestText) :
    o.greatest = p.greatest := by
  unfold greatestText at h
  cases ho : o.greatest with
  | none =>
      cases hp : p.greatest with
      | none => rfl
      | some n =>
          rw [ho, hp] at h
          exact absurd h.symm (toString_ne_minus_one n)
  | some m =>
      cases hp : p.greatest with
      | none =>
          rw [ho, hp] at h
          exact absurd h (toString_ne_minus_one m)
      | some n =>
          rw [ho, hp] at h
          exact congrArg some (toString_inj h)

namespace SchemaRecord

-- What the text of a record shows of it: its children only as they stand one after the other.
def shown (r : SchemaRecord) : String × String × Occurs × String :=
  (r.tagPath, r.namespaceUri, r.occurs, String.intercalate " " r.children)

-- The tags of the elements of any record.
def elementTags : List String :=
  ["tagpath", "namespace", "primitive_type", "min_occurs", "max_occurs", "children", "flags",
    "desc"]

theorem map_fst_elements (r : SchemaRecord) : r.elements.map Prod.fst = elementTags := by
  simp only [elements, elementTags, List.map_cons, List.map_nil]

theorem elements_eq_iff {r q : SchemaRecord} : r.elements = q.elements ↔ r.shown = q.shown := by
  constructor
  · intro h
    simp only [elements, List.cons.injEq, Prod.mk.injEq, true_and, and_true] at h
    obtain ⟨hpath, huri, hleast, hgreatest, hchildren⟩ := h
    have hoccurs : r.occurs = q.occurs := by
      cases ho : r.occurs
      cases hp : q.occurs
      rw [ho, hp] at hleast hgreatest
      rw [Occurs.mk.injEq]
      exact ⟨toString_inj hleast, Occurs.greatestText_inj hgreatest⟩
    rw [shown, shown, hpath, huri, hoccurs, hchildren]
  · intro h
    simp only [shown, Prod.mk.injEq] at h
    obtain ⟨hpath, huri, hoccurs, hchildren⟩ := h
    rw [elements, elements, hpath, huri, hoccurs, hchildren]

theorem toList_xml (r : SchemaRecord) :
    r.xml.toList = "    <node>\n".toList ++
      ((r.elements.flatMap fun e => (xmlElement e.1 e.2).toList) ++ "    </node>\n".toList) := by
  simp only [xml, String.toList_append, String.toList_join, List.flatMap_map, List.append_assoc]

theorem xml_append_inj {r q : SchemaRecord} {us vs : List Char}
    (h : r.xml.toList ++ us = q.xml.toList ++ vs) : r.shown = q.shown ∧ us = vs := by
  rw [toList_xml, toList_xml, List.append_assoc, List.append_assoc, List.append_assoc,
    List.append_assoc] at h
  have htags : r.elements.map Prod.fst = q.elements.map Prod.fst := by
    rw [map_fst_elements, map_fst_elements]
  obtain ⟨helements, hrest⟩ := xmlElements_append_inj htags (List.append_cancel_left h)
  exact ⟨elements_eq_iff.mp helements, List.append_cancel_left hrest⟩

theorem flatMap_xml_append_inj {rs qs : List SchemaRecord} {us : List Char}
    (h : (rs.flatMap fun r => r.xml.toList) ++ '<' :: us =
      (qs.flatMap fun q => q.xml.toList) ++ '<' :: us) : rs.map shown = qs.map shown := by
  -- A record starts with a blank, so the text tells whether another one follows.
  have hstart (r : SchemaRecord) (vs ws : List Char) : '<' :: vs ≠ r.xml.toList ++ ws := by
    intro h
    rw [toList_xml] at h
    exact absurd (List.cons.inj h).1 (by decide)
  induction rs generalizing qs with
  | nil =>
      cases qs with
      | nil => rfl
      | cons q qs =>
          rw [List.flatMap_cons, List.append_assoc] at h
          exact absurd h (hstart _ _ _)
  | cons r rs ih =>
      cases qs with
      | nil =>
          rw [List.flatMap_cons, List.append_assoc] at h
          exact absurd h.symm (hstart _ _ _)
      | cons q qs =>
          rw [List.flatMap_cons, List.flatMap_cons, List.append_assoc, List.append_assoc] at h
          obtain ⟨hshown, hrest⟩ := xml_append_inj h
          rw [List.map_cons, List.map_cons, hshown, ih hrest]

end SchemaRecord

-- The tags of a text: what stands between each opening bracket and the next closing one.
def xmlTags (text : List Char) : List String :=
  (text.splitOn '<').tail.map fun part => String.ofList (part.takeWhile (· ≠ '>'))

theorem xmlTags_append_of_notMem {us : List Char} (h : '<' ∉ us) (vs : List Char) :
    xmlTags (us ++ vs) = xmlTags vs := by
  rw [xmlTags, splitOn_append_of_notMem h, List.tail_modifyHead, xmlTags]

theorem xmlTags_tag {tag : String} (hopen : '<' ∉ tag.toList) (hclose : '>' ∉ tag.toList)
    (rest : List Char) : xmlTags ('<' :: (tag.toList ++ '>' :: rest)) = tag :: xmlTags rest := by
  have hname : '<' ∉ tag.toList ++ ['>'] := by simp [hopen]
  have hsplit := splitOn_append_of_notMem hname rest
  rw [List.append_assoc, List.singleton_append] at hsplit
  cases hparts : rest.splitOn '<' with
  | nil => exact absurd hparts (List.splitOn_ne_nil _ _)
  | cons first parts =>
      have htake : ((tag.toList ++ ['>'] ++ first).takeWhile (· ≠ '>')) = tag.toList := by
        have hplain : ∀ c ∈ tag.toList, decide (c ≠ '>') = true := by
          intro c hc
          exact decide_eq_true fun heq => hclose (heq ▸ hc)
        rw [List.append_assoc, List.takeWhile_append_of_pos hplain, List.singleton_append,
          List.takeWhile_cons_of_neg (by decide), List.append_nil]
      rw [xmlTags, xmlTags, List.splitOn_cons_eq_if_modifyHead, if_pos (by decide), List.tail_cons,
        hsplit, hparts, List.modifyHead_cons, List.map_cons, htake, String.ofList_toList,
        List.tail_cons]

-- A line that holds a tag and nothing else.
theorem xmlTags_line {line indent tag : String} (hline : line = indent ++ "<" ++ tag ++ ">\n")
    (hindent : '<' ∉ indent.toList) (hopen : '<' ∉ tag.toList) (hclose : '>' ∉ tag.toList)
    (rest : List Char) : xmlTags (line.toList ++ rest) = tag :: xmlTags rest := by
  have hlist : line.toList ++ rest =
      indent.toList ++ '<' :: (tag.toList ++ '>' :: (['\n'] ++ rest)) := by
    simp [hline]
  rw [hlist, xmlTags_append_of_notMem hindent, xmlTags_tag hopen hclose,
    xmlTags_append_of_notMem (by decide)]

theorem xmlTags_xmlElement {tag : String} (hopen : '<' ∉ tag.toList) (hclose : '>' ∉ tag.toList)
    (value : String) (rest : List Char) :
    xmlTags ((xmlElement tag value).toList ++ rest) = tag :: ("/" ++ tag) :: xmlTags rest := by
  have hslash : ("/" ++ tag).toList = '/' :: tag.toList := by rw [String.toList_append]; rfl
  have hopen' : '<' ∉ ("/" ++ tag).toList := by simp [hslash, hopen]
  have hclose' : '>' ∉ ("/" ++ tag).toList := by simp [hslash, hclose]
  have hlist : (xmlElement tag value).toList ++ rest = List.replicate 8 ' ' ++ '<' ::
      (tag.toList ++ '>' :: ((escapeXml value).toList ++ '<' :: (("/" ++ tag).toList ++
        '>' :: (['\n'] ++ rest)))) := by
    rw [toList_xmlElement, hslash]
    simp only [List.append_assoc, List.cons_append, List.nil_append]
  rw [hlist, xmlTags_append_of_notMem (by decide), xmlTags_tag hopen hclose,
    xmlTags_append_of_notMem (bracket_notMem_escapeXml value), xmlTags_tag hopen' hclose',
    xmlTags_append_of_notMem (by decide)]

theorem xmlTags_xmlElements {es : List (String × String)}
    (htags : ∀ tag ∈ es.map Prod.fst, '<' ∉ tag.toList ∧ '>' ∉ tag.toList) (rest : List Char) :
    xmlTags ((es.flatMap fun e => (xmlElement e.1 e.2).toList) ++ rest) =
      ((es.map Prod.fst).flatMap fun tag => [tag, "/" ++ tag]) ++ xmlTags rest := by
  induction es with
  | nil => rfl
  | cons e es ih =>
      rw [List.map_cons, List.forall_mem_cons] at htags
      obtain ⟨⟨hopen, hclose⟩, htags⟩ := htags
      rw [List.flatMap_cons, List.append_assoc, xmlTags_xmlElement hopen hclose, ih htags]
      rfl

-- The tags of any record.
def SchemaRecord.layoutTags : List String :=
  ["node"] ++ (elementTags.flatMap fun tag => [tag, "/" ++ tag]) ++ ["/node"]

theorem SchemaRecord.xmlTags_xml (r : SchemaRecord) (rest : List Char) :
    xmlTags (r.xml.toList ++ rest) = layoutTags ++ xmlTags rest := by
  have htags : ∀ tag ∈ r.elements.map Prod.fst, '<' ∉ tag.toList ∧ '>' ∉ tag.toList := by
    rw [map_fst_elements]
    decide
  have hfirst : "    <node>\n" = "    " ++ "<" ++ "node" ++ ">\n" := by decide
  have hlast : "    </node>\n" = "    " ++ "<" ++ "/node" ++ ">\n" := by decide
  rw [toList_xml, List.append_assoc, xmlTags_line hfirst (by decide) (by decide) (by decide),
    List.append_assoc, xmlTags_xmlElements htags, map_fst_elements,
    xmlTags_line hlast (by decide) (by decide) (by decide)]
  simp [layoutTags]

namespace SchemaTable

theorem toList_xml (table : SchemaTable) :
    table.xml.toList = "<schema>\n".toList ++
      ((table.records.flatMap fun r => r.xml.toList) ++ "</schema>\n".toList) := by
  simp only [xml, String.toList_append, String.toList_join, List.flatMap_map, List.append_assoc]

theorem xmlTags_xml (table : SchemaTable) :
    xmlTags table.xml.toList =
      ["schema"] ++ (table.records.flatMap fun _ => SchemaRecord.layoutTags) ++ ["/schema"] := by
  have hrecords (rs : List SchemaRecord) (rest : List Char) :
      xmlTags ((rs.flatMap fun r => r.xml.toList) ++ rest) =
        (rs.flatMap fun _ => SchemaRecord.layoutTags) ++ xmlTags rest := by
    induction rs with
    | nil => rfl
    | cons r rs ih =>
        rw [List.flatMap_cons, List.append_assoc, SchemaRecord.xmlTags_xml, ih, List.flatMap_cons,
          List.append_assoc]
  have hfirst : "<schema>\n" = "" ++ "<" ++ "schema" ++ ">\n" := by decide
  have hlast : xmlTags "</schema>\n".toList = ["/schema"] := by decide
  rw [toList_xml, xmlTags_line hfirst (by decide) (by decide) (by decide), hrecords, hlast]
  rfl

theorem xml_eq_iff {a b : SchemaTable} :
    a.xml = b.xml ↔ a.records.map SchemaRecord.shown = b.records.map SchemaRecord.shown := by
  constructor
  · intro h
    have hlists := congrArg String.toList h
    rw [toList_xml, toList_xml] at hlists
    exact SchemaRecord.flatMap_xml_append_inj (List.append_cancel_left hlists)
  · intro h
    have hrecords : List.Forall₂ (fun r q => SchemaRecord.shown r = q.shown) a.records
        b.records := by
      rw [← List.forall₂_eq_eq_eq, List.forall₂_map_left_iff, List.forall₂_map_right_iff] at h
      exact h
    have hxml : a.records.map SchemaRecord.xml = b.records.map SchemaRecord.xml := by
      rw [← List.forall₂_eq_eq_eq, List.forall₂_map_left_iff, List.forall₂_map_right_iff]
      refine hrecords.imp fun r q hshown => ?_
      rw [SchemaRecord.xml, SchemaRecord.xml, SchemaRecord.elements_eq_iff.mpr hshown]
    rw [xml, xml, hxml]

end SchemaTable

-- A name that the blanks between names do not cut or swallow.
def IsPlainName (name : String) : Prop := name ≠ "" ∧ ' ' ∉ name.toList

instance : DecidablePred IsPlainName := fun _ => inferInstanceAs (Decidable (_ ∧ _))

def SchemaRecord.HasPlainNames (r : SchemaRecord) : Prop := ∀ name ∈ r.children, IsPlainName name

instance : DecidablePred SchemaRecord.HasPlainNames := fun r =>
  inferInstanceAs (Decidable (∀ name ∈ r.children, IsPlainName name))

-- The names in a text with blanks between them.
def namesBetweenBlanks (text : String) : List String :=
  ((text.toList.splitOn ' ').filter fun part => !part.isEmpty).map String.ofList

theorem namesBetweenBlanks_intercalate {names : List String}
    (h : ∀ name ∈ names, IsPlainName name) :
    namesBetweenBlanks (String.intercalate " " names) = names := by
  by_cases hnames : names = []
  · subst hnames
    decide
  have hblank : ∀ part ∈ names.map String.toList, ' ' ∉ part := by
    intro part hpart
    obtain ⟨name, hname, rfl⟩ := List.mem_map.mp hpart
    exact (h name hname).2
  have hparts : (String.intercalate " " names).toList.splitOn ' ' = names.map String.toList := by
    rw [String.toList_intercalate]
    exact List.splitOn_intercalate ' ' hblank (List.map_eq_nil_iff.not.mpr hnames)
  have hfull : ∀ part ∈ names.map String.toList, (!part.isEmpty) = true := by
    intro part hpart
    obtain ⟨name, hname, rfl⟩ := List.mem_map.mp hpart
    have hne : name.toList ≠ [] := fun hnil => (h name hname).1 (String.toList_inj.mp hnil)
    simpa using hne
  rw [namesBetweenBlanks, hparts, List.filter_eq_self.mpr hfull, List.map_map]
  simp [Function.comp_def]

-- Reads a record from what its text shows.
def SchemaRecord.ofShown : String × String × Occurs × String → SchemaRecord
  | (tagPath, namespaceUri, occurs, children) =>
    ⟨tagPath, namespaceUri, occurs, namesBetweenBlanks children⟩

theorem SchemaRecord.ofShown_shown {r : SchemaRecord} (h : r.HasPlainNames) :
    ofShown r.shown = r := by
  rw [shown, ofShown, namesBetweenBlanks_intercalate h]

theorem SchemaTable.eq_of_shown_eq {a b : SchemaTable}
    (ha : ∀ r ∈ a.records, r.HasPlainNames) (hb : ∀ r ∈ b.records, r.HasPlainNames)
    (h : a.records.map SchemaRecord.shown = b.records.map SchemaRecord.shown) : a = b := by
  have hread {table : SchemaTable} (htable : ∀ r ∈ table.records, r.HasPlainNames) :
      (table.records.map SchemaRecord.shown).map SchemaRecord.ofShown = table.records := by
    rw [List.map_map]
    calc table.records.map (SchemaRecord.ofShown ∘ SchemaRecord.shown)
      _ = table.records.map id :=
        List.map_congr_left fun r hr => SchemaRecord.ofShown_shown (htable r hr)
      _ = table.records := List.map_id _
  have hrecords : a.records = b.records := by rw [← hread ha, ← hread hb, h]
  cases a
  cases b
  exact congrArg SchemaTable.mk hrecords

-- The text of a table tells its records apart and shows each of them, and its tags are those of
-- its layout alone.
theorem schema_text_loses_nothing (a b : SchemaTable) :
    (a.xml = b.xml ↔ a.records.map SchemaRecord.shown = b.records.map SchemaRecord.shown) ∧
    ((∀ r ∈ a.records, r.HasPlainNames) → (∀ r ∈ b.records, r.HasPlainNames) →
      a.xml = b.xml → a = b) ∧
    xmlTags a.xml.toList =
      ["schema"] ++ (a.records.flatMap fun _ => SchemaRecord.layoutTags) ++ ["/schema"] := by
  refine ⟨SchemaTable.xml_eq_iff, fun ha hb h => ?_, a.xmlTags_xml⟩
  exact SchemaTable.eq_of_shown_eq ha hb (SchemaTable.xml_eq_iff.mp h)

-- A module whose container has a name that looks like markup.
def markupModule : Node :=
  .number 0 (.mk .module "m"
    [.mk .container "</node>&lt;" [.mk .leafList "x" [], .mk .leafList "y" []]])

def markupTable : SchemaTable := ⟨[
  ⟨"/", "\"urn\"", ⟨1, some 1⟩, ["</node>&lt;"]⟩,
  ⟨"/</node>&lt;/", "\"urn\"", ⟨0, some 1⟩, ["x", "y"]⟩]⟩

theorem schema_text_of_markupModule :
    (markupModule.schema none "\"urn\"" "/").table.xml = markupTable.xml ∧
      (markupModule.schema none "\"urn\"" "/").table = markupTable := by
  have htext : (markupModule.schema none "\"urn\"" "/").table.xml = markupTable.xml := by
    decide +kernel
  refine ⟨htext, (schema_text_loses_nothing _ _).2.1 ?_ ?_ htext⟩
  · decide +kernel
  · decide +kernel

end YangBinding
