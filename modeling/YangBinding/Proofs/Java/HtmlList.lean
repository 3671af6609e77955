import YangBinding.Proofs.Java.Links
import YangBinding.Proofs.Schema.Xml

namespace YangBinding.Java

open IndexEntry

section Tags

-- The elements that a list is made of.
inductive ListElement where
  | list
  | item
deriving DecidableEq

inductive Tag where
  | opening (element : ListElement)
  | closing (element : ListElement)
deriving DecidableEq

def Tag.chars : Tag → List Char
  | .opening .list => ['<', 'u', 'l', '>']
  | .opening .item => ['<', 'l', 'i', '>']
  | .closing .list => ['<', '/', 'u', 'l', '>']
  | .closing .item => ['<', '/', 'l', 'i', '>']

def allTags : List Tag := [.opening .list, .opening .item, .closing .list, .closing .item]

-- The tags in a text, wherever they start.
def tagsIn : List Char → List Tag
  | [] => []
  | c :: cs => (allTags.find? fun tag => tag.chars.isPrefixOf (c :: cs)).toList ++ tagsIn cs

-- Each element is closed, and before the one around it.
inductive WellNested : List Tag → Prop
  | nil : WellNested []
  | element (element : ListElement) {inside after : List Tag} (hinside : WellNested inside)
      (hafter : WellNested after) :
      WellNested (.opening element :: (inside ++ .closing element :: after))

theorem WellNested.append {tags more : List Tag} (h : WellNested tags) (hmore : WellNested more) :
    WellNested (tags ++ more) := by
  induction h with
  | nil => exact hmore
  | element element hinside _ _ ih =>
      rw [List.cons_append, List.append_assoc, List.cons_append]
      exact .element element hinside ih

-- A tag starts at a bracket.
theorem tagsIn_cons_of_ne {c : Char} (h : c ≠ '<') (cs : List Char) :
    tagsIn (c :: cs) = tagsIn cs := by
  have hnone (tag : Tag) : ¬ tag.chars.isPrefixOf (c :: cs) := by
    rcases tag with (_ | _) | (_ | _) <;> simp [Tag.chars, List.isPrefixOf, Ne.symm h]
  rw [tagsIn, List.find?_eq_none.mpr fun tag _ => hnone tag]
  rfl

theorem tagsIn_append_of_notMem {cs : List Char} (h : '<' ∉ cs) (rest : List Char) :
    tagsIn (cs ++ rest) = tagsIn rest := by
  induction cs with
  | nil => rfl
  | cons c cs ih =>
      obtain ⟨hc, hcs⟩ := not_or.mp (List.mem_cons.not.mp h)
      rw [List.cons_append, tagsIn_cons_of_ne (Ne.symm hc), ih hcs]

theorem tagsIn_tag (tag : Tag) (rest : List Char) :
    tagsIn (tag.chars ++ rest) = tag :: tagsIn rest := by
  rcases tag with (_ | _) | (_ | _) <;> rfl

end Tags

section Nesting

variable {cs ds : List Char}

-- A text whose tags are well nested, whatever stands behind it.
def Nested (cs : List Char) : Prop :=
  ∃ tags, WellNested tags ∧ ∀ rest, tagsIn (cs ++ rest) = tags ++ tagsIn rest

namespace Nested

theorem plain (h : '<' ∉ cs) : Nested cs := ⟨[], .nil, tagsIn_append_of_notMem h⟩

theorem cons {c : Char} (hc : c ≠ '<') (h : Nested cs) : Nested (c :: cs) := by
  obtain ⟨tags, htags, hscan⟩ := h
  refine ⟨tags, htags, fun rest => ?_⟩
  rw [List.cons_append, tagsIn_cons_of_ne hc, hscan]

theorem append (hcs : Nested cs) (hds : Nested ds) : Nested (cs ++ ds) := by
  obtain ⟨tags, htags, hscan⟩ := hcs
  obtain ⟨more, hmore, hnext⟩ := hds
  refine ⟨tags ++ more, htags.append hmore, fun rest => ?_⟩
  rw [List.append_assoc, hscan, hnext, List.append_assoc]

theorem enclose (element : ListElement) (h : Nested cs) :
    Nested ((Tag.opening element).chars ++ (cs ++ (Tag.closing element).chars)) := by
  obtain ⟨tags, htags, hscan⟩ := h
  refine ⟨_, .element element htags .nil, fun rest => ?_⟩
  rw [List.append_assoc, tagsIn_tag, List.append_assoc, hscan, tagsIn_tag, List.cons_append,
    List.append_assoc, List.cons_append, List.nil_append]

theorem tags (h : Nested cs) : WellNested (tagsIn cs) := by
  obtain ⟨tags, htags, hscan⟩ := h
  have hend := hscan []
  rw [List.append_nil, tagsIn, List.append_nil] at hend
  rwa [hend]

end Nested

end Nesting

section Layout

theorem toList_joinLines_nil : (joinLines []).toList = [] := rfl

theorem toList_joinLines_cons (line : String) (lines : List String) :
    (joinLines (line :: lines)).toList = line.toList ++ '\n' :: (joinLines lines).toList := by
  simp [joinLines]

theorem toList_joinLines_append (lines more : List String) :
    (joinLines (lines ++ more)).toList = (joinLines lines).toList ++ (joinLines more).toList := by
  simp [joinLines]

theorem toList_link (name : String) : (link name).toList =
    "<a href=\"".toList ++ (name.toList ++ (".html".toList ++
      '"' :: (">".toList ++ (name.toList ++ "</a>".toList)))) := by
  simp only [link, String.toList_append, List.append_assoc]
  rfl

def indent (depth : Nat) : List Char := List.replicate (8 * depth) ' '

-- An item stands a little further in than the list it is in.
def itemIndent (depth : Nat) : List Char := indent depth ++ [' ', ' ', ' ', ' ']

def listText (depth : Nat) (entries : List IndexEntry) : List Char :=
  (joinLines (htmlList depth entries)).toList

def itemsText (depth : Nat) (entries : List IndexEntry) : List Char :=
  (joinLines (entriesLines depth entries)).toList

-- What stands between the link of an item and its closing tag: a list of its own on new lines,
-- or nothing.
def insideText (depth : Nat) : List IndexEntry → List Char
  | [] => []
  | child :: more => '\n' :: (listText (depth + 1) (child :: more) ++ itemIndent depth)

theorem listText_eq (depth : Nat) (entries : List IndexEntry) : listText depth entries =
    indent depth ++ ((Tag.opening .list).chars ++ (('\n' :: (itemsText depth entries ++
      indent depth)) ++ (Tag.closing .list).chars)) ++ ['\n'] := by
  simp [listText, htmlList, toList_joinLines_append, toList_joinLines_cons, toList_joinLines_nil,
    pad, indent, itemsText, Tag.chars]

theorem itemsText_nil (depth : Nat) : itemsText depth [] = [] := by
  rw [itemsText, entriesLines, toList_joinLines_nil]

theorem itemsText_cons (depth : Nat) (name : String) (children rest : List IndexEntry) :
    itemsText depth (.mk name children :: rest) =
      itemIndent depth ++ ((Tag.opening .item).chars ++ (((link name).toList ++
        insideText depth children) ++ (Tag.closing .item).chars)) ++
          '\n' :: itemsText depth rest := by
  rw [itemsText, entriesLines, toList_joinLines_append]
  cases children with
  | nil =>
      simp [entryLines, toList_joinLines_cons, toList_joinLines_nil, pad, indent, itemIndent,
        itemsText, insideText, Tag.chars]
  | cons child more =>
      have hinner : entryLines depth (.mk name (child :: more)) =
          (pad depth ++ "    <li>" ++ link name) :: (htmlList (depth + 1) (child :: more) ++
            [pad depth ++ "    </li>"]) := by
        rw [entryLines]
        rfl
      rw [hinner, toList_joinLines_cons, toList_joinLines_append]
      simp [toList_joinLines_cons, toList_joinLines_nil, pad, indent, itemIndent, itemsText,
        insideText, listText, Tag.chars]

end Layout

section ListNesting

variable {name : String} {entries : List IndexEntry}

theorem nested_link (h : '<' ∉ name.toList) : Nested (link name).toList := by
  -- The brackets of a link start no tag of a list.
  have hopen : Nested "<a href=\"".toList := ⟨[], .nil, fun _ => rfl⟩
  have hclose : Nested "</a>".toList := ⟨[], .nil, fun _ => rfl⟩
  have hpage : Nested ".html".toList := .plain (by decide)
  have hend : Nested ">".toList := .plain (by decide)
  rw [toList_link]
  apply hopen.append
  apply (Nested.plain h).append
  apply hpage.append
  apply Nested.cons (by decide)
  exact hend.append ((Nested.plain h).append hclose)

theorem nested_indent (depth : Nat) : Nested (indent depth) := by
  apply Nested.plain
  rw [indent, List.mem_replicate]
  rintro ⟨-, hbracket⟩
  exact absurd hbracket (by decide)

theorem nested_itemIndent (depth : Nat) : Nested (itemIndent depth) :=
  (nested_indent depth).append (.plain (by decide))

theorem nested_listText_of (depth : Nat) (h : Nested (itemsText depth entries)) :
    Nested (listText depth entries) := by
  rw [listText_eq]
  have hinside := Nested.cons (c := '\n') (by decide) (h.append (nested_indent depth))
  exact ((nested_indent depth).append (hinside.enclose .list)).append (.plain (by decide))

theorem nested_itemsText (depth : Nat) (h : ∀ name ∈ namesAll entries, '<' ∉ name.toList) :
    Nested (itemsText depth entries) := by
  induction entries using IndexEntry.entries_induction generalizing depth with
  | nil =>
      rw [itemsText_nil]
      exact .plain List.not_mem_nil
  | cons name children rest ihc ihr =>
      rw [namesAll, names, List.cons_append, List.forall_mem_cons, List.forall_mem_append] at h
      obtain ⟨hname, hchildren, hrest⟩ := h
      have hinside : Nested (insideText depth children) := by
        cases children with
        | nil => exact .plain List.not_mem_nil
        | cons child more =>
            have hlist := nested_listText_of (depth + 1) (ihc (depth + 1) hchildren)
            exact .cons (by decide) (hlist.append (nested_itemIndent depth))
      rw [itemsText_cons]
      have hitem := ((nested_link hname).append hinside).enclose .item
      exact ((nested_itemIndent depth).append hitem).append
        (.cons (by decide) (ihr depth hrest))

end ListNesting

section Reading

-- A link tells where its name ends, as no name has a quote.
theorem link_append_inj {a b : String} (ha : '"' ∉ a.toList) (hb : '"' ∉ b.toList)
    {us vs : List Char} (h : (link a).toList ++ us = (link b).toList ++ vs) : a = b ∧ us = vs := by
  have hquote {name : String} (hname : '"' ∉ name.toList) :
      '"' ∉ name.toList ++ ".html".toList := by
    rw [List.mem_append, not_or]
    exact ⟨hname, by decide⟩
  simp only [toList_link, List.append_assoc, List.cons_append, List.append_cancel_left_eq] at h
  rw [← List.append_assoc, ← List.append_assoc b.toList] at h
  obtain ⟨hnames, htails⟩ := eq_of_append_cons_eq (hquote ha) (hquote hb) h
  obtain rfl : a = b := String.toList_inj.mp (List.append_cancel_right hnames)
  simp only [List.append_cancel_left_eq] at htails
  exact ⟨rfl, htails⟩

-- What ends a list starts no item.
theorem indent_append_ne (depth : Nat) (us vs : List Char) :
    indent depth ++ ((Tag.closing .list).chars ++ us) ≠ itemIndent depth ++ vs := by
  intro h
  rw [itemIndent, List.append_assoc, List.append_cancel_left_eq] at h
  simp [Tag.chars] at h

-- Up to the end of a list, the same text shows the same entries.
def ToldApart (depth : Nat) (entries others : List IndexEntry) : Prop :=
  ∀ us vs, itemsText depth entries ++ (indent depth ++ ((Tag.closing .list).chars ++ us)) =
    itemsText depth others ++ (indent depth ++ ((Tag.closing .list).chars ++ vs)) →
      entries = others ∧ us = vs

-- A list inside an item starts on a new line, so an item without one is told apart.
theorem insideText_append_inj {depth : Nat} {children others : List IndexEntry}
    (hread : ToldApart (depth + 1) children others) {us vs : List Char}
    (h : insideText depth children ++ ((Tag.closing .item).chars ++ us) =
      insideText depth others ++ ((Tag.closing .item).chars ++ vs)) :
    children = others ∧ us = vs := by
  cases children with
  | nil =>
      cases others with
      | nil => simpa [insideText] using h
      | cons other others => simp [insideText, Tag.chars] at h
  | cons child children =>
      cases others with
      | nil => simp [insideText, Tag.chars] at h
      | cons other others =>
          simp only [insideText, listText_eq, List.cons_append, List.append_assoc, List.cons.injEq,
            true_and, List.append_cancel_left_eq] at h
          obtain ⟨hchildren, hrest⟩ := hread _ _ h
          simp only [List.cons.injEq, true_and, List.append_cancel_left_eq] at hrest
          exact ⟨hchildren, hrest⟩

-- The induction is for any depth and any text behind the list: the entries inside an item are read
-- one level deeper, with the rest of the item behind them.
theorem toldApart {entries others : List IndexEntry}
    (hentries : ∀ name ∈ namesAll entries, '"' ∉ name.toList)
    (hothers : ∀ name ∈ namesAll others, '"' ∉ name.toList) (depth : Nat) :
    ToldApart depth entries others := by
  intro us vs h
  induction entries using IndexEntry.entries_induction generalizing others depth us vs with
  | nil =>
      cases others with
      | nil => simpa using h
      | cons other others =>
          obtain ⟨name, children⟩ := other
          rw [itemsText_nil, itemsText_cons, List.nil_append, List.append_assoc,
            List.append_assoc] at h
          exact absurd h (indent_append_ne depth _ _)
  | cons name children rest ihc ihr =>
      cases others with
      | nil =>
          rw [itemsText_nil, itemsText_cons, List.nil_append, List.append_assoc,
            List.append_assoc] at h
          exact absurd h.symm (indent_append_ne depth _ _)
      | cons other others =>
          obtain ⟨name', children'⟩ := other
          rw [namesAll, names, List.cons_append, List.forall_mem_cons,
            List.forall_mem_append] at hentries hothers
          obtain ⟨hname, hchildren, hrest⟩ := hentries
          obtain ⟨hname', hchildren', hrest'⟩ := hothers
          simp only [itemsText_cons, List.append_assoc, List.append_cancel_left_eq] at h
          obtain ⟨rfl, hinside⟩ := link_append_inj hname hname' h
          obtain ⟨rfl, htail⟩ :=
            insideText_append_inj (ihc hchildren hchildren' (depth + 1)) hinside
          simp only [List.cons_append, List.cons.injEq, true_and] at htail
          obtain ⟨rfl, hend⟩ := ihr hrest hrest' depth _ _ htail
          exact ⟨rfl, hend⟩

-- The text of a list tells what it shows.
theorem listText_inj {entries others : List IndexEntry}
    (hentries : ∀ name ∈ namesAll entries, '"' ∉ name.toList)
    (hothers : ∀ name ∈ namesAll others, '"' ∉ name.toList) {depth : Nat}
    (h : listText depth entries = listText depth others) : entries = others := by
  simp only [listText_eq, List.cons_append, List.append_assoc, List.append_cancel_left_eq,
    List.cons.injEq, true_and] at h
  exact (toldApart hentries hothers depth _ _ h).1

end Reading

-- Nothing in a plain name can be taken for a part of the list that it is in.
def PlainName (name : String) : Prop :=
  '<' ∉ name.toList ∧ '"' ∉ name.toList ∧ '\n' ∉ name.toList

theorem htmlList_encodes_index (entries others : List IndexEntry)
    (hentries : ∀ name ∈ namesAll entries, PlainName name)
    (hothers : ∀ name ∈ namesAll others, PlainName name) :
    (∀ depth, WellNested (tagsIn (joinLines (htmlList depth entries)).toList)) ∧
    (htmlList 0 entries = htmlList 0 others ↔ entries = others) := by
  refine ⟨fun depth => ?_, fun h => ?_, fun h => by rw [h]⟩
  · have hitems := nested_itemsText depth fun name hname => (hentries name hname).1
    exact (nested_listText_of depth hitems).tags
  · apply listText_inj (fun name hname => (hentries name hname).2.1)
      (fun name hname => (hothers name hname).2.1)
    exact congrArg (fun lines => (joinLines lines).toList) h

-- The same names in the same order, once side by side and once one inside the other.
def sideBySide : List IndexEntry := [.mk "A" [], .mk "B" []]

def oneInside : List IndexEntry := [.mk "A" [.mk "B" []]]

theorem htmlList_tells_sideBySide_from_oneInside :
    (∀ name ∈ namesAll sideBySide, PlainName name) ∧ (∀ name ∈ namesAll oneInside, PlainName name) ∧
    tagsIn (joinLines (htmlList 0 oneInside)).toList = [.opening .list, .opening .item,
      .opening .list, .opening .item, .closing .item, .closing .list, .closing .item,
      .closing .list] ∧
    WellNested (tagsIn (joinLines (htmlList 0 oneInside)).toList) ∧
    htmlList 0 oneInside ≠ htmlList 0 sideBySide := by
  have hplain : ∀ name ∈ ["A", "B"], PlainName name := by
    intro name hname
    rcases List.mem_pair.mp hname with rfl | rfl
    · exact ⟨by decide, by decide, by decide⟩
    · exact ⟨by decide, by decide, by decide⟩
  obtain ⟨hnested, hiff⟩ := htmlList_encodes_index oneInside sideBySide hplain hplain
  refine ⟨hplain, hplain, ?_, hnested 0, fun h => ?_⟩
  · rw [← listText]
    simp only [listText_eq, oneInside, itemsText_cons, itemsText_nil, insideText, toList_link]
    decide +kernel
  · have hlength := congrArg List.length (hiff.mp h)
    exact absurd hlength (by decide)

end YangBinding.Java
