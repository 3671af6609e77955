import YangBinding.Proofs.Class.KeyNames
import YangBinding.Proofs.Class.Repeats
import YangBinding.Proofs.Java.Literal

namespace YangBinding

namespace Java

-- A line with a text that stands alone between quotes.
structure Quotation where
  before : String
  text : String
  after : String

namespace Quotation

def line (q : Quotation) : String := q.before ++ "\"" ++ q.text ++ "\"" ++ q.after

-- The same in the body of a method.
def inMethod (q : Quotation) : Quotation := ⟨"        " ++ q.before, q.text, q.after⟩

-- What can stand behind the text and its quote.
def endings : List String := ["", ",", ";", ");"]

end Quotation

def moduleQuotations (c : ClassSpec) : List Quotation :=
  [⟨"    public static final String NAMESPACE = ", c.namespaceUri, ";"⟩,
    ⟨"    public static final String PREFIX = ", c.modulePrefix.getD "", ";"⟩]

def constructorQuotations (c : ClassSpec) (made : Constructor) : List Quotation :=
  ⟨"super(" ++ c.rootClass ++ ".NAMESPACE, ", c.tag, ");"⟩ ::
    if made.mode = .noArgs then []
    else made.args.map fun key =>
      ⟨"Leaf " ++ memberName key.identifier ++ " = new Leaf(" ++ c.rootClass ++ ".NAMESPACE, ",
        key.identifier, ");"⟩

def arrayQuotations (names : List String) : List Quotation :=
  names.zipIdx.map fun (name, i) => ⟨"    ", name, if i = names.length - 1 then "" else ","⟩

-- A path with keys or a value in it is put together from several texts, so it is not here.
def accessQuotations (n : AccessNames) (kind : MemberKind) : Operation → List Quotation
  | .get (.keys _ _) => []
  | .get _ => [⟨"return (" ++ n.type.wrapper ++ ")getValue(", n.tag, ");"⟩]
  | .set .wrapped | .addEmpty => [⟨"    ", n.tag, ","⟩]
  | .unset => [⟨"delete(", n.tag, ");"⟩]
  | .mark edit none => [⟨"markLeaf" ++ className edit.text ++ "(", n.tag, ");"⟩]
  | .iterate =>
    [⟨"return new " ++ (if kind = .leafList then "ElementLeafListValueIterator"
      else "ElementChildrenIterator") ++ "(children, ", n.tag, ");"⟩]
  | .delete .none | .delete .childObject => [⟨"String path = ", n.tag, ";"⟩]
  | _ => []

def elementQuotations (c : ClassSpec) : List Quotation :=
  (c.constructors.flatMap (constructorQuotations c) ++ arrayQuotations c.keyNames ++
    arrayQuotations c.childrenNames ++ c.accessors.flatMap fun a =>
      accessQuotations (accessNames c a) a.kind a.operation).map Quotation.inMethod

-- The string literals of a class that are made from one text alone.
def quotations (c : ClassSpec) : List Quotation :=
  if c.kind = .module then moduleQuotations c else elementQuotations c

section Lines

-- The lines hold the quotations, in order.
def Quotes (lines : List String) (quotations : List Quotation) : Prop :=
  (quotations.map Quotation.line).Sublist lines

variable {lines others : List String} {found more : List Quotation}

theorem Quotes.append (h : Quotes lines found) (hothers : Quotes others more) :
    Quotes (lines ++ others) (found ++ more) := by
  rw [Quotes, List.map_append]
  exact List.Sublist.append h hothers

theorem quotes_nil (lines : List String) : Quotes lines [] := List.nil_sublist lines

theorem Quotes.flatMap {α : Type} {items : List α} {f : α → List String}
    {g : α → List Quotation} (h : ∀ item ∈ items, Quotes (f item) (g item)) :
    Quotes (items.flatMap f) (items.flatMap g) := by
  induction items with
  | nil => exact quotes_nil []
  | cons item rest ih =>
      rw [List.forall_mem_cons] at h
      exact h.1.append (ih h.2)

theorem Quotes.method {doc body : List String} {signature : String} {throws : Bool}
    (h : Quotes body found) :
    Quotes (method doc signature throws body) (found.map Quotation.inMethod) := by
  have hlines : (found.map Quotation.inMethod).map Quotation.line =
      (found.map Quotation.line).map ("        " ++ ·) := by
    simp [Quotation.inMethod, Quotation.line, String.append_assoc]
  rw [Quotes, hlines]
  unfold Java.method
  exact ((h.map _).trans (List.sublist_append_right _ _)).trans (List.sublist_append_left _ _)

theorem quotes_single {q : Quotation} (h : q.line ∈ lines) : Quotes lines [q] :=
  List.singleton_sublist.mpr h

theorem stringArray_quotes (names : List String) :
    Quotes (stringArray names) (arrayQuotations names) := by
  have hlines : (arrayQuotations names).map Quotation.line = names.zipIdx.map fun (name, i) =>
      "    \"" ++ name ++ "\"" ++ (if i = names.length - 1 then "" else ",") := by
    simp [arrayQuotations, Quotation.line]
  rw [Quotes, hlines]
  exact (List.sublist_append_right _ _).trans (List.sublist_append_left _ _)

theorem keyNamesLines_quotes (c : ClassSpec) :
    Quotes (keyNamesLines c) ((arrayQuotations c.keyNames).map Quotation.inMethod) := by
  refine Quotes.method ?_
  split
  · rename_i hnone
    rw [List.isEmpty_iff.mp hnone]
    exact quotes_nil _
  · exact stringArray_quotes c.keyNames

theorem childrenNamesLines_quotes (c : ClassSpec) :
    Quotes (childrenNamesLines c) ((arrayQuotations c.childrenNames).map Quotation.inMethod) :=
  (stringArray_quotes c.childrenNames).method

theorem setKey_quotes (root : String) (form : ValueForm) (key : KeyLeaf) :
    Quotes (setKey root form key)
      [⟨"Leaf " ++ memberName key.identifier ++ " = new Leaf(" ++ root ++ ".NAMESPACE, ",
        key.identifier, ");"⟩] := by
  refine quotes_single ?_
  simp [setKey, Quotation.line, ← String.toList_inj, String.toList_append]

theorem constructorLines_quotes (c : ClassSpec) (made : Constructor) :
    Quotes (constructorLines c made) ((constructorQuotations c made).map Quotation.inMethod) := by
  have hopening : Quotes ["super(" ++ c.rootClass ++ ".NAMESPACE, \"" ++ c.tag ++ "\");"]
      [⟨"super(" ++ c.rootClass ++ ".NAMESPACE, ", c.tag, ");"⟩] := by
    refine quotes_single ?_
    simp [Quotation.line, ← String.toList_inj, String.toList_append]
  unfold constructorLines constructorQuotations
  cases made.mode with
  | noArgs => exact Quotes.method (hopening.append (quotes_nil _))
  | keyed form =>
      have hkeys : Quotes (made.args.flatMap (setKey c.rootClass form)) (made.args.map fun key =>
          ⟨"Leaf " ++ memberName key.identifier ++ " = new Leaf(" ++ c.rootClass ++ ".NAMESPACE, ",
            key.identifier, ");"⟩) := by
        rw [List.map_eq_flatMap]
        exact Quotes.flatMap fun key _ => setKey_quotes c.rootClass form key
      have hbody := (hopening.append hkeys).append (quotes_nil
        (if made.setsPrefix then ["setDefaultPrefix();", "setPrefix(" ++ c.rootClass ++ ".PREFIX);"]
        else []))
      rw [List.append_nil] at hbody
      exact hbody.method

theorem accessorLines_quotes (c : ClassSpec) (a : Accessor) :
    Quotes (accessorLines c a)
      ((accessQuotations (accessNames c a) a.kind a.operation).map Quotation.inMethod) := by
  unfold accessorLines
  generalize accessNames c a = n
  cases a.operation with
  | get lookup =>
      cases lookup with
      | keys => exact quotes_nil _
      | none | childObject | value =>
          refine Quotes.method (quotes_single ?_)
          simp [Quotation.line, ← String.toList_inj, String.toList_append]
  | set form =>
      cases form with
      | wrapped =>
          refine Quotes.method (quotes_single ?_)
          simp [Quotation.line, ← String.toList_inj, String.toList_append]
      | string | primitive => exact quotes_nil _
  | addChild lookup => exact quotes_nil _
  | delete lookup =>
      cases lookup with
      | keys | value => exact quotes_nil _
      | none | childObject =>
          refine Quotes.method (quotes_single ?_)
          simp [Quotation.line, ← String.toList_inj, String.toList_append]
  | mark edit form =>
      cases form with
      | none =>
          refine Quotes.method (quotes_single ?_)
          simp [Quotation.line, ← String.toList_inj, String.toList_append]
      | some form => exact quotes_nil _
  | unset | addEmpty | iterate =>
      refine Quotes.method (quotes_single ?_)
      simp [Quotation.line, ← String.toList_inj, String.toList_append]

theorem accessorsLines_quotes (c : ClassSpec) (accessors : List Accessor)
    (current : Option (MemberKind × String)) :
    Quotes (accessorsLines c current accessors) (accessors.flatMap fun a =>
      (accessQuotations (accessNames c a) a.kind a.operation).map Quotation.inMethod) := by
  induction accessors generalizing current with
  | nil => exact quotes_nil _
  | cons a rest ih =>
      have hself := (quotes_nil (if current = some (a.kind, a.name) then [] else heading a)).append
        (accessorLines_quotes c a)
      exact hself.append (ih _)

theorem elementBody_quotes (c : ClassSpec) : Quotes (elementBody c) (elementQuotations c) := by
  have hmade := Quotes.flatMap fun made (_ : made ∈ c.constructors) =>
    constructorLines_quotes c made
  have hall := ((((((quotes_nil (c.fields.flatMap fieldLines)).append hmade).append
    (quotes_nil (c.copies.flatMap (copyLines c)))).append (keyNamesLines_quotes c)).append
    (childrenNamesLines_quotes c)).append (accessorsLines_quotes c c.accessors none)).append
    (quotes_nil (if c.addChildSupport then addChildLines c else []))
  simpa [elementBody, elementQuotations, List.map_flatMap] using hall

theorem moduleBody_quotes (c : ClassSpec) : Quotes (moduleBody c) (moduleQuotations c) := by
  have hnamespace : Quotes
      ["", "    public static final String NAMESPACE = \"" ++ c.namespaceUri ++ "\";"]
      [⟨"    public static final String NAMESPACE = ", c.namespaceUri, ";"⟩] := by
    refine quotes_single ?_
    simp [Quotation.line, ← String.toList_inj, String.toList_append]
  have hmodulePrefix : Quotes
      ["", "    public static final String PREFIX = \"" ++ c.modulePrefix.getD "" ++ "\";"]
      [⟨"    public static final String PREFIX = ", c.modulePrefix.getD "", ";"⟩] := by
    refine quotes_single ?_
    simp [Quotation.line, ← String.toList_inj, String.toList_append]
  unfold moduleBody
  exact ((hnamespace.append hmodulePrefix).append (quotes_nil _)).append (quotes_nil _)

theorem classLines_quotes (options : RenderOptions) (provenance : String) (c : ClassSpec) :
    Quotes (classLines options provenance c) (quotations c) := by
  have hbody : Quotes (if c.kind = .module then moduleBody c else elementBody c)
      (quotations c) := by
    unfold quotations
    split
    · exact moduleBody_quotes c
    · exact elementBody_quotes c
  have hheader := quotes_nil (header options provenance c)
  have hall := (hheader.append hbody).append (quotes_nil ["\x7d"])
  rwa [List.nil_append, List.append_nil] at hall

end Lines

section Texts

variable {c : ClassSpec} {q : Quotation}

theorem of_mem_arrayQuotations {names : List String} (h : q ∈ arrayQuotations names) :
    q.text ∈ names ∧ q.after ∈ Quotation.endings := by
  obtain ⟨⟨name, i⟩, hmem, rfl⟩ := List.mem_map.mp h
  refine ⟨List.fst_mem_of_mem_zipIdx hmem, ?_⟩
  dsimp only
  split
  · simp [Quotation.endings]
  · simp [Quotation.endings]

theorem of_mem_constructorQuotations {made : Constructor} (h : q ∈ constructorQuotations c made) :
    (q.text = c.tag ∨ ∃ key ∈ made.args, q.text = key.identifier) ∧
      q.after ∈ Quotation.endings := by
  rcases List.mem_cons.mp h with rfl | h
  · exact ⟨.inl rfl, by simp [Quotation.endings]⟩
  · split at h
    · cases h
    · obtain ⟨key, hkey, rfl⟩ := List.mem_map.mp h
      exact ⟨.inr ⟨key, hkey, rfl⟩, by simp [Quotation.endings]⟩

theorem of_mem_accessQuotations {n : AccessNames} {kind : MemberKind} {operation : Operation}
    (h : q ∈ accessQuotations n kind operation) :
    q.text = n.tag ∧ q.after ∈ Quotation.endings := by
  unfold accessQuotations at h
  split at h <;> simp_all [Quotation.endings]

end Texts

-- Behind a quotation the line ends, or goes on with a character that is read as it is.
theorem Quotation.head_after {q : Quotation} (h : q.after ∈ endings) (more : String) :
    ∀ c ∈ (q.after ++ "\n" ++ more).toList.head?, c ≠ '"' ∧ c ≠ '\\' := by
  intro c hc
  simp only [endings, List.mem_cons, List.not_mem_nil, or_false] at h
  rcases h with h | h | h | h
  · obtain rfl : '\n' = c := by simpa [h] using hc
    decide
  · obtain rfl : ',' = c := by simpa [h] using hc
    decide
  · obtain rfl : ';' = c := by simpa [h] using hc
    decide
  · obtain rfl : ')' = c := by simpa [h] using hc
    decide

end Java

open Java

-- A text of the input: the argument of a statement, or a word of one.
def Forest.Gives (forest : Forest) (text : String) : Prop :=
  ∃ n ∈ forest.nodes, text = n.arg ∨ text ∈ Text.words n.arg

section Given

variable {forest : Forest} {n : Node}

theorem Forest.gives_arg (h : n ∈ forest.nodes) : forest.Gives n.arg := ⟨n, h, .inl rfl⟩

theorem Forest.gives_of_requiredArg (h : n ∈ forest.nodes) {keyword : Keyword} {arg : String}
    (harg : n.requiredArg keyword = .ok arg) : forest.Gives arg := by
  obtain ⟨child, hfind, rfl⟩ := Node.requiredArg_eq_ok_iff.mp harg
  exact gives_arg (mem_nodes_of_mem_children h (Node.mem_children_of_find? hfind).1)

theorem Forest.gives_of_mem_keyNames (h : n ∈ forest.nodes) {name : String}
    (hname : name ∈ n.keyNames) : forest.Gives name := by
  obtain ⟨statement, hstatement, hword⟩ := List.mem_flatMap.mp hname
  exact ⟨statement, mem_nodes_of_mem_children h (List.mem_filter.mp hstatement).1, .inr hword⟩

theorem Forest.gives_of_mem_elementQuotations {context : ModuleContext} {topLevel : Bool}
    {path : String} {c : ClassSpec} (hn : n ∈ forest.nodes)
    (h : n.classSpec context topLevel path = .ok c) {q : Quotation}
    (hq : q ∈ elementQuotations c) : forest.Gives q.text ∧ q.after ∈ Quotation.endings := by
  obtain ⟨blocks, keys, hblocks, hkeys, rfl⟩ := Node.classSpec_eq_ok_iff.mp h
  rw [elementQuotations, List.mem_map] at hq
  obtain ⟨q, hq, rfl⟩ := hq
  simp only [List.mem_append, List.mem_flatMap] at hq
  rcases hq with ((⟨made, hmade, hq⟩ | hq) | hq) | ⟨a, ha, hq⟩
  · obtain ⟨htext, hafter⟩ := of_mem_constructorQuotations hq
    refine ⟨?_, hafter⟩
    rcases htext with htext | ⟨key, hkey, htext⟩
    · exact htext ▸ gives_arg hn
    · have hargs := Node.args_of_mem_constructors hmade
      rw [hargs] at hkey
      split at hkey
      · cases hkey
      · cases keys with
        | none => cases hkey
        | some keys =>
            obtain ⟨-, hfound⟩ := Node.classKeys_eq_ok_some_iff.mp hkeys
            exact htext ▸ gives_of_mem_keyNames hn (Node.keyLeaf_of_mem_keys hfound hkey).1
  · obtain ⟨htext, hafter⟩ := of_mem_arrayQuotations hq
    exact ⟨gives_of_mem_keyNames hn htext, hafter⟩
  · obtain ⟨htext, hafter⟩ := of_mem_arrayQuotations hq
    obtain ⟨child, hchild, harg⟩ := List.mem_map.mp htext
    have hmem := mem_nodes_of_mem_children hn (List.mem_filter.mp hchild).1
    exact ⟨harg ▸ gives_arg hmem, hafter⟩
  · obtain ⟨htext, hafter⟩ := of_mem_accessQuotations hq
    obtain ⟨block, hblock, ha⟩ := List.mem_flatten.mp ha
    obtain ⟨child, hchild, haccessors⟩ :=
      (Except.mapM_eq_ok_iff.mp hblocks).exists_of_mem_right hblock
    have hname : q.text = child.arg := htext.trans (Node.of_mem_accessors haccessors ha).1
    exact ⟨hname ▸ gives_arg (mem_nodes_of_mem_children hn hchild), hafter⟩

theorem Forest.gives_of_mem_quotations {withSchema : Bool} {compilation : Compilation}
    (h : forest.compile withSchema = .ok compilation) {c : ClassSpec}
    (hc : c ∈ compilation.classes) {q : Quotation} (hq : q ∈ quotations c) :
    forest.Gives q.text ∧ q.after ∈ Quotation.endings := by
  obtain ⟨n, hn, hspec⟩ := statement_of_mem_classes h hc
  rcases hspec with ⟨namespaceUri, modulePrefix, hnamespace, hmodulePrefix, rfl⟩ |
    ⟨context, topLevel, path, hspec⟩
  · have hkind : (n.rootSpec namespaceUri modulePrefix).kind = .module := rfl
    rw [quotations, if_pos hkind] at hq
    rcases List.mem_cons.mp hq with rfl | hq
    · exact ⟨gives_of_requiredArg hn hnamespace, by simp [Quotation.endings]⟩
    · obtain rfl := List.mem_singleton.mp hq
      exact ⟨gives_of_requiredArg hn hmodulePrefix, by simp [Quotation.endings]⟩
  · have hkind : c.kind ≠ .module := by
      obtain ⟨_, keys, -, -, rfl⟩ := Node.classSpec_eq_ok_iff.mp hspec
      cases keys with
      | none => exact nofun
      | some keys => exact nofun
    rw [quotations, if_neg hkind] at hq
    exact gives_of_mem_elementQuotations hn hspec hq

end Given

theorem literals_denote_iff_plain (forest : Forest) (withSchema : Bool)
    (compilation : Compilation) (h : forest.compile withSchema = .ok compilation)
    (options : RenderOptions) (provenance : String) :
    ∀ c ∈ compilation.classes,
      ((quotations c).map Quotation.line).Sublist (classLines options provenance c) ∧
      ∀ q ∈ quotations c, forest.Gives q.text ∧
        ∀ more, Denotes q.text (q.after ++ "\n" ++ more) ↔ isPlain q.text := by
  intro c hc
  refine ⟨classLines_quotes options provenance c, fun q hq => ?_⟩
  obtain ⟨hgiven, hafter⟩ := Forest.gives_of_mem_quotations h hc hq
  exact ⟨hgiven, fun more => denotes_iff (Quotation.head_after hafter more)⟩

-- The namespace has quotes in it, the names have none.
def quotedNamespace : Statement :=
  .mk .module "m" [.mk .namespaceUri "urn:\"m\"" [], .mk .modulePrefix "p" [],
    .mk .list "entry" [.mk .key "id" [], .mk .leaf "id" [.mk .type "string" []]]]

theorem literals_of_quotedNamespace :
    ∃ compilation, Forest.compile [quotedNamespace] false = .ok compilation ∧
      (∃ c ∈ compilation.classes, (quotations c).map Quotation.text =
        ["entry", "entry", "id", "entry", "id", "id", "id", "id"] ∧
        ∀ q ∈ quotations c, isPlain q.text) ∧
      ∀ c ∈ compilation.classes,
        ((quotations c).map Quotation.line).Sublist (classLines ⟨"p", "1", ⟨2012, 6, 1⟩⟩ "" c) ∧
        ∀ q ∈ quotations c, Forest.Gives [quotedNamespace] q.text ∧
          ∀ more, Denotes q.text (q.after ++ "\n" ++ more) ↔ isPlain q.text := by
  have h : Forest.compile [quotedNamespace] false = .ok _ := rfl
  exact ⟨_, h, by decide +kernel, literals_denote_iff_plain _ _ _ h _ _⟩

-- The literal ends at the first quote of the namespace, and the rest of it is program text.
theorem quoted_namespace_escapes :
    ∃ compilation, Forest.compile [quotedNamespace] false = .ok compilation ∧
      ∃ c ∈ compilation.classes, ∃ q ∈ quotations c, q.text = "urn:\"m\"" ∧
        readLiteral ("\"" ++ q.text ++ "\"" ++ q.after).toList =
          some (utf16 "urn:", inputs .text "m\"\";".toList) ∧
        ¬ Denotes q.text q.after := by
  have h : Forest.compile [quotedNamespace] false = .ok _ := rfl
  exact ⟨_, h, by decide +kernel⟩

end YangBinding
