import YangBinding.Java.AccessMethod
import YangBinding.Proofs.Java.Braces

namespace YangBinding

-- The texts that the source of a class is made of.

def ValueType.texts (t : ValueType) : List String := [t.wrapper, t.primitive]

def KeyLeaf.texts (key : KeyLeaf) : List String := key.identifier :: key.type.texts

def Lookup.texts : Lookup → List String
  | .keys leaves _ => leaves.flatMap KeyLeaf.texts
  | _ => []

def Operation.texts : Operation → List String
  | .get lookup | .addChild lookup | .delete lookup => lookup.texts
  | _ => []

def Accessor.texts (a : Accessor) : List String :=
  a.name :: (a.type.toList.flatMap ValueType.texts ++ a.operation.texts)

def ClassSpec.texts (c : ClassSpec) : List String :=
  [c.name, c.tag, c.namespaceUri, c.rootClass, c.path] ++ c.modulePrefix.toList ++ c.fields ++
    c.constructors.flatMap (fun made => made.args.flatMap KeyLeaf.texts) ++
    c.copies.flatMap CopyMethod.keys ++ c.keyNames ++ c.childrenNames ++
    c.accessors.flatMap Accessor.texts

def RenderOptions.texts (options : RenderOptions) : List String :=
  [options.package, options.version]

namespace Java

section Methods

variable {doc body names : List String} {signature title : String} {throws : Bool}

theorem method_nests (hdoc : AllBraceless doc) (hsignature : braceless signature)
    (hbody : LinesNest 0 0 body) : LinesNest 0 0 (method doc signature throws body) := by
  have hcomment : LinesNest 0 0 (["", "    /**"] ++ doc.map ("     * " ++ ·) ++ ["     */"]) := by
    refine .append (.append (.of_braceless ?_) (.indent ?_ (.of_braceless hdoc)))
      (.of_braceless ?_)
    · simp only [allBraceless_cons, allBraceless_nil, and_true]
      and_intros <;> exact braceless_ofList (by decide)
    · exact braceless_ofList (by decide)
    · simp only [allBraceless_cons, allBraceless_nil, and_true]
      exact braceless_ofList (by decide)
  have hopening : LinesNest 0 1 (if throws then
      ["    public " ++ signature, "        throws INMException \x7b"]
      else ["    public " ++ signature ++ " \x7b"]) := by
    have hpublic : braceless ("    public " ++ signature) :=
      braceless_append.mpr ⟨braceless_ofList (by decide), hsignature⟩
    split
    · exact .cons (nests_of_braceless hpublic 0) (.single fun depth => by simp [depthAfter])
    · exact .ended hpublic fun depth => by simp [depthAfter]
  have hinside : LinesNest 1 1 (body.map ("        " ++ ·)) :=
    (hbody.indent (braceless_ofList (by decide))).shift 1
  exact ((hcomment.append hopening).append hinside).append
    (.single fun depth => by simp [depthAfter])

-- Most methods hold no block of their own.
theorem method_of_braceless (h : AllBraceless (signature :: (doc ++ body))) :
    LinesNest 0 0 (method doc signature throws body) := by
  rw [allBraceless_cons, allBraceless_append] at h
  exact method_nests h.2.1 h.1 (.of_braceless h.2.2)

theorem banner_nests (h : braceless title) : LinesNest 0 0 (banner title) := by
  refine .of_braceless ?_
  simp only [banner, allBraceless_cons, allBraceless_nil, braceless_append, h, and_true]
  and_intros <;> exact braceless_ofList (by decide)

theorem stringArray_nests (h : AllBraceless names) : LinesNest 0 0 (stringArray names) := by
  have hopening : LinesNest 0 1 ["return new String[] \x7b"] :=
    .single fun depth => by simp [depthAfter]
  have hclosing : LinesNest 1 0 ["\x7d;"] := .single fun depth => by simp [depthAfter]
  refine (hopening.append (.of_braceless fun line hline => ?_)).append hclosing
  obtain ⟨⟨name, i⟩, hmem, rfl⟩ := List.mem_map.mp hline
  have hname := h name (List.fst_mem_of_mem_zipIdx hmem)
  simp only [braceless_append, hname, and_true]
  refine ⟨⟨braceless_ofList (by decide), braceless_ofList (by decide)⟩, ?_⟩
  split
  · exact braceless_ofList (by decide)
  · exact braceless_ofList (by decide)

end Methods

section Keys

variable {keys : List KeyLeaf} {tag tail : String}

theorem braceless_inForm {t : ValueType} (h : AllBraceless t.texts) (form : ValueForm) :
    braceless (t.inForm form) := by
  simp only [ValueType.texts, allBraceless_cons] at h
  cases form with
  | wrapped => exact h.1
  | string => exact braceless_ofList (by decide)
  | primitive => exact h.2.1

theorem braceless_keyXPath (htag : braceless tag) (h : ∀ key ∈ keys, AllBraceless key.texts) :
    braceless (keyXPath tag keys) := by
  refine braceless_append.mpr ⟨htag, braceless_join fun text htext => ?_⟩
  obtain ⟨key, hkey, rfl⟩ := List.mem_map.mp htext
  have hident := (allBraceless_cons.mp (h key hkey)).1
  simp only [braceless_append, hident, braceless_valueParam hident, and_true]
  and_intros <;> exact braceless_ofList (by decide)

theorem braceless_valueXPath (htag : braceless tag) : braceless (valueXPath tag) := by
  simp only [valueXPath, braceless_append, htag, braceless_valueParam htag, and_true, true_and]
  and_intros <;> exact braceless_ofList (by decide)

theorem braceless_keyParams (h : ∀ key ∈ keys, AllBraceless key.texts) (form : ValueForm) :
    braceless (keyParams keys form) := by
  refine braceless_intercalate (braceless_ofList (by decide)) fun text htext => ?_
  obtain ⟨key, hkey, rfl⟩ := List.mem_map.mp htext
  obtain ⟨hident, htype⟩ := allBraceless_cons.mp (h key hkey)
  simp only [braceless_append, braceless_inForm htype, braceless_valueParam hident, and_true,
    true_and]
  exact braceless_ofList (by decide)

theorem braceless_keyArgs (h : ∀ key ∈ keys, AllBraceless key.texts) :
    braceless (keyArgs keys) := by
  refine braceless_intercalate (braceless_ofList (by decide)) fun text htext => ?_
  obtain ⟨key, hkey, rfl⟩ := List.mem_map.mp htext
  exact braceless_valueParam (allBraceless_cons.mp (h key hkey)).1

theorem allBraceless_keyComments (htail : braceless tail)
    (h : ∀ key ∈ keys, AllBraceless key.texts) : AllBraceless (keyComments keys tail) := by
  intro line hline
  obtain ⟨key, hkey, rfl⟩ := List.mem_map.mp hline
  have hident := (allBraceless_cons.mp (h key hkey)).1
  simp only [braceless_append, braceless_valueParam hident, htail, and_true]
  and_intros <;> exact braceless_ofList (by decide)

theorem allBraceless_onString {remark : String} (h : braceless remark) (form : ValueForm) :
    AllBraceless (onString form remark) := by
  unfold onString
  split
  · simpa using h
  · exact allBraceless_nil

end Keys

section Accessors

-- No name that the text of an accessor is made of holds a brace.
structure AccessNames.Braceless (n : AccessNames) : Prop where
  root : braceless n.root
  tag : braceless n.tag
  cls : braceless n.cls
  var : braceless n.var
  param : braceless n.param
  keyword : braceless n.keyword
  type : AllBraceless n.type.texts
  setLeaf : braceless n.setLeaf

variable {n : AccessNames} {keys : List KeyLeaf}

theorem getEntryLines_nests (hn : n.Braceless) (hkeys : ∀ key ∈ keys, AllBraceless key.texts)
    (form : ValueForm) : LinesNest 0 0 (getEntryLines n keys form) := by
  have hcomments : AllBraceless (keyComments keys ".") :=
    allBraceless_keyComments (braceless_ofList (by decide)) hkeys
  have hremark : AllBraceless (onString form "The keys are specified as Strings") :=
    allBraceless_onString (braceless_ofList (by decide)) form
  refine method_of_braceless ?_
  simp only [allBraceless_append, allBraceless_cons, allBraceless_nil, braceless_append, hn.keyword,
    hn.tag, hn.cls, hcomments, hremark, braceless_keyParams hkeys, braceless_keyXPath hn.tag hkeys,
    and_true, true_and]
  and_intros <;> exact braceless_ofList (by decide)

theorem getValueLines_nests (hn : n.Braceless) : LinesNest 0 0 (getValueLines n) := by
  have hwrapper : braceless n.type.wrapper := braceless_inForm hn.type .wrapped
  refine method_of_braceless ?_
  simp only [allBraceless_append, allBraceless_cons, allBraceless_nil, braceless_append, hn.keyword,
    hn.tag, hn.cls, hwrapper, and_true, true_and]
  and_intros <;> exact braceless_ofList (by decide)

theorem setLines_nests (hn : n.Braceless) (form : ValueForm) :
    LinesNest 0 0 (setLines n form) := by
  have htype := braceless_inForm hn.type form
  have hwrapper : braceless n.type.wrapper := braceless_inForm hn.type .wrapped
  refine method_of_braceless ?_
  cases form with
  | wrapped =>
      simp only [allBraceless_append, allBraceless_cons, allBraceless_nil, braceless_append,
        hn.root, hn.tag, hn.cls, hn.param, hn.keyword, hn.setLeaf, htype, reduceCtorEq, if_true,
        if_false, and_true, true_and]
      and_intros <;> exact braceless_ofList (by decide)
  | string | primitive =>
      simp only [allBraceless_append, allBraceless_cons, allBraceless_nil, braceless_append,
        hn.tag, hn.cls, hn.param, hn.keyword, htype, hwrapper, reduceCtorEq, if_true, if_false,
        and_true]
      and_intros <;> exact braceless_ofList (by decide)

theorem unsetLines_nests (hn : n.Braceless) : LinesNest 0 0 (unsetLines n) := by
  refine method_of_braceless ?_
  simp only [allBraceless_append, allBraceless_cons, allBraceless_nil, braceless_append, hn.keyword,
    hn.tag, hn.cls, and_true]
  and_intros <;> exact braceless_ofList (by decide)

theorem addEmptyLines_nests (hn : n.Braceless) (kind : MemberKind) :
    LinesNest 0 0 (addEmptyLines n kind) := by
  have hname : braceless (if kind = .leafList then "Empty" ++ n.cls else n.cls) := by
    split
    · exact braceless_append.mpr ⟨braceless_ofList (by decide), hn.cls⟩
    · exact hn.cls
  refine method_of_braceless ?_
  simp only [allBraceless_append, allBraceless_cons, allBraceless_nil, braceless_append, hn.root,
    hn.tag, hn.keyword, hn.setLeaf, hname, and_true, true_and]
  and_intros <;> exact braceless_ofList (by decide)

theorem markLines_nests (hn : n.Braceless) (edit : EditOperation) (form : Option ValueForm) :
    LinesNest 0 0 (markLines n edit form) := by
  have hedit : braceless edit.text := by
    cases edit <;> exact braceless_ofList (by decide)
  have hverb := braceless_className hedit
  cases form with
  | none =>
      refine method_of_braceless ?_
      simp only [allBraceless_append, allBraceless_cons, allBraceless_nil, braceless_append,
        hn.tag, hn.cls, hn.keyword, hedit, hverb, and_true]
      and_intros <;> exact braceless_ofList (by decide)
  | some form =>
      have hgiven : braceless (if form = .string then ", given as a String" else "") := by
        split
        · exact braceless_ofList (by decide)
        · exact braceless_ofList (by decide)
      refine method_of_braceless ?_
      simp only [allBraceless_append, allBraceless_cons, allBraceless_nil, braceless_append,
        hn.tag, hn.cls, hn.param, hn.keyword, hedit, hverb, hgiven, braceless_inForm hn.type form,
        braceless_valueXPath hn.tag, and_true]
      and_intros <;> exact braceless_ofList (by decide)

theorem iterateLines_nests (hn : n.Braceless) (kind : MemberKind) :
    LinesNest 0 0 (iterateLines n kind) := by
  have hiterator : braceless (if kind = .leafList then "ElementLeafListValueIterator"
      else "ElementChildrenIterator") := by
    split
    · exact braceless_ofList (by decide)
    · exact braceless_ofList (by decide)
  refine method_of_braceless ?_
  simp only [allBraceless_append, allBraceless_cons, allBraceless_nil, braceless_append, hn.keyword,
    hn.tag, hn.var, hiterator, and_true, true_and]
  and_intros <;> exact braceless_ofList (by decide)

theorem addLines_nests (hn : n.Braceless) (hasField : Bool) {lookup : Lookup}
    (hlookup : AllBraceless lookup.texts) : LinesNest 0 0 (addLines n hasField lookup) := by
  have hfield : AllBraceless (if hasField then ["this." ++ n.var ++ " = " ++ n.var ++ ";"]
      else []) := by
    split
    · simp only [allBraceless_cons, allBraceless_nil, braceless_append, hn.var, and_true]
      and_intros <;> exact braceless_ofList (by decide)
    · exact allBraceless_nil
  unfold addLines
  cases lookup with
  | keys keys form =>
      have hkeys := allBraceless_flatMap.mp hlookup
      have hcomments : AllBraceless (keyComments keys "") :=
        allBraceless_keyComments (braceless_ofList (by decide)) hkeys
      have hremark : AllBraceless (onString form "The keys are specified as strings") :=
        allBraceless_onString (braceless_ofList (by decide)) form
      refine method_of_braceless ?_
      simp only [allBraceless_append, allBraceless_cons, allBraceless_nil, braceless_append,
        hn.keyword, hn.tag, hn.cls, hn.var, hfield, hcomments, hremark,
        braceless_keyParams hkeys, braceless_keyArgs hkeys, and_true, true_and]
      and_intros <;> exact braceless_ofList (by decide)
  | childObject | none | value =>
      refine method_of_braceless ?_
      simp only [allBraceless_append, allBraceless_cons, allBraceless_nil, braceless_append,
        hn.keyword, hn.tag, hn.cls, hn.var, hfield, and_true, true_and]
      and_intros <;> exact braceless_ofList (by decide)

theorem deleteLines_nests (hn : n.Braceless) (hasField : Bool) {lookup : Lookup}
    (hlookup : AllBraceless lookup.texts) : LinesNest 0 0 (deleteLines n hasField lookup) := by
  have hfield : AllBraceless (if hasField then ["this." ++ n.var ++ " = null;"] else []) := by
    split
    · simp only [allBraceless_cons, allBraceless_nil, braceless_append, hn.var, and_true]
      and_intros <;> exact braceless_ofList (by decide)
    · exact allBraceless_nil
  unfold deleteLines
  cases lookup with
  | keys keys form =>
      have hkeys := allBraceless_flatMap.mp hlookup
      have hcomments : AllBraceless (keyComments keys ".") :=
        allBraceless_keyComments (braceless_ofList (by decide)) hkeys
      have hremark : AllBraceless (onString form "The keys are specified as Strings") :=
        allBraceless_onString (braceless_ofList (by decide)) form
      refine method_of_braceless ?_
      simp only [allBraceless_append, allBraceless_cons, allBraceless_nil, braceless_append,
        hn.keyword, hn.tag, hn.cls, hcomments, hremark, braceless_keyParams hkeys,
        braceless_keyXPath hn.tag hkeys, and_true]
      and_intros <;> exact braceless_ofList (by decide)
  | value form =>
      have hremark : AllBraceless (onString form "The value is specified as a String") :=
        allBraceless_onString (braceless_ofList (by decide)) form
      refine method_of_braceless ?_
      simp only [allBraceless_append, allBraceless_cons, allBraceless_nil, braceless_append,
        hn.keyword, hn.tag, hn.cls, hn.param, hremark, braceless_inForm hn.type form,
        braceless_valueXPath hn.tag, and_true, true_and]
      and_intros <;> exact braceless_ofList (by decide)
  | none | childObject =>
      refine method_of_braceless ?_
      simp only [allBraceless_append, allBraceless_cons, allBraceless_nil, braceless_append,
        hn.keyword, hn.tag, hn.cls, hfield, and_true, true_and]
      and_intros <;> exact braceless_ofList (by decide)

theorem braceless_headingKeyword (kind : MemberKind) : braceless (headingKeyword kind) := by
  cases kind <;> exact braceless_ofList (by decide)

theorem braceless_memberKeyword (kind : MemberKind) : braceless (memberKeyword kind) := by
  cases kind <;> exact braceless_ofList (by decide)

variable {c : ClassSpec} {a : Accessor}

theorem accessNames_braceless (hroot : braceless c.rootClass) (ha : AllBraceless a.texts) :
    (accessNames c a).Braceless := by
  rw [Accessor.texts, allBraceless_cons, allBraceless_append] at ha
  obtain ⟨hname, htype, -⟩ := ha
  have htexts : AllBraceless (a.type.getD .string).texts := by
    cases hsome : a.type with
    | none =>
        simp only [Option.getD_none, ValueType.texts, ValueType.string, allBraceless_cons,
          allBraceless_nil, and_true]
        and_intros <;> exact braceless_ofList (by decide)
    | some type =>
        rw [hsome] at htype
        exact allBraceless_flatMap.mp htype type List.mem_cons_self
  have hsetLeaf : braceless (if a.kind = .leafList then "setLeafListValue"
      else "setLeafValue") := by
    split
    · exact braceless_ofList (by decide)
    · exact braceless_ofList (by decide)
  unfold accessNames
  refine ⟨hroot, hname, braceless_className hname, ?_, braceless_valueParam hname,
    braceless_memberKeyword a.kind, htexts, hsetLeaf⟩
  dsimp only
  exact braceless_memberName hname

theorem accessorLines_nests (hroot : braceless c.rootClass) (ha : AllBraceless a.texts) :
    LinesNest 0 0 (accessorLines c a) := by
  have hn := accessNames_braceless hroot ha
  have hlookup : AllBraceless a.operation.texts := by
    rw [Accessor.texts, allBraceless_cons, allBraceless_append] at ha
    exact ha.2.2
  unfold accessorLines
  cases hop : a.operation with rw [hop] at hlookup
  | get lookup =>
      cases lookup with
      | keys keys form => exact getEntryLines_nests hn (allBraceless_flatMap.mp hlookup) form
      | none | childObject | value => exact getValueLines_nests hn
  | set form => exact setLines_nests hn form
  | unset => exact unsetLines_nests hn
  | addEmpty => exact addEmptyLines_nests hn a.kind
  | addChild lookup => exact addLines_nests hn a.hasField hlookup
  | delete lookup => exact deleteLines_nests hn a.hasField hlookup
  | mark edit form => exact markLines_nests hn edit form
  | iterate => exact iterateLines_nests hn a.kind

theorem heading_nests (ha : AllBraceless a.texts) : LinesNest 0 0 (heading a) := by
  have hoptional : braceless (if a.optional then "optional " else "") := by
    split
    · exact braceless_ofList (by decide)
    · exact braceless_ofList (by decide)
  refine banner_nests ?_
  simp only [braceless_append, hoptional, braceless_headingKeyword,
    (allBraceless_cons.mp ha).1, and_true]
  and_intros <;> exact braceless_ofList (by decide)

-- Whatever child the accessor before was for, a heading more or less leaves the depth alone.
theorem accessorsLines_nests (hroot : braceless c.rootClass) {accessors : List Accessor}
    (h : ∀ a ∈ accessors, AllBraceless a.texts) (current : Option (MemberKind × String)) :
    LinesNest 0 0 (accessorsLines c current accessors) := by
  induction accessors generalizing current with
  | nil => exact .nil 0
  | cons a rest ih =>
      rw [List.forall_mem_cons] at h
      refine .append (.append ?_ (accessorLines_nests hroot h.1)) (ih h.2 _)
      split
      · exact .nil 0
      · exact heading_nests h.1

end Accessors

section Members

variable {c : ClassSpec}

theorem fieldLines_nests {field : String} (h : braceless field) :
    LinesNest 0 0 (fieldLines field) := by
  refine .of_braceless ?_
  simp only [fieldLines, allBraceless_cons, allBraceless_nil, braceless_append, h,
    braceless_className h, braceless_memberName h, and_true]
  and_intros <;> exact braceless_ofList (by decide)

theorem allBraceless_setKey {root : String} {key : KeyLeaf} (hroot : braceless root)
    (hkey : AllBraceless key.texts) (form : ValueForm) : AllBraceless (setKey root form key) := by
  obtain ⟨hident, htype⟩ := allBraceless_cons.mp hkey
  have hparam := braceless_valueParam hident
  have hvalue : braceless (if form = .wrapped then valueParam key.identifier
      else "new " ++ key.type.wrapper ++ "(" ++ valueParam key.identifier ++ ")") := by
    split
    · exact hparam
    · have hwrapper : braceless key.type.wrapper := braceless_inForm htype .wrapped
      simp only [braceless_append, hwrapper, hparam, and_true]
      and_intros <;> exact braceless_ofList (by decide)
  simp only [setKey, allBraceless_cons, allBraceless_nil, braceless_append, hroot, hident,
    braceless_memberName hident, hvalue, and_true, true_and]
  and_intros <;> exact braceless_ofList (by decide)

theorem constructorLines_nests (hname : braceless c.name) (htag : braceless c.tag)
    (hroot : braceless c.rootClass) {made : Constructor}
    (hargs : ∀ key ∈ made.args, AllBraceless key.texts) :
    LinesNest 0 0 (constructorLines c made) := by
  have hclosing : AllBraceless (if made.setsPrefix then
      ["setDefaultPrefix();", "setPrefix(" ++ c.rootClass ++ ".PREFIX);"] else []) := by
    split
    · simp only [allBraceless_cons, allBraceless_nil, braceless_append, hroot, and_true]
      and_intros <;> exact braceless_ofList (by decide)
    · exact allBraceless_nil
  unfold constructorLines
  cases made.mode with
  | noArgs =>
      refine method_of_braceless ?_
      simp only [allBraceless_append, allBraceless_cons, allBraceless_nil, braceless_append, hname,
        htag, hroot, hclosing, and_true, true_and]
      and_intros <;> exact braceless_ofList (by decide)
  | keyed form =>
      have hcomments : AllBraceless (keyComments made.args ".") :=
        allBraceless_keyComments (braceless_ofList (by decide)) hargs
      have hform : braceless (formComment form) := by
        cases form <;> exact braceless_ofList (by decide)
      have hset : AllBraceless (made.args.flatMap (setKey c.rootClass form)) :=
        allBraceless_flatMap.mpr fun key hkey => allBraceless_setKey hroot (hargs key hkey) form
      refine method_of_braceless ?_
      simp only [allBraceless_append, allBraceless_cons, allBraceless_nil, braceless_append, hname,
        htag, hroot, hclosing, hcomments, hform, hset, braceless_keyParams hargs, and_true,
        true_and]
      and_intros <;> exact braceless_ofList (by decide)

theorem copyLines_nests (hname : braceless c.name) {copy : CopyMethod}
    (hkeys : AllBraceless copy.keys) : LinesNest 0 0 (copyLines c copy) := by
  have hgetters : braceless (String.intercalate ", "
      (copy.keys.map fun key => "get" ++ className key ++ "Value()")) := by
    refine braceless_intercalate (braceless_ofList (by decide)) fun text htext => ?_
    obtain ⟨key, hkey, rfl⟩ := List.mem_map.mp htext
    simp only [braceless_append, braceless_className (hkeys key hkey), and_true]
    and_intros <;> exact braceless_ofList (by decide)
  -- The block that catches is opened and closed inside the method.
  have hbody : ∀ call, braceless call → LinesNest 0 0 (if copy.keys.isEmpty then [call]
      else ["try \x7b", "    " ++ call, "\x7d catch (INMException e) \x7b return null; \x7d"]) := by
    intro call hcall
    have hindented : braceless ("    " ++ call) :=
      braceless_append.mpr ⟨braceless_ofList (by decide), hcall⟩
    split
    · exact .single (nests_of_braceless hcall 0)
    · refine .cons (b := 1) (fun depth => by simp [depthAfter])
        (.cons (nests_of_braceless hindented 1) (.single fun depth => by simp [depthAfter]))
  unfold copyLines
  dsimp only
  split
  · refine method_nests ?_ (braceless_ofList (by decide)) (hbody _ ?_)
    · simp only [allBraceless_cons, allBraceless_nil, and_true]
      and_intros <;> exact braceless_ofList (by decide)
    · simp only [braceless_append, hname, hgetters, and_true]
      and_intros <;> exact braceless_ofList (by decide)
  · refine method_nests ?_ (braceless_ofList (by decide)) (hbody _ ?_)
    · simp only [allBraceless_cons, allBraceless_nil, and_true]
      and_intros <;> exact braceless_ofList (by decide)
    · simp only [braceless_append, hname, hgetters, and_true]
      and_intros <;> exact braceless_ofList (by decide)

theorem keyNamesLines_nests (h : AllBraceless c.keyNames) : LinesNest 0 0 (keyNamesLines c) := by
  refine method_nests ?_ (braceless_ofList (by decide)) ?_
  · simp only [allBraceless_cons, allBraceless_nil, and_true]
    and_intros <;> exact braceless_ofList (by decide)
  · split
    · exact .single (nests_of_braceless (braceless_ofList (by decide)) 0)
    · exact stringArray_nests h

theorem childrenNamesLines_nests (h : AllBraceless c.childrenNames) :
    LinesNest 0 0 (childrenNamesLines c) := by
  refine method_nests ?_ (braceless_ofList (by decide)) (stringArray_nests h)
  simp only [allBraceless_cons, allBraceless_nil, and_true]
  and_intros <;> exact braceless_ofList (by decide)

theorem addChildLines_nests (h : AllBraceless c.fields) : LinesNest 0 0 (addChildLines c) := by
  refine .append (banner_nests (braceless_ofList (by decide))) (method_of_braceless ?_)
  simp only [allBraceless_append, allBraceless_cons, allBraceless_nil, and_true]
  refine ⟨braceless_ofList (by decide), braceless_ofList (by decide),
    braceless_ofList (by decide), fun line hline => ?_⟩
  obtain ⟨⟨field, i⟩, hmem, rfl⟩ := List.mem_map.mp hline
  have hfield := h field (List.fst_mem_of_mem_zipIdx hmem)
  have helse : braceless (if i = 0 then "" else "else ") := by
    split
    · exact braceless_ofList (by decide)
    · exact braceless_ofList (by decide)
  simp only [braceless_append, helse, braceless_className hfield, braceless_memberName hfield,
    and_true, true_and]
  and_intros <;> exact braceless_ofList (by decide)

theorem elementBody_nests (h : AllBraceless c.texts) : LinesNest 0 0 (elementBody c) := by
  simp only [ClassSpec.texts, allBraceless_append, allBraceless_cons, allBraceless_flatMap,
    and_assoc] at h
  obtain ⟨hname, htag, -, hroot, -, -, -, hfields, hargs, hcopies, hkeys, hchildren,
    haccessors⟩ := h
  have hfieldLines : LinesNest 0 0 (c.fields.flatMap fieldLines) :=
    .flatMap fun field hfield => fieldLines_nests (hfields field hfield)
  have hconstructors : LinesNest 0 0 (c.constructors.flatMap (constructorLines c)) :=
    .flatMap fun made hmade => constructorLines_nests hname htag hroot (hargs made hmade)
  have hcopyLines : LinesNest 0 0 (c.copies.flatMap (copyLines c)) :=
    .flatMap fun copy hcopy => copyLines_nests hname (hcopies copy hcopy)
  have hsupport : LinesNest 0 0 (if c.addChildSupport then addChildLines c else []) := by
    split
    · exact addChildLines_nests hfields
    · exact .nil 0
  exact (((((hfieldLines.append hconstructors).append hcopyLines).append
    (keyNamesLines_nests hkeys)).append (childrenNamesLines_nests hchildren)).append
    (accessorsLines_nests hroot haccessors none)).append hsupport

theorem moduleBody_nests (hname : braceless c.name) (huri : braceless c.namespaceUri)
    (hprefixes : AllBraceless c.modulePrefix.toList) : LinesNest 0 0 (moduleBody c) := by
  have hgiven : braceless (c.modulePrefix.getD "") := by
    cases hsome : c.modulePrefix with
    | none => exact braceless_ofList (by decide)
    | some modulePrefix => exact hprefixes modulePrefix (by simp [hsome])
  unfold moduleBody
  dsimp only
  refine .append (.append (.of_braceless ?_) (method_of_braceless ?_)) (method_of_braceless ?_)
  · simp only [allBraceless_cons, allBraceless_nil, braceless_append, huri, hgiven, and_true]
    and_intros <;> exact braceless_ofList (by decide)
  · simp only [allBraceless_append, allBraceless_cons, allBraceless_nil, braceless_append, hname,
      and_true, true_and]
    and_intros <;> exact braceless_ofList (by decide)
  · simp only [allBraceless_append, allBraceless_cons, allBraceless_nil, braceless_append, hname,
      and_true, true_and]
    and_intros <;> exact braceless_ofList (by decide)

end Members

section Classes

variable {options : RenderOptions} {provenance : String} {c : ClassSpec}

theorem braceless_trimSlashes {path : String} (h : braceless path) :
    braceless (trimSlashes path) := by
  refine braceless_of_subset (fun d hd => ?_) h
  rw [trimSlashes, String.toList_ofList, List.mem_reverse] at hd
  exact List.mem_reverse.mp ((List.dropWhile_sublist _).subset hd)

-- The header of a class ends in the brace that opens it, and has no other.
theorem header_opens (hprovenance : braceless provenance) (hoptions : AllBraceless options.texts)
    (h : AllBraceless c.texts) :
    ∃ lines text, header options provenance c = lines ++ [text ++ "\x7b"] ∧
      AllBraceless lines ∧ braceless text := by
  simp only [RenderOptions.texts, allBraceless_cons] at hoptions
  simp only [ClassSpec.texts, allBraceless_append, allBraceless_cons, and_assoc] at h
  obtain ⟨hpackage, hversion, -⟩ := hoptions
  obtain ⟨hname, -, huri, -, hpath, -, hprefixes, -⟩ := h
  have himport : AllBraceless (if c.kind = .module then ["import java.util.Hashtable;"]
      else []) := by
    split
    · simp only [allBraceless_cons, allBraceless_nil, and_true]
      exact braceless_ofList (by decide)
    · exact allBraceless_nil
  have hcomment : AllBraceless (classComment c) := by
    unfold classComment
    cases hsome : c.modulePrefix with
    | some modulePrefix =>
        have hgiven := hprefixes modulePrefix (by simp [hsome])
        simp only [allBraceless_cons, allBraceless_nil, braceless_append, hname, huri, hgiven,
          and_true]
        and_intros <;> exact braceless_ofList (by decide)
    | none =>
        simp only [allBraceless_cons, allBraceless_nil, braceless_append, huri,
          braceless_trimSlashes hpath, and_true]
        and_intros <;> exact braceless_ofList (by decide)
  have hending : braceless (if c.kind = .module then " " else " extends Container ") := by
    split
    · exact braceless_ofList (by decide)
    · exact braceless_ofList (by decide)
  have hlast : (header options provenance c).getLast? = some ("public class " ++ c.name ++
      (if c.kind = .module then " " else " extends Container ") ++ "\x7b") := by
    simp only [header, List.getLast?_append, List.getLast?_cons_cons, List.getLast?_singleton,
      Option.some_or, String.append_assoc]
    split
    · rfl
    · rfl
  refine ⟨(header options provenance c).dropLast, _,
    (List.dropLast_append_getLast? _ hlast).symm, ?_, ?_⟩
  · simp only [header, List.dropLast_append_cons, List.dropLast_cons_cons, List.dropLast_singleton,
      ClassSpec.fileName, allBraceless_append, allBraceless_cons, allBraceless_nil,
      braceless_append, hname, hprovenance, hpackage, hversion, himport, hcomment,
      braceless_short, braceless_long, and_true, true_and]
    and_intros <;> exact braceless_ofList (by decide)
  · simp only [braceless_append, hname, hending, and_true]
    exact braceless_ofList (by decide)

theorem emitClass_eq (text : String) :
    emitClass options provenance text c = text ++ joinLines (classLines options provenance c) := by
  unfold emitClass
  induction classLines options provenance c generalizing text with
  | nil => simp [joinLines]
  | cons line lines ih =>
      rw [List.foldl_cons, ih]
      simp [joinLines, String.append_assoc]

theorem braceless_joinLines {lines : List String} (h : AllBraceless lines) :
    braceless (joinLines lines) := by
  refine braceless_join fun text htext => ?_
  obtain ⟨line, hline, rfl⟩ := List.mem_map.mp htext
  exact braceless_append.mpr ⟨h line hline, braceless_ofList (by decide)⟩

theorem oneBlock_classLines (hprovenance : braceless provenance)
    (hoptions : AllBraceless options.texts) (h : AllBraceless c.texts) :
    OneBlock (joinLines (classLines options provenance c)).toList := by
  obtain ⟨lines, text, hheader, hlines, htext⟩ := header_opens hprovenance hoptions h
  have hbody : LinesNest 0 0 (if c.kind = .module then moduleBody c else elementBody c) := by
    split
    · simp only [ClassSpec.texts, allBraceless_append, allBraceless_cons, and_assoc] at h
      obtain ⟨hname, -, huri, -, -, -, hprefixes, -⟩ := h
      exact moduleBody_nests hname huri hprefixes
    · exact elementBody_nests h
  have hbefore : braceless (joinLines lines ++ text) :=
    braceless_append.mpr ⟨braceless_joinLines hlines, htext⟩
  have hend : braceless "\n" := braceless_ofList (by decide)
  have hparts := oneBlock_of_nests hbefore ((nests_of_braceless hend 0).append hbody.joinLines)
  simpa [classLines, hheader, joinLines, String.toList_append] using hparts

end Classes

end Java

open Java

theorem class_is_one_block (options : RenderOptions) (provenance : String) (c : ClassSpec)
    (h : AllBraceless (provenance :: (options.texts ++ c.texts))) :
    ∃ added, OneBlock added.toList ∧
      ∀ text, emitClass options provenance text c = text ++ added := by
  rw [allBraceless_cons, allBraceless_append] at h
  exact ⟨_, oneBlock_classLines h.1 h.2.1 h.2.2, emitClass_eq⟩

-- No statement compiles to this class: it has keys that its constructors do not take, and looks
-- up a leaf by keys.
def strayClass : ClassSpec where
  name := "Entry"
  tag := "entry"
  kind := .list
  namespaceUri := "urn:m"
  rootClass := "M"
  modulePrefix := some "p"
  path := "/entry//"
  fields := ["default", "default"]
  keys := none
  constructors := [⟨.noArgs, [], true⟩, ⟨.keyed .primitive, [⟨"id", .string⟩], false⟩]
  copies := [⟨false, ["id"]⟩, ⟨true, []⟩]
  keyNames := ["id", "name"]
  childrenNames := []
  accessors := [⟨.leaf, "id", none, .get (.keys [⟨"id", .string⟩] .string), true, true⟩,
    ⟨.leafList, "tags", none, .delete (.value .primitive), false, true⟩]
  addChildSupport := true
  skipped := []

theorem class_is_one_block_strayClass :
    AllBraceless ("" :: ((⟨"p", "1", ⟨-1, 0, 0⟩⟩ : RenderOptions).texts ++ strayClass.texts)) ∧
    ∃ added, OneBlock added.toList ∧ ∀ text,
      emitClass ⟨"p", "1", ⟨-1, 0, 0⟩⟩ "" text strayClass = text ++ added := by
  have h : AllBraceless ("" :: ((⟨"p", "1", ⟨-1, 0, 0⟩⟩ : RenderOptions).texts ++
      strayClass.texts)) := by decide +kernel
  exact ⟨h, class_is_one_block _ _ _ h⟩

end YangBinding
