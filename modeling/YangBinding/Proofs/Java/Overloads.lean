import YangBinding.Proofs.Class.Operations
import YangBinding.Proofs.Class.Repeats
import YangBinding.Proofs.Java.Methods
import YangBinding.Proofs.Java.Names

namespace YangBinding

open Java

namespace Accessor

-- A method that adds a child and is told nothing about it, called `add` and the class.
def AddsPlain (a : Accessor) : Prop :=
  (a.operation = .addEmpty ∧ a.kind ≠ .leafList) ∨ a.operation = .addChild .none

-- The ways in which two methods of a class have the same signature: two iterators for the same
-- variable, an iterator that is called like another method without parameters, an empty value
-- of a leaf-list that is called like another child, and an entry of a list of the class `String`
-- with a single key.
inductive Clashes (a b : Accessor) : Prop
  | iterators : a.operation = .iterate → b.operation = .iterate → a.name ≠ b.name →
      memberName a.name = memberName b.name → Clashes a b
  | iteratorAdds : a.operation = .iterate → b.AddsPlain →
      memberName a.name ++ "Iterator" = "add" ++ className b.name → Clashes a b
  | iteratorAddsEmpty : a.operation = .iterate → b.operation = .addEmpty → b.kind = .leafList →
      memberName a.name ++ "Iterator" = "addEmpty" ++ className b.name → Clashes a b
  | iteratorDeletes : a.operation = .iterate → b.operation = .delete .none →
      memberName a.name ++ "Iterator" = "delete" ++ className b.name → Clashes a b
  | emptyValue : a.operation = .addEmpty → a.kind = .leafList → b.AddsPlain →
      className b.name = "Empty" ++ className a.name → Clashes a b
  | stringEntry {key} : a.operation = .addChild .childObject →
      b.operation = .addChild (.keys [key] .string) → a.name = b.name →
      className a.name = "String" → Clashes a b

variable {a b : Accessor}

theorem AddsPlain.signature_eq (h : b.AddsPlain) :
    b.signature = ⟨"add" ++ className b.name, []⟩ := by
  unfold signature
  rcases h with ⟨hop, hkind⟩ | hop
  · rw [hop, Operation.signature, Operation.subject, if_neg hkind]
    rfl
  · rw [hop]
    rfl

theorem signature_iterate (h : a.operation = .iterate) :
    a.signature = ⟨memberName a.name ++ "Iterator", []⟩ := by
  unfold signature
  rw [h, Operation.signature, Operation.word, String.empty_append]
  rfl

theorem signature_addEmpty (h : a.operation = .addEmpty) (hkind : a.kind = .leafList) :
    a.signature = ⟨"addEmpty" ++ className a.name, []⟩ := by
  unfold signature
  rw [h, Operation.signature, Operation.subject, if_pos hkind, Operation.word,
    ← String.append_assoc]
  rfl

theorem Clashes.signature_eq (h : Clashes a b) : a.signature = b.signature := by
  cases h with
  | iterators ha hb _ hname => rw [signature_iterate ha, signature_iterate hb, hname]
  | iteratorAdds ha hb hname => rw [signature_iterate ha, hb.signature_eq, hname]
  | iteratorAddsEmpty ha hb hkind hname =>
      rw [signature_iterate ha, signature_addEmpty hb hkind, hname]
  | iteratorDeletes ha hb hname =>
      rw [signature_iterate ha, hname]
      unfold signature
      rw [hb]
      rfl
  | emptyValue ha hkind hb hname =>
      rw [signature_addEmpty ha hkind, hb.signature_eq, hname, ← String.append_assoc]
      rfl
  | stringEntry ha hb hname hcls =>
      unfold signature
      rw [ha, hb, ← hname, hcls]
      rfl

theorem Clashes.ne (h : Clashes a b) : a ≠ b := by
  rintro rfl
  cases h with
  | iterators _ _ hne _ => exact hne rfl
  | iteratorAdds ha hb _ =>
      rcases hb with ⟨hop, -⟩ | hop
      · cases ha.symm.trans hop
      · cases ha.symm.trans hop
  | iteratorAddsEmpty ha hb _ _ => cases ha.symm.trans hb
  | iteratorDeletes ha hb _ => cases ha.symm.trans hb
  | emptyValue ha hkind hb _ =>
      rcases hb with ⟨-, hother⟩ | hop
      · exact hother hkind
      · cases ha.symm.trans hop
  | stringEntry ha hb _ _ => cases ha.symm.trans hb

end Accessor

section Words

def Operation.words : List String := ["get", "set", "unset", "add", "delete", "mark"]

theorem Operation.word_mem_words {operation : Operation} (h : operation ≠ .iterate) :
    operation.word ∈ words := by
  cases operation with
  | iterate => exact absurd rfl h
  | _ => simp [word, words]

-- Operations whose methods start with the same word.
inductive Operation.SameWord : Operation → Operation → Prop
  | get (lookup other : Lookup) : SameWord (.get lookup) (.get other)
  | set (form other : ValueForm) : SameWord (.set form) (.set other)
  | unset : SameWord .unset .unset
  | addEmpty : SameWord .addEmpty .addEmpty
  | addEmptyChild (other : Lookup) : SameWord .addEmpty (.addChild other)
  | addChildEmpty (lookup : Lookup) : SameWord (.addChild lookup) .addEmpty
  | addChild (lookup other : Lookup) : SameWord (.addChild lookup) (.addChild other)
  | delete (lookup other : Lookup) : SameWord (.delete lookup) (.delete other)
  | mark (edit : EditOperation) (form : Option ValueForm) (edit' : EditOperation)
      (form' : Option ValueForm) : SameWord (.mark edit form) (.mark edit' form')

theorem Operation.sameWord_of_word_eq {operation other : Operation} (h : operation ≠ .iterate)
    (hother : other ≠ .iterate) (hword : operation.word = other.word) :
    SameWord operation other := by
  cases operation <;> cases other <;> simp [word] at hword h hother <;> constructor

-- No two of the words start with the same letter.
theorem append_words_inj {first second rest other : String} (hfirst : first ∈ Operation.words)
    (hsecond : second ∈ Operation.words) (h : first ++ rest = second ++ other) :
    first = second ∧ rest = other := by
  have happart : ∀ v ∈ Operation.words, ∀ w ∈ Operation.words,
      v.toList.head? = w.toList.head? → v = w := by decide
  have hne : ∀ w ∈ Operation.words, w.toList ≠ [] := by decide
  have hhead := congrArg (·.toList.head?) h
  simp only [String.toList_append, List.head?_append_of_ne_nil _ (hne _ hfirst),
    List.head?_append_of_ne_nil _ (hne _ hsecond)] at hhead
  obtain rfl := happart _ hfirst _ hsecond hhead
  exact ⟨rfl, (String.append_right_inj first).mp h⟩

theorem EditOperation.mem_all (edit : EditOperation) : edit ∈ EditOperation.all := by
  cases edit <;> simp [EditOperation.all]

-- No verb ends in another.
theorem append_verb_inj {cls other : String} {edit second : EditOperation}
    (h : cls ++ className edit.text = other ++ className second.text) :
    cls = other ∧ edit = second := by
  have happart : ∀ e ∈ EditOperation.all, ∀ f ∈ EditOperation.all,
      (className e.text).toList <:+ (className f.text).toList → e = f := by decide +kernel
  have hlist := congrArg String.toList h
  rw [String.toList_append, String.toList_append] at hlist
  have hsame : edit = second := by
    rcases List.suffix_or_suffix_of_suffix (List.suffix_append cls.toList _)
        (hlist ▸ List.suffix_append other.toList _) with hs | hs
    · exact happart _ edit.mem_all _ second.mem_all hs
    · exact (happart _ second.mem_all _ edit.mem_all hs).symm
  subst hsame
  exact ⟨(String.append_left_inj _).mp h, rfl⟩

theorem value_ne_iterator (stem base : String) : stem ++ "Value" ≠ base ++ "Iterator" :=
  append_ne_append (by decide) (by decide) stem base

theorem verb_ne_iterator (edit : EditOperation) (stem base : String) :
    stem ++ className edit.text ≠ base ++ "Iterator" := by
  have happart : ∀ e ∈ EditOperation.all,
      (className e.text).toList.length ≤ "Iterator".toList.length ∧
        ¬ (className e.text).toList <:+ "Iterator".toList := by decide +kernel
  obtain ⟨hle, hsuffix⟩ := happart edit edit.mem_all
  exact append_ne_append hle hsuffix stem base

end Words

section Forms

variable {type : ValueType} {first second : ValueForm}

theorem inForm_inj (h : type.wrapper ≠ "String") (hfirst : first ≠ .primitive)
    (hsecond : second ≠ .primitive) (heq : type.inForm first = type.inForm second) :
    first = second := by
  cases first with
  | primitive => exact absurd rfl hfirst
  | wrapped =>
      cases second with
      | primitive => exact absurd rfl hsecond
      | wrapped => rfl
      | string => exact absurd heq h
  | string =>
      cases second with
      | primitive => exact absurd rfl hsecond
      | wrapped => exact absurd heq.symm h
      | string => rfl

theorem not_isString_of_primitive (h : .primitive ∈ Accessor.setForms type) :
    type.primitive ≠ "String" := by
  intro hstring
  rw [Accessor.setForms, if_pos (by simp [ValueType.isString, hstring])] at h
  simp at h

-- The setters of a leaf differ in what they take.
theorem inForm_inj_of_setForms (h : type.wrapper ≠ "String" ∧ type.wrapper ≠ type.primitive)
    (hfirst : first ∈ Accessor.setForms type) (hsecond : second ∈ Accessor.setForms type)
    (heq : type.inForm first = type.inForm second) : first = second := by
  by_cases hp : first = .primitive
  · subst hp
    cases second with
    | primitive => rfl
    | wrapped => exact absurd heq.symm h.2
    | string => exact absurd heq (not_isString_of_primitive hfirst)
  · by_cases hq : second = .primitive
    · subst hq
      cases first with
      | primitive => rfl
      | wrapped => exact absurd heq h.2
      | string => exact absurd heq.symm (not_isString_of_primitive hsecond)
    · exact inForm_inj h.1 hp hq heq

theorem wrapper_ne_of_dotted (h : '.' ∈ type.wrapper.toList) : type.wrapper ≠ "String" := by
  intro heq
  rw [heq] at h
  exact absurd h (by decide)

theorem keyTypes_inj {keys : List KeyLeaf} (hne : keys ≠ [])
    (hdotted : ∀ key ∈ keys, '.' ∈ key.type.wrapper.toList) (hfirst : first ≠ .primitive)
    (hsecond : second ≠ .primitive) (heq : keyTypes keys first = keyTypes keys second) :
    first = second := by
  obtain ⟨key, hk⟩ := List.exists_mem_of_ne_nil keys hne
  exact inForm_inj (wrapper_ne_of_dotted (hdotted key hk)) hfirst hsecond
    (List.map_inj_left.mp heq key hk)

theorem keyTypes_ne_nil {keys : List KeyLeaf} (hne : keys ≠ []) (form : ValueForm) :
    keyTypes keys form ≠ [] := by
  simpa [keyTypes] using hne

end Forms

namespace Offers

variable {type : ValueType} {keys : List KeyLeaf} {kind : MemberKind} {cls : String}
  {lookup other : Lookup}

theorem get_inj (hkeyed : kind = .list → keys ≠ [])
    (hdotted : ∀ key ∈ keys, '.' ∈ key.type.wrapper.toList)
    (h : Offers type keys kind (.get lookup)) (hother : Offers type keys kind (.get other))
    (htypes : (Operation.get lookup).paramTypes cls type =
      (Operation.get other).paramTypes cls type) : lookup = other := by
  rcases h.get_cases with rfl | ⟨form, rfl, hform, hlist⟩
  · rcases hother.get_cases with rfl | ⟨form', rfl, -, hlist⟩
    · rfl
    · exact absurd htypes.symm (keyTypes_ne_nil (hkeyed hlist) form')
  · rcases hother.get_cases with rfl | ⟨form', rfl, hform', -⟩
    · exact absurd htypes (keyTypes_ne_nil (hkeyed hlist) form)
    · rw [keyTypes_inj (hkeyed hlist) hdotted hform hform' htypes]

theorem mark_inj (hwrapper : type.wrapper ≠ "String") {edit edit' : EditOperation}
    {form form' : Option ValueForm} (h : Offers type keys kind (.mark edit form))
    (hother : Offers type keys kind (.mark edit' form'))
    (htypes : (Operation.mark edit form).paramTypes cls type =
      (Operation.mark edit' form').paramTypes cls type) : form = form' := by
  rcases h.mark_cases with ⟨rfl, rfl⟩ | ⟨rfl, given, rfl, hform⟩
  · rcases hother.mark_cases with ⟨-, rfl⟩ | ⟨hkind, -⟩
    · rfl
    · cases hkind
  · rcases hother.mark_cases with ⟨hkind, -⟩ | ⟨-, given', rfl, hform'⟩
    · cases hkind
    · rw [inForm_inj hwrapper hform hform' (List.cons.inj htypes).1]

theorem delete_inj (hwrapper : type.wrapper ≠ "String") (hkeyed : kind = .list → keys ≠ [])
    (hdotted : ∀ key ∈ keys, '.' ∈ key.type.wrapper.toList)
    (h : Offers type keys kind (.delete lookup)) (hother : Offers type keys kind (.delete other))
    (htypes : (Operation.delete lookup).paramTypes cls type =
      (Operation.delete other).paramTypes cls type) : lookup = other := by
  rcases h.delete_cases with ⟨rfl, rfl⟩ | ⟨rfl, form, rfl, hform⟩ | ⟨rfl, form, rfl, hform⟩
  · rcases hother.delete_cases with ⟨-, rfl⟩ | ⟨hkind, -⟩ | ⟨hkind, -⟩
    · rfl
    · cases hkind
    · cases hkind
  · rcases hother.delete_cases with ⟨hkind, -⟩ | ⟨-, form', rfl, hform'⟩ | ⟨hkind, -⟩
    · cases hkind
    · rw [inForm_inj hwrapper hform hform' (List.cons.inj htypes).1]
    · cases hkind
  · rcases hother.delete_cases with ⟨hkind, -⟩ | ⟨hkind, -⟩ | ⟨-, form', rfl, hform'⟩
    · cases hkind
    · cases hkind
    · rw [keyTypes_inj (hkeyed rfl) hdotted hform hform' htypes]

-- An entry of a list is added as an object or by its keys, and these may be written alike.
theorem addChild_inj (hkeyed : kind = .list → keys ≠ [])
    (hdotted : ∀ key ∈ keys, '.' ∈ key.type.wrapper.toList)
    (h : Offers type keys kind (.addChild lookup))
    (hother : Offers type keys kind (.addChild other))
    (htypes : (Operation.addChild lookup).paramTypes cls type =
      (Operation.addChild other).paramTypes cls type) :
    lookup = other ∨ ∃ form, form ≠ .primitive ∧ [cls] = keyTypes keys form ∧
      ((lookup = .childObject ∧ other = .keys keys form) ∨
        (lookup = .keys keys form ∧ other = .childObject)) := by
  rcases h.addChild_cases with rfl | rfl | ⟨form, rfl, hform, hlist⟩
  · rcases hother.addChild_cases with rfl | rfl | ⟨form', rfl, -, hlist⟩
    · exact .inl rfl
    · cases htypes
    · exact absurd htypes.symm (keyTypes_ne_nil (hkeyed hlist) form')
  · rcases hother.addChild_cases with rfl | rfl | ⟨form', rfl, hform', -⟩
    · cases htypes
    · exact .inl rfl
    · exact .inr ⟨form', hform', htypes, .inl ⟨rfl, rfl⟩⟩
  · rcases hother.addChild_cases with rfl | rfl | ⟨form', rfl, hform', -⟩
    · exact absurd htypes (keyTypes_ne_nil (hkeyed hlist) form)
    · exact .inr ⟨form, hform, htypes.symm, .inr ⟨rfl, rfl⟩⟩
    · exact .inl (by rw [keyTypes_inj (hkeyed hlist) hdotted hform hform' htypes])

end Offers

namespace Accessor

-- What is known of an accessor of a class whose child has these keys, if it is a list.
structure Regular (a : Accessor) (keys : List KeyLeaf) : Prop where
  offers : Offers (a.type.getD .string) keys a.kind a.operation
  wrapped : (a.type.getD .string).wrapper ≠ "String" ∧
    (a.type.getD .string).wrapper ≠ (a.type.getD .string).primitive
  keyed : a.kind = .list → keys ≠ []
  dotted : ∀ key ∈ keys, '.' ∈ key.type.wrapper.toList

variable {a b : Accessor} {keys others : List KeyLeaf}

theorem of_signature_eq (ha : a.operation ≠ .iterate) (hb : b.operation ≠ .iterate)
    (h : a.signature = b.signature) : Operation.SameWord a.operation b.operation ∧
    a.operation.subject a.kind (className a.name) (memberName a.name) =
      b.operation.subject b.kind (className b.name) (memberName b.name) ∧
    a.operation.paramTypes (className a.name) (a.type.getD .string) =
      b.operation.paramTypes (className b.name) (b.type.getD .string) := by
  obtain ⟨hname, htypes⟩ := Signature.mk.inj h
  obtain ⟨hword, hsubject⟩ := append_words_inj (Operation.word_mem_words ha)
    (Operation.word_mem_words hb) hname
  exact ⟨Operation.sameWord_of_word_eq ha hb hword, hsubject, htypes⟩

-- An iterator is called like another method only where that has no parameters and is not named
-- for a value or a verb at its end.
theorem Regular.clashes_of_iterate (hb : b.Regular keys) (ha : a.operation = .iterate)
    (hother : b.operation ≠ .iterate) (h : a.signature = b.signature) : a.Clashes b := by
  rw [signature_iterate ha] at h
  obtain ⟨hname, htypes⟩ := Signature.mk.inj h
  have hkeyed := hb.keyed
  have hoffers := hb.offers
  obtain ⟨kind, name, type, operation, optional, hasField⟩ := b
  dsimp only at hname htypes hkeyed hoffers hother
  cases hoffers with
  | readKey | read =>
      rw [Operation.subject_get_none, ← String.append_assoc] at hname
      exact absurd hname.symm (value_ne_iterator _ _)
  | unset =>
      rw [Operation.subject, ← String.append_assoc] at hname
      exact absurd hname.symm (value_ne_iterator _ _)
  | mark =>
      rw [Operation.subject, ← String.append_assoc] at hname
      exact absurd hname.symm (verb_ne_iterator _ _ _)
  | addEmpty => exact .iteratorAdds ha (.inl ⟨rfl, by simp⟩) hname
  | addEmptyValue =>
      rw [Operation.subject, if_pos rfl, ← String.append_assoc] at hname
      exact .iteratorAddsEmpty ha rfl rfl hname
  | addNewContainer | addNewEntry => exact .iteratorAdds ha (.inr rfl) hname
  | deleteContainer => exact .iteratorDeletes ha rfl hname
  | iterateValues | iterateEntries => exact absurd rfl hother
  | set _ | setValue _ | deleteValue _ | markValue _ | addContainer | addEntry => cases htypes
  | getEntry _ | addKeyedEntry _ | deleteEntry _ =>
      exact absurd htypes.symm (keyTypes_ne_nil (hkeyed rfl) _)

theorem Regular.addsPlain_of_addChild {lookup : Lookup} (hb : b.Regular keys)
    (hop : b.operation = .addChild lookup)
    (htypes : b.operation.paramTypes (className b.name) (b.type.getD .string) = []) :
    b.AddsPlain := by
  have hoffers := hb.offers
  rw [hop] at hoffers htypes
  rcases hoffers.addChild_cases with rfl | rfl | ⟨form, rfl, -, hkind⟩
  · exact .inr hop
  · cases htypes
  · exact absurd htypes (keyTypes_ne_nil (hb.keyed hkind) form)

-- The empty value of a leaf-list is added under the name of another child, if that has a method
-- for adding it plainly.
theorem className_eq_of_addEmpty (hop : a.operation = .addEmpty) (hb : b.AddsPlain)
    (h : (if a.kind = .leafList then "Empty" ++ className a.name else className a.name) =
      className b.name) : className a.name = className b.name ∨ a.Clashes b := by
  split at h
  · rename_i hkind
    exact .inr (.emptyValue hop hkind hb h.symm)
  · exact .inl h

theorem className_eq_of_addEmpty_addEmpty (ha : a.operation = .addEmpty)
    (hb : b.operation = .addEmpty)
    (h : (if a.kind = .leafList then "Empty" ++ className a.name else className a.name) =
      if b.kind = .leafList then "Empty" ++ className b.name else className b.name) :
    className a.name = className b.name ∨ a.Clashes b ∨ b.Clashes a := by
  by_cases hkind : b.kind = .leafList
  · by_cases hkind' : a.kind = .leafList
    · rw [if_pos hkind, if_pos hkind'] at h
      exact .inl ((String.append_right_inj "Empty").mp h)
    · rw [if_neg hkind'] at h
      rcases className_eq_of_addEmpty hb (.inl ⟨ha, hkind'⟩) h.symm with heq | hclash
      · exact .inl heq.symm
      · exact .inr (.inr hclash)
  · rw [if_neg hkind] at h
    rcases className_eq_of_addEmpty ha (.inl ⟨hb, hkind⟩) h with heq | hclash
    · exact .inl heq
    · exact .inr (.inl hclash)

-- Two methods that start with the same word are about children of the same class name, but for
-- an empty value of a leaf-list.
theorem Regular.className_eq (ha : a.Regular keys) (hb : b.Regular others)
    (hiterate : a.operation ≠ .iterate) (hother : b.operation ≠ .iterate)
    (h : a.signature = b.signature) :
    className a.name = className b.name ∨ a.Clashes b ∨ b.Clashes a := by
  obtain ⟨hword, hsubject, htypes⟩ := of_signature_eq hiterate hother h
  obtain ⟨kind, name, type, operation, optional, hasField⟩ := a
  obtain ⟨kind', name', type', operation', optional', hasField'⟩ := b
  cases hword with
  | get lookup other =>
      rcases ha.offers.get_cases with rfl | ⟨form, rfl, -, hkind⟩
      · rcases hb.offers.get_cases with rfl | ⟨form', rfl, -, hkind'⟩
        · exact .inl ((String.append_left_inj "Value").mp hsubject)
        · exact absurd htypes.symm (keyTypes_ne_nil (hb.keyed hkind') form')
      · rcases hb.offers.get_cases with rfl | ⟨form', rfl, -, hkind'⟩
        · exact absurd htypes (keyTypes_ne_nil (ha.keyed hkind) form)
        · exact .inl hsubject
  | set _ _ | unset => exact .inl ((String.append_left_inj "Value").mp hsubject)
  | mark edit form edit' form' => exact .inl (append_verb_inj hsubject).1
  | delete _ _ | addChild _ _ => exact .inl hsubject
  | addEmpty => exact className_eq_of_addEmpty_addEmpty rfl rfl hsubject
  | addEmptyChild other =>
      have hplain := hb.addsPlain_of_addChild rfl htypes.symm
      rcases className_eq_of_addEmpty rfl hplain hsubject with heq | hclash
      · exact .inl heq
      · exact .inr (.inl hclash)
  | addChildEmpty lookup =>
      have hplain := ha.addsPlain_of_addChild rfl htypes
      rcases className_eq_of_addEmpty rfl hplain hsubject.symm with heq | hclash
      · exact .inl heq.symm
      · exact .inr (.inr hclash)

-- The class of an entry is also what a key of it is written with, if it is called `String`.
theorem clashes_of_childObject (ha : a.operation = .addChild .childObject) {form : ValueForm}
    (hb : b.operation = .addChild (.keys keys form)) (hname : a.name = b.name)
    (hform : form ≠ .primitive) (hdotted : ∀ key ∈ keys, '.' ∈ key.type.wrapper.toList)
    (htypes : [className a.name] = keyTypes keys form) : a.Clashes b := by
  obtain ⟨key, hkeys, hcls⟩ := List.map_eq_singleton_iff.mp htypes.symm
  cases form with
  | primitive => exact absurd rfl hform
  | string =>
      subst hkeys
      exact .stringEntry ha hb hname hcls.symm
  | wrapped =>
      have hdot : '.' ∈ (className a.name).toList := hcls ▸ hdotted key (by simp [hkeys])
      exact absurd rfl (not_isDivider_of_mem_className hdot)

-- Two methods for the same child with the same signature are the same, but for an entry of the
-- class `String`.
theorem Regular.operation_eq (ha : a.Regular keys) (hb : b.Regular keys)
    (hname : a.name = b.name) (hkind : a.kind = b.kind) (htype : a.type = b.type)
    (hiterate : a.operation ≠ .iterate) (hother : b.operation ≠ .iterate)
    (h : a.signature = b.signature) :
    a.operation = b.operation ∨ a.Clashes b ∨ b.Clashes a := by
  obtain ⟨hword, hsubject, htypes⟩ := of_signature_eq hiterate hother h
  obtain ⟨kind, name, type, operation, optional, hasField⟩ := a
  obtain ⟨kind', name', type', operation', optional', hasField'⟩ := b
  dsimp only at hname hkind htype hsubject htypes
  subst hname hkind htype
  cases hword with
  | unset | addEmpty => exact .inl rfl
  | get lookup other =>
      exact .inl (congrArg Operation.get (ha.offers.get_inj ha.keyed ha.dotted hb.offers htypes))
  | set form form' =>
      exact .inl (congrArg Operation.set (inForm_inj_of_setForms ha.wrapped
        ha.offers.set_cases hb.offers.set_cases (List.cons.inj htypes).1))
  | mark edit form edit' form' =>
      obtain rfl := (append_verb_inj hsubject).2
      exact .inl (congrArg (Operation.mark edit) (ha.offers.mark_inj ha.wrapped.1 hb.offers htypes))
  | delete lookup other =>
      exact .inl (congrArg Operation.delete
        (ha.offers.delete_inj ha.wrapped.1 ha.keyed ha.dotted hb.offers htypes))
  | addEmptyChild other => exact absurd hb.offers ha.offers.not_addEmpty_and_addChild
  | addChildEmpty lookup => exact absurd ha.offers hb.offers.not_addEmpty_and_addChild
  | addChild lookup other =>
      rcases ha.offers.addChild_inj ha.keyed ha.dotted hb.offers htypes with
        rfl | ⟨form, hform, hcls, ⟨rfl, rfl⟩ | ⟨rfl, rfl⟩⟩
      · exact .inl rfl
      · exact .inr (.inl (clashes_of_childObject rfl rfl rfl hform hb.dotted hcls))
      · exact .inr (.inr (clashes_of_childObject rfl rfl rfl hform ha.dotted hcls))

end Accessor

section Class

variable {members : List Member}

theorem Member.regular {m : Member} {a : Accessor} (h : a ∈ m.accessors) : a.Regular m.keys := by
  obtain ⟨operation, hop, rfl⟩ := List.mem_map.mp h
  exact ⟨m.offers operation hop, m.wrapped, m.keyed, m.dotted⟩

theorem Member.eq_accessor {m : Member} {a : Accessor} (h : a ∈ m.accessors) :
    a = m.accessor a.operation := by
  obtain ⟨operation, -, rfl⟩ := List.mem_map.mp h
  rfl

theorem Member.name_of_mem_accessors {m : Member} {a : Accessor} (h : a ∈ m.accessors) :
    a.name = m.name := congrArg Accessor.name (eq_accessor h)

-- Methods of the same signature clash, or they are one method.
theorem eq_or_clashes (hmembers : (members.map fun m => className m.name).Nodup)
    {a b : Accessor} (ha : a ∈ members.flatMap Member.accessors)
    (hb : b ∈ members.flatMap Member.accessors) (h : a.signature = b.signature) :
    a = b ∨ a.Clashes b ∨ b.Clashes a := by
  obtain ⟨m, hm, ham⟩ := List.mem_flatMap.mp ha
  obtain ⟨m', hm', hbm⟩ := List.mem_flatMap.mp hb
  have hname := Member.name_of_mem_accessors ham
  have hname' := Member.name_of_mem_accessors hbm
  have hmember (hcls : className a.name = className b.name) : m = m' :=
    List.inj_on_of_nodup_map hmembers hm hm' (by rw [← hname, ← hname', hcls])
  have hsame (hcls : className a.name = className b.name) (hop : a.operation = b.operation) :
      a = b := by
    rw [Member.eq_accessor ham, Member.eq_accessor hbm, hmember hcls, hop]
  by_cases hiterate : a.operation = .iterate
  · by_cases hother : b.operation = .iterate
    · by_cases hnames : a.name = b.name
      · exact .inl (hsame (congrArg className hnames) (hiterate.trans hother.symm))
      · rw [Accessor.signature_iterate hiterate, Accessor.signature_iterate hother] at h
        exact .inr (.inl (.iterators hiterate hother hnames
          ((String.append_left_inj "Iterator").mp (Signature.mk.inj h).1)))
    · exact .inr (.inl ((Member.regular hbm).clashes_of_iterate hiterate hother h))
  · by_cases hother : b.operation = .iterate
    · exact .inr (.inr ((Member.regular ham).clashes_of_iterate hother hiterate h.symm))
    · rcases (Member.regular ham).className_eq (Member.regular hbm) hiterate hother h with
        hcls | hclash
      · obtain rfl := hmember hcls
        have hkind : a.kind = b.kind := by rw [Member.eq_accessor ham, Member.eq_accessor hbm]; rfl
        have htype : a.type = b.type := by rw [Member.eq_accessor ham, Member.eq_accessor hbm]; rfl
        rcases (Member.regular ham).operation_eq (Member.regular hbm) (hname.trans hname'.symm)
          hkind htype hiterate hother h with hop | hclash
        · exact .inl (hsame hcls hop)
        · exact .inr hclash
      · exact .inr hclash

theorem Member.accessors_nodup (m : Member) : m.accessors.Nodup :=
  m.distinct.map fun _ _ h => congrArg Accessor.operation h

theorem flatMap_accessors_nodup (hmembers : (members.map fun m => className m.name).Nodup) :
    (members.flatMap Member.accessors).Nodup := by
  refine List.nodup_flatMap.mpr ⟨fun m _ => m.accessors_nodup, ?_⟩
  refine (List.pairwise_map.mp hmembers).imp fun {m m'} hne a ha hb => hne ?_
  rw [← Member.name_of_mem_accessors ha, ← Member.name_of_mem_accessors hb]

-- The accessors of a class have distinct signatures unless two of them clash.
theorem accessor_signatures_nodup_iff
    (hmembers : (members.map fun m => className m.name).Nodup) {accessors : List Accessor}
    (h : accessors = members.flatMap Member.accessors) :
    (accessors.map Accessor.signature).Nodup ↔
      ∀ a ∈ accessors, ∀ b ∈ accessors, ¬ a.Clashes b := by
  subst h
  constructor
  · intro hnodup a ha b hb hclash
    exact hclash.ne (List.inj_on_of_nodup_map hnodup ha hb hclash.signature_eq)
  · intro hnone
    refine List.Nodup.map_on (fun a ha b hb heq => ?_) (flatMap_accessors_nodup hmembers)
    rcases eq_or_clashes hmembers ha hb heq with hsame | hclash | hclash
    · exact hsame
    · exact absurd hclash (hnone a ha b hb)
    · exact absurd hclash (hnone b hb a ha)

end Class

section Others

variable {a : Accessor} {keys : List KeyLeaf}

-- The methods that every class of a container or list has.
def fixedSignatures : List Signature :=
  [⟨"clone", []⟩, ⟨"cloneShallow", []⟩, ⟨"keyNames", []⟩, ⟨"childrenNames", []⟩]

-- A class is not called like a method, since its name does not start with a small letter.
theorem className_ne_of_startsSmall (ident : String) {name : String}
    (h : Text.startsSmall name) : className ident ≠ name := by
  rintro rfl
  obtain ⟨c, hc, hsmall⟩ := Option.any_eq_true _ _ |>.mp h
  exact head_className_not_isSmall hc (of_decide_eq_true hsmall)

theorem startsSmall_word_append {operation : Operation} (h : operation ≠ .iterate)
    (rest : String) : Text.startsSmall (operation.word ++ rest) := by
  have hall : ∀ w ∈ Operation.words, Text.startsSmall w ∧ w.toList ≠ [] := by decide
  obtain ⟨hsmall, hne⟩ := hall _ (Operation.word_mem_words h)
  rwa [Text.startsSmall, String.toList_append, List.head?_append_of_ne_nil _ hne]

theorem Accessor.name_signature_ne_className (h : a.operation ≠ .iterate) (ident : String) :
    a.signature.name ≠ className ident :=
  (className_ne_of_startsSmall ident (startsSmall_word_append h _)).symm

theorem Accessor.signature_notMem_fixed (a : Accessor) : a.signature ∉ fixedSignatures := by
  intro hmem
  by_cases hiterate : a.operation = .iterate
  · have hlast : ∀ s ∈ fixedSignatures, s.name.toList.getLast? ≠ some 'r' := by decide
    refine hlast _ hmem ?_
    rw [signature_iterate hiterate]
    simp [String.toList_append]
  · have hapart : ∀ s ∈ fixedSignatures, ∀ w ∈ Operation.words,
        s.name.toList.head? ≠ w.toList.head? := by decide
    have hne : ∀ w ∈ Operation.words, w.toList ≠ [] := by decide
    have hword := Operation.word_mem_words hiterate
    refine hapart _ hmem _ hword ?_
    exact (congrArg List.head? String.toList_append).trans
      (List.head?_append_of_ne_nil _ (hne _ hword))

-- An added element is neither an object of a class of that name nor a key.
theorem Accessor.Regular.signature_ne_addChild (h : a.Regular keys) :
    a.signature ≠ ⟨"addChild", ["Element"]⟩ := by
  intro heq
  obtain ⟨hname, htypes⟩ := Signature.mk.inj heq
  obtain ⟨kind, name, type, operation, optional, hasField⟩ := a
  dsimp only at hname htypes
  by_cases hiterate : operation = .iterate
  · rw [hiterate] at htypes
    cases htypes
  · have hadd : operation.word ++ operation.subject kind (className name) (memberName name) =
        Operation.addEmpty.word ++ "Child" := hname
    obtain ⟨hword, hsubject⟩ := append_words_inj (Operation.word_mem_words hiterate)
      (Operation.word_mem_words (by simp)) hadd
    cases Operation.sameWord_of_word_eq hiterate (by simp) hword with
    | addEmpty => cases htypes
    | addChildEmpty lookup =>
        rcases h.offers.addChild_cases with rfl | rfl | ⟨form, rfl, hform, -⟩
        · cases htypes
        · have hcls : className name = "Element" := (List.cons.inj htypes).1
          rw [Operation.subject, hcls] at hsubject
          exact absurd hsubject (by decide)
        · obtain ⟨key, hkeys, hkey⟩ := List.map_eq_singleton_iff.mp htypes
          have hdotted := h.dotted key (by simp [hkeys])
          cases form with
          | primitive => exact hform rfl
          | string => exact absurd (show "String" = "Element" from hkey) (by decide)
          | wrapped =>
              rw [show key.type.wrapper = "Element" from hkey] at hdotted
              exact absurd hdotted (by decide)

end Others

-- The accessors of a class of a container or list are those of its members, one for each data
-- node.
theorem Node.exists_members_of_classSpec {n : Node} {context : ModuleContext} {topLevel : Bool}
    {path : String} {c : ClassSpec} (h : n.classSpec context topLevel path = .ok c) :
    ∃ members : List Member, c.accessors = members.flatMap Member.accessors ∧
      c.childrenNames = members.map Member.name := by
  obtain ⟨parts, _, hparts, -, rfl⟩ := classSpec_eq_ok_iff.mp h
  exact exists_members (Except.mapM_eq_ok_iff.mp hparts)

theorem Node.constructor_signatures_nodup {n : Node} {context : ModuleContext} {topLevel : Bool}
    {path : String} {c : ClassSpec} (h : n.classSpec context topLevel path = .ok c) :
    (c.constructors.map Constructor.paramTypes).Nodup ∧
      ∃ made ∈ c.constructors, made.paramTypes = [] := by
  obtain ⟨_, keys, -, hkeys, rfl⟩ := classSpec_eq_ok_iff.mp h
  cases keys with
  | none => exact ⟨List.nodup_singleton _, _, List.mem_singleton_self _, rfl⟩
  | some keys =>
      obtain ⟨-, hkeys⟩ := classKeys_eq_ok_some_iff.mp hkeys
      obtain ⟨-, -, -, hne⟩ := keys_eq_ok_iff.mp hkeys
      refine ⟨paramTypes_constructors_nodup hne (fun _ => wrapper_ne_of_mem_keys hkeys) _, ?_⟩
      rw [constructors_some]
      exact ⟨_, List.mem_append_left _ List.mem_cons_self, rfl⟩

theorem ClassSpec.signatures_eq {n : Node} {context : ModuleContext} {topLevel : Bool}
    {path : String} {c : ClassSpec} (h : n.classSpec context topLevel path = .ok c) :
    c.signatures = c.constructors.map (fun made => ⟨c.name, made.paramTypes⟩) ++ fixedSignatures ++
      c.accessors.map Accessor.signature ++
      if c.addChildSupport then [⟨"addChild", ["Element"]⟩] else [] := by
  obtain ⟨_, keys, -, -, rfl⟩ := Node.classSpec_eq_ok_iff.mp h
  rw [signatures, List.append_assoc (List.map _ _)]
  rfl

section Together

variable {n : Node} {context : ModuleContext} {topLevel : Bool} {path : String} {c : ClassSpec}

theorem Node.classSpec_name (h : n.classSpec context topLevel path = .ok c) :
    c.name = className n.arg := by
  obtain ⟨_, _, _, _, rfl⟩ := classSpec_eq_ok_iff.mp h
  rfl

-- A class is not constructed under the name of a method, except for an iterator.
theorem constructors_disjoint_iff (h : n.classSpec context topLevel path = .ok c) :
    (∀ made ∈ c.constructors, ∀ a ∈ c.accessors, (⟨c.name, made.paramTypes⟩ : Signature) ≠
      a.signature) ↔
      ∀ a ∈ c.accessors, a.operation = .iterate → c.name ≠ memberName a.name ++ "Iterator" := by
  obtain ⟨-, plain, hplain, htypes⟩ := Node.constructor_signatures_nodup h
  constructor
  · intro hall a ha hop hname
    refine hall plain hplain a ha ?_
    rw [Accessor.signature_iterate hop, htypes, hname]
  · intro hall made hmade a ha heq
    by_cases hop : a.operation = .iterate
    · rw [Accessor.signature_iterate hop] at heq
      exact hall a ha hop (Signature.mk.inj heq).1
    · have hname : a.signature.name = c.name := (congrArg Signature.name heq).symm
      rw [Node.classSpec_name h] at hname
      exact Accessor.name_signature_ne_className hop n.arg hname

-- The constructors differ in their parameters, and from all methods with a fixed name in theirs.
theorem constructors_and_fixed_nodup (h : n.classSpec context topLevel path = .ok c) :
    (c.constructors.map (fun made => (⟨c.name, made.paramTypes⟩ : Signature)) ++
      fixedSignatures).Nodup := by
  obtain ⟨hnodup, -⟩ := Node.constructor_signatures_nodup h
  have hsmall : ∀ s ∈ fixedSignatures, Text.startsSmall s.name := by decide
  refine List.nodup_append.mpr ⟨?_, by decide, ?_⟩
  · have hmap : ((c.constructors.map Constructor.paramTypes).map (Signature.mk c.name)).Nodup :=
      hnodup.map fun _ _ heq => (Signature.mk.inj heq).2
    rw [List.map_map] at hmap
    exact hmap
  · intro made hmade s hs heq
    obtain ⟨_, -, rfl⟩ := List.mem_map.mp hmade
    refine className_ne_of_startsSmall n.arg (hsmall s hs) ?_
    rw [← Node.classSpec_name h, ← heq]

theorem addChild_notMem (h : n.classSpec context topLevel path = .ok c) :
    (⟨"addChild", ["Element"]⟩ : Signature) ∉
      c.constructors.map (fun made => ⟨c.name, made.paramTypes⟩) ++ fixedSignatures ++
        c.accessors.map Accessor.signature := by
  simp only [List.mem_append, not_or]
  refine ⟨⟨fun hmem => ?_, by decide⟩, fun hmem => ?_⟩
  · obtain ⟨made, -, heq⟩ := List.mem_map.mp hmem
    refine className_ne_of_startsSmall n.arg (show Text.startsSmall "addChild" by decide) ?_
    rw [← Node.classSpec_name h]
    exact (Signature.mk.inj heq).1
  · obtain ⟨a, ha, heq⟩ := List.mem_map.mp hmem
    obtain ⟨members, haccessors, -⟩ := Node.exists_members_of_classSpec h
    rw [haccessors] at ha
    obtain ⟨m, -, ham⟩ := List.mem_flatMap.mp ha
    exact (Member.regular ham).signature_ne_addChild heq

theorem signatures_nodup_iff (h : n.classSpec context topLevel path = .ok c)
    (hdistinct : (c.childrenNames.map className).Nodup) :
    c.signatures.Nodup ↔
      (∀ a ∈ c.accessors, ∀ b ∈ c.accessors, ¬ a.Clashes b) ∧
      ∀ a ∈ c.accessors, a.operation = .iterate → c.name ≠ memberName a.name ++ "Iterator" := by
  obtain ⟨members, haccessors, hnames⟩ := Node.exists_members_of_classSpec h
  have hmembers : (members.map fun m => className m.name).Nodup := by
    rw [hnames, List.map_map] at hdistinct
    exact hdistinct
  rw [← accessor_signatures_nodup_iff hmembers haccessors, ← constructors_disjoint_iff h,
    ClassSpec.signatures_eq h, List.nodup_append, List.nodup_append]
  constructor
  · rintro ⟨⟨-, hnodup, hapart⟩, -, -⟩
    refine ⟨hnodup, fun made hmade a ha => ?_⟩
    exact hapart _ (List.mem_append_left _ (List.mem_map_of_mem hmade)) _ (List.mem_map_of_mem ha)
  · rintro ⟨hnodup, hapart⟩
    refine ⟨⟨constructors_and_fixed_nodup h, hnodup, ?_⟩, by split <;> simp, ?_⟩
    · intro s hs s' hs' heq
      obtain ⟨a, ha, rfl⟩ := List.mem_map.mp hs'
      rcases List.mem_append.mp hs with hs | hs
      · obtain ⟨made, hmade, rfl⟩ := List.mem_map.mp hs
        exact hapart made hmade a ha heq
      · exact a.signature_notMem_fixed (heq ▸ hs)
    · intro s hs s' hs' heq
      split at hs'
      · rw [List.mem_singleton.mp hs'] at heq
        exact addChild_notMem h (heq ▸ hs)
      · simp at hs'

end Together

theorem method_signatures_distinct_iff (forest : Forest) (withSchema : Bool)
    (compilation : Compilation) (h : forest.compile withSchema = .ok compilation) :
    ∀ c ∈ compilation.classes, c.kind ≠ .module → (c.childrenNames.map className).Nodup →
      (∀ options provenance, classLines options provenance c =
        header options provenance c ++ elementBody c ++ ["\x7d"]) ∧
      Writes (elementBody c) c.signatures ∧
      (c.signatures.Nodup ↔
        (∀ a ∈ c.accessors, ∀ b ∈ c.accessors, ¬ a.Clashes b) ∧
        ∀ a ∈ c.accessors, a.operation = .iterate →
          c.name ≠ memberName a.name ++ "Iterator") := by
  intro c hc hkind hdistinct
  refine ⟨fun options provenance => by rw [classLines, if_neg hkind], elementBody_writes c, ?_⟩
  rcases Forest.spec_of_mem_classes h hc with ⟨_, _, _, rfl⟩ | ⟨n, context, topLevel, path, hspec⟩
  · exact absurd rfl hkind
  · exact signatures_nodup_iff hspec hdistinct

-- Children of every kind. The entries of the list are of the class `String`, but they have two
-- keys.
def everyKind : Statement :=
  .mk .module "m" [.mk .namespaceUri "urn:m" [], .mk .modulePrefix "p" [],
    .mk .container "c" [
      .mk .list "string" [.mk .key "k n" [], .mk .leaf "k" [.mk .type "string" []],
        .mk .leaf "n" [.mk .type "int32" []]],
      .mk .leafList "x" [.mk .type "uint8" []], .mk .leaf "empty" [.mk .type "string" []],
      .mk .container "child" []]]

theorem method_signatures_of_everyKind :
    ∃ compilation, Forest.compile [everyKind] false = .ok compilation ∧
      ∃ c ∈ compilation.classes, c.kind ≠ .module ∧ (c.childrenNames.map className).Nodup ∧
        c.childrenNames = ["string", "x", "empty", "child"] ∧
        c.signatures.length = 42 ∧ c.signatures.Nodup ∧
        (∀ options provenance, classLines options provenance c =
          header options provenance c ++ elementBody c ++ ["\x7d"]) ∧
        Writes (elementBody c) c.signatures ∧
        (c.signatures.Nodup ↔
          (∀ a ∈ c.accessors, ∀ b ∈ c.accessors, ¬ a.Clashes b) ∧
          ∀ a ∈ c.accessors, a.operation = .iterate →
            c.name ≠ memberName a.name ++ "Iterator") := by
  obtain ⟨compilation, h, c, hc, hkind, hdistinct, hnames, hlength, hnodup⟩ :
      ∃ compilation, Forest.compile [everyKind] false = .ok compilation ∧
        ∃ c ∈ compilation.classes, c.kind ≠ .module ∧ (c.childrenNames.map className).Nodup ∧
          c.childrenNames = ["string", "x", "empty", "child"] ∧
          c.signatures.length = 42 ∧ c.signatures.Nodup := ⟨_, rfl, by decide +kernel⟩
  exact ⟨compilation, h, c, hc, hkind, hdistinct, hnames, hlength, hnodup,
    method_signatures_distinct_iff _ _ _ h c hc hkind hdistinct⟩

-- Adding an empty value of the leaf-list is called like adding the leaf.
def emptyNeighbour : Statement :=
  .mk .module "m" [.mk .namespaceUri "urn:m" [], .mk .modulePrefix "p" [],
    .mk .container "c" [.mk .leafList "x" [.mk .type "string" []],
      .mk .leaf "empty-x" [.mk .type "string" []]]]

theorem method_signatures_clash :
    ∃ compilation, Forest.compile [emptyNeighbour] false = .ok compilation ∧
      ∃ c ∈ compilation.classes, c.kind ≠ .module ∧ (c.childrenNames.map className).Nodup ∧
        ¬ c.signatures.Nodup ∧ c.signatures.count ⟨"addEmptyX", []⟩ = 2 := by
  have h : Forest.compile [emptyNeighbour] false = .ok _ := rfl
  exact ⟨_, h, by decide +kernel⟩

end YangBinding
