import YangBinding.Proofs.Class.KeyAgreement
import YangBinding.Proofs.Class.Repeats
import YangBinding.Proofs.Java.Names
import Mathlib.Data.List.Nodup

-- Where the values of one function are distinct, those of another are if it tells no less apart.
theorem List.nodup_map_iff_of_nodup_map {α β γ : Type} {xs : List α} {g : α → β}
    (hg : (xs.map g).Nodup) (f : α → γ) :
    (xs.map f).Nodup ↔ ∀ a ∈ xs, ∀ b ∈ xs, f a = f b → g a = g b := by
  constructor
  · intro hf a ha b hb heq
    rw [List.inj_on_of_nodup_map hf ha hb heq]
  · intro h
    refine List.Nodup.map_on (fun a ha b hb heq => ?_) (List.Nodup.of_map g hg)
    exact List.inj_on_of_nodup_map hg ha hb (h a ha b hb heq)

namespace YangBinding

namespace Java

-- Different classes whose names differ in the case of the first letter only.
def CaseTwins (a b : String) : Prop := className a ≠ className b ∧ lowerCamel a = lowerCamel b

-- One identifier gives a reserved word, and the other the same word with an underscore.
def Escaped (a b : String) : Prop :=
  lowerCamel a ∈ reserved ∧ lowerCamel b = lowerCamel a ++ "_"

-- One identifier is that of the other with `Value` behind it.
def ValueOf (a b : String) : Prop := lowerCamel b = lowerCamel a ++ "Value"

theorem reserved_getLast : ∀ word ∈ reserved, word.toList.getLast? ≠ some '_' := by decide +kernel

theorem reserved_not_value : ∀ word ∈ reserved, ¬ "Value".toList <:+ word.toList := by
  decide +kernel

section Sharing

variable {a b : String}

theorem memberName_of_reserved (h : lowerCamel a ∈ reserved) :
    memberName a = lowerCamel a ++ "_" := by
  rw [memberName, if_pos (by simpa using h)]

theorem memberName_of_not_reserved (h : lowerCamel a ∉ reserved) :
    memberName a = lowerCamel a := by
  rw [memberName, if_neg (by simpa using h)]

theorem memberName_not_reserved (ident : String) : memberName ident ∉ reserved := by
  by_cases h : lowerCamel ident ∈ reserved
  · rw [memberName_of_reserved h]
    intro hmem
    exact reserved_getLast _ hmem (by simp [String.toList_append])
  · rwa [memberName_of_not_reserved h]

theorem Escaped.memberName_eq (h : Escaped a b) : memberName a = memberName b := by
  have hfree : lowerCamel b ∉ reserved := by
    intro hmem
    exact reserved_getLast _ hmem (by simp [h.2, String.toList_append])
  rw [memberName_of_reserved h.1, memberName_of_not_reserved hfree, h.2]

theorem Escaped.className_ne (h : Escaped a b) : className a ≠ className b := by
  intro heq
  have hsame : lowerCamel b = lowerCamel a := by rw [lowerCamel, ← heq, lowerCamel]
  have hlength := congrArg (·.toList.length) (hsame.symm.trans h.2)
  simp [String.toList_append] at hlength

theorem memberName_eq_iff : memberName a = memberName b ↔
    lowerCamel a = lowerCamel b ∨ Escaped a b ∨ Escaped b a := by
  constructor
  · intro h
    by_cases ha : lowerCamel a ∈ reserved
    · by_cases hb : lowerCamel b ∈ reserved
      · rw [memberName_of_reserved ha, memberName_of_reserved hb, String.append_left_inj] at h
        exact .inl h
      · rw [memberName_of_reserved ha, memberName_of_not_reserved hb] at h
        exact .inr (.inl ⟨ha, h.symm⟩)
    · by_cases hb : lowerCamel b ∈ reserved
      · rw [memberName_of_not_reserved ha, memberName_of_reserved hb] at h
        exact .inr (.inr ⟨hb, h⟩)
      · rw [memberName_of_not_reserved ha, memberName_of_not_reserved hb] at h
        exact .inl h
  · rintro (h | h | h)
    · rw [memberName, memberName, h]
    · exact h.memberName_eq
    · exact h.memberName_eq.symm

theorem valueParam_eq_iff : valueParam a = valueParam b ↔ lowerCamel a = lowerCamel b :=
  String.append_left_inj "Value"

-- An escaped word ends in an underscore, so a parameter meets plain names only.
theorem valueParam_eq_memberName_iff : valueParam a = memberName b ↔ ValueOf a b := by
  rw [valueParam, ValueOf]
  by_cases hb : lowerCamel b ∈ reserved
  · rw [memberName_of_reserved hb]
    constructor
    · intro h
      have hlast := congrArg (·.toList.getLast?) h
      simp [String.toList_append] at hlast
    · intro h
      refine absurd ?_ (reserved_not_value _ hb)
      rw [h, String.toList_append]
      exact List.suffix_append _ _
  · rw [memberName_of_not_reserved hb, eq_comm]

end Sharing

section Distinct

variable {idents : List String}

theorem valueParams_nodup_iff (h : (idents.map className).Nodup) :
    (idents.map valueParam).Nodup ↔ ∀ a ∈ idents, ∀ b ∈ idents, ¬ CaseTwins a b := by
  rw [List.nodup_map_iff_of_nodup_map h]
  simp only [valueParam_eq_iff, CaseTwins, not_and', not_not]

theorem memberNames_nodup_iff (h : (idents.map className).Nodup) :
    (idents.map memberName).Nodup ↔
      ∀ a ∈ idents, ∀ b ∈ idents, ¬ CaseTwins a b ∧ ¬ Escaped a b := by
  rw [List.nodup_map_iff_of_nodup_map h]
  constructor
  · intro hall a ha b hb
    constructor
    · rintro ⟨hne, hsame⟩
      exact hne (hall a ha b hb (memberName_eq_iff.mpr (.inl hsame)))
    · intro hescaped
      exact hescaped.className_ne (hall a ha b hb hescaped.memberName_eq)
  · intro hall a ha b hb hsame
    rcases memberName_eq_iff.mp hsame with hcase | hescaped | hescaped
    · by_contra hne
      exact (hall a ha b hb).1 ⟨hne, hcase⟩
    · exact absurd hescaped (hall a ha b hb).2
    · exact absurd hescaped (hall b hb a ha).2

-- All that can make two variables of a keyed constructor the same.
theorem keyVariables_nodup_iff (h : (idents.map className).Nodup) :
    (idents.map valueParam ++ idents.map memberName).Nodup ↔
      ∀ a ∈ idents, ∀ b ∈ idents, ¬ CaseTwins a b ∧ ¬ Escaped a b ∧ ¬ ValueOf a b := by
  rw [List.nodup_append, valueParams_nodup_iff h, memberNames_nodup_iff h]
  constructor
  · rintro ⟨-, hmembers, hdisjoint⟩ a ha b hb
    obtain ⟨htwins, hescaped⟩ := hmembers a ha b hb
    refine ⟨htwins, hescaped, fun hvalue => ?_⟩
    exact hdisjoint _ (List.mem_map_of_mem ha) _ (List.mem_map_of_mem hb)
      (valueParam_eq_memberName_iff.mpr hvalue)
  · intro hall
    refine ⟨fun a ha b hb => (hall a ha b hb).1,
      fun a ha b hb => ⟨(hall a ha b hb).1, (hall a ha b hb).2.1⟩, ?_⟩
    intro param hparam member hmember heq
    obtain ⟨a, ha, rfl⟩ := List.mem_map.mp hparam
    obtain ⟨b, hb, rfl⟩ := List.mem_map.mp hmember
    exact (hall a ha b hb).2.2 (valueParam_eq_memberName_iff.mp heq)

end Distinct

theorem not_caseTwins_of_isAscii {a b : String} (ha : IsAscii a) (hb : IsAscii b) :
    ¬ CaseTwins a b := fun h => h.1 (className_eq_of_lowerCamel_eq ha hb h.2)

end Java

-- The local variables of a constructor: one for each key.
def Constructor.locals (made : Constructor) : List String :=
  match made.mode with
  | .noArgs => []
  | .keyed _ => made.args.map fun key => Java.memberName key.identifier

namespace Java

-- Whether a line of code declares a leaf, and which.
def isLeafLine (line : String) : Bool := "Leaf ".toList.isPrefixOf line.toList

def DeclaresLeaf (line name : String) : Prop := ∃ value, line = "Leaf " ++ name ++ " = " ++ value

theorem isLeafLine_eq_false {line : String} (h : line.toList.head? ≠ some 'L') :
    isLeafLine line = false := by
  unfold isLeafLine
  cases hline : line.toList with
  | nil => rfl
  | cons c cs =>
      have hne : c ≠ 'L' := by simpa [hline] using h
      simp [List.isPrefixOf, hne.symm]

theorem isLeafLine_lowerCamel (ident : String) {rest : String}
    (h : rest.toList.head? ≠ some 'L') : isLeafLine (lowerCamel ident ++ rest) = false := by
  refine isLeafLine_eq_false ?_
  rw [String.toList_append]
  cases hname : (lowerCamel ident).toList with
  | nil => simpa using h
  | cons c cs =>
      have hcapital : ¬ Text.IsCapital c := head_lowerCamel_not_isCapital (by rw [hname]; rfl)
      rintro heq
      obtain rfl : c = 'L' := by simpa using heq
      exact hcapital (by unfold Text.IsCapital; decide)

theorem isLeafLine_memberName (ident : String) {rest : String}
    (h : rest.toList.head? ≠ some 'L') : isLeafLine (memberName ident ++ rest) = false := by
  by_cases hreserved : lowerCamel ident ∈ reserved
  · rw [memberName_of_reserved hreserved, String.append_assoc]
    exact isLeafLine_lowerCamel ident (by simp [String.toList_append])
  · rw [memberName_of_not_reserved hreserved]
    exact isLeafLine_lowerCamel ident h

-- Setting a key takes one declaration.
theorem filter_isLeafLine_setKey (root : String) (form : ValueForm) (key : KeyLeaf) :
    ∃ line, (setKey root form key).filter isLeafLine = [line] ∧
      DeclaresLeaf line (memberName key.identifier) := by
  have hcomment : isLeafLine ("// Set key element: " ++ key.identifier) = false :=
    isLeafLine_eq_false (by simp [String.toList_append])
  have hdeclared (rest : String) : isLeafLine ("Leaf " ++ rest) = true := by
    simp [isLeafLine, String.toList_append]
  have hset (rest : String) : isLeafLine (memberName key.identifier ++ (".setValue(" ++ rest)) =
      false := isLeafLine_memberName _ (by simp [String.toList_append])
  have hinsert (rest : String) : isLeafLine ("insertChild(" ++ rest) = false :=
    isLeafLine_eq_false (by simp [String.toList_append])
  refine ⟨_, ?_, "new Leaf(" ++ root ++ ".NAMESPACE, \"" ++ key.identifier ++ "\");", rfl⟩
  rw [show "Leaf " ++ memberName key.identifier ++ " = " ++
      ("new Leaf(" ++ root ++ ".NAMESPACE, \"" ++ key.identifier ++ "\");") =
      "Leaf " ++ memberName key.identifier ++ " = new Leaf(" ++ root ++ ".NAMESPACE, \"" ++
        key.identifier ++ "\");" by
    rw [show " = new Leaf(" = " = " ++ "new Leaf(" from rfl]
    simp only [String.append_assoc]]
  simp only [setKey, List.filter_cons, List.filter_nil, String.append_assoc, hcomment, hdeclared,
    hset, hinsert, if_true, Bool.false_eq_true, if_false]

theorem forall₂_filter_setKeys (root : String) (form : ValueForm) (keys : List KeyLeaf) :
    List.Forall₂ DeclaresLeaf ((keys.flatMap (setKey root form)).filter isLeafLine)
      (keys.map fun key => memberName key.identifier) := by
  induction keys with
  | nil => exact .nil
  | cons key keys ih =>
      obtain ⟨line, hline, hdeclares⟩ := filter_isLeafLine_setKey root form key
      rw [List.flatMap_cons, List.filter_append, hline, List.map_cons, List.singleton_append]
      exact .cons hdeclares ih

-- The leaves that a constructor declares are its local variables.
theorem constructorLines_locals (c : ClassSpec) (made : Constructor) :
    ∃ body, Declares (constructorLines c made) (c.name ++ "(" ++ made.params ++ ")") body ∧
      List.Forall₂ DeclaresLeaf (body.filter isLeafLine) made.locals := by
  obtain ⟨mode, args, setsPrefix⟩ := made
  have hopening : isLeafLine ("super(" ++ c.rootClass ++ ".NAMESPACE, \"" ++ c.tag ++ "\");") =
      false := isLeafLine_eq_false (by simp [String.toList_append])
  have hclosing : (if setsPrefix then
      ["setDefaultPrefix();", "setPrefix(" ++ c.rootClass ++ ".PREFIX);"] else []).filter
        isLeafLine = [] := by
    refine List.filter_eq_nil_iff.mpr fun line hline => ?_
    rw [isLeafLine_eq_false]
    · simp
    · split at hline
      · simp only [List.mem_cons, List.not_mem_nil, or_false] at hline
        rcases hline with rfl | rfl <;> simp [String.toList_append]
      · simp at hline
  cases mode with
  | noArgs =>
      refine ⟨_, ⟨_, _, by rw [params_noArgs]; rfl⟩, ?_⟩
      rw [List.filter_append, hclosing, List.append_nil, List.filter_cons, hopening]
      exact .nil
  | keyed form =>
      refine ⟨_, ⟨_, _, by rw [← keyParams_eq]; rfl⟩, ?_⟩
      rw [List.filter_append, hclosing, List.append_nil, List.filter_append, List.filter_cons,
        hopening]
      exact forall₂_filter_setKeys c.rootClass form args

end Java

open Java

-- What is known of the variables that a class declares: those of its constructors, those of its
-- methods that add an entry of a list by keys, and its fields.
structure VariablesKnown (c : ClassSpec) : Prop where
  constructed : ∀ keys, c.keys = some keys →
    (keys.map fun key => className key.identifier).Nodup →
    ∀ made ∈ c.constructors, made.mode ≠ .noArgs →
      made.paramNames = (keys.map fun key => valueParam key.identifier) ∧
      made.locals = (keys.map fun key => memberName key.identifier) ∧
      (∃ body, Declares (constructorLines c made) (c.name ++ "(" ++ made.params ++ ")") body ∧
        List.Forall₂ DeclaresLeaf (body.filter isLeafLine) made.locals) ∧
      ((made.paramNames ++ made.locals).Nodup ↔ ∀ a ∈ keys, ∀ b ∈ keys,
        ¬ CaseTwins a.identifier b.identifier ∧ ¬ Escaped a.identifier b.identifier ∧
          ¬ ValueOf a.identifier b.identifier)
  added : ∀ a ∈ c.accessors, ∀ keys form, a.operation = .addChild (.keys keys form) →
    (∃ ending, Declares (accessorLines c a)
      (className a.name ++ " add" ++ className a.name ++ "(" ++ keyParams keys form ++ ")")
      ((className a.name ++ " " ++ memberName a.name ++ " = new " ++ className a.name ++ "(" ++
        keyArgs keys ++ ");") :: ending)) ∧
    (memberName a.name ∉ (keys.map fun key => valueParam key.identifier) ↔
      ∀ key ∈ keys, ¬ ValueOf key.identifier a.name)
  kept : (c.fields.map className).Nodup → ((c.fields.map memberName).Nodup ↔
    ∀ a ∈ c.fields, ∀ b ∈ c.fields, ¬ CaseTwins a b ∧ ¬ Escaped a b)
  written : c.fields.flatMap fieldLines <+: elementBody c ∧ ∀ field ∈ c.fields,
    (fieldLines field).getLast? =
      some ("    public " ++ className field ++ " " ++ memberName field ++ " = null;")
  unreserved : ∀ field ∈ c.fields, memberName field ∉ reserved

theorem addLines_variable (c : ClassSpec) {a : Accessor} {keys : List KeyLeaf} {form : ValueForm}
    (h : a.operation = .addChild (.keys keys form)) :
    ∃ ending, Declares (accessorLines c a)
      (className a.name ++ " add" ++ className a.name ++ "(" ++ keyParams keys form ++ ")")
      ((className a.name ++ " " ++ memberName a.name ++ " = new " ++ className a.name ++ "(" ++
        keyArgs keys ++ ");") :: ending) := by
  have hcls : (accessNames c a).cls = className a.name := by simp only [accessNames]
  have hvar : (accessNames c a).var = memberName a.name := by simp only [accessNames]
  rw [accessorLines, h, ← hcls, ← hvar]
  exact addLines_keys (accessNames c a) a.hasField keys form

theorem variablesKnown_of_constructed {c : ClassSpec}
    (h : ∀ keys, c.keys = some keys → ∀ made ∈ c.constructors, made.mode ≠ .noArgs →
      made.args = keys) : VariablesKnown c where
  constructed := by
    intro keys hkeys hdistinct made hmade hmode
    obtain rfl := h keys hkeys made hmade hmode
    obtain ⟨mode, args, setsPrefix⟩ := made
    cases mode with
    | noArgs => exact absurd rfl hmode
    | keyed form =>
        refine ⟨rfl, rfl, constructorLines_locals c _, ?_⟩
        have hidents : (args.map KeyLeaf.identifier).map className =
            args.map fun key => className key.identifier := List.map_map
        have hiff := keyVariables_nodup_iff (hidents ▸ hdistinct)
        simp only [List.map_map, Function.comp_def, List.forall_mem_map] at hiff
        exact hiff
  added := by
    intro a ha keys form hop
    refine ⟨addLines_variable c hop, ?_⟩
    simp only [List.mem_map, not_exists, not_and, ← valueParam_eq_memberName_iff]
  kept := memberNames_nodup_iff
  written := by
    refine ⟨?_, fun field _ => rfl⟩
    simp only [elementBody, List.append_assoc]
    exact List.prefix_append _ _
  unreserved := fun field _ => memberName_not_reserved field

theorem variables_distinct_iff (forest : Forest) (withSchema : Bool) (compilation : Compilation)
    (h : forest.compile withSchema = .ok compilation) :
    (∀ c ∈ compilation.classes, VariablesKnown c) ∧
    ∀ a b, IsAscii a → IsAscii b → ¬ CaseTwins a b := by
  refine ⟨fun c hc => variablesKnown_of_constructed fun keys hkeys made hmade hmode => ?_,
    fun a b => not_caseTwins_of_isAscii⟩
  rcases Forest.spec_of_mem_classes h hc with ⟨_, _, _, rfl⟩ | ⟨n, _, topLevel, _, hspec⟩
  · cases hkeys
  · obtain ⟨_, found, -, -, rfl⟩ := Node.classSpec_eq_ok_iff.mp hspec
    obtain rfl : found = some keys := hkeys
    obtain ⟨mode, -, rfl⟩ := List.mem_map.mp hmade
    exact if_neg hmode

-- The second key is the Kelvin sign, which is a capital letter of its own and has the small letter
-- of the first key.
def kelvinKeys : Statement :=
  .mk .module "m" [.mk .namespaceUri "urn:m" [], .mk .modulePrefix "p" [],
    .mk .list "e" [.mk .key "k \u212a" [], .mk .leaf "k" [.mk .type "string" []],
      .mk .leaf "\u212a" [.mk .type "string" []]]]

theorem variables_of_kelvinKeys :
    ∃ compilation, Forest.compile [kelvinKeys] false = .ok compilation ∧
      (∃ c ∈ compilation.classes, ∃ made ∈ c.constructors, made.mode ≠ .noArgs ∧
        c.keys = some made.args ∧ (made.args.map fun key => className key.identifier).Nodup ∧
        made.paramNames = ["kValue", "kValue"] ∧ made.locals = ["k", "k"]) ∧
      (∀ c ∈ compilation.classes, VariablesKnown c) ∧
      ∀ a b, IsAscii a → IsAscii b → ¬ CaseTwins a b := by
  have h : Forest.compile [kelvinKeys] false = .ok _ := rfl
  exact ⟨_, h, by decide +kernel, variables_distinct_iff _ _ _ h⟩

-- A key that is named like the value of another, in a list that is named so too, and a container
-- that is named like another whose name is reserved.
def sharedVariables : Statement :=
  .mk .module "m" [.mk .namespaceUri "urn:m" [], .mk .modulePrefix "p" [],
    .mk .container "c" [
      .mk .list "x-value" [.mk .key "x x-value" [], .mk .leaf "x" [.mk .type "string" []],
        .mk .leaf "x-value" [.mk .type "string" []]],
      .mk .container "default" [], .mk .container "default_" []]]

theorem variables_shared :
    ∃ compilation, Forest.compile [sharedVariables] false = .ok compilation ∧
      ∃ outer ∈ compilation.classes, ∃ entry ∈ compilation.classes,
        (∃ made ∈ entry.constructors, entry.keys = some made.args ∧
          (made.args.map fun key => className key.identifier).Nodup ∧
          ¬ (made.paramNames ++ made.locals).Nodup ∧
          ∃ a ∈ outer.accessors, a.operation = .addChild (.keys made.args .string) ∧
            memberName a.name ∈ made.args.map fun key => valueParam key.identifier) ∧
        (outer.fields.map className).Nodup ∧ ¬ (outer.fields.map memberName).Nodup := by
  have h : Forest.compile [sharedVariables] false = .ok _ := rfl
  exact ⟨_, h, by decide +kernel⟩

end YangBinding
