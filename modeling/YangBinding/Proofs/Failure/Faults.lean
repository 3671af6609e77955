import YangBinding.Compile.Module
import YangBinding.Proofs.Class.Keys
import YangBinding.Proofs.Route

namespace YangBinding

namespace Node

def hasLeaf (n : Node) (name : String) : Bool :=
  n.children.any fun child => child.keyword = .leaf && child.arg = name

-- The identifiers of the first `key` statement.
def firstKeyNames (n : Node) : List String :=
  ((n.find? .key).map fun key => Text.words key.arg).getD []

-- What is wrong with the keys of a list: there are none, or one of them has no leaf.
def keyFault? (n : Node) : Option CompileError :=
  if n.firstKeyNames = [] then some (.missingKeyStatement n.arg)
  else (n.firstKeyNames.find? fun name => !n.hasLeaf name).map (.missingKeyDefinition n.arg)

def listFault? (n : Node) : Option CompileError := if n.keyword = .list then n.keyFault? else none

mutual

-- The containers and lists reached through containers and lists, an inner one before the one
-- around it.
def innerFirst : Node → List Node
  | .mk id keyword arg children =>
    if keyword.hasClass then innerFirstAll children ++ [.mk id keyword arg children] else []

def innerFirstAll : List Node → List Node
  | [] => []
  | n :: rest => innerFirst n ++ innerFirstAll rest

end

def missingFault? (n : Node) (keyword : Keyword) : Option CompileError :=
  if n.children.any fun child => child.keyword = keyword then none
  else some (.missingStatement n.keyword.text n.arg keyword.text)

-- All that is wrong with a root, in the order in which it is noticed.
def faults (root : Node) : List CompileError :=
  if root.keyword = .module then
    (root.missingFault? .namespaceUri).toList ++ (root.missingFault? .modulePrefix).toList ++
      (innerFirstAll root.children).filterMap listFault?
  else if root.keyword = .submodule then []
  else [.unexpectedTopLevel root.keyword.text]

end Node

def Forest.faults (forest : Forest) : List CompileError := forest.roots.flatMap Node.faults

namespace Node

theorem keyLeaf_failure? (n : Node) (name : String) :
    (n.keyLeaf name).failure? =
      if n.hasLeaf name then none else some (.missingKeyDefinition n.arg name) := by
  have hfind : (n.findNamed? .leaf name).isSome = n.hasLeaf name := by
    rw [Bool.eq_iff_iff, findNamed?, hasLeaf, List.find?_isSome, List.any_eq_true]
    simp
  unfold keyLeaf
  cases hleaf : n.findNamed? .leaf name with
  | none => simp [← hfind, hleaf, Except.failure?]
  | some leaf => simp [← hfind, hleaf, Except.failure?]

theorem findSome?_keyLeaf (n : Node) (names : List String) :
    (names.findSome? fun name => (n.keyLeaf name).failure?) =
      (names.find? fun name => !n.hasLeaf name).map (.missingKeyDefinition n.arg) := by
  induction names with
  | nil => rfl
  | cons name rest ih =>
      rw [List.findSome?_cons, List.find?_cons, keyLeaf_failure?]
      cases n.hasLeaf name with
      | true => exact ih
      | false => rfl

theorem keys_failure? (n : Node) : n.keys.failure? = n.keyFault? := by
  unfold Node.keys keyFault? firstKeyNames
  cases n.find? .key with
  | none => rfl
  | some key =>
      by_cases hwords : Text.words key.arg = []
      · simp only [Option.map_some, Option.getD_some, hwords, if_true]
        rfl
      · simp only [Option.map_some, Option.getD_some, hwords, if_false]
        have hsome (keys : List KeyLeaf)
            (hkeys : (Text.words key.arg).mapM n.keyLeaf = .ok keys) : keys.isEmpty = false := by
          have hlength := (Except.mapM_eq_ok_iff.mp hkeys).length_eq
          cases keys with
          | nil => exact absurd (List.length_eq_zero_iff.mp hlength) hwords
          | cons first rest => rfl
        rw [Except.failure?_bind _ _ none, Except.failure?_mapM, findSome?_keyLeaf, Option.or_none]
        intro keys hkeys
        rw [hsome keys hkeys]
        rfl

theorem accessors_failure? (names : List String) (child : Node) :
    (accessors names child).failure? = child.listFault? := by
  unfold accessors listFault?
  split
  · rename_i hk
    rw [if_pos hk, Except.failure?_bind _ _ none fun _ _ => rfl, keys_failure?, Option.or_none]
  all_goals
    rename_i hk
    simp_all [Except.failure?, pure, Except.pure]

theorem classKeys_failure? (n : Node) : n.classKeys.failure? = n.listFault? := by
  unfold classKeys listFault?
  split
  · rw [Except.failure?_map, keys_failure?]
  · rfl

theorem mem_innerFirstAll_of_mem {n : Node} {nodes : List Node} (h : n ∈ nodes)
    (hk : n.keyword.hasClass) : n ∈ innerFirstAll nodes := by
  induction nodes with
  | nil => simp at h
  | cons first rest ih =>
      rw [innerFirstAll, List.mem_append]
      rcases List.mem_cons.mp h with rfl | h
      · left
        cases n with
        | mk id keyword arg children =>
            have hkeyword : keyword.hasClass := hk
            rw [innerFirst, if_pos hkeyword]
            exact List.mem_append_right _ (List.mem_singleton_self _)
      · exact .inr (ih h)

-- Once the classes inside are there, only a list's own keys can still be at fault.
theorem classSpec_failure? (n : Node) (context : ModuleContext) (topLevel : Bool) (path : String)
    (hinner : (innerFirstAll n.children).findSome? listFault? = none) :
    (n.classSpec context topLevel path).failure? = n.listFault? := by
  have hblocks : (n.children.mapM (accessors n.keyNames)).failure? = none := by
    rw [Except.failure?_mapM, List.findSome?_eq_none_iff]
    intro child hc
    rw [accessors_failure?]
    by_cases hk : child.keyword = .list
    · have hclass : child.keyword.hasClass := by rw [hk]; rfl
      exact List.findSome?_eq_none_iff.mp hinner child (mem_innerFirstAll_of_mem hc hclass)
    · rw [listFault?, if_neg hk]
  unfold classSpec
  rw [Except.failure?_bind _ _ n.listFault?, hblocks, Option.none_or]
  intro blocks _
  rw [Except.failure?_bind _ _ none fun _ _ => rfl, classKeys_failure?, Option.or_none]

theorem classTrees_failure? (context : ModuleContext) (topLevel : Bool) (path : String)
    (nodes : List Node) :
    (classTrees context topLevel path nodes).failure? =
      (innerFirstAll nodes).findSome? listFault? := by
  induction nodes using forest_induction generalizing topLevel path with
  | nil => rw [classTrees, innerFirstAll]; rfl
  | cons id keyword arg children rest ihc ihr =>
      by_cases hk : keyword.hasClass
      · have hkeyword : (Node.mk id keyword arg children).keyword.hasClass := hk
        have htree : (classTree context topLevel path (.mk id keyword arg children)).failure? =
            ((innerFirstAll children).findSome? listFault?).or
              (listFault? (.mk id keyword arg children)) := by
          rw [classTree, Except.failure?_bind _ _ (listFault? (.mk id keyword arg children)), ihc]
          intro nested hnested
          have hinner := Except.failure?_eq_none_iff.mpr ⟨nested, hnested⟩
          rw [ihc] at hinner
          rw [Except.failure?_bind _ _ none fun _ _ => rfl,
            classSpec_failure? (.mk id keyword arg children) context topLevel path hinner,
            Option.or_none]
        have hrest (tree : ClassTree) :
            (classTrees context topLevel path rest >>= fun trees => pure (tree :: trees)).failure? =
              (innerFirstAll rest).findSome? listFault? := by
          rw [Except.failure?_bind _ _ none fun _ _ => rfl, ihr, Option.or_none]
        rw [classTrees, if_pos hkeyword, Except.failure?_bind _ _ _ fun tree _ => hrest tree, htree,
          innerFirstAll, innerFirst, if_pos hk, List.findSome?_append, List.findSome?_append,
          List.findSome?_singleton]
      · have hkeyword : ¬ (Node.mk id keyword arg children).keyword.hasClass := hk
        rw [classTrees, if_neg hkeyword, ihr, innerFirstAll, innerFirst, if_neg hk, List.nil_append]

theorem requiredArg_failure? (n : Node) (keyword : Keyword) :
    (n.requiredArg keyword).failure? = n.missingFault? keyword := by
  have hfind : (n.find? keyword).isSome =
      n.children.any fun child => child.keyword = keyword := by
    rw [Bool.eq_iff_iff, find?, List.find?_isSome, List.any_eq_true]
  unfold requiredArg missingFault?
  rw [← hfind]
  cases n.find? keyword with
  | none => rfl
  | some child => rfl

theorem compileModule_failure? (n : Node) (withSchema : Bool) (parent : Option Node) :
    (n.compileModule withSchema parent).failure? =
      (n.missingFault? .namespaceUri).or ((n.missingFault? .modulePrefix).or
        ((innerFirstAll n.children).findSome? listFault?)) := by
  unfold compileModule
  rw [Except.failure?_bind _ _ ((n.missingFault? .modulePrefix).or
    ((innerFirstAll n.children).findSome? listFault?)), requiredArg_failure?]
  intro namespaceUri _
  rw [Except.failure?_bind _ _ ((innerFirstAll n.children).findSome? listFault?),
    requiredArg_failure?]
  intro modulePrefix _
  rw [Except.failure?_bind _ _ none fun _ _ => rfl, classTrees_failure?, Option.or_none]

theorem compileRoot_failure? (root : Node) (withSchema : Bool) :
    (root.compileRoot withSchema).failure? = root.faults.head? := by
  unfold compileRoot faults
  split
  · rename_i hk
    rw [if_pos hk, Except.failure?_map, compileModule_failure?, List.head?_append,
      List.head?_append, List.head?_filterMap, Option.head?_toList, Option.head?_toList,
      Option.or_assoc]
  · rename_i hk
    simp [hk, Except.failure?]
  · rename_i hmodule hsubmodule
    rw [if_neg hmodule, if_neg hsubmodule]
    rfl

end Node

theorem Forest.compile_failure? (forest : Forest) (withSchema : Bool) :
    (forest.compile withSchema).failure? = forest.faults.head? := by
  unfold Forest.compile
  rw [Except.failure?_bind _ _ none fun _ _ => rfl, Except.failure?_mapM, Option.or_none,
    Forest.faults, List.head?_flatMap]
  simp only [Node.compileRoot_failure?]

end YangBinding
