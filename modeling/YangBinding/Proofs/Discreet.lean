import YangBinding.Proofs.Class.Keys
import YangBinding.Proofs.Outcome
import YangBinding.Proofs.Told

namespace YangBinding

namespace Keyword

-- The keywords of statements that are looked into.
def isEntered (keyword : Keyword) : Bool := keyword.isModule || keyword.isData

theorem isEntered_of_hasClass {keyword : Keyword} (h : keyword.hasClass) :
    keyword.isEntered := by
  cases keyword <;> simp_all [hasClass, isEntered, isModule, isData]

theorem ne_leaf_of_hasClass {keyword : Keyword} (h : keyword.hasClass) : keyword ≠ .leaf := by
  rintro rfl
  simp [hasClass] at h

theorem isEntered_of_inSchema {keyword : Keyword} (h : keyword.inSchema) :
    keyword.isEntered := by
  cases keyword <;> simp_all [inSchema, isEntered, isModule, isData]

-- The keywords that say how often something may occur.
def isBound : Keyword → Bool
  | .mandatory | .unique => true
  | _ => false

end Keyword

def Report.unnumbered (r : Report) : Report := { r with node := 0 }

def Event.unnumbered : Event → Event
  | .claim _ name path => .claim 0 name path
  | .report r => .report r.unnumbered

-- Numbers tell whether two reports are about the same. They are not part of what is told.
theorem told_unnumbered (claimed : List String) (events : List Event) :
    told claimed (events.map Event.unnumbered) = told claimed events := by
  induction events generalizing claimed with
  | nil => rfl
  | cons event rest ih =>
      cases event with
      | claim node name path => simp only [List.map_cons, Event.unnumbered, told, Event.remarks,
          Event.names, ih]
      | report r => simp only [List.map_cons, Event.unnumbered, told, Event.remarks, Event.names,
          Report.unnumbered, ih]

-- A compiled module with the schema of another node in place of its own.
def CompiledModule.redrawn (n : Node) (m : CompiledModule) : CompiledModule :=
  { m with schema := m.schema.map fun _ =>
      (n.schema none m.model.root.spec.namespaceUri "/").table }

namespace Node

-- A change that classes do not notice. It keeps keywords and arguments, and goes on to what is
-- inside the statements that are looked into. A leaf may also gain or lose bounds there.
structure Discreet (change : Node → Node) : Prop where
  keyword_eq : ∀ n, (change n).keyword = n.keyword
  arg_eq : ∀ n, (change n).arg = n.arg
  children_eq : ∀ {n}, n.keyword.isEntered → n.keyword ≠ .leaf →
    (change n).children = n.children.map change
  filter_eq : ∀ {n} (counts : Keyword → Bool), n.keyword.isEntered →
    (∀ keyword, keyword.isBound → ¬ counts keyword) →
    ((change n).children.filter fun child => counts child.keyword) =
      (n.children.filter fun child => counts child.keyword).map change

theorem find?_eq_head? (n : Node) (keyword : Keyword) :
    n.find? keyword = (n.search keyword).head? :=
  List.head?_filter.symm

theorem classTree_eq (context : ModuleContext) (topLevel : Bool) (path : String) (n : Node) :
    classTree context topLevel path n = do
      let nested ← classTrees context false (path ++ n.arg ++ "/") n.children
      let spec ← n.classSpec context topLevel path
      return .mk spec nested := by
  cases n with
  | mk id keyword arg children => rw [classTree, Node.arg, Node.children]

namespace Discreet

variable {change : Node → Node} (h : Discreet change)
include h

theorem map_arg_eq (nodes : List Node) : (nodes.map change).map arg = nodes.map arg := by
  rw [List.map_map]
  exact List.map_congr_left fun n _ => h.arg_eq n

section Queries

variable {n : Node} (hn : n.keyword.isEntered)
include hn

theorem search_eq {keyword : Keyword} (hk : ¬ keyword.isBound) :
    (change n).search keyword = (n.search keyword).map change := by
  refine h.filter_eq (fun k => decide (k = keyword)) hn fun k hbound heq => hk ?_
  rwa [← of_decide_eq_true heq]

theorem map_arg_search_eq {keyword : Keyword} (hk : ¬ keyword.isBound) :
    ((change n).search keyword).map arg = (n.search keyword).map arg := by
  rw [h.search_eq hn hk, h.map_arg_eq]

theorem map_arg_find?_eq {keyword : Keyword} (hk : ¬ keyword.isBound) :
    ((change n).find? keyword).map arg = (n.find? keyword).map arg := by
  rw [find?_eq_head?, find?_eq_head?, ← List.head?_map, ← List.head?_map,
    h.map_arg_search_eq hn hk]

theorem keyNames_eq : (change n).keyNames = n.keyNames := by
  rw [keyNames, h.search_eq hn (by decide), List.flatMap_map, keyNames]
  simp only [h.arg_eq]

theorem dataNames_eq : (change n).dataNames = n.dataNames := by
  have hdata : ∀ keyword : Keyword, keyword.isBound → ¬ keyword.isData := by
    intro keyword hbound
    cases keyword <;> simp_all [Keyword.isBound, Keyword.isData]
  rw [dataNames, h.filter_eq Keyword.isData hn hdata, h.map_arg_eq, dataNames]

theorem valueType_eq : (change n).valueType = n.valueType := by
  rw [valueType, h.map_arg_find?_eq hn (by decide), valueType]

theorem latestRevision?_eq : (change n).latestRevision? = n.latestRevision? := by
  rw [latestRevision?, h.map_arg_search_eq hn (by decide), latestRevision?]

theorem requiredArg_eq {keyword : Keyword} (hk : ¬ keyword.isBound) :
    (change n).requiredArg keyword = n.requiredArg keyword := by
  have harg := h.map_arg_find?_eq hn hk
  unfold requiredArg
  rw [h.keyword_eq, h.arg_eq]
  cases hfind : n.find? keyword with
  | none =>
      rw [hfind, Option.map_none, Option.map_eq_none_iff] at harg
      rw [harg]
  | some child =>
      rw [hfind, Option.map_some] at harg
      obtain ⟨other, hother, heq⟩ := Option.map_eq_some_iff.mp harg
      rw [hother]
      simp only [heq]

end Queries

section Records

theorem insideClass_eq (parent : Option Node) :
    insideClass (parent.map change) = insideClass parent := by
  rw [insideClass, Option.any_map, insideClass]
  simp only [h.keyword_eq]

theorem isKeyLeaf_eq {parent : Option Node} (hparent : ∀ p ∈ parent, p.keyword.isEntered)
    (n : Node) : (change n).isKeyLeaf (parent.map change) = n.isKeyLeaf parent := by
  rw [isKeyLeaf, h.keyword_eq, h.arg_eq, isKeyLeaf]
  cases parent with
  | none => rfl
  | some p => rw [Option.map_some, Option.any_some, Option.any_some, h.keyNames_eq (hparent p rfl)]

theorem isSingle_eq {parent : Option Node} (hparent : ∀ p ∈ parent, p.keyword.isEntered)
    (n : Node) : (change n).isSingle (parent.map change) = n.isSingle parent := by
  rw [isSingle, h.keyword_eq, h.isKeyLeaf_eq hparent, h.insideClass_eq, isSingle]

end Records

section Classes

variable {n : Node} (hn : n.keyword.isEntered) (hleaf : n.keyword ≠ .leaf)

include hn hleaf in
theorem findNamed?_eq (keyword : Keyword) (name : String) :
    (change n).findNamed? keyword name = (n.findNamed? keyword name).map change := by
  rw [findNamed?, h.children_eq hn hleaf, List.find?_map, findNamed?]
  simp only [Function.comp_def, h.keyword_eq, h.arg_eq]

include hn hleaf in
theorem skippedIn_eq {skips : Node → Bool} (hskips : ∀ child, skips (change child) = skips child) :
    (change n).skippedIn skips = n.skippedIn skips := by
  rw [skippedIn, h.children_eq hn hleaf, List.filter_map, List.map_map, skippedIn]
  simp only [Function.comp_def, hskips, h.keyword_eq, h.arg_eq]

include hn hleaf in
theorem keyLeaf_eq (name : String) : (change n).keyLeaf name = n.keyLeaf name := by
  rw [keyLeaf, h.findNamed?_eq hn hleaf, keyLeaf]
  cases hfind : n.findNamed? .leaf name with
  | none => simp [h.arg_eq]
  | some leaf =>
      have hentered : leaf.keyword.isEntered := by
        rw [(mem_children_of_findNamed? hfind).2.1]
        rfl
      simp [h.valueType_eq hentered]

include hn hleaf in
theorem keys_eq : (change n).keys = n.keys := by
  have hleaves : (change n).keyLeaf = n.keyLeaf := funext (h.keyLeaf_eq hn hleaf)
  have hkey : (change n).search .key = (n.search .key).map change := h.search_eq hn (by decide)
  rw [Node.keys, find?_eq_head?, hkey, List.head?_map, ← find?_eq_head?, hleaves, h.arg_eq,
    Node.keys]
  cases n.find? .key with
  | none => rfl
  | some key => simp [h.arg_eq]

theorem accessors_eq (names : List String) (child : Node) :
    accessors names (change child) = accessors names child := by
  unfold accessors
  rw [h.keyword_eq, h.arg_eq]
  split
  · rename_i hk
    rw [h.keys_eq (by rw [hk]; rfl) (by rw [hk]; decide)]
  · rfl
  · rename_i hk
    rw [h.valueType_eq (by rw [hk]; rfl)]
  · rename_i hk
    rw [h.valueType_eq (by rw [hk]; rfl)]
  · rfl

theorem isSkipped_eq (child : Node) : (change child).isSkipped = child.isSkipped := by
  rw [isSkipped, h.keyword_eq, isSkipped]

theorem needsExpansion_eq (child : Node) :
    (change child).needsExpansion = child.needsExpansion := by
  rw [needsExpansion, h.keyword_eq, needsExpansion]

include hn hleaf in
theorem classKeys_eq : (change n).classKeys = n.classKeys := by
  rw [classKeys, h.keyword_eq, h.keys_eq hn hleaf, classKeys]

include hn hleaf in
theorem classSpec_eq (context : ModuleContext) (topLevel : Bool) (path : String) :
    (change n).classSpec context topLevel path = n.classSpec context topLevel path := by
  have hblocks : (change n).children.mapM (accessors (change n).keyNames) =
      n.children.mapM (accessors n.keyNames) := by
    rw [h.children_eq hn hleaf, h.keyNames_eq hn, List.mapM_map]
    simp only [Function.comp_def, h.accessors_eq]
  have hnested : ((change n).children.any fun child => child.keyword.hasClass) =
      n.children.any fun child => child.keyword.hasClass := by
    rw [h.children_eq hn hleaf, List.any_map]
    simp only [Function.comp_def, h.keyword_eq]
  unfold classSpec
  rw [hblocks, hnested, h.map_arg_search_eq hn (by decide), h.classKeys_eq hn hleaf, h.arg_eq,
    h.keyNames_eq hn, h.dataNames_eq hn, h.skippedIn_eq hn hleaf h.isSkipped_eq]

theorem classTrees_eq (context : ModuleContext) (topLevel : Bool) (path : String)
    (nodes : List Node) :
    classTrees context topLevel path (nodes.map change) =
      classTrees context topLevel path nodes := by
  induction nodes using forest_induction generalizing topLevel path with
  | nil => rfl
  | cons id keyword arg children rest ihc ihr =>
      let n := Node.mk id keyword arg children
      rw [List.map_cons, classTrees, classTrees, h.keyword_eq, ihr]
      by_cases hk : n.keyword.hasClass
      · have hn := Keyword.isEntered_of_hasClass hk
        have hleaf := Keyword.ne_leaf_of_hasClass hk
        have hnested (path : String) : classTrees context false path (n.children.map change) =
            classTrees context false path n.children := ihc false path
        have htree : classTree context topLevel path (change n) =
            classTree context topLevel path n := by
          rw [classTree_eq, classTree_eq, h.children_eq hn hleaf, hnested, h.arg_eq,
            h.classSpec_eq hn hleaf]
        rw [if_pos hk, if_pos hk, htree]
      · rw [if_neg hk, if_neg hk]

end Classes

section Events

theorem typeEvents_eq {leaf : Node} (hn : leaf.keyword.isEntered) (path : String) :
    (typeEvents path (change leaf)).map Event.unnumbered =
      (typeEvents path leaf).map Event.unnumbered := by
  simp only [typeEvents, h.valueType_eq hn, h.arg_eq]
  split
  · rfl
  · rfl

theorem unsupportedEvent_eq (path : String) (n : Node) :
    (unsupportedEvent path (change n)).unnumbered = (unsupportedEvent path n).unnumbered := by
  rw [unsupportedEvent, h.keyword_eq, h.arg_eq]
  rfl

theorem plainEvents_eq (path : String) (n : Node) :
    (plainEvents path (change n)).map Event.unnumbered =
      (plainEvents path n).map Event.unnumbered := by
  unfold plainEvents
  rw [h.keyword_eq]
  split
  · rename_i hk
    exact h.typeEvents_eq (by rw [hk]; rfl) path
  · rename_i hk
    exact h.typeEvents_eq (by rw [hk]; rfl) path
  · rw [List.map_singleton, h.unsupportedEvent_eq, List.map_singleton]
  · rw [List.map_singleton, h.unsupportedEvent_eq, List.map_singleton]
  · rfl

theorem classEvents_eq_of_memberEvents {n : Node} (hk : n.keyword.hasClass)
    (hmembers : ∀ path, (memberEvents path (n.children.map change)).map Event.unnumbered =
      (memberEvents path n.children).map Event.unnumbered) (path : String) :
    (classEvents path (change n)).map Event.unnumbered =
      (classEvents path n).map Event.unnumbered := by
  rw [classEvents_eq, classEvents_eq, List.map_cons, List.map_cons,
    h.children_eq (Keyword.isEntered_of_hasClass hk) (Keyword.ne_leaf_of_hasClass hk), hmembers,
    h.arg_eq]
  rfl

theorem memberEvents_eq (path : String) (nodes : List Node) :
    (memberEvents path (nodes.map change)).map Event.unnumbered =
      (memberEvents path nodes).map Event.unnumbered := by
  induction nodes using forest_induction generalizing path with
  | nil => rfl
  | cons id keyword arg children rest ihc ihr =>
      rw [List.map_cons, memberEvents_cons, memberEvents_cons, List.map_append, List.map_append,
        ihr, h.keyword_eq]
      congr 1
      split
      · rename_i hk
        exact h.classEvents_eq_of_memberEvents hk ihc path
      · exact h.plainEvents_eq path _

theorem topEvents_eq (child : Node) :
    (topEvents (change child)).map Event.unnumbered =
      (topEvents child).map Event.unnumbered := by
  unfold topEvents
  rw [h.keyword_eq, h.needsExpansion_eq]
  split
  · rename_i hk
    exact h.classEvents_eq_of_memberEvents hk (fun path => h.memberEvents_eq path _) "/"
  · split
    · rw [List.map_singleton, h.unsupportedEvent_eq, List.map_singleton]
    · rfl

theorem rootClaim_eq {n : Node} (hn : n.keyword.isEntered) :
    (change n).rootClaim.unnumbered = n.rootClaim.unnumbered := by
  rw [rootClaim, h.map_arg_find?_eq hn (by decide), rootClaim]
  rfl

-- What is told while classes are built.
theorem rootEvents_false_eq (root : Node) :
    ((change root).rootEvents false).map Event.unnumbered =
      (root.rootEvents false).map Event.unnumbered := by
  unfold rootEvents
  rw [h.keyword_eq]
  split
  · rename_i hk
    have hn : root.keyword.isEntered := by rw [hk]; rfl
    rw [moduleEvents_false, moduleEvents_false, List.map_cons, List.map_cons, h.rootClaim_eq hn,
      h.children_eq hn (by rw [hk]; decide), List.flatMap_map, List.map_flatMap, List.map_flatMap]
    simp only [h.topEvents_eq]
  · rw [h.arg_eq]
    rfl
  · rfl

end Events

-- At most the schema of a module tells that there was a change.
theorem compileModule_eq {n : Node} (hk : n.keyword = .module) (withSchema : Bool) :
    (change n).compileModule withSchema none =
      (n.compileModule withSchema none).map (CompiledModule.redrawn (change n)) := by
  have hn : n.keyword.isEntered := by rw [hk]; rfl
  have hleaf : n.keyword ≠ .leaf := by rw [hk]; decide
  have htrees (context : ModuleContext) : classTrees context true "/" (change n).children =
      classTrees context true "/" n.children := by
    rw [h.children_eq hn hleaf, h.classTrees_eq]
  have hspec (namespaceUri modulePrefix : String) :
      (change n).rootSpec namespaceUri modulePrefix = n.rootSpec namespaceUri modulePrefix := by
    rw [rootSpec, h.arg_eq, h.skippedIn_eq hn hleaf h.needsExpansion_eq, rootSpec]
  unfold compileModule
  simp only [h.requiredArg_eq hn (show ¬ Keyword.isBound .namespaceUri by decide),
    h.requiredArg_eq hn (show ¬ Keyword.isBound .modulePrefix by decide), htrees, hspec,
    h.latestRevision?_eq hn, h.arg_eq, Except.map_bind_eq]
  cases withSchema with
  | false => rfl
  | true => rfl

theorem compileRoot_eq (root : Node) (withSchema : Bool) :
    (change root).compileRoot withSchema =
      (root.compileRoot withSchema).map (Option.map (CompiledModule.redrawn (change root))) := by
  unfold compileRoot
  rw [h.keyword_eq]
  split
  · rename_i hk
    rw [h.compileModule_eq hk]
    cases root.compileModule withSchema none with
    | error e => rfl
    | ok m => rfl
  · rfl
  · rfl

end Discreet

end Node

end YangBinding
