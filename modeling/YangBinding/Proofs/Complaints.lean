import YangBinding.Proofs.Class.Mirror
import YangBinding.Proofs.SchemaOption

-- Members that add nothing can be left out beforehand.
theorem List.flatMap_eq_flatMap_filter {α β : Type} {p : α → Bool} {f g : α → List β}
    (hkept : ∀ x, p x → f x = g x) (hleft : ∀ x, ¬ p x → f x = []) (xs : List α) :
    xs.flatMap f = (xs.filter p).flatMap g := by
  induction xs with
  | nil => rfl
  | cons x rest ih =>
      by_cases hx : p x
      · rw [List.flatMap_cons, List.filter_cons_of_pos hx, List.flatMap_cons, hkept x hx, ih]
      · rw [List.flatMap_cons, List.filter_cons_of_neg hx, hleft x hx, ih, List.nil_append]

namespace YangBinding

section Types

theorem ValueType.resolve_yangType (name : String) : (ValueType.resolve name).yangType = name := by
  unfold resolve
  cases hfind : builtins.find? fun t => t.yangType = name with
  | none => rfl
  | some type => simpa using List.find?_some hfind

theorem ValueType.resolve_defaulted (name : String) :
    (ValueType.resolve name).defaulted = decide (name ∉ builtins.map ValueType.yangType) := by
  have hbuiltin : ∀ type ∈ builtins, type.defaulted = false := by decide
  unfold resolve
  cases hfind : builtins.find? fun t => t.yangType = name with
  | none =>
      have hnone : ∀ type ∈ builtins, type.yangType ≠ name := by simpa using hfind
      simpa using hnone
  | some type =>
      have htype := List.mem_of_find?_eq_some hfind
      have hname : type.yangType = name := by simpa using List.find?_some hfind
      have hmem : name ∈ builtins.map ValueType.yangType := hname ▸ List.mem_map_of_mem htype
      simp [hbuiltin type htype, hmem]

namespace Node

-- The argument of the first `type` inside a leaf or leaf-list.
def typeName (leaf : Node) : String := ((leaf.find? .type).map arg).getD ""

def hasUnknownType (leaf : Node) : Bool :=
  leaf.typeName ∉ ValueType.builtins.map ValueType.yangType

theorem valueType_yangType (leaf : Node) : leaf.valueType.yangType = leaf.typeName :=
  ValueType.resolve_yangType leaf.typeName

theorem valueType_defaulted (leaf : Node) : leaf.valueType.defaulted = leaf.hasUnknownType :=
  ValueType.resolve_defaulted leaf.typeName

end Node

end Types

namespace Node

-- The routes to all statements of a tree, whatever their keywords.
def places (n : Node) : List Route := n.routes fun _ => true

theorem map_target_routesInto (start : Node) (around : Route) (nodes : List Node) :
    (routesInto (fun _ => true) around nodes).map (Route.target start) = preorderAll nodes := by
  induction nodes using forest_induction generalizing around with
  | nil => rfl
  | cons id keyword arg children rest ihc ihr =>
      rw [routesInto, routesFrom, if_pos rfl, List.map_append, List.map_cons, ihc, ihr,
        preorderAll, preorder]
      rfl

theorem map_target_places (n : Node) : n.places.map (Route.target n) = n.preorder := by
  rw [places, routes, List.map_cons, map_target_routesInto, preorder_eq]
  rfl

end Node

namespace Route

def insideClasses (around : Route) : Bool := around.all fun s => s.keyword.hasClass

theorem insideClasses_cons {s : Node} {around : Route} (hs : s.keyword.hasClass)
    (h : insideClasses around) : insideClasses (s :: around) := by
  rw [insideClasses, List.all_cons, hs, Bool.true_and]
  exact h

-- A leaf or leaf-list directly in a container or list that has a class, with a type that is not
-- built in.
def lacksType : Route → Bool
  | s :: parent :: around =>
    (s.keyword = .leaf || s.keyword = .leafList) && insideClasses (parent :: around) &&
      s.hasUnknownType
  | _ => false

-- A `uses` or `grouping` directly in a module, or in a container or list that has a class.
def lacksExpansion : Route → Bool
  | s :: around => (s.keyword = .uses || s.keyword = .grouping) && insideClasses around
  | [] => false

-- What there is to report of the statement that a route leads to.
def complaint? : Route → Option Report
  | [] => none
  | s :: around =>
    if lacksType (s :: around) then
      some ⟨s.id, ⟨path "/" (s :: around), .unsupportedType s.typeName⟩⟩
    else if lacksExpansion (s :: around) then
      some ⟨s.id, ⟨path "/" around, .unsupportedStatement s.keyword.text s.arg⟩⟩
    else none

section

variable {s parent : Node} {around : Route}

theorem complaint?_of_leaf (hk : s.keyword = .leaf ∨ s.keyword = .leafList)
    (h : insideClasses (parent :: around)) :
    complaint? (s :: parent :: around) =
      if s.hasUnknownType then
        some ⟨s.id, ⟨path "/" (s :: parent :: around), .unsupportedType s.typeName⟩⟩
      else none := by
  rcases hk with hk | hk <;> simp [complaint?, lacksType, lacksExpansion, hk, h]

theorem lacksType_eq_false (hk : s.keyword ≠ .leaf) (hl : s.keyword ≠ .leafList) :
    lacksType (s :: around) = false := by
  cases around with
  | nil => rfl
  | cons parent around => simp [lacksType, hk, hl]

theorem lacksExpansion_of_lacksType {route : Route} (h : route.lacksType) :
    route.lacksExpansion = false := by
  match route, h with
  | s :: parent :: around, h =>
      simp only [lacksType, Bool.and_eq_true, Bool.or_eq_true, decide_eq_true_eq] at h
      rcases h.1.1 with hk | hk <;> simp [lacksExpansion, hk]

theorem complaint?_of_expansion (hk : s.keyword = .uses ∨ s.keyword = .grouping)
    (h : insideClasses around) :
    complaint? (s :: around) =
      some ⟨s.id, ⟨path "/" around, .unsupportedStatement s.keyword.text s.arg⟩⟩ := by
  have htype : lacksType (s :: around) = false := by
    rcases hk with hk | hk <;> exact lacksType_eq_false (by simp [hk]) (by simp [hk])
  rcases hk with hk | hk <;> simp [complaint?, htype, lacksExpansion, hk, h]

theorem complaint?_of_other (hleaf : s.keyword ≠ .leaf) (hleafList : s.keyword ≠ .leafList)
    (huses : s.keyword ≠ .uses) (hgrouping : s.keyword ≠ .grouping) :
    complaint? (s :: around) = none := by
  simp [complaint?, lacksType_eq_false hleaf hleafList, lacksExpansion, huses, hgrouping]

theorem complaint?_of_hasClass (h : s.keyword.hasClass) : complaint? (s :: around) = none := by
  have hother (keyword : Keyword) (hk : ¬ keyword.hasClass) : s.keyword ≠ keyword :=
    fun heq => hk (heq ▸ h)
  exact complaint?_of_other (hother _ (by decide)) (hother _ (by decide)) (hother _ (by decide))
    (hother _ (by decide))

-- A module has no accessors, so the types of the leaves directly in it do not matter.
theorem complaint?_of_top (huses : s.keyword ≠ .uses) (hgrouping : s.keyword ≠ .grouping) :
    complaint? [s] = none := by
  simp [complaint?, lacksType, lacksExpansion, huses, hgrouping]

-- Nothing is reported of what stands inside a statement without a class.
theorem complaint?_of_not_insideClasses (h : ¬ insideClasses around) :
    complaint? (s :: around) = none := by
  cases around with
  | nil => simp [insideClasses] at h
  | cons parent around => simp [complaint?, lacksType, lacksExpansion, h]

end

end Route

namespace Node

theorem filterMap_complaint?_routesInto_cons (around : Route) (n : Node) (rest : List Node) :
    (routesInto (fun _ => true) around (n :: rest)).filterMap Route.complaint? =
      (Route.complaint? (n :: around)).toList ++
        (routesInto (fun _ => true) (n :: around) n.children).filterMap Route.complaint? ++
        (routesInto (fun _ => true) around rest).filterMap Route.complaint? := by
  cases n with
  | mk id keyword arg children =>
      rw [routesInto, routesFrom, if_pos rfl, List.filterMap_append, ← List.singleton_append,
        List.filterMap_append]
      cases hcomplaint : Route.complaint? (.mk id keyword arg children :: around) with
      | none => rw [List.filterMap_cons_none hcomplaint]; rfl
      | some r => rw [List.filterMap_cons_some hcomplaint]; rfl

theorem filterMap_complaint?_inside {n : Node} (h : ¬ n.keyword.hasClass) (around : Route)
    (nodes : List Node) :
    (routesInto (fun _ => true) (n :: around) nodes).filterMap Route.complaint? = [] := by
  rw [List.filterMap_eq_nil_iff]
  intro route hroute
  obtain ⟨hsuffix, hlength⟩ := suffix_of_mem_routesInto hroute
  cases route with
  | nil => rfl
  | cons s outer =>
      have hn : n ∈ outer := by
        rcases List.suffix_cons_iff.mp hsuffix with heq | hsuffix
        · simp [heq] at hlength
        · exact hsuffix.subset List.mem_cons_self
      apply Route.complaint?_of_not_insideClasses
      intro hall
      exact h (List.all_eq_true.mp hall n hn)

end Node

def Event.report? : Event → Option Report
  | .claim _ _ _ => none
  | .report r => some r

-- What is told of a kind is what is reported of it. Claims only lead to remarks on class names.
theorem filter_kind_told {kind : RemarkKind} (hkind : kind ≠ .duplicateClassName)
    (claimed : List String) (events : List Event) :
    (told claimed events).filter (fun d => d.remark.kind = kind) =
      ((events.filterMap Event.report?).filter fun r => r.kind = kind).map Report.diagnostic := by
  induction events generalizing claimed with
  | nil => rfl
  | cons event rest ih =>
      rw [told, List.filter_append, ih]
      cases event with
      | claim node name path =>
          have hnone : (Event.remarks claimed (.claim node name path)).filter
              (fun d => d.remark.kind = kind) = [] := by
            rw [List.filter_eq_nil_iff]
            intro d hd hk
            have hclaim : d.remark.kind = .duplicateClassName := Event.kind_of_mem_remarks hd
            exact hkind ((of_decide_eq_true hk).symm.trans hclaim)
          rw [hnone, List.nil_append, List.filterMap_cons_none rfl]
      | report r =>
          have hreport : (Event.report r :: rest).filterMap Event.report? =
              r :: rest.filterMap Event.report? := List.filterMap_cons_some rfl
          have hsame : r.kind = r.diagnostic.remark.kind := rfl
          rw [hreport, Event.remarks, List.filter_cons, List.filter_cons, hsame, List.filter_nil]
          split
          · rfl
          · rfl

namespace Node

theorem filterMap_report?_typeEvents (path : String) (leaf : Node) :
    (typeEvents path leaf).filterMap Event.report? =
      if leaf.hasUnknownType then
        [⟨leaf.id, ⟨path ++ leaf.arg ++ "/", .unsupportedType leaf.typeName⟩⟩]
      else [] := by
  dsimp only [typeEvents]
  rw [valueType_defaulted, valueType_yangType]
  split
  · rfl
  · rfl

-- A member without a class is reported as its place says.
theorem filterMap_report?_plainEvents {n parent : Node} {around : Route}
    (h : Route.insideClasses (parent :: around)) :
    (plainEvents (Route.path "/" (parent :: around)) n).filterMap Event.report? =
      (Route.complaint? (n :: parent :: around)).toList := by
  have htype (hleaf : n.keyword = .leaf ∨ n.keyword = .leafList) :
      (typeEvents (Route.path "/" (parent :: around)) n).filterMap Event.report? =
        (Route.complaint? (n :: parent :: around)).toList := by
    rw [filterMap_report?_typeEvents, Route.complaint?_of_leaf hleaf h]
    split
    · rfl
    · rfl
  unfold plainEvents
  split
  · rename_i hkeyword
    exact htype (.inl hkeyword)
  · rename_i hkeyword
    exact htype (.inr hkeyword)
  · rename_i hkeyword
    rw [Route.complaint?_of_expansion (.inl hkeyword) h]
    rfl
  · rename_i hkeyword
    rw [Route.complaint?_of_expansion (.inr hkeyword) h]
    rfl
  · rename_i hleaf hleafList huses hgrouping
    rw [Route.complaint?_of_other hleaf hleafList huses hgrouping]
    rfl

-- Building classes reports in the order of the text. A class goes on below its own statement, and
-- below any other nothing is reported.
theorem filterMap_report?_memberEvents {parent : Node} {around : Route} (nodes : List Node)
    (h : Route.insideClasses (parent :: around)) :
    (memberEvents (Route.path "/" (parent :: around)) nodes).filterMap Event.report? =
      (routesInto (fun _ => true) (parent :: around) nodes).filterMap Route.complaint? := by
  induction nodes using forest_induction generalizing parent around with
  | nil => simp [memberEvents, routesInto]
  | cons id keyword arg children rest ihc ihr =>
      rw [memberEvents_cons, filterMap_complaint?_routesInto_cons, List.filterMap_append, ihr h]
      congr 1
      by_cases hk : (Node.mk id keyword arg children).keyword.hasClass
      · rw [if_pos hk, classEvents, Route.complaint?_of_hasClass hk, List.filterMap_cons_none rfl]
        exact ihc (Route.insideClasses_cons hk h)
      · rw [if_neg hk, filterMap_complaint?_inside hk, List.append_nil,
          filterMap_report?_plainEvents h]

theorem filterMap_report?_topEvents (n : Node) :
    (topEvents n).filterMap Event.report? =
      (Route.complaint? [n]).toList ++
        (routesInto (fun _ => true) [n] n.children).filterMap Route.complaint? := by
  unfold topEvents
  by_cases hk : n.keyword.hasClass
  · have hinside : Route.insideClasses [n] := Route.insideClasses_cons hk rfl
    rw [if_pos hk, classEvents_eq, Route.complaint?_of_hasClass hk, List.filterMap_cons_none rfl]
    exact filterMap_report?_memberEvents n.children hinside
  · rw [if_neg hk, filterMap_complaint?_inside hk, List.append_nil]
    by_cases hexpand : n.needsExpansion
    · have hkeyword : n.keyword = .uses ∨ n.keyword = .grouping := by
        simpa [needsExpansion] using hexpand
      rw [if_pos hexpand, Route.complaint?_of_expansion hkeyword rfl]
      rfl
    · have hkeyword : n.keyword ≠ .uses ∧ n.keyword ≠ .grouping := by
        simpa [needsExpansion] using hexpand
      rw [if_neg hexpand, Route.complaint?_of_top hkeyword.1 hkeyword.2]
      rfl

theorem filterMap_report?_flatMap_topEvents (nodes : List Node) :
    (nodes.flatMap topEvents).filterMap Event.report? =
      (routesInto (fun _ => true) [] nodes).filterMap Route.complaint? := by
  induction nodes with
  | nil => rfl
  | cons n rest ih =>
      rw [List.flatMap_cons, List.filterMap_append, ih, filterMap_report?_topEvents,
        filterMap_complaint?_routesInto_cons]

theorem filterMap_report?_rootEvents {root : Node} (hk : root.keyword = .module) :
    (root.rootEvents false).filterMap Event.report? = root.places.filterMap Route.complaint? := by
  have hevents : root.rootEvents false = root.moduleEvents false := by rw [rootEvents, hk]
  rw [hevents, moduleEvents_false, List.filterMap_cons_none rfl,
    filterMap_report?_flatMap_topEvents, places, routes, List.filterMap_cons_none rfl]

end Node

namespace Route

-- Reports of a kind come from the places with the lack that it stands for.
theorem map_diagnostic_complaints {kind : RemarkKind} {lacks : Route → Bool}
    {notice : Route → Diagnostic}
    (h : ∀ route : Route, (route.complaint?.filter fun r => r.kind = kind).map Report.diagnostic =
      if lacks route then some (notice route) else none) (places : List Route) :
    ((places.filterMap complaint?).filter fun r => r.kind = kind).map Report.diagnostic =
      (places.filter lacks).map notice := by
  rw [List.filter_filterMap, List.map_filterMap, ← List.filterMap_eq_map, List.filterMap_filter]
  simp only [h, Function.comp_apply]

theorem complaint?_unsupportedType (root : Node) (route : Route) :
    (route.complaint?.filter fun r => r.kind = .unsupportedType).map Report.diagnostic =
      if route.lacksType then
        some ⟨route.path "/", .unsupportedType (route.target root).typeName⟩
      else none := by
  cases route with
  | nil => rfl
  | cons s around =>
      rw [complaint?]
      split
      · rfl
      · split
        · rfl
        · rfl

theorem complaint?_unsupportedStatement (root : Node) (route : Route) :
    (route.complaint?.filter fun r => r.kind = .unsupportedStatement).map Report.diagnostic =
      if route.lacksExpansion then
        some ⟨path "/" route.tail, .unsupportedStatement (route.target root).keyword.text
          (route.target root).arg⟩
      else none := by
  cases route with
  | nil => rfl
  | cons s around =>
      rw [complaint?]
      split
      · rename_i htype
        rw [if_neg (by simp [lacksExpansion_of_lacksType htype])]
        rfl
      · split
        · rfl
        · rfl

theorem kind_of_complaint? {route : Route} {r : Report} (h : route.complaint? = some r) :
    r.kind = .unsupportedType ∨ r.kind = .unsupportedStatement := by
  cases route with
  | nil => simp [complaint?] at h
  | cons s around =>
      rw [complaint?] at h
      split at h
      · obtain rfl := Option.some.inj h
        exact .inl rfl
      · split at h
        · obtain rfl := Option.some.inj h
          exact .inr rfl
        · simp at h

end Route

namespace Forest

theorem told_filter_events {kind : RemarkKind} (hkind : kind ≠ .duplicateTagPath)
    (forest : Forest) (withSchema : Bool) :
    (told [] (forest.events withSchema)).filter (fun d => d.remark.kind = kind) =
      (told [] (forest.events false)).filter fun d => d.remark.kind = kind := by
  cases withSchema with
  | false => rfl
  | true =>
      rw [told_events_false, List.filter_filter]
      refine List.filter_congr fun d _ => ?_
      by_cases hd : d.remark.kind = kind
      · simp [hd, hkind]
      · simp [hd]

-- The diagnostics of a kind that comes neither from claims nor from schemas, root by root.
theorem filter_kind_diagnostics {kind : RemarkKind} (hclaim : kind ≠ .duplicateClassName)
    (hpath : kind ≠ .duplicateTagPath) {forest : Forest} {withSchema : Bool}
    {compilation : Compilation} (h : forest.compile withSchema = .ok compilation) :
    (compilation.diagnostics.filter fun d => d.remark.kind = kind) =
      forest.roots.flatMap fun root =>
        (((root.rootEvents false).filterMap Event.report?).filter fun r => r.kind = kind).map
          Report.diagnostic := by
  rw [diagnostics_eq_told h, told_filter_events hpath, filter_kind_told hclaim, events,
    List.filterMap_flatMap, List.filter_flatMap, List.map_flatMap]

end Forest

namespace Node

-- A submodule is passed over with a report of its own kind, and only modules have others.
theorem reports_of_not_module {root : Node} (hk : root.keyword ≠ .module) {kind : RemarkKind}
    (hkind : kind ≠ .submoduleSkipped) :
    ((root.rootEvents false).filterMap Event.report?).filter (fun r => r.kind = kind) = [] := by
  rw [List.filter_eq_nil_iff]
  intro r hr hkind'
  unfold rootEvents at hr
  split at hr
  · contradiction
  · obtain rfl : r = ⟨root.id, ⟨"/", .submoduleSkipped root.arg⟩⟩ := by
      simpa [Event.report?] using hr
    exact hkind (of_decide_eq_true hkind').symm
  · simp at hr

theorem reports_of_submodule {root : Node} (hk : root.keyword = .submodule) :
    ((root.rootEvents false).filterMap Event.report?).filter
      (fun r => r.kind = .submoduleSkipped) = [⟨root.id, ⟨"/", .submoduleSkipped root.arg⟩⟩] := by
  have hevents : root.rootEvents false =
      [.report ⟨root.id, ⟨"/", .submoduleSkipped root.arg⟩⟩] := by rw [rootEvents, hk]
  rw [hevents]
  rfl

theorem reports_of_not_submodule {root : Node} (hk : root.keyword ≠ .submodule) :
    ((root.rootEvents false).filterMap Event.report?).filter
      (fun r => r.kind = .submoduleSkipped) = [] := by
  by_cases hmodule : root.keyword = .module
  · rw [filterMap_report?_rootEvents hmodule, List.filter_eq_nil_iff]
    intro r hr hkind
    obtain ⟨route, -, hcomplaint⟩ := List.mem_filterMap.mp hr
    rcases Route.kind_of_complaint? hcomplaint with hk | hk <;> simp [hk] at hkind
  · have hevents : root.rootEvents false = [] := by
      unfold rootEvents
      split
      · contradiction
      · contradiction
      · rfl
    rw [hevents]
    rfl

end Node

-- The paths of the classes are those of their statements.
theorem Built.map_path {context : ModuleContext} {root : ClassSpec} (hroot : root.path = "/")
    {routes : List Route} {lineages : List (List ClassSpec)}
    (h : List.Forall₂ (Built context root) routes lineages) :
    (lineages.filterMap List.head?).map ClassSpec.path = routes.map (Route.path "/") := by
  induction h with
  | nil => rfl
  | @cons route lineage routes lineages hb _ ih =>
      cases lineage with
      | nil => exact absurd rfl hb.ne_nil
      | cons c outer =>
          have hhead : (c :: outer).head? = some c := rfl
          rw [List.filterMap_cons_some hhead, List.map_cons, List.map_cons, ih, hb.path_eq hroot]

-- What is told of types, of statements that would have to be expanded and of submodules is told
-- once of each statement concerned, in the order of the text.
structure ExactlyTold (forest : Forest) (compilation : Compilation) : Prop where
  placed : ∀ root ∈ forest.roots, root.places.map (Route.target root) = root.preorder ∧
    ∀ route ∈ root.places, route.Leads (fun _ => true) root
  paths : List.Forall₂ (fun root m => m.model.root.walk.map ClassSpec.path =
      (root.routes Keyword.hasClass).map (Route.path "/"))
    (forest.roots.filter fun root => root.keyword = .module) compilation.modules
  types : (compilation.diagnostics.filter fun d => d.remark.kind = .unsupportedType) =
    (forest.roots.filter fun root => root.keyword = .module).flatMap fun root =>
      (root.places.filter Route.lacksType).map fun route =>
        ⟨route.path "/", .unsupportedType (route.target root).typeName⟩
  statements : (compilation.diagnostics.filter fun d => d.remark.kind = .unsupportedStatement) =
    (forest.roots.filter fun root => root.keyword = .module).flatMap fun root =>
      (root.places.filter Route.lacksExpansion).map fun route =>
        ⟨Route.path "/" route.tail, .unsupportedStatement (route.target root).keyword.text
          (route.target root).arg⟩
  submodules : (compilation.diagnostics.filter fun d => d.remark.kind = .submoduleSkipped) =
    (forest.roots.filter fun root => root.keyword = .submodule).map fun root =>
      ⟨"/", .submoduleSkipped root.arg⟩

theorem Forest.class_paths {forest : Forest} {withSchema : Bool} {compilation : Compilation}
    (h : forest.compile withSchema = .ok compilation) :
    List.Forall₂ (fun root m => m.model.root.walk.map ClassSpec.path =
        (root.routes Keyword.hasClass).map (Route.path "/"))
      (forest.roots.filter fun root => root.keyword = .module) compilation.modules := by
  refine (Forest.compile_ok h).1.imp fun root m hm => ?_
  obtain ⟨_, _, _, _, _, hspec, _, hbuilt⟩ := Node.compileModule_built hm
  rw [ClassTree.walk_eq_lineages]
  exact Built.map_path (by rw [hspec]; rfl) hbuilt

-- What is told of a lack of modules, for the kinds that neither claims, schemas nor submodules
-- lead to.
theorem Forest.filter_kind_complaints {kind : RemarkKind} (hclaim : kind ≠ .duplicateClassName)
    (hpath : kind ≠ .duplicateTagPath) (hskipped : kind ≠ .submoduleSkipped)
    {lacks : Route → Bool} {notice : Node → Route → Diagnostic}
    (hnotice : ∀ (root : Node) (route : Route),
      (route.complaint?.filter fun r => r.kind = kind).map Report.diagnostic =
        if lacks route then some (notice root route) else none)
    {forest : Forest} {withSchema : Bool} {compilation : Compilation}
    (h : forest.compile withSchema = .ok compilation) :
    (compilation.diagnostics.filter fun d => d.remark.kind = kind) =
      (forest.roots.filter fun root => root.keyword = .module).flatMap fun root =>
        (root.places.filter lacks).map (notice root) := by
  rw [filter_kind_diagnostics hclaim hpath h]
  refine List.flatMap_eq_flatMap_filter (fun root hk => ?_) (fun root hk => ?_) _
  · rw [Node.filterMap_report?_rootEvents (by simpa using hk)]
    exact Route.map_diagnostic_complaints (hnotice root) _
  · rw [Node.reports_of_not_module (by simpa using hk) hskipped, List.map_nil]

theorem Forest.filter_kind_submodules {forest : Forest} {withSchema : Bool}
    {compilation : Compilation} (h : forest.compile withSchema = .ok compilation) :
    (compilation.diagnostics.filter fun d => d.remark.kind = .submoduleSkipped) =
      (forest.roots.filter fun root => root.keyword = .submodule).map fun root =>
        ⟨"/", .submoduleSkipped root.arg⟩ := by
  rw [filter_kind_diagnostics (by decide) (by decide) h, List.map_eq_flatMap]
  refine List.flatMap_eq_flatMap_filter (fun root hk => ?_) (fun root hk => ?_) _
  · rw [Node.reports_of_submodule (by simpa using hk)]
    rfl
  · rw [Node.reports_of_not_submodule (by simpa using hk), List.map_nil]

theorem diagnostics_exact (forest : Forest) (withSchema : Bool) (compilation : Compilation)
    (h : forest.compile withSchema = .ok compilation) : ExactlyTold forest compilation where
  placed root _ := ⟨root.map_target_places, fun _ hroute => Node.mem_routes_iff.mp hroute⟩
  paths := Forest.class_paths h
  types := Forest.filter_kind_complaints (by decide) (by decide) (by decide)
    Route.complaint?_unsupportedType h
  statements := Forest.filter_kind_complaints (by decide) (by decide) (by decide)
    Route.complaint?_unsupportedStatement h
  submodules := Forest.filter_kind_submodules h

-- A leaf of the module and one in a grouping are not told of, and the key is told of once though
-- its type is looked up for the class, for its keys and for the accessors around it.
def unsupportedParts : Forest :=
  [.mk .module "m" [.mk .namespaceUri "urn:m" [], .mk .modulePrefix "p" [], .mk .leaf "top" [],
    .mk .uses "g" [],
    .mk .container "a" [
      .mk .list "b" [.mk .key "k" [], .mk .leaf "k" [.mk .type "decimal64" []]],
      .mk .leafList "l" [],
      .mk .grouping "h" [.mk .leaf "inner" []]]],
    .mk .submodule "s" []]

theorem diagnostics_exact_unsupportedParts :
    ∃ compilation, unsupportedParts.compile true = .ok compilation ∧
      compilation.diagnostics = [⟨"/", .unsupportedStatement "uses" "g"⟩,
        ⟨"/a/b/k/", .unsupportedType "decimal64"⟩, ⟨"/a/l/", .unsupportedType ""⟩,
        ⟨"/a/", .unsupportedStatement "grouping" "h"⟩, ⟨"/", .submoduleSkipped "s"⟩] ∧
      ExactlyTold unsupportedParts compilation := by
  have h : unsupportedParts.compile true = .ok _ := rfl
  exact ⟨_, h, by decide +kernel, diagnostics_exact _ _ _ h⟩

end YangBinding
