import YangBinding.Proofs.Files.Inside

namespace YangBinding

namespace Java

-- What an identifier may start with, and what it may go on with.
def IsInitial (c : Char) : Prop :=
  ('a' ≤ c ∧ c ≤ 'z') ∨ ('A' ≤ c ∧ c ≤ 'Z') ∨ c = '_' ∨ c = '$'

def IsFurther (c : Char) : Prop := IsInitial c ∨ ('0' ≤ c ∧ c ≤ '9')

def IsIdentifier (name : String) : Prop :=
  ∃ first rest, name.toList = first :: rest ∧ IsInitial first ∧ ∀ c ∈ rest, IsFurther c

-- One identifier or more, with a point between each two.
structure Dotted (identifiers : List String) (package : String) : Prop where
  nonempty : identifiers ≠ []
  each : ∀ name ∈ identifiers, IsIdentifier name
  joined : package = ".".intercalate identifiers

theorem isNameStart_iff (c : Char) : isNameStart c ↔ IsInitial c := by
  have hletter : c.isAlpha = (c.isUpper || c.isLower) := rfl
  have hupper : c.isUpper = decide ('A' ≤ c ∧ c ≤ 'Z') := rfl
  have hlower : c.isLower = (decide ('a' ≤ c) && decide (c ≤ 'z')) := rfl
  simp only [isNameStart, hletter, hupper, hlower, IsInitial, Bool.or_eq_true, Bool.and_eq_true,
    decide_eq_true_eq, beq_iff_eq]
  tauto

theorem isNamePart_iff (c : Char) : isNamePart c ↔ IsFurther c := by
  rw [IsFurther, ← isNameStart_iff]
  simp only [isNamePart, Char.isDigit, Bool.or_eq_true, Bool.and_eq_true, decide_eq_true_eq,
    ge_iff_le, Char.le_def]

theorem isPackageSegment_iff (name : String) :
    isPackageSegment name.toList ↔ IsIdentifier name := by
  unfold IsIdentifier
  cases name.toList with
  | nil => simp [isPackageSegment]
  | cons first rest =>
      simp only [isPackageSegment, Bool.and_eq_true, List.all_eq_true, isNameStart_iff,
        isNamePart_iff]
      constructor
      · rintro ⟨hfirst, hrest⟩
        exact ⟨first, rest, rfl, hfirst, hrest⟩
      · rintro ⟨_, _, heq, hfirst, hrest⟩
        obtain ⟨rfl, rfl⟩ := List.cons.inj heq
        exact ⟨hfirst, hrest⟩

theorem IsIdentifier.isComponent {name : String} (h : IsIdentifier name) :
    Files.IsComponent name := by
  obtain ⟨hne, hslash, hpoint⟩ := of_isPackageSegment ((isPackageSegment_iff name).mpr h)
  refine ⟨by simpa using hne, hslash, ?_, ?_⟩
  · rintro rfl
    exact hpoint (by simp)
  · rintro rfl
    exact hpoint (by simp)

-- The points are found again, since no identifier has one.
theorem Dotted.packageSegments_eq {identifiers : List String} {package : String}
    (h : Dotted identifiers package) :
    packageSegments package = identifiers.map String.toList := by
  have hpoint : ∀ part ∈ identifiers.map String.toList, '.' ∉ part := by
    intro part hpart
    obtain ⟨name, hname, rfl⟩ := List.mem_map.mp hpart
    exact (of_isPackageSegment ((isPackageSegment_iff name).mpr (h.each name hname))).2.2
  rw [packageSegments, h.joined, String.toList_intercalate]
  exact Text.pieces_intercalate (by simpa using h.nonempty) hpoint

theorem Dotted.isPackageName {identifiers : List String} {package : String}
    (h : Dotted identifiers package) : isPackageName package := by
  rw [Java.isPackageName, h.packageSegments_eq, List.all_map, List.all_eq_true]
  intro name hname
  exact (isPackageSegment_iff name).mpr (h.each name hname)

theorem dotted_packageSegments {package : String} (h : isPackageName package) :
    Dotted ((packageSegments package).map String.ofList) package where
  nonempty := by
    rw [ne_eq, List.map_eq_nil_iff]
    exact Text.pieces_ne_nil (· == '.') package.toList
  each name hname := by
    obtain ⟨segment, hsegment, rfl⟩ := List.mem_map.mp hname
    rw [← isPackageSegment_iff, String.toList_ofList]
    exact List.all_eq_true.mp h segment hsegment
  joined := by
    have hpieces := Text.intercalate_pieces '.' package.toList
    rw [← String.toList_inj, String.toList_intercalate, List.map_map]
    simpa [Function.comp_def, packageSegments] using hpieces.symm

theorem isPackageName_iff (package : String) :
    isPackageName package ↔ ∃ identifiers, Dotted identifiers package :=
  ⟨fun h => ⟨_, dotted_packageSegments h⟩, fun ⟨_, h⟩ => h.isPackageName⟩

theorem Dotted.identifiers_ne {identifiers others : List String} {package other : String}
    (h : Dotted identifiers package) (ho : Dotted others other) (hne : package ≠ other) :
    identifiers ≠ others := by
  rintro rfl
  exact hne (h.joined.trans ho.joined.symm)

-- Each character belongs to a segment or stands between two.
theorem isNamePart_of_mem {package : String} (h : isPackageName package) {c : Char}
    (hc : c ∈ package.toList) : c = '.' ∨ isNamePart c := by
  by_cases hpoint : c = '.'
  · exact .inl hpoint
  · obtain ⟨segment, hsegment, hmem⟩ :=
      @Text.exists_piece_of_mem (· == '.') package.toList c hc (by simpa using hpoint)
    exact .inr (isNamePart_of_mem_segment (List.all_eq_true.mp h segment hsegment) hmem)

theorem not_isPackageName_append_newline (package : String) :
    ¬ isPackageName (package ++ "\n") := by
  intro h
  have hmem : '\n' ∈ (package ++ "\n").toList := by simp [String.toList_append]
  rcases isNamePart_of_mem h hmem with hpoint | hpart
  · exact absurd hpoint (by decide)
  · exact absurd hpart (by decide)

end Java

namespace Files

-- A step of a path: to the root of all paths, to stay, to go up, or to a name.
inductive Component where
  | root
  | here
  | up
  | name (text : String)
deriving DecidableEq

-- What stands between two slashes. An empty piece and a point are no step.
def Component.ofPiece (piece : List Char) : Option Component :=
  if piece = [] ∨ piece = ['.'] then none
  else if piece = ['.', '.'] then some .up
  else some (.name (String.ofList piece))

-- The steps in a text behind its first slash.
def innerSteps (text : List Char) : List Component :=
  (Text.pieces isSlash text).filterMap Component.ofPiece

-- Only at the front a slash and a point count.
def leading (path : List Char) : List Component :=
  if path.head? = some '/' then [.root]
  else if (Text.pieces isSlash path).head? = some ['.'] then [.here]
  else []

-- The steps of a path. Two paths with the same steps are the same path.
def components (path : String) : List Component :=
  leading path.toList ++ innerSteps path.toList

theorem innerSteps_append_slash (before after : List Char) :
    innerSteps (before ++ '/' :: after) = innerSteps before ++ innerSteps after := by
  rw [innerSteps, Text.pieces_append_cons rfl, List.filterMap_append, innerSteps, innerSteps]

theorem leading_append_slash {before : List Char} (h : before ≠ []) (after : List Char) :
    leading (before ++ '/' :: after) = leading before := by
  obtain ⟨piece, rest, heq⟩ := List.exists_cons_of_ne_nil (Text.pieces_ne_nil isSlash before)
  rw [leading, leading, Text.pieces_append_cons rfl, heq, List.head?_append_of_ne_nil _ h,
    List.cons_append, List.head?_cons, List.head?_cons]

-- A slash parts the steps before it from those behind it, unless it is the first character.
theorem leading_innerSteps_append {before : List Char} (h : before ≠ []) (after : List Char) :
    leading (before ++ '/' :: after) ++ innerSteps (before ++ '/' :: after) =
      leading before ++ innerSteps before ++ innerSteps after := by
  rw [leading_append_slash h, innerSteps_append_slash, List.append_assoc]

namespace IsComponent

variable {name : String} (h : IsComponent name)
include h

theorem ofPiece_eq : Component.ofPiece name.toList = some (.name name) := by
  have hempty : name.toList ≠ [] := by simpa using h.nonempty
  have hhere : name.toList ≠ ['.'] := fun heq => h.notHere (String.toList_inj.mp heq)
  have hup : name.toList ≠ ['.', '.'] := fun heq => h.notUp (String.toList_inj.mp heq)
  rw [Component.ofPiece, if_neg (by simp [hempty, hhere]), if_neg hup, String.ofList_toList]

theorem pieces_eq : Text.pieces isSlash name.toList = [name.toList] :=
  Text.pieces_of_forall_not fun _ hc hslash => h.noSlash (eq_of_beq hslash ▸ hc)

theorem innerSteps_eq : innerSteps name.toList = [.name name] := by
  rw [innerSteps, h.pieces_eq, List.filterMap_cons_some h.ofPiece_eq, List.filterMap_nil]

theorem leading_eq : leading name.toList = [] := by
  have hhere : some name.toList ≠ some ['.'] := fun heq =>
    h.notHere (String.toList_inj.mp (Option.some.inj heq))
  rw [leading, if_neg (head?_ne_slash h.noSlash), h.pieces_eq, List.head?_cons, if_neg hhere]

-- A name that is joined to a path is one step more.
theorem components_join (base : String) :
    components (join base name) = components base ++ [.name name] := by
  rw [join, if_neg (by simpa using head?_ne_slash h.noSlash)]
  by_cases hempty : base = ""
  · subst hempty
    rw [if_pos (by simp), String.empty_append, components, h.leading_eq, h.innerSteps_eq]
    rfl
  by_cases hslash : base.toList.getLast? = some '/'
  · rw [if_pos (by simp [hslash]), components, components, String.toList_append]
    obtain ⟨before, heq⟩ := List.getLast?_eq_some_iff.mp hslash
    rw [heq, List.append_assoc, List.singleton_append]
    by_cases hbefore : before = []
    · subst hbefore
      rw [innerSteps_append_slash, h.innerSteps_eq]
      rfl
    · -- Behind the slash at the end of the base there is no step yet.
      have hnone : innerSteps [] = [] := rfl
      rw [leading_innerSteps_append hbefore, leading_innerSteps_append hbefore, hnone,
        h.innerSteps_eq, List.append_nil]
  · have htext : (base ++ "/" ++ name).toList = base.toList ++ '/' :: name.toList := by
      simp [String.toList_append]
    rw [if_neg (by simp [hempty, hslash]), components, htext,
      leading_innerSteps_append (by simpa using hempty), h.innerSteps_eq, components]

end IsComponent

-- What grows by one with each name that is joined to a path.
theorem foldl_join {α : Type} {view : String → List α} {image : String → α}
    (hstep : ∀ base name, IsComponent name → view (join base name) = view base ++ [image name])
    {names : List String} (h : ∀ name ∈ names, IsComponent name) (root : String) :
    view (names.foldl join root) = view root ++ names.map image := by
  induction names generalizing root with
  | nil => simp
  | cons name names ih =>
      obtain ⟨hname, hnames⟩ := List.forall_mem_cons.mp h
      rw [List.foldl_cons, ih hnames, hstep root name hname, List.map_cons, List.append_assoc,
        List.singleton_append]

end Files

open Files

section

variable {plan : OutputPlan} {identifiers : List String}

theorem OutputPlan.packageDir_eq (h : Java.Dotted identifiers plan.package) :
    plan.packageDir = identifiers.foldl join plan.root := by
  rw [packageDir, h.packageSegments_eq, List.foldl_map]
  simp only [String.ofList_toList]

theorem OutputPlan.components_packageDir (h : Java.Dotted identifiers plan.package) :
    components plan.packageDir = components plan.root ++ identifiers.map .name := by
  rw [packageDir_eq h]
  exact foldl_join (fun base _ hname => hname.components_join base)
    (fun name hname => (h.each name hname).isComponent) plan.root

theorem OutputPlan.locate_packageDir (h : Java.Dotted identifiers plan.package) (cwd : Location) :
    Volume.locate cwd plan.packageDir = Volume.locate cwd plan.root ++ identifiers := by
  have hfold : Volume.locate cwd (identifiers.foldl join plan.root) =
      Volume.locate cwd plan.root ++ identifiers.map id :=
    foldl_join (fun base _ hname => hname.locate_join base cwd)
      (fun name hname => (h.each name hname).isComponent) plan.root
  rw [packageDir_eq h, hfold, List.map_id]

end

-- Package names are checked and turned into directories in the same way: an accepted one leads
-- down from the root by its identifiers, and no two lead to the same place.
theorem package_directories :
    (∀ package, Java.isPackageName package ↔ ∃ identifiers, Java.Dotted identifiers package) ∧
    (∀ package, ¬ Java.isPackageName (package ++ "\n")) ∧
    (∀ (plan : OutputPlan) (identifiers : List String), Java.Dotted identifiers plan.package →
      components plan.packageDir = components plan.root ++ identifiers.map .name ∧
        ∀ cwd, Volume.locate cwd plan.packageDir =
          Volume.locate cwd plan.root ++ identifiers) ∧
    ∀ plan other : OutputPlan, Java.isPackageName plan.package →
      Java.isPackageName other.package → plan.root = other.root → plan.package ≠ other.package →
      components plan.packageDir ≠ components other.packageDir ∧
        ∀ cwd, Volume.locate cwd plan.packageDir ≠ Volume.locate cwd other.packageDir := by
  refine ⟨Java.isPackageName_iff, Java.not_isPackageName_append_newline, ?_, ?_⟩
  · intro plan identifiers h
    exact ⟨OutputPlan.components_packageDir h, OutputPlan.locate_packageDir h⟩
  · intro plan other hplan hother hroot hne
    have hd := Java.dotted_packageSegments hplan
    have hd' := Java.dotted_packageSegments hother
    have hnames := hd.identifiers_ne hd' hne
    refine ⟨fun heq => hnames ?_, fun cwd heq => hnames ?_⟩
    · rw [OutputPlan.components_packageDir hd, OutputPlan.components_packageDir hd', hroot,
        List.append_cancel_left_eq] at heq
      exact List.map_injective_iff.mpr (fun _ _ h => Component.name.inj h) heq
    · rw [OutputPlan.locate_packageDir hd, OutputPlan.locate_packageDir hd', hroot,
        List.append_cancel_left_eq] at heq
      exact heq

-- The root ends in a slash, and the names come as near to each other as names can.
theorem package_directories_of_nearNames :
    Java.Dotted ["com", "_1", "$"] "com._1.$" ∧
    components (OutputPlan.packageDir ⟨"./out/", "com._1.$", none⟩) =
      [.here, .name "out", .name "com", .name "_1", .name "$"] ∧
    Volume.locate ["home"] (OutputPlan.packageDir ⟨"./out/", "com._1.$", none⟩) =
      ["home", "out", "com", "_1", "$"] ∧
    components (OutputPlan.packageDir ⟨"./out/", "com._1.$", none⟩) ≠
      components (OutputPlan.packageDir ⟨"./out/", "com._1$", none⟩) := by
  have hname : Java.isPackageName "com._1.$" := by decide
  have hother : Java.isPackageName "com._1$" := by decide
  have hd : Java.Dotted ["com", "_1", "$"] "com._1.$" := Java.dotted_packageSegments hname
  obtain ⟨-, -, hdir, hne⟩ := package_directories
  obtain ⟨hcomponents, hlocate⟩ := hdir ⟨"./out/", "com._1.$", none⟩ _ hd
  refine ⟨hd, hcomponents, hlocate ["home"], ?_⟩
  exact (hne ⟨"./out/", _, none⟩ ⟨"./out/", _, none⟩ hname hother rfl (by decide)).1

end YangBinding
