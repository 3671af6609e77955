import YangBinding.Proofs.Class.Repeats
import YangBinding.Proofs.Files.Growth
import YangBinding.Proofs.Files.Written
import YangBinding.Proofs.Java.Names

namespace YangBinding

namespace Files

-- One name of a path that leads on from a directory to something in it.
structure IsComponent (name : String) : Prop where
  nonempty : name ≠ ""
  noSlash : '/' ∉ name.toList
  notHere : name ≠ "."
  notUp : name ≠ ".."

def DirectlyIn (dir path : String) : Prop := ∃ name, IsComponent name ∧ path = join dir name

-- What a file name ends in behind its stem.
structure IsEnding (ending : String) : Prop where
  noSlash : '/' ∉ ending.toList
  point : '.' ∈ ending.toList
  long : 2 < ending.toList.length

variable {stem ending dir : String}

theorem IsEnding.head?_append (h : IsEnding ending) :
    (stem ++ ending).toList.head? = some '/' ↔ stem.toList.head? = some '/' := by
  rw [String.toList_append]
  cases hstem : stem.toList with
  | nil => simpa using fun hhead => h.noSlash (List.mem_of_mem_head? hhead)
  | cons c cs => simp

theorem IsEnding.isComponent (h : IsEnding ending) (hstem : '/' ∉ stem.toList) :
    IsComponent (stem ++ ending) := by
  have hlong : 2 < (stem ++ ending).toList.length := by
    have := h.long
    rw [String.toList_append, List.length_append]
    omega
  refine ⟨?_, ?_, ?_, ?_⟩
  · rintro heq
    simp [heq] at hlong
  · simpa [String.toList_append, h.noSlash] using hstem
  · rintro heq
    simp [heq] at hlong
  · rintro heq
    simp [heq] at hlong

theorem IsComponent.pathNames_eq {name : String} (h : IsComponent name) :
    pathNames name.toList = [name] := by
  rw [pathNames_of_forall_ne (by simpa using h.nonempty) h.noSlash, String.ofList_toList]

theorem head?_ne_slash {text : String} (h : '/' ∉ text.toList) : text.toList.head? ≠ some '/' :=
  fun hhead => h (List.mem_of_mem_head? hhead)

theorem IsComponent.locate_join {name : String} (h : IsComponent name) (dir : String)
    (cwd : Location) :
    Volume.locate cwd (join dir name) = Volume.locate cwd dir ++ [name] := by
  rw [Files.locate_join (head?_ne_slash h.noSlash), h.pathNames_eq]
  rw [h.pathNames_eq]
  exact List.forall_mem_singleton.mpr ⟨h.notHere, h.notUp⟩

-- A file goes directly into the directory if its stem has no slash, or if its stem spells out
-- the directory itself from the root of all paths.
def Contained (dir stem : String) : Prop :=
  '/' ∉ stem.toList ∨
    (stem.toList.head? = some '/' ∧ ∃ last, '/' ∉ last.toList ∧ stem = join dir last)

-- No slash in an ending, so it is behind the last one.
theorem IsEnding.exists_last (h : IsEnding ending) {lead name : String}
    (hlead : lead = "" ∨ lead.toList.getLast? = some '/') (heq : stem ++ ending = lead ++ name) :
    ∃ last, stem = lead ++ last ∧ name = last ++ ending := by
  have hlist : stem.toList ++ ending.toList = lead.toList ++ name.toList := by
    rw [← String.toList_append, heq, String.toList_append]
  rcases List.append_eq_append_iff.mp hlist with ⟨gap, hgap, hending⟩ | ⟨last, hstem, hname⟩
  · have hnil : gap = [] := by
      rcases hlead with rfl | hslash
      · exact (List.append_eq_nil_iff.mp hgap.symm).2
      · by_contra hne
        rw [hgap, List.getLast?_append_of_ne_nil _ hne] at hslash
        exact h.noSlash (hending ▸ List.mem_append_left _ (List.mem_of_getLast? hslash))
    subst hnil
    exact ⟨"", by simpa [String.toList_inj] using hgap.symm, by
      simpa [String.toList_inj] using hending.symm⟩
  · exact ⟨String.ofList last, by rw [← String.toList_inj, hstem, String.toList_append,
      String.toList_ofList], by rw [← String.toList_inj, hname, String.toList_append,
      String.toList_ofList]⟩

theorem directlyIn_join_iff (h : IsEnding ending) :
    DirectlyIn dir (join dir (stem ++ ending)) ↔ Contained dir stem := by
  obtain ⟨lead, hlead, hjoin⟩ := join_relative dir
  by_cases habsolute : stem.toList.head? = some '/'
  · rw [DirectlyIn, join_of_absolute (h.head?_append.mpr habsolute)]
    constructor
    · rintro ⟨name, hname, heq⟩
      rw [hjoin name (head?_ne_slash hname.noSlash)] at heq
      obtain ⟨last, hstem, rfl⟩ := h.exists_last hlead heq
      have hlast : '/' ∉ last.toList := fun hslash =>
        hname.noSlash (by simp [String.toList_append, hslash])
      exact .inr ⟨habsolute, last, hlast, by rw [hjoin last (head?_ne_slash hlast), hstem]⟩
    · rintro (hstem | ⟨-, last, hlast, rfl⟩)
      · exact absurd habsolute (head?_ne_slash hstem)
      · refine ⟨last ++ ending, h.isComponent hlast, ?_⟩
        rw [hjoin last (head?_ne_slash hlast),
          hjoin _ (head?_ne_slash (h.isComponent hlast).noSlash), String.append_assoc]
  · have hrelative : (stem ++ ending).toList.head? ≠ some '/' :=
      fun hhead => habsolute (h.head?_append.mp hhead)
    rw [DirectlyIn, hjoin _ hrelative]
    constructor
    · rintro ⟨name, hname, heq⟩
      rw [hjoin name (head?_ne_slash hname.noSlash), String.append_right_inj] at heq
      exact .inl fun hslash => hname.noSlash (by simp [← heq, String.toList_append, hslash])
    · rintro (hstem | ⟨hhead, -⟩)
      · exact ⟨_, h.isComponent hstem, by rw [hjoin _ hrelative]⟩
      · exact absurd hhead habsolute

-- A stem without points gives names that all lead further down.
theorem IsEnding.plain_of_mem_pathNames (h : IsEnding ending) (hstem : '.' ∉ stem.toList)
    {name : String} (hname : name ∈ pathNames (stem ++ ending).toList) :
    name ≠ "." ∧ name ≠ ".." := by
  obtain ⟨piece, hpiece, rfl⟩ := List.mem_map.mp hname
  have hpiece := (List.mem_filter.mp hpiece).1
  have hslash : ∀ c ∈ ending.toList, ¬ isSlash c := fun c hc hslash =>
    h.noSlash (eq_of_beq hslash ▸ hc)
  obtain ⟨init, last, hpieces, hall⟩ := Text.pieces_append_of_forall_not hslash stem.toList
  rw [String.toList_append, hall, List.mem_append, List.mem_singleton] at hpiece
  rw [Ne, Ne, ← String.toList_inj, ← String.toList_inj, String.toList_ofList]
  rcases hpiece with hpiece | rfl
  · have hdot : '.' ∉ piece := fun hdot =>
      hstem (Text.mem_of_mem_pieces (hpieces ▸ List.mem_append_left _ hpiece) hdot)
    exact ⟨fun heq => hdot (by simp [heq]), fun heq => hdot (by simp [heq])⟩
  · have hlong := h.long
    constructor
    · intro heq
      have hlength := congrArg List.length heq
      simp at hlength
      omega
    · intro heq
      have hlength := congrArg List.length heq
      simp at hlength
      omega

end Files

open Files

theorem isEnding_java : IsEnding ".java" := ⟨by decide, by decide, by decide⟩

theorem isEnding_schema : IsEnding ".schema" := ⟨by decide, by decide, by decide⟩

section Choosing

variable {σ : Type} {host : Host (StateM σ)} {plan : OutputPlan} {start failed searched next : σ}

theorem chooseDir_run_made
    (h : (makeDirs host plan.packageDir).run start = (.ok (), next)) :
    (chooseDir host plan).run start = ((.ok plan.packageDir, []), next) := by
  rw [chooseDir, StateM.run_bind_of_eq h]
  rfl

theorem chooseDir_run_unblocked {e : OsError}
    (h : (makeDirs host plan.packageDir).run start = (.error e, failed))
    (hfile : (blockingFile? host plan.packageDir).run failed = (none, next)) :
    (chooseDir host plan).run start = ((.error (.createDir plan.packageDir e), []), next) := by
  rw [chooseDir, StateM.run_bind_of_eq h]
  exact StateM.run_bind_of_eq hfile

theorem chooseDir_run_blocked {e : OsError} {file : String} {outcome : Except OsError Unit}
    (h : (makeDirs host plan.packageDir).run start = (.error e, failed))
    (hfile : (blockingFile? host plan.packageDir).run failed = (some file, searched))
    (hroot : (makeDirs host plan.root).run searched = (outcome, next)) :
    (chooseDir host plan).run start =
      (((outcome.mapError (.createDir plan.root)).map fun _ => plan.root,
        [⟨file, .outputDirConflict plan.packageDir⟩]), next) := by
  rw [chooseDir, StateM.run_bind_of_eq h]
  refine (StateM.run_bind_of_eq hfile).trans ?_
  refine (StateM.run_bind_of_eq hroot).trans ?_
  cases outcome with
  | error e => rfl
  | ok _ => rfl

-- Files go to the directory of the package or to the root.
theorem chooseDir_dir {dir : String} {remarks : List Diagnostic}
    (h : (chooseDir host plan).run start = ((.ok dir, remarks), next)) :
    dir = plan.packageDir ∨ dir = plan.root := by
  rcases hmake : (makeDirs host plan.packageDir).run start with ⟨e | _, failed⟩
  · rcases hfile : (blockingFile? host plan.packageDir).run failed with ⟨_ | file, searched⟩
    · rw [chooseDir_run_unblocked hmake hfile] at h
      cases h
    · rcases hroot : (makeDirs host plan.root).run searched with ⟨e' | _, last⟩
      · rw [chooseDir_run_blocked hmake hfile hroot] at h
        cases h
      · rw [chooseDir_run_blocked hmake hfile hroot] at h
        cases h
        exact .inr rfl
  · rw [chooseDir_run_made hmake] at h
    cases h
    exact .inl rfl

end Choosing

section Reporting

variable {σ : Type} {host : Host (StateM σ)} {options : RenderOptions} {plan : OutputPlan}
  {c : Compilation} {start next finish : σ} {remarks : List Diagnostic}

theorem prepareDir_run {outcome : Except EmitError String}
    (h : (chooseDir host plan).run start = ((outcome, remarks), next)) :
    (prepareDir host plan).run.run start = (outcome.map fun dir => (dir, remarks), next) := by
  rw [prepareDir, ExceptT.run_bind_of_ok (ExceptT.run_lift_of_eq h)]
  cases outcome with
  | error e => rfl
  | ok dir => rfl

-- A report tells where the files went and lists them all.
theorem writeArtifacts_report {report : WriteReport}
    (h : (writeArtifacts host options plan c).run.run start = (.ok report, finish)) :
    (report.dir = plan.packageDir ∨ report.dir = plan.root) ∧
      report.written = (c.writes options report.dir).map Prod.fst := by
  rcases hchoose : (chooseDir host plan).run start with ⟨⟨e | dir, remarks⟩, prepared⟩
  · rw [writeArtifacts, ExceptT.run_bind_of_error (prepareDir_run hchoose)] at h
    cases h
  · rw [writeArtifacts, ExceptT.run_bind_of_ok (prepareDir_run hchoose)] at h
    rcases writeFiles_run host dir (c.artifacts options) prepared (c.map_artifacts options dir) with
      ⟨stored, -, hwrite⟩ | ⟨_, _, _, _, _, stored, e, -, -, -, hwrite⟩
    · rw [ExceptT.run_bind_of_ok hwrite] at h
      split at h
      · cases h
        exact ⟨chooseDir_dir hchoose, rfl⟩
      · rename_i javadocDir _
        rcases hdoc : (generateJavadoc host dir javadocDir).run stored with ⟨failure, last⟩
        rw [ExceptT.run_bind_of_ok (ExceptT.run_lift_of_eq hdoc)] at h
        cases h
        exact ⟨chooseDir_dir hchoose, rfl⟩
    · rw [ExceptT.run_bind_of_error hwrite] at h
      cases h

end Reporting

-- The path of a file has the name of a class as its stem, but for one whose stem is fixed.
theorem Compilation.exists_stem_of_mem_writes {c : Compilation} {options : RenderOptions}
    {dir path : String} (h : path ∈ (c.writes options dir).map Prod.fst) :
    ∃ stem ending, IsEnding ending ∧ path = join dir (stem ++ ending) ∧
      (stem = "package-info" ∨ ∃ spec ∈ c.classes, stem = spec.name) := by
  rw [writes, List.map_append, List.mem_append, List.map_flatMap] at h
  rcases h with h | h
  · obtain ⟨m, hm, h⟩ := List.mem_flatMap.mp h
    have hclasses {spec : ClassSpec} (hspec : spec ∈ m.model.root.walk) : spec ∈ c.classes :=
      List.mem_flatMap.mpr ⟨m, hm, hspec⟩
    rw [List.map_append, List.mem_append, List.map_map, List.map_map] at h
    rcases h with h | h
    · obtain ⟨_, -, rfl⟩ := List.mem_map.mp h
      have hroot : m.model.root.spec ∈ m.model.root.walk := by
        cases m.model.root with
        | mk spec children => exact List.mem_cons_self
      exact ⟨_, _, isEnding_schema, rfl, .inr ⟨_, hclasses hroot, rfl⟩⟩
    · obtain ⟨spec, hspec, rfl⟩ := List.mem_map.mp h
      exact ⟨_, _, isEnding_java, rfl, .inr ⟨spec, hclasses hspec, rfl⟩⟩
  · obtain rfl := List.mem_singleton.mp h
    exact ⟨"package-info", ".java", isEnding_java, rfl, .inl rfl⟩

theorem Compilation.mem_writes_of_mem_classes {c : Compilation} {spec : ClassSpec}
    (h : spec ∈ c.classes) (options : RenderOptions) (dir : String) :
    join dir (spec.name ++ ".java") ∈ (c.writes options dir).map Prod.fst := by
  obtain ⟨m, hm, hspec⟩ := List.mem_flatMap.mp h
  rw [writes, List.map_append, List.map_flatMap, List.mem_append]
  refine .inl (List.mem_flatMap.mpr ⟨m, hm, ?_⟩)
  rw [List.map_append, List.map_map, List.map_map, List.mem_append]
  exact .inr (List.mem_map.mpr ⟨spec, hspec, rfl⟩)

-- Where the source of a class goes. A slash at the front of its name takes it out of the
-- directory, and any other slash further down into it.
structure Placed (dir : String) (c : ClassSpec) : Prop where
  name : c.name = Java.className c.identifier
  slash : '/' ∈ c.name.toList ↔ '/' ∈ c.identifier.toList
  absolute : c.name.toList.head? = some '/' →
    join dir (c.name ++ ".java") = c.name ++ ".java"
  below : c.name.toList.head? ≠ some '/' → ∀ cwd,
    Volume.locate cwd (join dir (c.name ++ ".java")) =
      Volume.locate cwd dir ++ pathNames (c.name ++ ".java").toList

theorem placed_of_name {c : ClassSpec} (h : c.name = Java.className c.identifier) (dir : String) :
    Placed dir c := by
  refine ⟨h, by rw [h, Java.slash_mem_className_iff], fun hhead => ?_, fun hhead cwd => ?_⟩
  · exact join_of_absolute (isEnding_java.head?_append.mpr hhead)
  · refine locate_join (fun habsolute => hhead (isEnding_java.head?_append.mp habsolute)) ?_ cwd
    have hdot : '.' ∉ c.name.toList := fun hdot =>
      Java.not_isDivider_of_mem_className (h ▸ hdot) rfl
    exact fun name => isEnding_java.plain_of_mem_pathNames hdot

theorem written_directly_in_directory_iff {σ : Type} (host : Host (StateM σ)) (forest : Forest)
    (withSchema : Bool) (compilation : Compilation)
    (hcompile : forest.compile withSchema = .ok compilation) (options : RenderOptions)
    (plan : OutputPlan) (hpackage : Java.isPackageName plan.package) (start finish : σ)
    (report : WriteReport)
    (hrun : (writeArtifacts host options plan compilation).run.run start =
      (.ok report, finish)) :
    Above plan.root report.dir ∧
    report.written = (compilation.writes options report.dir).map Prod.fst ∧
    ((∀ path ∈ report.written, DirectlyIn report.dir path) ↔
      ∀ c ∈ compilation.classes, Contained report.dir c.name) ∧
    ∀ c ∈ compilation.classes, Placed report.dir c := by
  obtain ⟨hdir, hwritten⟩ := writeArtifacts_report hrun
  refine ⟨?_, hwritten, ?_, fun c hc => placed_of_name (Forest.name_of_mem_classes hcompile hc) _⟩
  · rcases hdir with hdir | hdir
    · rw [hdir]
      exact (plan.packageDir_below hpackage).1
    · rw [hdir]
      exact .refl _
  · rw [hwritten]
    constructor
    · intro h c hc
      exact (directlyIn_join_iff isEnding_java).mp
        (h _ (compilation.mem_writes_of_mem_classes hc options _))
    · intro h path hpath
      obtain ⟨stem, ending, hending, rfl, hstem⟩ := Compilation.exists_stem_of_mem_writes hpath
      refine (directlyIn_join_iff hending).mpr ?_
      rcases hstem with rfl | ⟨c, hc, rfl⟩
      · exact .inl (by decide)
      · exact h c hc

-- What is reported if a forest is compiled and written.
def Forest.reported (forest : Forest) (withSchema : Bool) (options : RenderOptions)
    (plan : OutputPlan) (machine : Machine) : Option (String × List String) := do
  let compilation ← (forest.compile withSchema).toOption
  let report ←
    ((writeArtifacts Machine.host options plan compilation).run.run machine).1.toOption
  return (report.dir, report.written)

theorem Forest.of_reported {forest : Forest} {withSchema : Bool} {options : RenderOptions}
    {plan : OutputPlan} {machine : Machine} {dir : String} {written : List String}
    (h : forest.reported withSchema options plan machine = some (dir, written)) :
    ∃ compilation report finish, forest.compile withSchema = .ok compilation ∧
      (writeArtifacts Machine.host options plan compilation).run.run machine =
        (.ok report, finish) ∧ report.dir = dir ∧ report.written = written := by
  obtain ⟨compilation, hcompile, h⟩ := Option.bind_eq_some_iff.mp h
  obtain ⟨report, hreport, h⟩ := Option.bind_eq_some_iff.mp h
  obtain ⟨rfl, rfl⟩ := Prod.mk.inj (Option.some.inj h)
  have hok {ε α : Type} {outcome : Except ε α} {a : α} (h : outcome.toOption = some a) :
      outcome = .ok a := by
    cases outcome with
    | error e => cases h
    | ok b => rw [Option.some.inj h]
  rcases hrun : (writeArtifacts Machine.host options plan compilation).run.run machine with
    ⟨outcome, finish⟩
  rw [hrun] at hreport
  obtain rfl : outcome = .ok report := hok hreport
  exact ⟨compilation, report, finish, hok hcompile, hrun, rfl, rfl⟩

-- A class name is a path of two components, and there is a directory for the first of them.
def slashedMachine : Machine :=
  ⟨⟨[(["out"], .directory), (["out", "p"], .directory), (["out", "p", "A"], .directory)]⟩, [],
    none, none⟩

def slashedModule (modulePrefix : String) : Statement :=
  .mk .module "m" [.mk .namespaceUri "urn:m" [], .mk .modulePrefix modulePrefix [],
    .mk .container "a/b" []]

-- With a slash at the front the class of the module does not even go below the root.
theorem written_by_slashedModule :
    ∃ compilation report finish,
      Forest.compile [slashedModule "/x"] false = .ok compilation ∧
      Java.isPackageName blockedPlan.package ∧
      (writeArtifacts Machine.host blockedOptions blockedPlan compilation).run.run slashedMachine =
        (.ok report, finish) ∧
      report.dir = "out/p" ∧
      report.written = ["/x.java", "out/p/A/b.java", "out/p/package-info.java"] ∧
      Above "out" report.dir ∧
      report.written = (compilation.writes blockedOptions report.dir).map Prod.fst ∧
      ((∀ path ∈ report.written, DirectlyIn report.dir path) ↔
        ∀ c ∈ compilation.classes, Contained report.dir c.name) ∧
      ∀ c ∈ compilation.classes, Placed report.dir c := by
  have hpackage : Java.isPackageName blockedPlan.package := by decide +kernel
  obtain ⟨compilation, report, finish, hcompile, hrun, hdir, hwritten⟩ :=
    Forest.of_reported (show Forest.reported [slashedModule "/x"] false blockedOptions blockedPlan
      slashedMachine = some ("out/p", ["/x.java", "out/p/A/b.java", "out/p/package-info.java"])
      by decide +kernel)
  exact ⟨compilation, report, finish, hcompile, hpackage, hrun, hdir, hwritten,
    written_directly_in_directory_iff Machine.host _ _ _ hcompile _ _ hpackage _ _ _ hrun⟩

-- A slash in the middle takes a file further down than the directory.
theorem slashed_class_not_directly_in_directory :
    ∃ compilation report finish,
      Forest.compile [slashedModule "p"] false = .ok compilation ∧
      Java.isPackageName blockedPlan.package ∧
      (writeArtifacts Machine.host blockedOptions blockedPlan compilation).run.run slashedMachine =
        (.ok report, finish) ∧
      report.dir = "out/p" ∧ "out/p/A/b.java" ∈ report.written ∧
      ¬ DirectlyIn report.dir "out/p/A/b.java" := by
  obtain ⟨compilation, report, finish, hcompile, hrun, hdir, hwritten⟩ :=
    Forest.of_reported (show Forest.reported [slashedModule "p"] false blockedOptions blockedPlan
      slashedMachine = some ("out/p", ["out/p/P.java", "out/p/A/b.java", "out/p/package-info.java"])
      by decide +kernel)
  refine ⟨compilation, report, finish, hcompile, by decide +kernel, hrun, hdir, ?_, ?_⟩
  · simp [hwritten]
  · have hpath : "out/p/A/b.java" = join "out/p" ("A/b" ++ ".java") := by decide +kernel
    rw [hdir, hpath, directlyIn_join_iff isEnding_java]
    rintro (hslash | ⟨hhead, -⟩)
    · exact hslash (by decide)
    · exact absurd hhead (by decide)

end YangBinding
