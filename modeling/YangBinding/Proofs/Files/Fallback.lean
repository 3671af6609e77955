import YangBinding.Proofs.Files.Growth
import YangBinding.Proofs.Files.Inside

namespace YangBinding

namespace Files

-- A text without names is a row of slashes.
theorem eq_nil_of_pathNames_eq_nil {text : List Char} (h : pathNames text = [])
    (hlast : text.getLast? ≠ some '/') : text = [] := by
  by_contra hne
  obtain ⟨c, hc⟩ := Option.ne_none_iff_exists'.mp (mt List.getLast?_eq_none_iff.mp hne)
  have hslash : ¬ isSlash c := fun hslash => hlast (eq_of_beq hslash ▸ hc)
  obtain ⟨piece, hpiece, hmem⟩ := Text.exists_piece_of_mem (List.mem_of_getLast? hc) hslash
  have hname : String.ofList piece ∈ pathNames text :=
    List.mem_map_of_mem (List.mem_filter.mpr ⟨hpiece, by simpa using List.ne_nil_of_mem hmem⟩)
  simp [h] at hname

namespace Volume

variable {v w : Volume} {cwd location : Location} {upper path lower : String} {content : Content}

theorem Askable.of_above (h : Askable path) (habove : Above upper path) (hne : upper ≠ "") :
    Askable upper := by
  obtain ⟨rest, heq, -⟩ := habove
  have hpath : path = upper ++ String.ofList rest := by
    rw [← String.toList_inj, String.toList_append, String.toList_ofList, heq]
  refine ⟨fun hmem => h.plain (heq ▸ List.mem_append_left _ hmem), hne, ?_⟩
  have hshort := h.short
  rw [hpath, String.utf8ByteSize_append] at hshort
  omega

-- What lies above a file is a directory.
theorem kind?_above_file (hfile : v.find cwd path = .ok (location, .file content))
    (habove : Above upper path) (hne : upper ≠ "") (hother : ¬ Above path upper) :
    v.kind? cwd upper = some .directory := by
  obtain ⟨hask, hslash, init, parent, last, hnames, -, -, hparent, -⟩ := of_find_file hfile
  obtain ⟨rest, heq, hrest⟩ := habove.exists_names
  rcases List.eq_nil_or_concat (pathNames rest) with hnil | ⟨inner, name, hinner⟩
  · -- Nothing but slashes is left, and a file does not end in one.
    have hempty : rest = [] := by
      by_contra hrest'
      refine hrest' (eq_nil_of_pathNames_eq_nil hnil fun hlast => hslash ?_)
      rw [heq, List.getLast?_append_of_ne_nil _ hrest', hlast]
    rw [hempty, List.append_nil, String.toList_inj] at heq
    exact absurd (heq ▸ .refl _) hother
  · rw [List.concat_eq_append] at hinner
    rw [hinner, ← List.append_assoc] at hrest
    obtain ⟨rfl, -⟩ := List.append_inj' (hnames.symm.trans hrest) rfl
    rw [habove.start_eq hne] at hparent
    obtain ⟨middle, hmiddle, -⟩ := foldlM_enter_append_iff.mp hparent
    exact kind?_eq_directory_iff.mpr
      ⟨middle, find_directory_iff.mpr ⟨hask.of_above habove hne, hmiddle⟩⟩

-- Nothing below a file is a directory, whatever else is made.
theorem kind?_below_file (hfile : v.find cwd path = .ok (location, .file content))
    (hkept : w.entry? location = some (.file content)) (habove : Above path lower) :
    w.kind? cwd lower ≠ some .directory := by
  intro hkind
  obtain ⟨there, hfind⟩ := kind?_eq_directory_iff.mp hkind
  obtain ⟨hask, -, init, parent, last, hnames, hhere, hup, hparent, rfl, -⟩ := of_find_file hfile
  obtain ⟨-, hall⟩ := find_directory_iff.mp hfind
  obtain ⟨rest, -, hrest⟩ := habove.exists_names
  rw [hrest, habove.start_eq hask.nonempty, foldlM_enter_append_iff] at hall
  obtain ⟨middle, hmiddle, -⟩ := hall
  rw [hnames, foldlM_enter_append_iff] at hmiddle
  obtain ⟨parent', hparent', hlast⟩ := hmiddle
  rw [foldlM_enter_singleton, enter_eq_ok_iff] at hlast
  have hsame : parent' = parent := (foldlM_enter_eq hparent').trans (foldlM_enter_eq hparent).symm
  rcases hlast with ⟨rfl, -⟩ | ⟨rfl, -⟩ | ⟨-, -, -, -, hentry⟩
  · exact hhere rfl
  · exact hup rfl
  · rw [hsame, hkept] at hentry
    cases hentry

theorem locate_of_find_file (hfile : v.find cwd path = .ok (location, .file content)) :
    location = locate cwd path := by
  rcases find_eq_ok_iff.mp hfile with ⟨-, hentry⟩ | ⟨parent, name, slash, htarget, -, rfl, -, -⟩
  · cases hentry
  · exact resolve_name htarget

theorem content?_of_find_file (hfile : v.find cwd path = .ok (location, .file content)) :
    v.content? location = some content := by
  obtain ⟨-, -, -, -, -, -, -, -, -, -, hentry⟩ := of_find_file hfile
  rw [content?, hentry]

end Volume

namespace Machine

-- A path that leads to a directory, if only after some more directories are made. The empty path
-- stands for the working directory.
def CanBeDirectory (machine : Machine) (path : String) : Prop :=
  path = "" ∨ ∃ next, Extends machine next ∧ next.kindAt path = some .directory

theorem blockingFile?_run (machine : Machine) (dir : String) :
    (blockingFile? host dir).run machine =
      ((ancestors dir).reverse.find? fun path => machine.kindAt path = some .file, machine) :=
  firstFile?_run machine _

theorem onlyFiles_run (machine : Machine) (paths : List String) :
    ∃ files, (onlyFiles host paths).run machine = (files, machine) := by
  induction paths with
  | nil => exact ⟨[], rfl⟩
  | cons path rest ih =>
      obtain ⟨files, hfiles⟩ := ih
      have hkind : (host.kind? path).run machine = (machine.kindAt path, machine) := rfl
      rw [onlyFiles, StateM.run_bind_of_eq hkind, StateM.run_bind_of_eq hfiles]
      exact ⟨_, rfl⟩

theorem javaSources_run (machine : Machine) (dir : String) :
    ∃ sources, (javaSources host dir).run.run machine = (sources, machine) := by
  rcases hlist : machine.volume.list machine.cwd dir with e | listed
  · have hrun : (ExceptT.mk (host.list dir) : ExceptT OsError (StateM Machine) _).run.run machine =
        (.error e, machine) := congrArg (·, machine) hlist
    exact ⟨_, ExceptT.run_bind_of_error hrun⟩
  · have hrun : (ExceptT.mk (host.list dir) : ExceptT OsError (StateM Machine) _).run.run machine =
        (.ok listed, machine) := congrArg (·, machine) hlist
    rw [javaSources, ExceptT.run_bind_of_ok hrun]
    obtain ⟨files, hfiles⟩ := onlyFiles_run machine (((listed.filter fun name =>
      fileExtension? name = some "java").mergeSort fun a b => a ≤ b).map (join dir))
    exact ⟨_, ExceptT.run_lift_of_eq hfiles⟩

theorem javadoc_volume (machine : Machine) (args : List String) :
    ((host.javadoc args).run machine).2.volume = machine.volume := by
  obtain ⟨volume, cwd, tool, call⟩ := machine
  cases tool with
  | none => rfl
  | some status => rfl

-- The documentation tool is called at most, and that changes no file.
theorem generateJavadoc_volume (machine : Machine) (dir javadocDir : String) :
    ((generateJavadoc host dir javadocDir).run machine).2.volume = machine.volume := by
  obtain ⟨sources, hsources⟩ := javaSources_run machine dir
  rw [generateJavadoc, StateM.run_bind_of_eq hsources]
  split
  · rfl
  · rfl
  · dsimp only
    split
    · rfl
    · rename_i found _ _
      rw [← javadoc_volume machine (["-d", javadocDir] ++ found)]
      rcases hcall : (host.javadoc (["-d", javadocDir] ++ found)).run machine with ⟨outcome, next⟩
      rw [StateM.run_bind_of_eq hcall]
      split <;> rfl

end Machine

end Files

open Files

-- Whatever becomes of the writing, files are changed by some writes to the directory at most.
theorem writeArtifacts_effect (options : RenderOptions) (c : Compilation) {plan : OutputPlan}
    {dir : String} {remarks : List Diagnostic} {machine prepared : Machine}
    (h : (prepareDir Machine.host plan).run.run machine = (.ok (dir, remarks), prepared)) :
    ∃ done rest, c.writes options dir = done ++ rest ∧ Machine.filing.Effect prepared
      ((writeArtifacts Machine.host options plan c).run.run machine).2 done := by
  rw [writeArtifacts, ExceptT.run_bind_of_ok h]
  rcases writeFiles_run Machine.host dir (c.artifacts options) prepared
      (c.map_artifacts options dir) with ⟨stored, hdone, hrun⟩ |
      ⟨done, path, text, rest, failing, stored, e, heq, hdone, hfailed, hrun⟩
  · refine ⟨_, [], (List.append_nil _).symm, ?_⟩
    rw [ExceptT.run_bind_of_ok hrun]
    split
    · exact Filing.effect_of_writes hdone
    · rename_i javadocDir _
      rcases hdoc : (generateJavadoc Machine.host dir javadocDir).run stored with ⟨failure, last⟩
      rw [ExceptT.run_bind_of_ok (ExceptT.run_lift_of_eq hdoc)]
      refine Filing.Effect.of_content_eq (Filing.effect_of_writes hdone) ?_
      have hvolume := Machine.generateJavadoc_volume stored dir javadocDir
      rw [hdoc] at hvolume
      exact congrArg Volume.content? hvolume
  · refine ⟨done, _, heq, ?_⟩
    rw [ExceptT.run_bind_of_error hrun]
    exact (Filing.effect_of_writes hdone).of_content_eq (Machine.filing.content_failed hfailed)

section Blocked

variable {plan : OutputPlan} {machine failed : Machine} {file : String} {location : Location}
  {content : Content}

-- A file on the way to the directory of the package lies below the root by segments of the
-- package.
theorem OutputPlan.locate_blocking (plan : OutputPlan) (hpackage : Java.isPackageName plan.package)
    (hfile : Above file plan.packageDir) (hne : file ≠ "") (hroot : Above plan.root file)
    (cwd : Location) : ∃ inner : List String, (∀ name ∈ inner, '.' ∉ name.toList) ∧
      Volume.locate cwd file = Volume.locate cwd plan.root ++ inner := by
  obtain ⟨-, hstart, hdir⟩ := plan.packageDir_below hpackage
  obtain ⟨rest, -, hbelow⟩ := hroot.exists_names
  obtain ⟨more, -, hmore⟩ := hfile.exists_names
  have hsegments : pathNames rest ++ pathNames more =
      (Java.packageSegments plan.package).map String.ofList := by
    rw [hmore, hbelow, List.append_assoc] at hdir
    exact List.append_cancel_left hdir
  have hdots : ∀ name ∈ pathNames rest, '.' ∉ name.toList := by
    intro name hname
    have hmem := List.mem_append_left (pathNames more) hname
    rw [hsegments] at hmem
    obtain ⟨segment, hsegment, rfl⟩ := List.mem_map.mp hmem
    rw [String.toList_ofList]
    exact (Java.of_isPackageSegment (List.all_eq_true.mp hpackage segment hsegment)).2.2
  refine ⟨pathNames rest, hdots, ?_⟩
  have hplain : ∀ name ∈ pathNames rest, name ≠ "." ∧ name ≠ ".." := fun name hname =>
    ⟨fun heq => hdots name hname (by simp [heq]), fun heq => hdots name hname (by simp [heq])⟩
  rw [Volume.locate, hbelow, List.foldl_append, foldl_step_of_plain hplain, Volume.locate,
    ← hfile.start_eq hne, hstart]

-- The files of a compilation have a point in their names, and segments of a package have none.
theorem writes_miss_blocking {c : Compilation} (options : RenderOptions)
    (hslash : ∀ spec ∈ c.classes, '/' ∉ spec.name.toList)
    (hpackage : Java.isPackageName plan.package) (hfile : Above file plan.packageDir)
    (hne : file ≠ "") (hroot : Above plan.root file) (cwd : Location) :
    ∀ path ∈ (c.writes options plan.root).map Prod.fst,
      Volume.locate cwd path ≠ Volume.locate cwd file := by
  intro path hpath
  obtain ⟨stem, ending, hending, rfl, hstem⟩ := Compilation.exists_stem_of_mem_writes hpath
  have hcomponent : IsComponent (stem ++ ending) := by
    refine hending.isComponent ?_
    rcases hstem with rfl | ⟨spec, hspec, rfl⟩
    · decide
    · exact hslash spec hspec
  obtain ⟨inner, hdots, heq⟩ := plan.locate_blocking hpackage hfile hne hroot cwd
  rw [hcomponent.locate_join, heq]
  intro hsame
  have hinner := List.append_cancel_left hsame
  refine hdots (stem ++ ending) (hinner ▸ List.mem_singleton_self _) ?_
  rw [String.toList_append]
  exact List.mem_append_right _ hending.point

-- A file above the root or in its place keeps the root from ever being a directory.
theorem not_canBeDirectory (hextends : Machine.Extends machine failed)
    (hfile : failed.volume.find failed.cwd file = .ok (location, .file content))
    (habove : Above file plan.root) : ¬ machine.CanBeDirectory plan.root := by
  rintro (hempty | ⟨next, hnext, hkind⟩)
  · obtain ⟨hask, -⟩ := Volume.of_find_file hfile
    have hprefix := habove.isPrefix
    rw [hempty] at hprefix
    exact hask.nonempty (by simpa using hprefix)
  · obtain ⟨-, -, -, -, -, -, -, -, -, -, hentry⟩ := Volume.of_find_file hfile
    have hkept := hnext.grows.kept (hextends.grows.files hentry)
    rw [hextends.cwd, ← hnext.cwd] at hfile
    exact Volume.kind?_below_file hfile hkept habove hkind

-- A file below the root was reached through the root, which is a directory therefore.
theorem makeDirs_root_of_below
    (hfile : failed.volume.find failed.cwd file = .ok (location, .file content))
    (hroot : Above plan.root file) (hbelow : ¬ Above file plan.root) :
    (makeDirs Machine.host plan.root).run failed = (.ok (), failed) := by
  refine Machine.makeDirs_of_directory ?_
  by_cases hempty : plan.root = ""
  · exact .inl hempty
  · exact .inr (Volume.kind?_above_file hfile hroot hempty hbelow)

theorem content_of_blocking_kept {remarks : List Diagnostic}
    (hpackage : Java.isPackageName plan.package)
    (hchoose : (chooseDir Machine.host plan).run machine = ((.ok plan.root, remarks), failed))
    (hfind : failed.volume.find failed.cwd file = .ok (location, .file content))
    (hfile : Above file plan.packageDir) (hroot : Above plan.root file)
    (options : RenderOptions) {c : Compilation}
    (hslash : ∀ spec ∈ c.classes, '/' ∉ spec.name.toList) :
    ((writeArtifacts Machine.host options plan c).run.run machine).2.volume.content? location =
      failed.volume.content? location := by
  obtain ⟨done, rest, hwrites, heffect⟩ :=
    writeArtifacts_effect options c (prepareDir_run hchoose)
  obtain ⟨hask, -⟩ := Volume.of_find_file hfind
  refine heffect.frame location fun write hwrite => ?_
  rw [Volume.locate_of_find_file hfind]
  refine writes_miss_blocking options hslash hpackage hfile hask.nonempty hroot failed.cwd _ ?_
  rw [hwrites]
  exact List.mem_map_of_mem (List.mem_append_left _ hwrite)

end Blocked

theorem find?_reverse_of_split {α : Type} {p : α → Bool} {xs inner outer : List α} {a : α}
    (h : xs = inner ++ a :: outer) (ha : p a) (houter : ∀ b ∈ outer, ¬ p b) :
    xs.reverse.find? p = some a := by
  rw [h, List.reverse_append, List.reverse_cons, List.append_assoc, List.find?_append,
    List.find?_eq_none.mpr (by simpa using houter), Option.none_or, List.singleton_append,
    List.find?_cons_of_pos ha]

theorem falls_back_on_root (plan : OutputPlan) (hpackage : Java.isPackageName plan.package)
    (machine failed : Machine) (e : OsError)
    (hfail : (makeDirs Machine.host plan.packageDir).run machine = (.error e, failed)) :
    machine.Extends failed ∧
    ((∀ path ∈ ancestors plan.packageDir, failed.kindAt path ≠ some .file) →
      (chooseDir Machine.host plan).run machine =
        ((.error (.createDir plan.packageDir e), []), failed)) ∧
    ∀ inner file outer, ancestors plan.packageDir = inner ++ file :: outer →
      failed.kindAt file = some .file → (∀ path ∈ outer, failed.kindAt path ≠ some .file) →
      (¬ machine.CanBeDirectory plan.root → ∃ e' next,
        (chooseDir Machine.host plan).run machine =
          ((.error (.createDir plan.root e'), [⟨file, .outputDirConflict plan.packageDir⟩]),
            next)) ∧
      (machine.CanBeDirectory plan.root →
        (chooseDir Machine.host plan).run machine =
          ((.ok plan.root, [⟨file, .outputDirConflict plan.packageDir⟩]), failed) ∧
        ∃ location content,
          failed.volume.find failed.cwd file = .ok (location, .file content) ∧
          machine.volume.content? location = some content ∧
          ∀ (options : RenderOptions) (c : Compilation),
            (∀ spec ∈ c.classes, '/' ∉ spec.name.toList) →
            ((writeArtifacts Machine.host options plan c).run.run machine).2.volume.content?
              location = some content) := by
  obtain ⟨hextends, -⟩ := Machine.makeDirs_extends hfail
  have hblocking := Machine.blockingFile?_run failed plan.packageDir
  refine ⟨hextends, fun hnone => ?_, fun inner file outer hsplit hkind houter => ?_⟩
  · rw [List.find?_eq_none.mpr (by simpa using hnone)] at hblocking
    exact chooseDir_run_unblocked hfail hblocking
  · rw [find?_reverse_of_split hsplit (by simpa using hkind) (by simpa using houter)] at hblocking
    have hfile : Above file plan.packageDir := above_of_mem_ancestors (by simp [hsplit])
    obtain ⟨location, content, hfind⟩ := Volume.kind?_eq_file_iff.mp hkind
    constructor
    · intro hroot
      rcases hmake : (makeDirs Machine.host plan.root).run failed with ⟨e' | _, next⟩
      · exact ⟨e', next, chooseDir_run_blocked hfail hblocking hmake⟩
      · obtain ⟨hnext, hdirectory⟩ := Machine.makeDirs_extends hmake
        refine absurd ?_ hroot
        rcases hdirectory rfl with hempty | hdirectory
        · exact .inl hempty
        · exact .inr ⟨next, hextends.trans hnext, hdirectory⟩
    · intro hroot
      have hbelow : ¬ Above file plan.root := fun habove =>
        not_canBeDirectory hextends hfind habove hroot
      have habove : Above plan.root file :=
        (hfile.total (plan.packageDir_below hpackage).1).resolve_left hbelow
      have hchoose := chooseDir_run_blocked hfail hblocking
        (makeDirs_root_of_below hfind habove hbelow)
      have hcontent : failed.volume.content? location = some content :=
        Volume.content?_of_find_file hfind
      refine ⟨hchoose, location, content, hfind, ?_, fun options c hslash => ?_⟩
      · rw [← hextends.grows.content?, hcontent]
      · rw [content_of_blocking_kept hpackage hchoose hfind hfile habove options hslash, hcontent]

-- The file in the way stands halfway to the directory of the package.
def nestedPlan : OutputPlan := ⟨"out", "p.q", none⟩

theorem falls_back_on_out :
    Java.isPackageName nestedPlan.package ∧
    (makeDirs Machine.host nestedPlan.packageDir).run blockedMachine =
      (.error .notDirectory, blockedMachine) ∧
    blockedMachine.Extends blockedMachine ∧
    ancestors nestedPlan.packageDir = ["out/p/q"] ++ "out/p" :: ["out", ""] ∧
    blockedMachine.kindAt "out/p" = some .file ∧
    (∀ path ∈ ["out", ""], blockedMachine.kindAt path ≠ some .file) ∧
    blockedMachine.CanBeDirectory "out" ∧
    (chooseDir Machine.host nestedPlan).run blockedMachine =
      ((.ok "out", [⟨"out/p", .outputDirConflict "out/p/q"⟩]), blockedMachine) ∧
    ∃ location content,
      blockedMachine.volume.find [] "out/p" = .ok (location, .file content) ∧
      blockedMachine.volume.content? location = some content ∧
      ∀ (options : RenderOptions) (c : Compilation),
        (∀ spec ∈ c.classes, '/' ∉ spec.name.toList) →
        ((writeArtifacts Machine.host options nestedPlan c).run.run
          blockedMachine).2.volume.content? location = some content := by
  have hpackage : Java.isPackageName nestedPlan.package := by decide +kernel
  have hfail : (makeDirs Machine.host nestedPlan.packageDir).run blockedMachine =
      (.error .notDirectory, blockedMachine) :=
    Prod.ext (by decide +kernel) (by decide +kernel)
  have hsplit : ancestors nestedPlan.packageDir = ["out/p/q"] ++ "out/p" :: ["out", ""] := by
    decide +kernel
  have hkind : blockedMachine.kindAt "out/p" = some .file := by decide +kernel
  have houter : ∀ path ∈ ["out", ""], blockedMachine.kindAt path ≠ some .file := by decide +kernel
  have hroot : blockedMachine.CanBeDirectory "out" := .inr ⟨_, .refl _, by decide +kernel⟩
  obtain ⟨hextends, -, hblocked⟩ := falls_back_on_root nestedPlan hpackage _ _ _ hfail
  exact ⟨hpackage, hfail, hextends, hsplit, hkind, houter, hroot,
    (hblocked _ _ _ hsplit hkind houter).2 hroot⟩

end YangBinding
