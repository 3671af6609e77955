import YangBinding.Artifacts
import YangBinding.Proofs.Files.Filing
import YangBinding.Proofs.Schema.Accounting

namespace ExceptT

variable {σ ε α β : Type} {x : ExceptT ε (StateM σ) α} {f : α → ExceptT ε (StateM σ) β}
  {state next : σ}

theorem run_bind_of_ok {a : α} (h : x.run.run state = (.ok a, next)) :
    (x >>= f).run.run state = (f a).run.run next := by
  rw [ExceptT.run_bind, StateT.run_bind, h]
  rfl

theorem run_bind_of_error {e : ε} (h : x.run.run state = (.error e, next)) :
    (x >>= f).run.run state = (.error e, next) := by
  rw [ExceptT.run_bind, StateT.run_bind, h]
  rfl

theorem run_lift_of_eq {y : StateM σ α} {a : α} (h : y.run state = (a, next)) :
    (ExceptT.lift y : ExceptT ε (StateM σ) α).run.run state = (.ok a, next) := by
  change (Except.ok <$> y).run state = _
  rw [StateT.run_map, h]
  rfl

end ExceptT

namespace YangBinding

open Files

-- The files of a compilation in the order they are written, each with its path and its text.
def Compilation.writes (options : RenderOptions) (dir : String) (c : Compilation) :
    List (String × String) :=
  (c.modules.flatMap fun m =>
    (m.schema.toList.map fun table =>
      (join dir (m.model.root.spec.name ++ ".schema"), table.xml)) ++
    m.model.root.walk.map fun spec =>
      (join dir (spec.name ++ ".java"), Java.source options m.model.provenance spec)) ++
  [(join dir "package-info.java",
    Java.packageInfo options.package (c.modules.map CompiledModule.model))]

theorem Compilation.map_artifacts (options : RenderOptions) (dir : String) (c : Compilation) :
    ((c.artifacts options).map fun file => (join dir file.name, file.text)) =
      c.writes options dir := by
  have hmodule (m : CompiledModule) :
      ((m.artifacts options).map fun file => (join dir file.name, file.text)) =
        (m.schema.toList.map fun table =>
          (join dir (m.model.root.spec.name ++ ".schema"), table.xml)) ++
        m.model.root.walk.map fun spec =>
          (join dir (spec.name ++ ".java"), Java.source options m.model.provenance spec) := by
    rw [CompiledModule.artifacts, List.map_append, Java.moduleSources, List.map_map]
    cases m.schema with
    | none => simp only [Option.map_none, Option.toList_none, List.map_nil, Function.comp_def,
        ClassSpec.fileName]
    | some table => simp only [Option.map_some, Option.toList_some, List.map_cons, List.map_nil,
        Function.comp_def, ClassSpec.fileName]
  simp only [artifacts, writes, List.map_append, List.map_flatMap, hmodule, List.map_cons,
    List.map_nil]

section Writing

variable {σ : Type} {host : Host (StateM σ)} {dir : String} {file : Java.SourceFile}
  {rest : List Java.SourceFile} {state next : σ}

theorem writeFiles_cons_of_ok {outcome : Except EmitError (List String)} {finish : σ}
    (h : (host.write (join dir file.name) file.text).run state = (.ok (), next))
    (hrest : (writeFiles host dir rest).run.run next = (outcome, finish)) :
    (writeFiles host dir (file :: rest)).run.run state =
      (outcome.map (join dir file.name :: ·), finish) := by
  rw [writeFiles, ExceptT.run_bind_of_ok (ExceptT.run_lift_of_eq h)]
  cases outcome with
  | error e => exact ExceptT.run_bind_of_error hrest
  | ok written => exact ExceptT.run_bind_of_ok hrest

theorem writeFiles_cons_of_error {e : OsError}
    (h : (host.write (join dir file.name) file.text).run state = (.error e, next)) :
    (writeFiles host dir (file :: rest)).run.run state =
      (.error (.write (join dir file.name) e), next) := by
  rw [writeFiles, ExceptT.run_bind_of_ok (ExceptT.run_lift_of_eq h)]
  rfl

-- Writing goes on to the end, or up to the first write that fails.
theorem writeFiles_run (host : Host (StateM σ)) (dir : String) (files : List Java.SourceFile)
    (state : σ) {writes : List (String × String)}
    (hwrites : (files.map fun file => (join dir file.name, file.text)) = writes) :
    (∃ finish, Writes host state writes finish ∧
      (writeFiles host dir files).run.run state = (.ok (writes.map Prod.fst), finish)) ∨
    ∃ done path text rest failing finish e, writes = done ++ (path, text) :: rest ∧
      Writes host state done failing ∧ (host.write path text).run failing = (.error e, finish) ∧
      (writeFiles host dir files).run.run state = (.error (.write path e), finish) := by
  induction files generalizing state writes with
  | nil =>
      subst hwrites
      exact .inl ⟨state, .nil, rfl⟩
  | cons file files ih =>
      subst hwrites
      rw [List.map_cons]
      rcases hwrite : (host.write (join dir file.name) file.text).run state with ⟨e | ⟨⟩, next⟩
      · exact .inr ⟨[], _, _, _, state, next, e, rfl, .nil, hwrite,
          writeFiles_cons_of_error hwrite⟩
      · rcases ih next rfl with ⟨finish, hdone, hrun⟩ |
          ⟨done, path, text, rest, failing, finish, e, heq, hdone, hfailed, hrun⟩
        · exact .inl ⟨finish, .cons hwrite hdone, writeFiles_cons_of_ok hwrite hrun⟩
        · refine .inr ⟨(join dir file.name, file.text) :: done, path, text, rest, failing, finish, e,
            ?_, .cons hwrite hdone, hfailed, writeFiles_cons_of_ok hwrite hrun⟩
          rw [heq, List.cons_append]

theorem writeArtifacts_run {options : RenderOptions} {plan : OutputPlan} {c : Compilation}
    {start prepared finish : σ} {remarks : List Diagnostic}
    {outcome : Except EmitError (List String)}
    (hprepare : (prepareDir host plan).run.run start = (.ok (dir, remarks), prepared))
    (hwrite : (writeFiles host dir (c.artifacts options)).run.run prepared = (outcome, finish))
    (hjavadoc : plan.javadocDir = none) :
    (writeArtifacts host options plan c).run.run start =
      (outcome.map fun written => ⟨dir, written, remarks⟩, finish) := by
  rw [writeArtifacts, ExceptT.run_bind_of_ok hprepare]
  cases outcome with
  | error e => exact ExceptT.run_bind_of_error hwrite
  | ok written =>
      rw [ExceptT.run_bind_of_ok hwrite, hjavadoc]
      rfl

end Writing

theorem artifacts_left_on_disk {σ : Type} {host : Host (StateM σ)} (filing : Filing host)
    (options : RenderOptions) (plan : OutputPlan) (c : Compilation) (start prepared : σ)
    (dir : String) (remarks : List Diagnostic)
    (hprepare : (prepareDir host plan).run.run start = (.ok (dir, remarks), prepared))
    (hjavadoc : plan.javadocDir = none) :
    (∃ finish, Writes host prepared (c.writes options dir) finish ∧
      (writeArtifacts host options plan c).run.run start =
        (.ok ⟨dir, (c.writes options dir).map Prod.fst, remarks⟩, finish) ∧
      filing.Effect prepared finish (c.writes options dir)) ∨
    ∃ done path text rest failing finish e,
      c.writes options dir = done ++ (path, text) :: rest ∧
      Writes host prepared done failing ∧ (host.write path text).run failing = (.error e, finish) ∧
      (writeArtifacts host options plan c).run.run start = (.error (.write path e), finish) ∧
      filing.Effect prepared finish done := by
  rcases writeFiles_run host dir (c.artifacts options) prepared (c.map_artifacts options dir) with
    ⟨finish, hdone, hrun⟩ | ⟨done, path, text, rest, failing, finish, e, heq, hdone, hfailed, hrun⟩
  · exact .inl ⟨finish, hdone, writeArtifacts_run hprepare hrun hjavadoc,
      Filing.effect_of_writes hdone⟩
  · have heffect : filing.Effect prepared failing done := Filing.effect_of_writes hdone
    exact .inr ⟨done, path, text, rest, failing, finish, e, heq, hdone, hfailed,
      writeArtifacts_run hprepare hrun hjavadoc,
      heffect.of_content_eq (filing.content_failed hfailed)⟩

-- A file stands where the directory of the package should be.
def blockedMachine : Machine :=
  ⟨⟨[(["out"], .directory), (["out", "p"], .file (.text "old"))]⟩, [], none, none⟩

def blockedPlan : OutputPlan := ⟨"out", "p", none⟩

def blockedOptions : RenderOptions := ⟨"p", "1.0", ⟨2020, 1, 1⟩⟩

-- Two of the classes go to one file, and the file in the way is left alone.
theorem artifacts_left_by_twinContainers :
    ∃ c, Forest.compile [twinContainers] true = .ok c ∧
      (prepareDir Machine.host blockedPlan).run.run blockedMachine =
        (.ok ("out", [⟨"out/p", .outputDirConflict "out/p"⟩]), blockedMachine) ∧
      (((writeArtifacts Machine.host blockedOptions blockedPlan c).run.run blockedMachine).1.map
        WriteReport.written).toOption =
        some ["out/P.schema", "out/P.java", "out/A.java", "out/B.java", "out/A.java", "out/C.java",
          "out/package-info.java"] ∧
      ((∃ finish, Writes Machine.host blockedMachine (c.writes blockedOptions "out") finish ∧
        (writeArtifacts Machine.host blockedOptions blockedPlan c).run.run blockedMachine =
          (.ok ⟨"out", (c.writes blockedOptions "out").map Prod.fst,
            [⟨"out/p", .outputDirConflict "out/p"⟩]⟩, finish) ∧
        Machine.filing.Effect blockedMachine finish (c.writes blockedOptions "out")) ∨
      ∃ done path text rest failing finish e,
        c.writes blockedOptions "out" = done ++ (path, text) :: rest ∧
        Writes Machine.host blockedMachine done failing ∧
        (Machine.host.write path text).run failing = (.error e, finish) ∧
        (writeArtifacts Machine.host blockedOptions blockedPlan c).run.run blockedMachine =
          (.error (.write path e), finish) ∧
        Machine.filing.Effect blockedMachine finish done) := by
  have h : Forest.compile [twinContainers] true = .ok _ := rfl
  have hprepare : (prepareDir Machine.host blockedPlan).run.run blockedMachine =
      (.ok ("out", [⟨"out/p", .outputDirConflict "out/p"⟩]), blockedMachine) :=
    Prod.ext (by decide +kernel) (by decide +kernel)
  exact ⟨_, h, hprepare, by decide +kernel,
    artifacts_left_on_disk Machine.filing _ _ _ _ _ _ _ hprepare rfl⟩

end YangBinding
