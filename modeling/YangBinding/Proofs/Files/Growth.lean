import YangBinding.Proofs.Files.Paths

theorem StateM.run_bind_of_eq {σ α β : Type} {x : StateM σ α} {f : α → StateM σ β} {a : α}
    {state next : σ} (h : x.run state = (a, next)) : (x >>= f).run state = (f a).run next := by
  rw [StateT.run_bind, h]
  rfl

namespace YangBinding.Files

namespace Volume

-- A volume grows by directories: nothing in it goes away or changes, and no file is added.
structure Grows (v w : Volume) : Prop where
  kept : ∀ {location entry}, v.entry? location = some entry → w.entry? location = some entry
  files : ∀ {location content}, w.entry? location = some (.file content) →
    v.entry? location = some (.file content)

namespace Grows

variable {u v w : Volume}

theorem refl (v : Volume) : Grows v v := ⟨id, id⟩

theorem trans (hv : Grows u v) (hw : Grows v w) : Grows u w :=
  ⟨fun h => hw.kept (hv.kept h), fun h => hv.files (hw.files h)⟩

theorem content? (h : Grows v w) (location : Location) :
    w.content? location = v.content? location := by
  unfold Volume.content?
  cases hw : w.entry? location with
  | none =>
      cases hv : v.entry? location with
      | none => rfl
      | some entry => simp [h.kept hv] at hw
  | some entry =>
      cases entry with
      | file content => rw [h.files hw]
      | directory =>
          cases hv : v.entry? location with
          | none => rfl
          | some entry =>
              obtain rfl := Option.some.inj ((h.kept hv).symm.trans hw)
              rfl

theorem put {location : Location} (hne : location ≠ []) (h : v.entry? location = none) :
    Grows v (v.put location .directory) := by
  constructor
  · intro other entry hentry
    rw [entry?_put v hne, if_neg, hentry]
    rintro rfl
    simp [h] at hentry
  · intro other content hentry
    rw [entry?_put v hne] at hentry
    split at hentry
    · simp at hentry
    · exact hentry

end Grows

section Entering

variable {v w : Volume} {here there : Location} {name : String}

-- A name other than the two for staying and going up has to be that of a directory.
theorem enter_eq_ok_iff : v.enter here name = .ok there ↔
    (name = "." ∧ there = here) ∨ (name = ".." ∧ there = here.dropLast) ∨
    (name ≠ "." ∧ name ≠ ".." ∧ checkName name = .ok () ∧ there = here ++ [name] ∧
      v.entry? (here ++ [name]) = some .directory) := by
  unfold enter
  by_cases hhere : name = "."
  · simp [hhere, eq_comm]
  · by_cases hup : name = ".."
    · simp [hup, eq_comm]
    · rw [if_neg hhere, if_neg hup, Except.bind_eq_ok_iff]
      cases hentry : v.entry? (here ++ [name]) with
      | none => simp [hhere, hup]
      | some entry =>
          cases entry with
          | file content => simp [hhere, hup]
          | directory =>
              constructor
              · rintro ⟨_, hname, hok⟩
                exact .inr (.inr ⟨hhere, hup, hname, (Except.ok.inj hok).symm, rfl⟩)
              · rintro (⟨h, -⟩ | ⟨h, -⟩ | ⟨-, -, hname, rfl, -⟩)
                · exact absurd h hhere
                · exact absurd h hup
                · exact ⟨(), hname, rfl⟩

theorem foldlM_enter_append_iff {before after : List String} :
    (before ++ after).foldlM v.enter here = .ok there ↔
      ∃ middle, before.foldlM v.enter here = .ok middle ∧
        after.foldlM v.enter middle = .ok there := by
  rw [List.foldlM_append, Except.bind_eq_ok_iff]

theorem foldlM_enter_singleton : [name].foldlM v.enter here = v.enter here name := by
  rw [List.foldlM_cons]
  exact bind_pure _

theorem Grows.enter (h : Grows v w) (henter : v.enter here name = .ok there) :
    w.enter here name = .ok there := by
  rw [enter_eq_ok_iff] at henter ⊢
  rcases henter with hhere | hup | ⟨hhere, hup, hname, rfl, hentry⟩
  · exact .inl hhere
  · exact .inr (.inl hup)
  · exact .inr (.inr ⟨hhere, hup, hname, rfl, h.kept hentry⟩)

theorem Grows.foldlM_enter (h : Grows v w) {names : List String}
    (henter : names.foldlM v.enter here = .ok there) : names.foldlM w.enter here = .ok there := by
  induction names generalizing here with
  | nil => exact henter
  | cons name names ih =>
      obtain ⟨next, hnext, hrest⟩ := Except.bind_eq_ok_iff.mp henter
      exact Except.bind_eq_ok_iff.mpr ⟨next, h.enter hnext, ih hrest⟩

end Entering

-- A path that can be asked for at all.
structure Askable (path : String) : Prop where
  plain : Char.ofNat 0 ∉ path.toList
  nonempty : path ≠ ""
  short : path.utf8ByteSize ≤ pathLimit

-- Where a path leads as far as its last component settles it.
inductive Settles (v : Volume) (cwd : Location) (path : String) : Target → Prop
  | root : pathNames path.toList = [] → Settles v cwd path (.directory (start cwd path))
  | here {names parent} : pathNames path.toList = names ++ ["."] →
      names.foldlM v.enter (start cwd path) = .ok parent →
      Settles v cwd path (.directory parent)
  | up {names parent} : pathNames path.toList = names ++ [".."] →
      names.foldlM v.enter (start cwd path) = .ok parent →
      Settles v cwd path (.directory parent.dropLast)
  | name {names parent last} : pathNames path.toList = names ++ [last] → last ≠ "." → last ≠ ".." →
      names.foldlM v.enter (start cwd path) = .ok parent →
      Settles v cwd path (.name parent last (path.toList.getLast? = some '/'))

section Resolving

variable {v w : Volume} {cwd : Location} {path : String}

theorem resolve_eq_ok_iff {target : Target} :
    v.resolve cwd path = .ok target ↔ Askable path ∧ Settles v cwd path target := by
  constructor
  · intro h
    unfold resolve at h
    obtain ⟨hplain, h⟩ := Except.guard_eq_ok_iff.mp h
    obtain ⟨hnonempty, h⟩ := Except.guard_eq_ok_iff.mp h
    obtain ⟨hshort, h⟩ := Except.guard_eq_ok_iff.mp h
    refine ⟨⟨by simpa using hplain, by simpa using hnonempty, by omega⟩, ?_⟩
    dsimp only at h
    split at h
    · rename_i hnone
      obtain rfl := Except.ok.inj h
      exact .root (List.getLast?_eq_none_iff.mp hnone)
    · rename_i last hlast
      obtain ⟨parent, hparent, h⟩ := Except.bind_eq_ok_iff.mp h
      have hnames : pathNames path.toList = (pathNames path.toList).dropLast ++ [last] :=
        (List.dropLast_append_getLast? last hlast).symm
      split at h
      · rename_i hhere
        obtain rfl := Except.ok.inj h
        exact .here (hhere ▸ hnames) hparent
      · rename_i hhere
        split at h
        · rename_i hup
          obtain rfl := Except.ok.inj h
          exact .up (hup ▸ hnames) hparent
        · rename_i hup
          obtain rfl := Except.ok.inj h
          exact .name hnames hhere hup hparent
  · rintro ⟨⟨hplain, hnonempty, hshort⟩, h⟩
    unfold resolve
    refine Except.guard_eq_ok_iff.mpr ⟨by simpa using hplain, ?_⟩
    refine Except.guard_eq_ok_iff.mpr ⟨by simpa using hnonempty, ?_⟩
    refine Except.guard_eq_ok_iff.mpr ⟨by omega, ?_⟩
    dsimp only
    split
    · rename_i hnone
      have hnil : pathNames path.toList = [] := List.getLast?_eq_none_iff.mp hnone
      cases h with
      | root _ => rfl
      | here hnames _ | up hnames _ | name hnames _ _ _ => simp [hnil] at hnames
    · rename_i last hlast
      have hnames : pathNames path.toList = (pathNames path.toList).dropLast ++ [last] :=
        (List.dropLast_append_getLast? last hlast).symm
      refine Except.bind_eq_ok_iff.mpr ?_
      cases h with
      | root hnil => simp [hnil] at hnames
      | here heq hparent =>
          obtain ⟨hinit, hsame⟩ := List.append_inj' (hnames.symm.trans heq) rfl
          obtain rfl := List.singleton_inj.mp hsame
          exact ⟨_, hinit ▸ hparent, rfl⟩
      | up heq hparent =>
          obtain ⟨hinit, hsame⟩ := List.append_inj' (hnames.symm.trans heq) rfl
          obtain rfl := List.singleton_inj.mp hsame
          exact ⟨_, hinit ▸ hparent, rfl⟩
      | name heq hhere hup hparent =>
          obtain ⟨hinit, hsame⟩ := List.append_inj' (hnames.symm.trans heq) rfl
          obtain rfl := List.singleton_inj.mp hsame
          exact ⟨_, hinit ▸ hparent, by rw [if_neg hhere, if_neg hup]; rfl⟩

theorem Grows.settles (h : Grows v w) {target : Target} (htarget : Settles v cwd path target) :
    Settles w cwd path target := by
  cases htarget with
  | root hnames => exact .root hnames
  | here hnames hparent => exact .here hnames (h.foldlM_enter hparent)
  | up hnames hparent => exact .up hnames (h.foldlM_enter hparent)
  | name hnames hhere hup hparent => exact .name hnames hhere hup (h.foldlM_enter hparent)

-- What a path leads to: a directory above or the start itself, or what stands under a name.
theorem find_eq_ok_iff {location : Location} {entry : Entry} :
    v.find cwd path = .ok (location, entry) ↔
      (v.resolve cwd path = .ok (.directory location) ∧ entry = .directory) ∨
      ∃ parent name slash, v.resolve cwd path = .ok (.name parent name slash) ∧
        checkName name = .ok () ∧ location = parent ++ [name] ∧
        v.entry? location = some entry ∧ (slash → entry = .directory) := by
  unfold find
  rw [Except.bind_eq_ok_iff]
  constructor
  · rintro ⟨target, htarget, h⟩
    cases target with
    | directory other =>
        obtain ⟨rfl, rfl⟩ := Prod.mk.inj (Except.ok.inj h)
        exact .inl ⟨htarget, rfl⟩
    | name parent name slash =>
        obtain ⟨_, hname, h⟩ := Except.bind_eq_ok_iff.mp h
        right
        split at h
        · simp at h
        · rename_i content hentry
          split at h
          · simp at h
          · rename_i hslash
            obtain ⟨rfl, rfl⟩ := Prod.mk.inj (Except.ok.inj h)
            exact ⟨parent, name, slash, htarget, hname, rfl, hentry, fun hs => absurd hs hslash⟩
        · rename_i hentry
          obtain ⟨rfl, rfl⟩ := Prod.mk.inj (Except.ok.inj h)
          exact ⟨parent, name, slash, htarget, hname, rfl, hentry, fun _ => rfl⟩
  · rintro (⟨htarget, rfl⟩ | ⟨parent, name, slash, htarget, hname, rfl, hentry, hslash⟩)
    · exact ⟨_, htarget, rfl⟩
    · refine ⟨_, htarget, Except.bind_eq_ok_iff.mpr ⟨(), hname, ?_⟩⟩
      rw [hentry]
      cases entry with
      | file content =>
          cases slash with
          | false => rfl
          | true => exact absurd (hslash rfl) (by simp)
      | directory => rfl

-- A path leads to a directory if all its components can be entered.
theorem find_directory_iff {location : Location} :
    v.find cwd path = .ok (location, .directory) ↔
      Askable path ∧ (pathNames path.toList).foldlM v.enter (start cwd path) = .ok location := by
  simp only [find_eq_ok_iff, resolve_eq_ok_iff]
  constructor
  · rintro (⟨⟨hask, hsettles⟩, -⟩ | ⟨parent, last, slash, ⟨hask, hsettles⟩, hname, rfl, hentry, -⟩)
    · refine ⟨hask, ?_⟩
      cases hsettles with
      | root hnames => rw [hnames]; rfl
      | here hnames hparent | up hnames hparent =>
          rw [hnames, foldlM_enter_append_iff]
          exact ⟨_, hparent, by rw [foldlM_enter_singleton, enter_eq_ok_iff]; simp⟩
    · cases hsettles with
      | name hnames hhere hup hparent =>
          rw [hnames, foldlM_enter_append_iff]
          refine ⟨hask, _, hparent, ?_⟩
          rw [foldlM_enter_singleton, enter_eq_ok_iff]
          exact .inr (.inr ⟨hhere, hup, hname, rfl, hentry⟩)
  · rintro ⟨hask, hall⟩
    rcases List.eq_nil_or_concat (pathNames path.toList) with hnames | ⟨names, last, hnames⟩
    · rw [hnames] at hall
      obtain rfl := Except.ok.inj hall
      exact .inl ⟨⟨hask, .root hnames⟩, trivial⟩
    · rw [List.concat_eq_append] at hnames
      rw [hnames, foldlM_enter_append_iff] at hall
      obtain ⟨parent, hparent, hlast⟩ := hall
      rw [foldlM_enter_singleton, enter_eq_ok_iff] at hlast
      rcases hlast with ⟨rfl, rfl⟩ | ⟨rfl, rfl⟩ | ⟨hhere, hup, hname, rfl, hentry⟩
      · exact .inl ⟨⟨hask, .here hnames hparent⟩, trivial⟩
      · exact .inl ⟨⟨hask, .up hnames hparent⟩, trivial⟩
      · exact .inr ⟨parent, last, _, ⟨hask, .name hnames hhere hup hparent⟩, hname, rfl, hentry,
          fun _ => trivial⟩

theorem of_find_file {location : Location} {content : Content}
    (h : v.find cwd path = .ok (location, .file content)) :
    Askable path ∧ path.toList.getLast? ≠ some '/' ∧ ∃ names parent last,
      pathNames path.toList = names ++ [last] ∧ last ≠ "." ∧ last ≠ ".." ∧
      names.foldlM v.enter (start cwd path) = .ok parent ∧
      location = parent ++ [last] ∧ v.entry? location = some (.file content) := by
  rcases find_eq_ok_iff.mp h with
    ⟨-, hentry⟩ | ⟨parent, name, slash, htarget, -, rfl, hentry, hslash⟩
  · cases hentry
  · obtain ⟨hask, hsettles⟩ := resolve_eq_ok_iff.mp htarget
    cases hsettles with
    | name hnames hhere hup hparent =>
        refine ⟨hask, fun hlast => ?_, _, _, _, hnames, hhere, hup, hparent, rfl, hentry⟩
        cases hslash (by simpa using hlast)

section MakingDirectories

-- Only what is missing is made, and it is a directory afterwards.
theorem makeDir_ok (h : v.makeDir cwd path = .ok w) :
    Grows v w ∧ ∃ location, w.find cwd path = .ok (location, .directory) := by
  obtain ⟨target, htarget, h⟩ := Except.bind_eq_ok_iff.mp h
  cases target with
  | directory location => simp at h
  | name parent name slash =>
      obtain ⟨_, hname, h⟩ := Except.bind_eq_ok_iff.mp h
      obtain ⟨hfree, h⟩ := Except.guard_eq_ok_iff.mp h
      obtain rfl := Except.ok.inj h
      have hgrows : Grows v (v.put (parent ++ [name]) .directory) :=
        .put (by simp) (by simpa using hfree)
      obtain ⟨hask, hsettles⟩ := resolve_eq_ok_iff.mp htarget
      refine ⟨hgrows, parent ++ [name], find_eq_ok_iff.mpr (.inr ⟨parent, name, slash, ?_, hname,
        rfl, ?_, fun _ => rfl⟩)⟩
      · exact resolve_eq_ok_iff.mpr ⟨hask, hgrows.settles hsettles⟩
      · rw [entry?_put v (by simp), if_pos rfl]

theorem makeDir_of_directory {location : Location}
    (h : v.find cwd path = .ok (location, .directory)) :
    v.makeDir cwd path = .error .alreadyExists := by
  unfold makeDir
  rcases find_eq_ok_iff.mp h with
    ⟨htarget, -⟩ | ⟨parent, name, slash, htarget, hname, rfl, hentry, -⟩
  · rw [htarget]
    rfl
  · rw [htarget]
    simp only [bind, Except.bind, hname, hentry, Option.isSome_some, if_true]
    rfl

theorem kind?_eq_directory_iff :
    v.kind? cwd path = some .directory ↔
      ∃ location, v.find cwd path = .ok (location, .directory) := by
  unfold kind?
  split
  · rename_i hfind
    simp [hfind]
  · rename_i location hfind
    simp [hfind]
  · rename_i hfind
    simp [hfind]

theorem kind?_eq_file_iff : v.kind? cwd path = some .file ↔
    ∃ location content, v.find cwd path = .ok (location, .file content) := by
  unfold kind?
  split
  · rename_i location content hfind
    simp [hfind]
  · rename_i hfind
    simp [hfind]
  · rename_i hfind
    simp [hfind]

end MakingDirectories

end Resolving

end Volume

namespace Machine

variable {machine next : Machine} {path : String}

theorem makeDir_run (machine : Machine) (path : String) :
    (host.makeDir path).run machine =
      match machine.volume.makeDir machine.cwd path with
      | .ok volume => (.ok (), { machine with volume := volume })
      | .error e => (.error e, machine) := rfl

-- A later state of a machine on which directories were made and nothing else happened.
structure Extends (machine next : Machine) : Prop where
  grows : machine.volume.Grows next.volume
  cwd : next.cwd = machine.cwd

theorem Extends.refl (machine : Machine) : Extends machine machine := ⟨.refl _, rfl⟩

theorem Extends.trans {last : Machine} (h : Extends machine next) (hlast : Extends next last) :
    Extends machine last :=
  ⟨h.grows.trans hlast.grows, hlast.cwd.trans h.cwd⟩

-- What a path leads to on a machine.
def kindAt (machine : Machine) (path : String) : Option EntryKind :=
  machine.volume.kind? machine.cwd path

theorem makeDir_extends {outcome : Except OsError Unit}
    (h : (host.makeDir path).run machine = (outcome, next)) :
    Extends machine next ∧ (outcome = .ok () → next.kindAt path = some .directory) := by
  rw [makeDir_run] at h
  split at h
  · rename_i volume hmade
    obtain ⟨rfl, rfl⟩ := Prod.mk.inj h
    obtain ⟨hgrows, hfind⟩ := Volume.makeDir_ok hmade
    exact ⟨⟨hgrows, rfl⟩, fun _ => Volume.kind?_eq_directory_iff.mpr hfind⟩
  · obtain ⟨rfl, rfl⟩ := Prod.mk.inj h
    exact ⟨.refl _, nofun⟩

theorem isDirectory_run (machine : Machine) (path : String) :
    (isDirectory host path).run machine =
      (decide (machine.kindAt path = some .directory), machine) := rfl

-- A path that could not be made is as good if it leads to a directory.
theorem settle_run (e : OsError) (machine : Machine) (path : String) :
    (do if ← isDirectory host path then return .ok () else return .error e :
      StateM Machine (Except OsError Unit)).run machine =
      (if machine.kindAt path = some .directory then .ok () else .error e, machine) := by
  rw [StateM.run_bind_of_eq (isDirectory_run machine path)]
  by_cases h : machine.kindAt path = some .directory
  · rw [if_pos h, if_pos (by simpa using h)]
    rfl
  · rw [if_neg h, if_neg (by simpa using h)]
    rfl

theorem directory_of_settled {e : OsError}
    (h : (if machine.kindAt path = some .directory then .ok () else .error e :
      Except OsError Unit) = .ok ()) : machine.kindAt path = some .directory := by
  by_contra hkind
  rw [if_neg hkind] at h
  cases h

-- Making directories one after the other adds directories only. If it succeeds, the first of
-- the paths is one, or the empty path, which stands for the working directory.
theorem makeChain_extends {paths : List String} {outcome : Except OsError Unit}
    (h : (makeChain host paths).run machine = (outcome, next)) :
    Extends machine next ∧ (outcome = .ok () →
      ∃ path above, paths = path :: above ∧ (path = "" ∨ next.kindAt path = some .directory)) := by
  induction paths generalizing machine next outcome with
  | nil =>
      obtain ⟨rfl, rfl⟩ := Prod.mk.inj h
      exact ⟨.refl _, nofun⟩
  | cons path above ih =>
      rw [makeChain] at h
      split at h
      · rename_i hempty
        obtain ⟨rfl, rfl⟩ := Prod.mk.inj h
        exact ⟨.refl _, fun _ => ⟨path, above, rfl, .inl (by simpa using hempty)⟩⟩
      · rcases hmake : (host.makeDir path).run machine with ⟨first, made⟩
        obtain ⟨hmade, hdirectory⟩ := makeDir_extends hmake
        rw [StateM.run_bind_of_eq hmake] at h
        split at h
        · obtain ⟨rfl, rfl⟩ := Prod.mk.inj h
          exact ⟨hmade, fun _ => ⟨path, above, rfl, .inr (hdirectory rfl)⟩⟩
        · rcases habove : (makeChain host above).run made with ⟨second, reached⟩
          obtain ⟨hreached, -⟩ := ih habove
          rw [StateM.run_bind_of_eq habove] at h
          split at h
          · obtain ⟨rfl, rfl⟩ := Prod.mk.inj h
            exact ⟨hmade.trans hreached, nofun⟩
          · rcases hagain : (host.makeDir path).run reached with ⟨third, last⟩
            obtain ⟨hlast, hdirectory⟩ := makeDir_extends hagain
            rw [StateM.run_bind_of_eq hagain] at h
            split at h
            · obtain ⟨rfl, rfl⟩ := Prod.mk.inj h
              exact ⟨(hmade.trans hreached).trans hlast,
                fun _ => ⟨path, above, rfl, .inr (hdirectory rfl)⟩⟩
            · rw [settle_run] at h
              obtain ⟨rfl, rfl⟩ := Prod.mk.inj h
              exact ⟨(hmade.trans hreached).trans hlast,
                fun hok => ⟨path, above, rfl, .inr (directory_of_settled hok)⟩⟩
        · rw [settle_run] at h
          obtain ⟨rfl, rfl⟩ := Prod.mk.inj h
          exact ⟨hmade, fun hok => ⟨path, above, rfl, .inr (directory_of_settled hok)⟩⟩

theorem makeDirs_extends {outcome : Except OsError Unit}
    (h : (makeDirs host path).run machine = (outcome, next)) :
    Extends machine next ∧
      (outcome = .ok () → path = "" ∨ next.kindAt path = some .directory) := by
  obtain ⟨hextends, hdirectory⟩ := makeChain_extends h
  refine ⟨hextends, fun hok => ?_⟩
  obtain ⟨first, above, hpaths, hfirst⟩ := hdirectory hok
  obtain ⟨others, hothers⟩ := ancestors_eq_cons path
  obtain ⟨rfl, -⟩ := List.cons.inj (hothers.symm.trans hpaths)
  exact hfirst

-- Nothing is done where the directory is there.
theorem makeDirs_of_directory (h : path = "" ∨ machine.kindAt path = some .directory) :
    (makeDirs host path).run machine = (.ok (), machine) := by
  obtain ⟨above, habove⟩ := ancestors_eq_cons path
  rw [makeDirs, habove, makeChain]
  split
  · rfl
  · rename_i hempty
    have hkind := h.resolve_left (by simpa using hempty)
    obtain ⟨location, hfind⟩ := Volume.kind?_eq_directory_iff.mp hkind
    have hmake : (host.makeDir path).run machine = (.error .alreadyExists, machine) := by
      rw [makeDir_run, Volume.makeDir_of_directory hfind]
    rw [StateM.run_bind_of_eq hmake]
    exact (settle_run _ machine path).trans (by rw [if_pos hkind])

theorem firstFile?_run (machine : Machine) (paths : List String) :
    (firstFile? host paths).run machine =
      (paths.find? fun path => machine.kindAt path = some .file, machine) := by
  induction paths with
  | nil => rfl
  | cons path rest ih =>
      have hkind : (host.kind? path).run machine = (machine.kindAt path, machine) := rfl
      rw [firstFile?, StateM.run_bind_of_eq hkind]
      split
      · rename_i hfile
        rw [List.find?_cons_of_pos (by simpa using hfile)]
        rfl
      · rename_i hfile
        rw [List.find?_cons_of_neg (by simpa using hfile), ih]

end Machine

end YangBinding.Files
