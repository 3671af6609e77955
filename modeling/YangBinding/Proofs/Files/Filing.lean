import YangBinding.Files.Volume
import YangBinding.Proofs.Outcome

namespace YangBinding.Files

section Laws

variable {σ : Type}

-- What is known of a machine that writes files: a path names a file, a write that succeeds
-- replaces what that file holds, and one that fails changes nothing. Two paths may name one file.
structure Filing (host : Host (StateM σ)) where
  File : Type
  locate : σ → String → File
  content : σ → File → Option Content
  locate_write : ∀ {state next path text outcome},
    (host.write path text).run state = (outcome, next) → locate next = locate state
  content_written : ∀ {state next path text},
    (host.write path text).run state = (.ok (), next) →
      content next (locate state path) = some (.text text)
  content_other : ∀ {state next path text},
    (host.write path text).run state = (.ok (), next) →
      ∀ file, file ≠ locate state path → content next file = content state file
  content_failed : ∀ {state next path text e},
    (host.write path text).run state = (.error e, next) → content next = content state

-- Writes that succeed one after the other.
inductive Writes (host : Host (StateM σ)) : σ → List (String × String) → σ → Prop
  | nil {state} : Writes host state [] state
  | cons {state next finish path text rest} :
      (host.write path text).run state = (.ok (), next) → Writes host next rest finish →
      Writes host state ((path, text) :: rest) finish

namespace Filing

variable {host : Host (StateM σ)} (filing : Filing host)

-- Each file holds what the last of some writes to it put there; the others are as they were.
structure Effect (start finish : σ) (writes : List (String × String)) : Prop where
  last : ∀ before path text after, writes = before ++ (path, text) :: after →
    (∀ later ∈ after, filing.locate start later.1 ≠ filing.locate start path) →
    filing.content finish (filing.locate start path) = some (.text text)
  frame : ∀ file, (∀ write ∈ writes, filing.locate start write.1 ≠ file) →
    filing.content finish file = filing.content start file

variable {filing} {start next finish : σ} {writes : List (String × String)}

theorem Effect.nil : filing.Effect start start [] where
  last before path text after h := by simp at h
  frame _ _ := rfl

-- A write in front shows through where the later ones do not go.
theorem Effect.cons {path text : String}
    (hwrite : (host.write path text).run start = (.ok (), next))
    (h : filing.Effect next finish writes) : filing.Effect start finish ((path, text) :: writes) := by
  have hlocate := filing.locate_write hwrite
  constructor
  · intro before path' text' after heq hlater
    cases before with
    | nil =>
        obtain ⟨hhead, rfl⟩ := List.cons.inj heq
        obtain ⟨rfl, rfl⟩ := Prod.mk.inj hhead
        rw [h.frame _ (by rwa [hlocate])]
        exact filing.content_written hwrite
    | cons first before =>
        obtain ⟨-, hrest⟩ := List.cons.inj heq
        have hlast := h.last before path' text' after hrest
        rw [hlocate] at hlast
        exact hlast hlater
  · intro file hother
    obtain ⟨hne, hrest⟩ := List.forall_mem_cons.mp hother
    rw [h.frame file (by rwa [hlocate]), filing.content_other hwrite file hne.symm]

theorem effect_of_writes (h : Writes host start writes finish) :
    filing.Effect start finish writes := by
  induction h with
  | nil => exact .nil
  | cons hwrite _ ih => exact ih.cons hwrite

theorem Effect.of_content_eq (h : filing.Effect start next writes)
    (heq : filing.content finish = filing.content next) : filing.Effect start finish writes where
  last := by rw [heq]; exact h.last
  frame := by rw [heq]; exact h.frame

end Filing

end Laws

namespace Volume

theorem lookup_map_replaced (entries : List (Location × Entry)) (location other : Location)
    (entry : Entry) :
    (entries.map fun (place, old) => if place = location then (place, entry) else (place, old)).lookup
        other = (entries.lookup other).map fun old => if other = location then entry else old := by
  induction entries with
  | nil => rfl
  | cons first rest ih =>
      obtain ⟨place, old⟩ := first
      have hpair : (if place = location then (place, entry) else (place, old)) =
          (place, if place = location then entry else old) := by split <;> rfl
      simp only [List.map_cons, hpair, List.lookup_cons]
      by_cases hother : other = place
      · simp [hother]
      · rw [beq_eq_false_iff_ne.mpr hother]
        exact ih

theorem lookup_put (v : Volume) (location other : Location) (entry : Entry) :
    (v.put location entry).entries.lookup other =
      if other = location then some entry else v.entries.lookup other := by
  unfold put
  split
  · rename_i hthere
    obtain ⟨old, hold⟩ := Option.isSome_iff_exists.mp hthere
    simp only [lookup_map_replaced]
    by_cases heq : other = location
    · simp [heq, hold]
    · simp [heq]
  · rename_i hthere
    rw [Option.not_isSome_iff_eq_none] at hthere
    by_cases heq : other = location
    · simp [heq, List.lookup_append, hthere]
    · simp [heq, List.lookup_append, List.lookup_cons, beq_eq_false_iff_ne.mpr heq]

-- An entry that was put is found at its location, and everything else as before.
theorem entry?_put (v : Volume) {location : Location} (hne : location ≠ []) (entry : Entry)
    (other : Location) : Volume.entry? (v.put location entry) other =
      if other = location then some entry else v.entry? other := by
  unfold entry?
  rw [lookup_put]
  cases other with
  | nil => simp [hne.symm]
  | cons name names => simp

-- The step from a directory to what a name in it leads to, be it there or not.
def step (here : Location) (name : String) : Location :=
  if name = "." then here else if name = ".." then here.dropLast else here ++ [name]

-- The location that a path spells out from the directory `cwd`.
def locate (cwd : Location) (path : String) : Location :=
  (pathNames path.toList).foldl step (start cwd path)

theorem enter_eq_step {v : Volume} {here there : Location} {name : String}
    (h : v.enter here name = .ok there) : there = step here name := by
  unfold enter at h
  unfold step
  split at h
  · rename_i hhere
    rw [if_pos hhere]
    exact (Except.ok.inj h).symm
  · rename_i hhere
    rw [if_neg hhere]
    split at h
    · rename_i hup
      rw [if_pos hup]
      exact (Except.ok.inj h).symm
    · rename_i hup
      rw [if_neg hup]
      obtain ⟨_, -, h⟩ := Except.bind_eq_ok_iff.mp h
      split at h
      · simp at h
      · simp at h
      · exact (Except.ok.inj h).symm

theorem foldlM_enter_eq {v : Volume} {names : List String} {here there : Location}
    (h : names.foldlM v.enter here = .ok there) : there = names.foldl step here := by
  induction names generalizing here with
  | nil => exact (Except.ok.inj h).symm
  | cons name rest ih =>
      obtain ⟨inner, hinner, hrest⟩ := Except.bind_eq_ok_iff.mp h
      rw [List.foldl_cons, ← enter_eq_step hinner]
      exact ih hrest

theorem resolve_name {v : Volume} {cwd parent : Location} {path name : String} {slash : Bool}
    (h : v.resolve cwd path = .ok (.name parent name slash)) :
    parent ++ [name] = locate cwd path := by
  unfold resolve at h
  obtain ⟨-, h⟩ := Except.guard_eq_ok_iff.mp h
  obtain ⟨-, h⟩ := Except.guard_eq_ok_iff.mp h
  obtain ⟨-, h⟩ := Except.guard_eq_ok_iff.mp h
  dsimp only at h
  split at h
  · simp [pure, Except.pure] at h
  · rename_i last hlast
    obtain ⟨inner, hinner, h⟩ := Except.bind_eq_ok_iff.mp h
    split at h
    · simp [pure, Except.pure] at h
    · rename_i hhere
      split at h
      · simp [pure, Except.pure] at h
      · rename_i hup
        obtain ⟨rfl, rfl, -⟩ := Target.name.inj (Except.ok.inj h)
        have hnames : pathNames path.toList = (pathNames path.toList).dropLast ++ [last] :=
          (List.dropLast_append_getLast? last hlast).symm
        rw [locate, hnames, List.foldl_append, foldlM_enter_eq hinner]
        simp [step, hhere, hup]

theorem write_ok {v next : Volume} {cwd : Location} {path text : String}
    (h : v.write cwd path text = .ok next) : locate cwd path ≠ [] ∧
      next = v.put (locate cwd path) (.file (.text text)) := by
  obtain ⟨target, htarget, h⟩ := Except.bind_eq_ok_iff.mp h
  cases target with
  | directory location => simp at h
  | name parent name slash =>
      obtain ⟨-, h⟩ := Except.guard_eq_ok_iff.mp h
      obtain ⟨_, -, h⟩ := Except.bind_eq_ok_iff.mp h
      obtain ⟨-, hput⟩ := Except.guard_eq_ok_iff.mp h
      rw [← resolve_name htarget]
      exact ⟨by simp, (Except.ok.inj hput).symm⟩

-- What the file at a location holds, if there is one.
def content? (v : Volume) (location : Location) : Option Content :=
  match v.entry? location with
  | some (.file content) => some content
  | _ => none

theorem content?_write {v next : Volume} {cwd : Location} {path text : String}
    (h : v.write cwd path text = .ok next) (location : Location) : next.content? location =
      if location = locate cwd path then some (.text text) else v.content? location := by
  obtain ⟨hne, rfl⟩ := write_ok h
  unfold content?
  rw [entry?_put _ hne]
  by_cases heq : location = locate cwd path
  · rw [if_pos heq, if_pos heq]
  · rw [if_neg heq, if_neg heq]

end Volume

namespace Machine

variable {machine next : Machine} {path text : String}

theorem write_run (machine : Machine) (path text : String) :
    (host.write path text).run machine =
      match machine.volume.write machine.cwd path text with
      | .ok volume => (.ok (), { machine with volume := volume })
      | .error e => (.error e, machine) := rfl

theorem write_ok (h : (host.write path text).run machine = (.ok (), next)) :
    ∃ volume, machine.volume.write machine.cwd path text = .ok volume ∧
      next = { machine with volume := volume } := by
  rw [write_run] at h
  split at h
  · rename_i volume hwrite
    exact ⟨volume, hwrite, (Prod.mk.inj h).2.symm⟩
  · exact nomatch (Prod.mk.inj h).1

theorem write_failed {e : OsError} (h : (host.write path text).run machine = (.error e, next)) :
    next = machine := by
  rw [write_run] at h
  split at h
  · exact nomatch (Prod.mk.inj h).1
  · exact (Prod.mk.inj h).2.symm

-- The files of a machine in memory are told apart by their locations.
def filing : Filing host where
  File := Location
  locate machine path := Volume.locate machine.cwd path
  content machine location := machine.volume.content? location
  locate_write := by
    intro machine next path text outcome h
    cases outcome with
    | error e => rw [write_failed h]
    | ok _ =>
        obtain ⟨volume, -, rfl⟩ := write_ok h
        rfl
  content_written := by
    intro machine next path text h
    obtain ⟨volume, hwrite, rfl⟩ := write_ok h
    rw [Volume.content?_write hwrite, if_pos rfl]
  content_other := by
    intro machine next path text h location hne
    obtain ⟨volume, hwrite, rfl⟩ := write_ok h
    rw [Volume.content?_write hwrite, if_neg hne]
  content_failed := by
    intro machine next path text e h
    rw [write_failed h]

end Machine

end YangBinding.Files
