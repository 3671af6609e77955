import YangBinding.Proofs.Java.Names

namespace YangBinding

namespace Text

section Sets

-- A set of code points is written as a number with a bit for each of them. In this form all the
-- sources of a case table are compared with all its images at once, run by run.
def union (sets : List Nat) : Nat := sets.foldr (· ||| ·) 0

-- The first `count` multiples of `stride`.
def multiples (stride : Nat) : Nat → Nat
  | 0 => 0
  | count + 1 => 1 ||| multiples stride count <<< stride

theorem testBit_union {sets : List Nat} {set n : Nat} (hset : set ∈ sets) (hn : set.testBit n) :
    (union sets).testBit n := by
  induction sets with
  | nil => simp at hset
  | cons first rest ih =>
      have hcons : union (first :: rest) = first ||| union rest := rfl
      rw [hcons, Nat.testBit_or, Bool.or_eq_true]
      rcases List.mem_cons.mp hset with rfl | hset
      · exact .inl hn
      · exact .inr (ih hset)

theorem testBit_multiples {stride count k : Nat} (h : k < count) :
    (multiples stride count).testBit (k * stride) := by
  induction count generalizing k with
  | zero => omega
  | succ count ih =>
      rw [multiples, Nat.testBit_or, Bool.or_eq_true]
      cases k with
      | zero =>
          left
          simp
      | succ k =>
          right
          have hk : k < count := by omega
          rw [Nat.testBit_shiftLeft, Nat.succ_mul, Nat.add_sub_cancel, ih hk]
          simp

theorem testBit_shiftLeft_add {set n : Nat} (h : set.testBit n) (start : Nat) :
    (set <<< start).testBit (start + n) := by
  rw [Nat.testBit_shiftLeft, Nat.add_sub_cancel_left, h]
  simp

theorem testBit_one_shiftLeft (n : Nat) : (1 <<< n).testBit n :=
  testBit_shiftLeft_add (n := 0) rfl n

end Sets

namespace CaseRun

variable {run : CaseRun} {n image : Nat}

-- How far the code points of a run lie behind the first one.
def distances (run : CaseRun) : Nat :=
  multiples run.stride ((run.last - run.first) / run.stride + 1)

def sources (run : CaseRun) : Nat := run.distances <<< run.first

def images (run : CaseRun) : Nat := run.distances <<< ((run.first : Int) + run.offset).toNat

theorem exists_distance (h : run.image? n = some image) :
    ∃ distance, run.distances.testBit distance ∧ n = run.first + distance ∧
      ((n : Int) + run.offset).toNat = image := by
  unfold image? at h
  split at h
  · rename_i hcovered
    obtain ⟨hfirst, hlast, hstride⟩ := hcovered
    have hsteps : (n - run.first) / run.stride * run.stride = n - run.first := by
      have hdiv := Nat.div_add_mod (n - run.first) run.stride
      rw [hstride, Nat.add_zero, Nat.mul_comm] at hdiv
      exact hdiv
    have hcount : (n - run.first) / run.stride ≤ (run.last - run.first) / run.stride := by
      apply Nat.div_le_div_right
      omega
    refine ⟨n - run.first, ?_, by omega, Option.some.inj h⟩
    rw [← hsteps]
    apply testBit_multiples
    omega
  · simp at h

theorem mem_sources (h : run.image? n = some image) : run.sources.testBit n := by
  obtain ⟨distance, hbit, rfl, -⟩ := exists_distance h
  exact testBit_shiftLeft_add hbit run.first

theorem mem_images (hpos : 0 ≤ (run.first : Int) + run.offset) (h : run.image? n = some image) :
    run.images.testBit image := by
  obtain ⟨distance, hbit, rfl, rfl⟩ := exists_distance h
  have hmoved : (((run.first + distance : Nat) : Int) + run.offset).toNat =
      ((run.first : Int) + run.offset).toNat + distance := by omega
  rw [hmoved]
  exact testBit_shiftLeft_add hbit _

end CaseRun

section Settled

variable {runs : List CaseRun} {expansions : List (Nat × List Nat)} {n image : Nat}

-- The code points that a case table maps somewhere.
def sources (runs : List CaseRun) (expansions : List (Nat × List Nat)) : Nat :=
  union (runs.map CaseRun.sources ++ expansions.map fun entry => 1 <<< entry.1)

-- The code points that it maps them to.
def images (runs : List CaseRun) (expansions : List (Nat × List Nat)) : Nat :=
  union (runs.map CaseRun.images ++ expansions.flatMap fun entry => entry.2.map (1 <<< ·))

theorem caseImage_eq_self (h : ¬ (sources runs expansions).testBit n) :
    caseImage runs expansions n = [n] := by
  have hruns : runs.findSome? (fun run => run.image? n) = none := by
    rw [List.findSome?_eq_none_iff]
    intro run hrun
    cases himage : run.image? n with
    | none => rfl
    | some image =>
        have hset : run.sources ∈ runs.map CaseRun.sources := List.mem_map_of_mem hrun
        exact absurd (testBit_union (List.mem_append_left _ hset) (CaseRun.mem_sources himage)) h
  have hexpansions : expansions.lookup n = none := by
    rw [List.lookup_eq_none_iff]
    intro entry hentry
    rw [bne_iff_ne]
    rintro rfl
    have hset : 1 <<< entry.1 ∈ expansions.map fun entry => 1 <<< entry.1 :=
      List.mem_map_of_mem (f := fun entry : Nat × List Nat => 1 <<< entry.1) hentry
    exact h (testBit_union (List.mem_append_right _ hset) (testBit_one_shiftLeft _))
  rw [caseImage, hruns, hexpansions, Option.getD_none]

theorem caseImage_eq_self_or (hpos : ∀ run ∈ runs, 0 ≤ (run.first : Int) + run.offset)
    (h : image ∈ caseImage runs expansions n) :
    caseImage runs expansions n = [n] ∨ (images runs expansions).testBit image := by
  rcases caseImage_cases h with ⟨run, hrun, himage⟩ | ⟨entry, hentry, himage⟩ | ⟨-, hself, -⟩
  · have hset : run.images ∈ runs.map CaseRun.images := List.mem_map_of_mem hrun
    exact .inr (testBit_union (List.mem_append_left _ hset)
      (CaseRun.mem_images (hpos run hrun) himage))
  · have hset : 1 <<< image ∈ expansions.flatMap fun entry => entry.2.map (1 <<< ·) :=
      List.mem_flatMap.mpr ⟨entry, hentry, List.mem_map_of_mem himage⟩
    exact .inr (testBit_union (List.mem_append_right _ hset) (testBit_one_shiftLeft image))
  · exact .inl hself

-- Upper case is not mapped any further.
theorem upper_sources_images :
    sources upperRuns upperExpansions &&& images upperRuns upperExpansions = 0 := by
  decide +kernel

theorem upper_image_eq_self (h : image ∈ caseImage upperRuns upperExpansions n) :
    caseImage upperRuns upperExpansions image = [image] := by
  have hpos : ∀ run ∈ upperRuns, 0 ≤ (run.first : Int) + run.offset := by
    intro run hrun
    have hbeyond := upperRuns_beyond run hrun
    omega
  rcases caseImage_eq_self_or hpos h with hself | himage
  · rw [hself, List.mem_singleton] at h
    rw [h, hself]
  · apply caseImage_eq_self
    intro hsource
    have hboth := congrArg (Nat.testBit · image) upper_sources_images
    simp [Nat.testBit_and, hsource, himage] at hboth

-- Each character of an upper case stays as it is, also where there are several.
theorem upper_of_mem_upper {c d : Char} (h : d ∈ upper c) : upper d = [d] := by
  obtain ⟨image, himage, rfl⟩ := List.mem_map.mp h
  have hself : caseImage upperRuns upperExpansions (Char.ofNat image).toNat =
      [(Char.ofNat image).toNat] := by
    rcases toNat_ofNat_cases image with hvalid | hzero
    · rw [hvalid]
      exact upper_image_eq_self himage
    · rw [hzero, upper_image_ascii (by decide)]
      rfl
  rw [upper, hself, List.map_singleton, Char.ofNat_toNat]

end Settled

end Text

namespace Java

-- A text without a divider is one segment, or none where it is empty.
theorem toList_className_of_forall_not {ident : String}
    (h : ∀ c ∈ ident.toList, ¬ isDivider c) :
    (className ident).toList = Text.upperFirst ident.toList := by
  rw [toList_className, segments, Text.pieces_of_forall_not h]
  cases ident.toList with
  | nil => rfl
  | cons first rest => simp

theorem upperFirst_className (ident : String) :
    Text.upperFirst (className ident).toList = (className ident).toList := by
  cases hname : (className ident).toList with
  | nil => rfl
  | cons first rest =>
      have hhead : (className ident).toList.head? = some first := by rw [hname, List.head?_cons]
      obtain ⟨letter, hletter⟩ := head_className hhead
      rw [Text.upperFirst, Text.upper_of_mem_upper hletter, List.singleton_append]

theorem className_className (ident : String) : className (className ident) = className ident := by
  have hone : ∀ c ∈ (className ident).toList, ¬ isDivider c :=
    fun _ hc => not_isDivider_of_mem_className hc
  apply String.toList_inj.mp
  rw [toList_className_of_forall_not hone, upperFirst_className]

theorem className_append_divider {c : Char} (hc : isDivider c) (s t : String) :
    className (s ++ String.singleton c ++ t) = className s ++ className t := by
  have htext : (s ++ String.singleton c ++ t).toList = s.toList ++ c :: t.toList := by simp
  have hsegments : segments (s ++ String.singleton c ++ t) = segments s ++ segments t := by
    rw [segments, htext, Text.pieces_append_cons hc, List.filter_append]
    rfl
  apply String.toList_inj.mp
  rw [String.toList_append, toList_className, hsegments, List.flatMap_append, toList_className,
    toList_className]

end Java

theorem className_idempotent_segmentwise (s t : String) :
    Java.className (Java.className s) = Java.className s ∧
    '-' ∉ (Java.className s).toList ∧ '.' ∉ (Java.className s).toList ∧
    Java.className (s ++ "-" ++ t) = Java.className s ++ Java.className t ∧
    Java.className (s ++ "." ++ t) = Java.className s ++ Java.className t ∧
    ('-' ∉ s.toList → '.' ∉ s.toList →
      (Java.className s).toList = Text.upperFirst s.toList) := by
  refine ⟨Java.className_className s, ?_, ?_, ?_, ?_, ?_⟩
  · intro h
    exact Java.not_isDivider_of_mem_className h rfl
  · intro h
    exact Java.not_isDivider_of_mem_className h rfl
  · exact Java.className_append_divider (c := '-') rfl s t
  · exact Java.className_append_divider (c := '.') rfl s t
  · intro hhyphen hpoint
    apply Java.toList_className_of_forall_not
    intro c hc hdivider
    simp only [Java.isDivider, Bool.or_eq_true, beq_iff_eq] at hdivider
    rcases hdivider with rfl | rfl
    · exact hhyphen hc
    · exact hpoint hc

-- The upper case of `ŉ` is an apostrophe and a letter, that of `ß` two letters.
theorem className_of_expanding_letters :
    Java.className (Java.className "ŉ") = Java.className "ŉ" ∧
    Java.className ("ŉ" ++ "-" ++ "ßx") = Java.className "ŉ" ++ Java.className "ßx" ∧
    ('-' ∉ "ŉ".toList ∧ '.' ∉ "ŉ".toList ∧ (Java.className "ŉ").toList = ['ʼ', 'N']) := by
  obtain ⟨hagain, -, -, hjoin, -, hone⟩ := className_idempotent_segmentwise "ŉ" "ßx"
  have hhyphen : '-' ∉ "ŉ".toList := by decide
  have hpoint : '.' ∉ "ŉ".toList := by decide
  refine ⟨hagain, hjoin, hhyphen, hpoint, ?_⟩
  rw [hone hhyphen hpoint]
  decide +kernel

end YangBinding
