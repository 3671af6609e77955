import YangBinding.Proofs.Class.Naming
import YangBinding.Proofs.Pieces

namespace YangBinding

namespace Text

section CaseImages

-- Of the runs only the first reaches down to the ASCII characters.
theorem caseImage_of_ascii {letters : CaseRun} {others : List CaseRun}
    {expansions : List (Nat × List Nat)} (hothers : ∀ run ∈ others, 0x80 ≤ run.first)
    (hexpansions : ∀ entry ∈ expansions, 0x80 ≤ entry.1) {n : Nat} (h : n < 0x80) :
    caseImage (letters :: others) expansions n = [(letters.image? n).getD n] := by
  have hnone : others.findSome? (fun run => run.image? n) = none := by
    refine List.findSome?_eq_none_iff.mpr fun run hrun => if_neg ?_
    have hfirst := hothers run hrun
    omega
  have hlookup : expansions.lookup n = none := by
    refine List.lookup_eq_none_iff.mpr fun entry hentry => ?_
    have hkey := hexpansions entry hentry
    simpa using show n ≠ entry.1 by omega
  rw [caseImage, List.findSome?_cons]
  cases letters.image? n with
  | none => rw [hnone, hlookup]; rfl
  | some image => rfl

theorem upper_image_ascii {n : Nat} (h : n < 0x80) : caseImage upperRuns upperExpansions n =
    [if 0x61 ≤ n ∧ n ≤ 0x7A then n - 0x20 else n] := by
  rw [show upperRuns = ⟨0x61, 0x7A, 1, -32⟩ :: upperRuns.tail from rfl,
    caseImage_of_ascii (by decide +kernel) (by decide +kernel) h]
  simp only [CaseRun.image?, Nat.mod_one, and_true]
  split
  · simp only [Option.getD_some]
    congr 1
    omega
  · rfl

theorem lower_image_ascii {n : Nat} (h : n < 0x80) : caseImage lowerRuns lowerExpansions n =
    [if 0x41 ≤ n ∧ n ≤ 0x5A then n + 0x20 else n] := by
  rw [show lowerRuns = ⟨0x41, 0x5A, 1, 32⟩ :: lowerRuns.tail from rfl,
    caseImage_of_ascii (by decide +kernel) (by decide +kernel) h]
  simp only [CaseRun.image?, Nat.mod_one, and_true]
  split
  · rfl
  · rfl

theorem upperExpansions_ne_nil : ∀ entry ∈ upperExpansions, entry.2 ≠ [] := by
  decide +kernel

theorem lowerExpansions_ne_nil : ∀ entry ∈ lowerExpansions, entry.2 ≠ [] := by
  decide +kernel

theorem caseImage_ne_nil {runs : List CaseRun} {expansions : List (Nat × List Nat)}
    (h : ∀ entry ∈ expansions, entry.2 ≠ []) (n : Nat) : caseImage runs expansions n ≠ [] := by
  unfold caseImage
  split
  · simp
  · cases hlookup : expansions.lookup n with
    | none => simp
    | some images =>
        obtain ⟨before, after, heq, -⟩ := List.lookup_eq_some_iff.mp hlookup
        exact h (n, images) (by simp [heq])

theorem upper_ne_nil (c : Char) : upper c ≠ [] := by
  simpa [upper] using caseImage_ne_nil upperExpansions_ne_nil c.toNat

theorem lower_ne_nil (c : Char) : lower c ≠ [] := by
  simpa [lower] using caseImage_ne_nil lowerExpansions_ne_nil c.toNat

-- Code points that nothing is mapped to are images of themselves alone.
theorem caseImage_eq_of_mem_range {runs : List CaseRun} {expansions : List (Nat × List Nat)}
    {first last : Nat} (hpos : 0 < first)
    (hruns : ∀ run ∈ runs, (run.last : Int) + run.offset < first ∨
      (last : Int) < run.first + run.offset)
    (hexpansions : ∀ entry ∈ expansions, ∀ image ∈ entry.2, image < first ∨ last < image)
    {n image : Nat} (h : image ∈ caseImage runs expansions n)
    (hrange : first ≤ image ∧ image ≤ last) :
    image = n ∧ ∀ run ∈ runs, run.image? n = none := by
  rcases caseImage_cases h with ⟨run, hrun, hsome⟩ | ⟨entry, hentry, hmem⟩ | ⟨hself, -, hnone⟩
  · have hbounds := hruns run hrun
    unfold CaseRun.image? at hsome
    split at hsome
    · have himage := Option.some.inj hsome
      omega
    · cases hsome
  · have hout := hexpansions entry hentry image hmem
    omega
  · exact ⟨hself, hnone⟩

-- A range of code points that is mapped away, and that nothing is mapped to.
theorem caseImage_avoids {runs : List CaseRun} {expansions : List (Nat × List Nat)}
    {first last : Nat} (hpos : 0 < first)
    (hruns : ∀ run ∈ runs, (run.last : Int) + run.offset < first ∨
      (last : Int) < run.first + run.offset)
    (hexpansions : ∀ entry ∈ expansions, ∀ image ∈ entry.2, image < first ∨ last < image)
    (hcovered : ∃ run ∈ runs, run.first = first ∧ run.last = last ∧ run.stride = 1)
    {n image : Nat} (h : image ∈ caseImage runs expansions n) : image < first ∨ last < image := by
  by_contra hin
  obtain ⟨rfl, hnone⟩ := caseImage_eq_of_mem_range hpos hruns hexpansions h (by omega)
  obtain ⟨run, hrun, hfirst, hlast, hstride⟩ := hcovered
  have hletter := hnone run hrun
  unfold CaseRun.image? at hletter
  split at hletter
  · cases hletter
  · rename_i hout
    rw [hfirst, hlast, hstride, Nat.mod_one] at hout
    omega

theorem eq_of_mem_map_caseImage {runs : List CaseRun} {expansions : List (Nat × List Nat)}
    {first last : Nat} (hpos : 0 < first)
    (hruns : ∀ run ∈ runs, (run.last : Int) + run.offset < first ∨
      (last : Int) < run.first + run.offset)
    (hexpansions : ∀ entry ∈ expansions, ∀ image ∈ entry.2, image < first ∨ last < image)
    {c d : Char} (h : d ∈ (caseImage runs expansions c.toNat).map Char.ofNat)
    (hrange : first ≤ d.toNat ∧ d.toNat ≤ last) : d = c := by
  obtain ⟨image, himage, rfl⟩ := List.mem_map.mp h
  have hvalid := toNat_ofNat_cases image
  obtain ⟨hself, -⟩ := caseImage_eq_of_mem_range hpos hruns hexpansions himage (by omega)
  rw [hself, Char.ofNat_toNat]

def IsSmall (c : Char) : Prop := 0x61 ≤ c.toNat ∧ c.toNat ≤ 0x7A

instance (c : Char) : Decidable (IsSmall c) := inferInstanceAs (Decidable (_ ∧ _))

def startsSmall (text : String) : Bool := text.toList.head?.any fun c => decide (IsSmall c)

def IsCapital (c : Char) : Prop := 0x41 ≤ c.toNat ∧ c.toNat ≤ 0x5A

theorem not_isSmall_of_mem_upper {c d : Char} (h : d ∈ upper c) : ¬ IsSmall d := by
  obtain ⟨image, himage, rfl⟩ := List.mem_map.mp h
  have hout : image < 0x61 ∨ 0x7A < image :=
    caseImage_avoids (by decide) (by decide +kernel) (by decide +kernel) (by decide +kernel) himage
  have hvalid := toNat_ofNat_cases image
  unfold IsSmall
  omega

theorem not_isCapital_of_mem_lower {c d : Char} (h : d ∈ lower c) : ¬ IsCapital d := by
  obtain ⟨image, himage, rfl⟩ := List.mem_map.mp h
  have hout : image < 0x41 ∨ 0x5A < image :=
    caseImage_avoids (by decide) (by decide +kernel) (by decide +kernel) (by decide +kernel) himage
  have hvalid := toNat_ofNat_cases image
  unfold IsCapital
  omega

end CaseImages

section Ascii

variable {c d : Char}

theorem toNat_ofNat_of_lt {n : Nat} (h : n < 0x80) : (Char.ofNat n).toNat = n := by
  unfold Char.ofNat
  rw [dif_pos (.inl (by omega))]
  rfl

theorem upper_of_ascii (h : c.toNat < 0x80) : ∃ d, upper c = [d] ∧ d.toNat < 0x80 := by
  refine ⟨_, by rw [upper, upper_image_ascii h]; rfl, ?_⟩
  rw [toNat_ofNat_of_lt]
  · split <;> omega
  · split <;> omega

-- Of two ASCII characters that have the same lower case, one is a small letter or they are
-- the same.
theorem eq_of_lower_append_eq (hc : c.toNat < 0x80) (hd : d.toNat < 0x80)
    (hc' : ¬ IsSmall c) (hd' : ¬ IsSmall d) {cs ds : List Char}
    (h : lower c ++ cs = lower d ++ ds) : c = d ∧ cs = ds := by
  rw [lower, lower_image_ascii hc, lower, lower_image_ascii hd] at h
  obtain ⟨hhead, htail⟩ := List.cons.inj h
  refine ⟨?_, htail⟩
  have hnat := congrArg Char.toNat hhead
  rw [toNat_ofNat_of_lt (by split <;> omega), toNat_ofNat_of_lt (by split <;> omega)] at hnat
  have hcd : c.toNat = d.toNat := by
    unfold IsSmall at hc' hd'
    split at hnat <;> split at hnat <;> omega
  rw [← Char.ofNat_toNat c, hcd, Char.ofNat_toNat]

end Ascii

end Text

namespace Java

theorem toList_className (ident : String) :
    (className ident).toList = (segments ident).flatMap Text.upperFirst := String.toList_ofList

-- A character that no other is mapped to stands in a class name only if the identifier has it.
theorem mem_of_mem_className {ident : String} {c : Char} (hc : ∀ d, c ∈ Text.upper d → c = d)
    (h : c ∈ (className ident).toList) : c ∈ ident.toList := by
  rw [toList_className] at h
  obtain ⟨segment, hsegment, hmem⟩ := List.mem_flatMap.mp h
  have hpiece := (List.mem_filter.mp hsegment).1
  refine Text.mem_of_mem_pieces hpiece ?_
  cases segment with
  | nil => simp [Text.upperFirst] at hmem
  | cons first rest =>
      rw [Text.upperFirst, List.mem_append] at hmem
      rcases hmem with hmem | hmem
      · exact hc first hmem ▸ List.mem_cons_self
      · exact List.mem_cons_of_mem _ hmem

-- A slash is kept.
theorem slash_mem_className_iff (ident : String) :
    '/' ∈ (className ident).toList ↔ '/' ∈ ident.toList := by
  constructor
  · exact mem_of_mem_className fun d h => eq_of_mem_upper h (by decide) (by decide)
  · intro h
    obtain ⟨piece, hpiece, hslash⟩ :=
      Text.exists_piece_of_mem h (show ¬ isDivider '/' by decide)
    have hne : piece ≠ [] := List.ne_nil_of_mem hslash
    rw [toList_className]
    refine List.mem_flatMap.mpr ⟨piece, List.mem_filter.mpr ⟨hpiece, by simpa using hne⟩, ?_⟩
    cases piece with
    | nil => exact absurd rfl hne
    | cons first rest =>
        rw [Text.upperFirst, List.mem_append]
        rcases List.mem_cons.mp hslash with rfl | hslash
        · refine .inl ?_
          rw [Text.upper, Text.upper_image_ascii (by decide)]
          decide
        · exact .inr hslash

theorem toList_lowerCamel (ident : String) :
    (lowerCamel ident).toList = Text.lowerFirst (className ident).toList := String.toList_ofList

theorem mem_of_mem_lowerCamel {ident : String} {c : Char} (hupper : ∀ d, c ∈ Text.upper d → c = d)
    (hlower : ∀ d, c ∈ Text.lower d → c = d) (h : c ∈ (lowerCamel ident).toList) :
    c ∈ ident.toList := by
  rw [toList_lowerCamel] at h
  refine mem_of_mem_className hupper ?_
  cases hname : (className ident).toList with
  | nil => simp [hname, Text.lowerFirst] at h
  | cons first rest =>
      rw [hname, Text.lowerFirst, List.mem_append] at h
      rcases h with h | h
      · exact hlower first h ▸ List.mem_cons_self
      · exact List.mem_cons_of_mem _ h

-- A class name starts with the upper case of something.
theorem head_className {ident : String} {c : Char} (h : (className ident).toList.head? = some c) :
    ∃ d, c ∈ Text.upper d := by
  rw [toList_className] at h
  cases hsegments : segments ident with
  | nil => simp [hsegments] at h
  | cons segment rest =>
      have hne : segment ≠ [] := by
        have hmem : segment ∈ segments ident := hsegments ▸ List.mem_cons_self
        simpa using (List.mem_filter.mp hmem).2
      obtain ⟨first, others, rfl⟩ := List.exists_cons_of_ne_nil hne
      refine ⟨first, List.mem_of_mem_head? ?_⟩
      rwa [hsegments, List.flatMap_cons, Text.upperFirst, List.append_assoc,
        List.head?_append_of_ne_nil _ (Text.upper_ne_nil first)] at h

theorem head_className_not_isSmall {ident : String} {c : Char}
    (h : (className ident).toList.head? = some c) : ¬ Text.IsSmall c := by
  obtain ⟨d, hd⟩ := head_className h
  exact Text.not_isSmall_of_mem_upper hd

theorem head_lowerCamel_not_isCapital {ident : String} {c : Char}
    (h : (lowerCamel ident).toList.head? = some c) : ¬ Text.IsCapital c := by
  rw [toList_lowerCamel] at h
  cases hname : (className ident).toList with
  | nil => simp [hname, Text.lowerFirst] at h
  | cons first rest =>
      rw [hname, Text.lowerFirst, List.head?_append_of_ne_nil _ (Text.lower_ne_nil first)] at h
      exact Text.not_isCapital_of_mem_lower (List.mem_of_mem_head? h)

-- An identifier of ASCII characters only.
def IsAscii (ident : String) : Prop := ∀ c ∈ ident.toList, c.toNat < 0x80

theorem isAscii_className {ident : String} (h : IsAscii ident) : IsAscii (className ident) := by
  intro c hc
  rw [toList_className] at hc
  obtain ⟨segment, hsegment, hc⟩ := List.mem_flatMap.mp hc
  have hpiece := (List.mem_filter.mp hsegment).1
  cases segment with
  | nil => simp [Text.upperFirst] at hc
  | cons first rest =>
      rw [Text.upperFirst, List.mem_append] at hc
      rcases hc with hc | hc
      · obtain ⟨d, hd, hascii⟩ :=
          Text.upper_of_ascii (h first (Text.mem_of_mem_pieces hpiece List.mem_cons_self))
        rw [hd, List.mem_singleton] at hc
        exact hc ▸ hascii
      · exact h c (Text.mem_of_mem_pieces hpiece (List.mem_cons_of_mem _ hc))

-- The case of the first letter is all that ASCII identifiers lose, and class names all have the
-- same.
theorem className_eq_of_lowerCamel_eq {a b : String} (ha : IsAscii a) (hb : IsAscii b)
    (h : lowerCamel a = lowerCamel b) : className a = className b := by
  have hlist := congrArg String.toList h
  rw [toList_lowerCamel, toList_lowerCamel] at hlist
  have hasciia := isAscii_className ha
  have hasciib := isAscii_className hb
  rw [← String.toList_inj]
  cases hca : (className a).toList with
  | nil =>
      cases hcb : (className b).toList with
      | nil => rfl
      | cons first rest => simp [hca, hcb, Text.lowerFirst, Text.lower_ne_nil] at hlist
  | cons first rest =>
      cases hcb : (className b).toList with
      | nil => simp [hca, hcb, Text.lowerFirst, Text.lower_ne_nil] at hlist
      | cons first' rest' =>
          rw [hca, hcb] at hlist
          obtain ⟨rfl, rfl⟩ := Text.eq_of_lower_append_eq
            (hasciia first (by simp [hca])) (hasciib first' (by simp [hcb]))
            (head_className_not_isSmall (by rw [hca]; rfl))
            (head_className_not_isSmall (by rw [hcb]; rfl)) hlist
          rfl

end Java

end YangBinding
