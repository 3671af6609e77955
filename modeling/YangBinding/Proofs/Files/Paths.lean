import YangBinding.Artifacts
import YangBinding.Proofs.Files.Filing
import YangBinding.Proofs.Pieces

namespace YangBinding

namespace Files

theorem slashed_cons {piece : List Char} {pieces : List (List Char)} (h : pieces ≠ []) :
    slashed (piece :: pieces) = piece ++ '/' :: slashed pieces := by
  obtain ⟨next, rest, rfl⟩ := List.exists_cons_of_ne_nil h
  rw [slashed, List.intercalate_cons_cons, List.append_assoc, List.singleton_append, slashed]

theorem slashed_append {before after : List (List Char)} (hbefore : before ≠ [])
    (hafter : after ≠ []) :
    slashed (before ++ after) = slashed before ++ '/' :: slashed after := by
  induction before with
  | nil => exact absurd rfl hbefore
  | cons piece before ih =>
      cases before with
      | nil =>
          rw [List.singleton_append, slashed_cons hafter, slashed.eq_def [piece],
            List.intercalate_singleton]
      | cons next before =>
          have hne : next :: before ≠ [] := List.cons_ne_nil _ _
          rw [List.cons_append, slashed_cons (by simp), ih hne, slashed_cons hne,
            List.append_assoc, List.cons_append]

-- Cutting a text at its slashes and joining the pieces again gives the text.
theorem slashed_pieces (cs : List Char) : slashed (Text.pieces isSlash cs) = cs :=
  Text.intercalate_pieces '/' cs

-- A text can be cut where a component ends.
def Divides (before after : List Char) : Prop :=
  before = [] ∨ before.getLast? = some '/' ∨ after = [] ∨ after.head? = some '/'

-- `upper` is a path on the way along `path`, or all of it.
def Above (upper path : String) : Prop :=
  ∃ rest, path.toList = upper.toList ++ rest ∧ Divides upper.toList rest

namespace Above

variable {upper middle path : String}

theorem refl (path : String) : Above path path :=
  ⟨[], by simp, .inr (.inr (.inl rfl))⟩

theorem isPrefix (h : Above upper path) : upper.toList <+: path.toList := by
  obtain ⟨rest, heq, -⟩ := h
  exact ⟨rest, heq.symm⟩

-- Of two texts on the way, the shorter one is on the way to the longer one.
theorem of_isPrefix (h : Above upper path) (hupper : upper.toList <+: middle.toList)
    (hmiddle : middle.toList <+: path.toList) : Above upper middle := by
  obtain ⟨rest, hrest, hdivides⟩ := h
  obtain ⟨step, hstep⟩ := hupper
  obtain ⟨more, hmore⟩ := hmiddle
  have hsplit : rest = step ++ more := by
    rw [← hstep, List.append_assoc] at hmore
    exact (List.append_cancel_left (hmore.trans hrest)).symm
  refine ⟨step, hstep.symm, ?_⟩
  rcases hdivides with hempty | hslash | hnil | hhead
  · exact .inl hempty
  · exact .inr (.inl hslash)
  · rw [hsplit, List.append_eq_nil_iff] at hnil
    exact .inr (.inr (.inl hnil.1))
  · cases step with
    | nil => exact .inr (.inr (.inl rfl))
    | cons c step =>
        rw [hsplit, List.cons_append] at hhead
        exact .inr (.inr (.inr hhead))

theorem total (hupper : Above upper path) (hmiddle : Above middle path) :
    Above upper middle ∨ Above middle upper := by
  rcases List.prefix_or_prefix_of_prefix hupper.isPrefix hmiddle.isPrefix with h | h
  · exact .inl (hupper.of_isPrefix h hmiddle.isPrefix)
  · exact .inr (hmiddle.of_isPrefix h hupper.isPrefix)

theorem trans (hupper : Above upper middle) (hmiddle : Above middle path) : Above upper path := by
  obtain ⟨step, hstep, hdivides⟩ := hupper
  obtain ⟨rest, hrest, hrest'⟩ := hmiddle
  refine ⟨step ++ rest, by rw [hrest, hstep, List.append_assoc], ?_⟩
  rcases hdivides with hempty | hslash | rfl | hhead
  · exact .inl hempty
  · exact .inr (.inl hslash)
  · rw [List.append_nil] at hstep
    rwa [List.nil_append, ← hstep]
  · exact .inr (.inr (.inr (by simp [List.head?_append, hhead])))

end Above

theorem splitLead_append (path : List Char) : (splitLead path).1 ++ (splitLead path).2 = path := by
  unfold splitLead
  split <;> rfl

theorem splitLead_divides (path : List Char) : Divides (splitLead path).1 (splitLead path).2 := by
  unfold splitLead
  split <;> simp [Divides]

theorem trimPieces_isPrefix (pieces : List (List Char)) : trimPieces pieces <+: pieces := by
  rw [trimPieces, ← List.reverse_suffix, List.reverse_reverse]
  exact List.dropWhile_suffix _

-- The parent is a shorter path on the way.
theorem above_of_parent? {path parent : String} (h : parent? path = some parent) :
    Above parent path := by
  unfold parent? at h
  have hpath := splitLead_append path.toList
  have hlead := splitLead_divides path.toList
  generalize splitLead path.toList = parts at h hpath hlead
  obtain ⟨lead, rest⟩ := parts
  dsimp only at h hpath hlead
  split at h
  · split at h
    · obtain rfl := Option.some.inj h
      exact ⟨path.toList, rfl, .inl rfl⟩
    · simp at h
  · rename_i last before heq
    obtain rfl := Option.some.inj h
    obtain ⟨dropped, hdropped⟩ := trimPieces_isPrefix (Text.pieces isSlash rest)
    rw [List.reverse_eq_cons_iff] at heq
    obtain ⟨inner, hinner⟩ := trimPieces_isPrefix before.reverse
    have hpieces : Text.pieces isSlash rest =
        trimPieces before.reverse ++ (inner ++ last :: dropped) := by
      rw [← hdropped, heq, ← List.append_assoc, hinner, List.append_assoc, List.singleton_append]
    have hrest := slashed_pieces rest
    rw [hpieces] at hrest
    unfold Above
    rw [String.toList_ofList, ← hpath]
    cases hkept : trimPieces before.reverse with
    | nil => exact ⟨rest, by simp [slashed], by simpa [slashed] using hlead⟩
    | cons piece kept =>
        rw [hkept, slashed_append (by simp) (by simp)] at hrest
        exact ⟨_, by rw [← hrest, List.append_assoc], .inr (.inr (.inr rfl))⟩

theorem ancestors_eq_cons (path : String) : ∃ above, ancestors path = path :: above := by
  unfold ancestors
  cases path.length with
  | zero => exact ⟨[], rfl⟩
  | succ fuel =>
      rw [ancestorsFrom]
      split
      · exact ⟨_, rfl⟩
      · exact ⟨[], rfl⟩

theorem above_of_mem_ancestors {path upper : String} (h : upper ∈ ancestors path) :
    Above upper path := by
  suffices hfrom : ∀ fuel path, upper ∈ ancestorsFrom fuel path → Above upper path from hfrom _ _ h
  intro fuel
  induction fuel with
  | zero =>
      intro path h
      rw [ancestorsFrom, List.mem_singleton] at h
      exact h ▸ .refl _
  | succ fuel ih =>
      intro path h
      rw [ancestorsFrom] at h
      split at h
      · rename_i parent hparent
        rcases List.mem_cons.mp h with rfl | h
        · exact .refl _
        · exact (ih parent h).trans (above_of_parent? hparent)
      · rw [List.mem_singleton] at h
        exact h ▸ .refl _

theorem Above.start_eq {upper path : String} (h : Above upper path) (hne : upper ≠ "")
    (cwd : Location) : Volume.start cwd path = Volume.start cwd upper := by
  obtain ⟨rest, heq, -⟩ := h
  have hnil : upper.toList ≠ [] := by simpa using hne
  rw [Volume.start, Volume.start, heq, List.head?_append_of_ne_nil _ hnil]

theorem pathNames_append_slash (before after : List Char) :
    pathNames (before ++ '/' :: after) = pathNames before ++ pathNames after := by
  simp [pathNames, Text.pieces_append_cons (show isSlash '/' from rfl)]

theorem pathNames_append {before after : List Char} (h : Divides before after) :
    pathNames (before ++ after) = pathNames before ++ pathNames after := by
  rcases h with rfl | hslash | rfl | hhead
  · rfl
  · obtain ⟨start, rfl⟩ := List.getLast?_eq_some_iff.mp hslash
    rw [List.append_assoc, List.singleton_append, pathNames_append_slash, pathNames_append_slash]
    simp [pathNames, Text.pieces]
  · simp [pathNames, Text.pieces]
  · obtain ⟨rest, rfl⟩ := List.head?_eq_some_iff.mp hhead
    rw [pathNames_append_slash, ← List.nil_append ('/' :: rest), pathNames_append_slash]
    simp [pathNames, Text.pieces]

-- A text without slashes is a single name.
theorem pathNames_of_forall_ne {text : List Char} (hne : text ≠ []) (h : '/' ∉ text) :
    pathNames text = [String.ofList text] := by
  have hpieces : Text.pieces isSlash text = [text] :=
    Text.pieces_of_forall_not fun c hc hslash => h (eq_of_beq hslash ▸ hc)
  simp [pathNames, hpieces, hne]

theorem Above.exists_names {upper path : String} (h : Above upper path) :
    ∃ rest, path.toList = upper.toList ++ rest ∧
      pathNames path.toList = pathNames upper.toList ++ pathNames rest := by
  obtain ⟨rest, heq, hdivides⟩ := h
  exact ⟨rest, heq, by rw [heq, pathNames_append hdivides]⟩

section Joining

variable {base piece : String}

theorem join_of_absolute (h : piece.toList.head? = some '/') : join base piece = piece := by
  rw [join, if_pos (by simp [h])]

-- A relative piece is written behind a text that depends on the base only. That text is empty or
-- ends in a slash.
theorem join_relative (base : String) : ∃ lead : String,
    (lead = "" ∨ lead.toList.getLast? = some '/') ∧
      ∀ piece : String, piece.toList.head? ≠ some '/' → join base piece = lead ++ piece := by
  by_cases hend : base.isEmpty || base.toList.getLast? == some '/'
  · refine ⟨base, ?_, fun piece h => by rw [join, if_neg (by simpa using h), if_pos hend]⟩
    rcases Bool.or_eq_true_iff.mp hend with hempty | hslash
    · exact .inl (by simpa using hempty)
    · exact .inr (eq_of_beq hslash)
  · exact ⟨base ++ "/", .inr (by simp [String.toList_append]),
      fun piece h => by rw [join, if_neg (by simpa using h), if_neg hend]⟩

-- What comes between a path and a piece that is joined to it is nothing or a slash.
theorem toList_join (h : piece.toList.head? ≠ some '/') :
    ∃ gap, (join base piece).toList = base.toList ++ gap ∧ Divides base.toList gap ∧
      pathNames gap = pathNames piece.toList := by
  unfold join
  rw [if_neg (by simpa using h)]
  split
  · rename_i hend
    refine ⟨piece.toList, String.toList_append, ?_, rfl⟩
    rcases Bool.or_eq_true_iff.mp hend with hempty | hslash
    · exact .inl (by simpa using hempty)
    · exact .inr (.inl (eq_of_beq hslash))
  · refine ⟨'/' :: piece.toList, by simp [String.toList_append], .inr (.inr (.inr rfl)), ?_⟩
    simpa [pathNames, Text.pieces] using pathNames_append_slash [] piece.toList

theorem above_join (h : piece.toList.head? ≠ some '/') : Above base (join base piece) := by
  obtain ⟨gap, heq, hdivides, -⟩ := toList_join h
  exact ⟨gap, heq, hdivides⟩

theorem pathNames_join (h : piece.toList.head? ≠ some '/') :
    pathNames (join base piece).toList = pathNames base.toList ++ pathNames piece.toList := by
  obtain ⟨gap, heq, hdivides, hnames⟩ := toList_join h
  rw [heq, pathNames_append hdivides, hnames]

theorem start_join (h : piece.toList.head? ≠ some '/') (cwd : Location) :
    Volume.start cwd (join base piece) = Volume.start cwd base := by
  by_cases hbase : base = ""
  · subst hbase
    have hpiece : join "" piece = piece := by
      rw [join, if_neg (by simpa using h), if_pos (by simp), String.empty_append]
    rw [hpiece, Volume.start, if_neg h]
    rfl
  · exact (above_join h).start_eq hbase cwd

-- Names other than the two for staying and going up lead further down.
theorem foldl_step_of_plain {names : List String} (h : ∀ name ∈ names, name ≠ "." ∧ name ≠ "..")
    (here : Location) : names.foldl Volume.step here = here ++ names := by
  induction names generalizing here with
  | nil => rw [List.foldl_nil, List.append_nil]
  | cons name names ih =>
      obtain ⟨⟨hhere, hup⟩, hnames⟩ := List.forall_mem_cons.mp h
      rw [List.foldl_cons, Volume.step, if_neg hhere, if_neg hup, ih hnames, List.append_assoc,
        List.singleton_append]

theorem locate_join (h : piece.toList.head? ≠ some '/')
    (hplain : ∀ name ∈ pathNames piece.toList, name ≠ "." ∧ name ≠ "..") (cwd : Location) :
    Volume.locate cwd (join base piece) = Volume.locate cwd base ++ pathNames piece.toList := by
  rw [Volume.locate, pathNames_join h, start_join h, List.foldl_append,
    foldl_step_of_plain hplain, Volume.locate]

end Joining

end Files

open Files

theorem Java.isNamePart_of_mem_segment {segment : List Char} (h : isPackageSegment segment)
    {c : Char} (hc : c ∈ segment) : isNamePart c := by
  cases segment with
  | nil => simp at hc
  | cons first rest =>
      simp only [isPackageSegment, Bool.and_eq_true, List.all_eq_true] at h
      rcases List.mem_cons.mp hc with rfl | hc
      · simp [isNamePart, h.1]
      · exact h.2 c hc

theorem Java.of_isPackageSegment {segment : List Char} (h : isPackageSegment segment) :
    segment ≠ [] ∧ '/' ∉ segment ∧ '.' ∉ segment := by
  refine ⟨?_, fun hc => absurd (isNamePart_of_mem_segment h hc) (by decide),
    fun hc => absurd (isNamePart_of_mem_segment h hc) (by decide)⟩
  rintro rfl
  simp [isPackageSegment] at h

-- The directory of a package lies below the root, by the segments of its name.
theorem OutputPlan.packageDir_below (plan : OutputPlan) (h : Java.isPackageName plan.package) :
    Above plan.root plan.packageDir ∧
      (∀ cwd, Volume.start cwd plan.packageDir = Volume.start cwd plan.root) ∧
      pathNames plan.packageDir.toList =
        pathNames plan.root.toList ++ (Java.packageSegments plan.package).map String.ofList := by
  have hsegments : ∀ segment ∈ Java.packageSegments plan.package,
      segment ≠ [] ∧ '/' ∉ segment := fun segment hs =>
    have hplain := Java.of_isPackageSegment (List.all_eq_true.mp h segment hs)
    ⟨hplain.1, hplain.2.1⟩
  unfold packageDir
  generalize plan.root = root
  generalize Java.packageSegments plan.package = segments at hsegments ⊢
  induction segments generalizing root with
  | nil => exact ⟨.refl root, fun _ => rfl, by simp⟩
  | cons segment rest ih =>
      obtain ⟨⟨hne, hslash⟩, hrest⟩ := List.forall_mem_cons.mp hsegments
      have hhead : (String.ofList segment).toList.head? ≠ some '/' := by
        rw [String.toList_ofList]
        exact fun hfirst => hslash (List.mem_of_mem_head? hfirst)
      obtain ⟨habove, hstart, hnames⟩ := ih (join root (String.ofList segment)) hrest
      refine ⟨(above_join hhead).trans habove, fun cwd => ?_, ?_⟩
      · rw [List.foldl_cons, hstart, start_join hhead]
      · rw [List.foldl_cons, hnames, pathNames_join hhead, String.toList_ofList,
          pathNames_of_forall_ne hne hslash, List.map_cons, List.append_assoc,
          List.singleton_append]

end YangBinding
