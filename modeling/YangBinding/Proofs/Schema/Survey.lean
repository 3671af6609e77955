import YangBinding.Proofs.Route
import YangBinding.Schema.Table

namespace YangBinding

namespace SchemaTable

def paths (table : SchemaTable) : List String := table.records.map SchemaRecord.tagPath

theorem get?_isSome_iff (table : SchemaTable) (path : String) :
    (table.get? path).isSome ↔ path ∈ table.paths := by
  simp [get?, paths, List.find?_isSome]

theorem get?_of_mem {table : SchemaTable} (hn : table.paths.Nodup) {record : SchemaRecord}
    (h : record ∈ table.records) : table.get? record.tagPath = some record := by
  have hsome := (table.get?_isSome_iff record.tagPath).mpr (List.mem_map_of_mem h)
  obtain ⟨found, hfound⟩ := Option.isSome_iff_exists.mp hsome
  have hpath : found.tagPath = record.tagPath := by simpa using List.find?_some hfound
  rw [hfound, List.inj_on_of_nodup_map hn (List.mem_of_find?_eq_some hfound) h hpath]

theorem insert?_of_mem {table : SchemaTable} {record : SchemaRecord}
    (h : record.tagPath ∈ table.paths) : table.insert? record = none := by
  rw [insert?, if_pos ((table.get?_isSome_iff _).mpr h)]

theorem insert?_of_notMem {table : SchemaTable} {record : SchemaRecord}
    (h : record.tagPath ∉ table.paths) :
    table.insert? record = some ⟨table.records ++ [record]⟩ := by
  rw [insert?, if_neg (fun hs => h ((table.get?_isSome_iff _).mp hs))]

end SchemaTable

namespace Route

-- Something around the statement was refused.
def Hidden (refused : List Route) (route : Route) : Prop :=
  ∃ outer ∈ refused, outer <:+ route ∧ outer ≠ route

theorem hidden_cons_iff {refused : List Route} {s : Node} {around : Route} :
    Hidden refused (s :: around) ↔ ∃ outer ∈ refused, outer <:+ around := by
  constructor
  · rintro ⟨outer, ho, hs, hne⟩
    exact ⟨outer, ho, (List.suffix_cons_iff.mp hs).resolve_left hne⟩
  · rintro ⟨outer, ho, hs⟩
    refine ⟨outer, ho, hs.trans (List.suffix_cons _ _), ?_⟩
    rintro rfl
    exact Nat.not_succ_le_self _ hs.length_le

theorem Hidden.mono {refused more : List Route} {route : Route} (h : Hidden refused route)
    (hs : refused ⊆ more) : Hidden more route := by
  obtain ⟨outer, ho, hrest⟩ := h
  exact ⟨outer, hs ho, hrest⟩

theorem hidden_map_iff {change : Node → Node} (hinj : Function.Injective change)
    {refused : List Route} {route : Route} :
    Hidden (refused.map (List.map change)) (route.map change) ↔ Hidden refused route := by
  constructor
  · rintro ⟨_, hmem, hs, hne⟩
    obtain ⟨outer, ho, rfl⟩ := List.mem_map.mp hmem
    obtain ⟨other, hs, heq⟩ := List.suffix_map_iff.mp hs
    rw [← hinj.list_map heq] at hs
    exact ⟨outer, ho, hs, fun h => hne (h ▸ rfl)⟩
  · rintro ⟨outer, ho, hs, hne⟩
    exact ⟨outer.map change, List.mem_map_of_mem ho, hs.map change, fun h => hne (hinj.list_map h)⟩

end Route

-- How the routes `seen` so far were dealt with, each in turn: one below a refused route is hidden,
-- one whose tag path is taken is refused, and any other is drawn.
inductive Survey (base : String) : List Route → List Route → List Route → Prop
  | start : Survey base [] [] []
  | hide {seen drawn refused route} : Survey base seen drawn refused →
      Route.Hidden refused route → Survey base (seen ++ [route]) drawn refused
  | refuse {seen drawn refused route} : Survey base seen drawn refused →
      ¬ Route.Hidden refused route → Route.path base route ∈ drawn.map (Route.path base) →
      Survey base (seen ++ [route]) drawn (refused ++ [route])
  | draw {seen drawn refused route} : Survey base seen drawn refused →
      ¬ Route.Hidden refused route → Route.path base route ∉ drawn.map (Route.path base) →
      Survey base (seen ++ [route]) (drawn ++ [route]) refused

namespace Survey

variable {base : String} {seen drawn refused : List Route}

theorem drawn_sublist (h : Survey base seen drawn refused) : drawn.Sublist seen := by
  induction h with
  | start => exact List.Sublist.refl _
  | hide _ _ ih => exact ih.trans (List.sublist_append_left _ _)
  | refuse _ _ _ ih => exact ih.trans (List.sublist_append_left _ _)
  | draw _ _ _ ih => exact ih.append (List.Sublist.refl _)

theorem refused_sublist (h : Survey base seen drawn refused) : refused.Sublist seen := by
  induction h with
  | start => exact List.Sublist.refl _
  | hide _ _ ih => exact ih.trans (List.sublist_append_left _ _)
  | refuse _ _ _ ih => exact ih.append (List.Sublist.refl _)
  | draw _ _ _ ih => exact ih.trans (List.sublist_append_left _ _)

theorem paths_nodup (h : Survey base seen drawn refused) :
    (drawn.map (Route.path base)).Nodup := by
  induction h with
  | start => exact List.nodup_nil
  | hide _ _ ih => exact ih
  | refuse _ _ _ ih => exact ih
  | draw _ _ hfree ih =>
      rw [List.map_append]
      refine ih.append (List.nodup_singleton _) ?_
      simpa using hfree

theorem path_taken (h : Survey base seen drawn refused) {route : Route} (hr : route ∈ refused) :
    route.path base ∈ drawn.map (Route.path base) := by
  induction h with
  | start => simp at hr
  | hide _ _ ih => exact ih hr
  | refuse _ _ htaken ih =>
      rcases List.mem_append.mp hr with hr | hr
      · exact ih hr
      · rw [List.mem_singleton.mp hr]
        exact htaken
  | draw _ _ _ ih =>
      rw [List.map_append]
      exact List.mem_append_left _ (ih hr)

theorem settled (h : Survey base seen drawn refused) {route : Route} (hr : route ∈ seen) :
    route ∈ drawn ∨ route ∈ refused ∨ route.Hidden refused := by
  induction h with
  | start => simp at hr
  | hide _ hhidden ih =>
      rcases List.mem_append.mp hr with hr | hr
      · exact ih hr
      · rw [List.mem_singleton.mp hr]
        exact .inr (.inr hhidden)
  | refuse _ _ _ ih =>
      rcases List.mem_append.mp hr with hr | hr
      · rcases ih hr with hd | hf | hh
        · exact .inl hd
        · exact .inr (.inl (List.mem_append_left _ hf))
        · exact .inr (.inr (hh.mono (List.subset_append_left _ _)))
      · exact .inr (.inl (List.mem_append_right _ hr))
  | draw _ _ _ ih =>
      rcases List.mem_append.mp hr with hr | hr
      · rcases ih hr with hd | hf | hh
        · exact .inl (List.mem_append_left _ hd)
        · exact .inr (.inl hf)
        · exact .inr (.inr hh)
      · exact .inl (List.mem_append_right _ hr)

-- A route settled once stays so when none comes back to it or to what stands around it.
theorem not_hidden (h : Survey base seen drawn refused)
    (hp : seen.Pairwise fun earlier later => ¬ later <:+ earlier) {route : Route}
    (hr : route ∈ drawn ∨ route ∈ refused) : ¬ route.Hidden refused := by
  induction h with
  | start => simp at hr
  | hide _ _ ih => exact ih (List.pairwise_append.mp hp).1 hr
  | @refuse seen drawn refused last hs hshown _ ih =>
      obtain ⟨hp, -, hlast⟩ := List.pairwise_append.mp hp
      rintro ⟨outer, ho, hsuffix, hne⟩
      have hold (hr : route ∈ drawn ∨ route ∈ refused) : False := by
        rcases List.mem_append.mp ho with ho | ho
        · exact ih hp hr ⟨outer, ho, hsuffix, hne⟩
        · have hm : route ∈ seen :=
            hr.elim (fun h => hs.drawn_sublist.subset h) (fun h => hs.refused_sublist.subset h)
          exact hlast route hm outer ho hsuffix
      rcases hr with hr | hr
      · exact hold (.inl hr)
      rcases List.mem_append.mp hr with hr | hr
      · exact hold (.inr hr)
      · obtain rfl := List.mem_singleton.mp hr
        rcases List.mem_append.mp ho with ho | ho
        · exact hshown ⟨outer, ho, hsuffix, hne⟩
        · exact hne (List.mem_singleton.mp ho)
  | draw _ hshown _ ih =>
      obtain ⟨hp, -, -⟩ := List.pairwise_append.mp hp
      rcases hr with hr | hr
      · rcases List.mem_append.mp hr with hr | hr
        · exact ih hp (.inl hr)
        · rw [List.mem_singleton.mp hr]
          exact hshown
      · exact ih hp (.inr hr)

theorem drawn_disjoint_refused (h : Survey base seen drawn refused) (hn : seen.Nodup)
    {route : Route} (hd : route ∈ drawn) : route ∉ refused := by
  induction h with
  | start => simp at hd
  | hide _ _ ih => exact ih (List.nodup_append.mp hn).1 hd
  | refuse hs _ _ ih =>
      obtain ⟨hn, -, hlast⟩ := List.nodup_append.mp hn
      intro hr
      rcases List.mem_append.mp hr with hr | hr
      · exact ih hn hd hr
      · exact hlast _ (hs.drawn_sublist.subset hd) _ hr rfl
  | draw hs _ _ ih =>
      obtain ⟨hn, -, hlast⟩ := List.nodup_append.mp hn
      intro hr
      rcases List.mem_append.mp hd with hd | hd
      · exact ih hn hd hr
      · exact hlast _ (hs.refused_sublist.subset hr) _ hd rfl

-- What stands directly inside a drawn statement is drawn or refused itself.
theorem child_settled (h : Survey base seen drawn refused)
    (hp : seen.Pairwise fun earlier later => ¬ later <:+ earlier) (hn : seen.Nodup)
    {s : Node} {around : Route} (hd : around ∈ drawn) (hs : s :: around ∈ seen) :
    s :: around ∈ drawn ∨ s :: around ∈ refused := by
  rcases h.settled hs with hdrawn | hrefused | hhidden
  · exact .inl hdrawn
  · exact .inr hrefused
  · obtain ⟨outer, ho, hsuffix⟩ := Route.hidden_cons_iff.mp hhidden
    by_cases heq : outer = around
    · subst heq
      exact absurd ho (h.drawn_disjoint_refused hn hd)
    · exact absurd ⟨outer, ho, hsuffix, heq⟩ (h.not_hidden hp (.inl hd))

-- It has a record at its tag path, be it its own.
theorem child_path_taken (h : Survey base seen drawn refused)
    (hp : seen.Pairwise fun earlier later => ¬ later <:+ earlier) (hn : seen.Nodup)
    {s : Node} {around : Route} (hd : around ∈ drawn) (hs : s :: around ∈ seen) :
    Route.path base (s :: around) ∈ drawn.map (Route.path base) := by
  rcases h.child_settled hp hn hd hs with hdrawn | hrefused
  · exact List.mem_map_of_mem hdrawn
  · exact h.path_taken hrefused

-- How the last route was dealt with.
theorem of_append_singleton {route : Route} (h : Survey base (seen ++ [route]) drawn refused) :
    ∃ drawn' refused', Survey base seen drawn' refused' ∧
      (route.Hidden refused' ∧ drawn = drawn' ∧ refused = refused' ∨
      ¬ route.Hidden refused' ∧ route.path base ∈ drawn'.map (Route.path base) ∧
        drawn = drawn' ∧ refused = refused' ++ [route] ∨
      ¬ route.Hidden refused' ∧ route.path base ∉ drawn'.map (Route.path base) ∧
        drawn = drawn' ++ [route] ∧ refused = refused') := by
  generalize hall : seen ++ [route] = all at h
  cases h with
  | start => simp at hall
  | hide h hhidden =>
      obtain ⟨rfl, rfl⟩ := List.append_singleton_inj.mp hall
      exact ⟨_, _, h, .inl ⟨hhidden, rfl, rfl⟩⟩
  | refuse h hshown htaken =>
      obtain ⟨rfl, rfl⟩ := List.append_singleton_inj.mp hall
      exact ⟨_, _, h, .inr (.inl ⟨hshown, htaken, rfl, rfl⟩)⟩
  | draw h hshown hfree =>
      obtain ⟨rfl, rfl⟩ := List.append_singleton_inj.mp hall
      exact ⟨_, _, h, .inr (.inr ⟨hshown, hfree, rfl, rfl⟩)⟩

theorem unique {drawn' refused' : List Route} (h : Survey base seen drawn refused)
    (h' : Survey base seen drawn' refused') : drawn = drawn' ∧ refused = refused' := by
  induction h generalizing drawn' refused' with
  | start =>
      have hnil := h'.drawn_sublist
      have hnil' := h'.refused_sublist
      rw [List.sublist_nil] at hnil hnil'
      exact ⟨hnil.symm, hnil'.symm⟩
  | hide _ hhidden ih =>
      obtain ⟨_, _, h', hcases⟩ := h'.of_append_singleton
      obtain ⟨rfl, rfl⟩ := ih h'
      rcases hcases with ⟨-, hdrawn, hrefused⟩ | ⟨hshown, -⟩ | ⟨hshown, -⟩
      · exact ⟨hdrawn.symm, hrefused.symm⟩
      · exact absurd hhidden hshown
      · exact absurd hhidden hshown
  | refuse _ hshown htaken ih =>
      obtain ⟨_, _, h', hcases⟩ := h'.of_append_singleton
      obtain ⟨rfl, rfl⟩ := ih h'
      rcases hcases with ⟨hhidden, -⟩ | ⟨-, -, hdrawn, hrefused⟩ | ⟨-, hfree, -⟩
      · exact absurd hhidden hshown
      · exact ⟨hdrawn.symm, hrefused.symm⟩
      · exact absurd htaken hfree
  | draw _ hshown hfree ih =>
      obtain ⟨_, _, h', hcases⟩ := h'.of_append_singleton
      obtain ⟨rfl, rfl⟩ := ih h'
      rcases hcases with ⟨hhidden, -⟩ | ⟨-, htaken, -⟩ | ⟨-, -, hdrawn, hrefused⟩
      · exact absurd hhidden hshown
      · exact absurd htaken hfree
      · exact ⟨hdrawn.symm, hrefused.symm⟩

-- A survey sees no more of a node than its argument and which other nodes it differs from.
theorem map {change : Node → Node} (hinj : Function.Injective change)
    (harg : ∀ n, (change n).arg = n.arg) (h : Survey base seen drawn refused) :
    Survey base (seen.map (List.map change)) (drawn.map (List.map change))
      (refused.map (List.map change)) := by
  have htaken (route : Route) (drawn : List Route) :
      Route.path base (route.map change) ∈ (drawn.map (List.map change)).map (Route.path base) ↔
        route.path base ∈ drawn.map (Route.path base) := by
    rw [List.map_map]
    simp only [Function.comp_def, Route.path_map harg]
  induction h with
  | start => exact .start
  | hide _ hhidden ih =>
      rw [List.map_append]
      exact ih.hide ((Route.hidden_map_iff hinj).mpr hhidden)
  | refuse _ hshown hpath ih =>
      rw [List.map_append, List.map_append]
      exact ih.refuse (mt (Route.hidden_map_iff hinj).mp hshown) ((htaken _ _).mpr hpath)
  | draw _ hshown hpath ih =>
      rw [List.map_append, List.map_append]
      exact ih.draw (mt (Route.hidden_map_iff hinj).mp hshown) (mt (htaken _ _).mp hpath)

end Survey

end YangBinding
