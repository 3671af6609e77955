import YangBinding.Proofs.Class.KeyAgreement
import YangBinding.Proofs.Java.Index
import Mathlib.Data.List.Infix

namespace YangBinding

open ClassTree (subtreesAll walkAll)

theorem repeated_subset_append (classes more : List ClassSpec) :
    repeated classes ⊆ repeated (classes ++ more) := by
  induction more using List.reverseRecOn with
  | nil => rw [List.append_nil]; exact List.Subset.refl _
  | append_singleton init c ih =>
      rw [← List.append_assoc, repeated_append_singleton]
      exact List.subset_append_of_subset_left _ ih

theorem mem_repeated {before : List ClassSpec} {c : ClassSpec}
    (h : c.name ∈ before.map ClassSpec.name) (after : List ClassSpec) :
    c ∈ repeated (before ++ c :: after) := by
  have hsplit : before ++ c :: after = (before ++ [c]) ++ after := by simp
  rw [hsplit]
  refine repeated_subset_append _ _ ?_
  rw [repeated_append_singleton, if_pos h]
  exact List.mem_append_right _ List.mem_cons_self

namespace Java

open IndexEntry

section Listing

-- The classes that an index comes to: those at the top, and those directly inside a class that
-- has an entry.
def Reached (tops entered : List ClassTree) (tree : ClassTree) : Prop :=
  tree ∈ tops ∨ ∃ outer ∈ entered, tree ∈ outer.children

theorem reached_cons_iff {first tree : ClassTree} {rest entered : List ClassTree} :
    Reached (first :: rest) entered tree ↔ tree = first ∨ Reached rest entered tree := by
  rw [Reached, Reached, List.mem_cons, or_assoc]

-- An entry opens the way to what is directly inside its class.
theorem reached_entered_iff {spec : ClassSpec} {tree : ClassTree}
    {children rest inside others : List ClassTree} :
    Reached rest (.mk spec children :: (inside ++ others)) tree ↔
      Reached children inside tree ∨ Reached rest others tree := by
  have hchildren : (ClassTree.mk spec children).children = children := rfl
  simp only [Reached, List.exists_mem_cons_iff, List.mem_append, or_and_right, exists_or, hchildren]
  simp only [or_assoc, or_left_comm]

-- A name is seen once a class of that name is reached, be it entered or not.
theorem exists_entered (seen : List String) (trees : List ClassTree) :
    ∃ entered : List ClassTree, entered.Sublist (subtreesAll trees) ∧
      (entered.map fun tree => tree.spec.name) = namesAll (indexClasses seen trees).2 ∧
      ∀ name, name ∈ (indexClasses seen trees).1 ↔
        name ∈ seen ∨ ∃ tree, Reached trees entered tree ∧ tree.spec.name = name := by
  induction trees using ClassTree.trees_induction generalizing seen with
  | nil => exact ⟨[], List.nil_sublist _, rfl, by simp [indexClasses, Reached]⟩
  | cons spec children rest ihc ihr =>
      have hself (name : String) : (ClassTree.mk spec children).spec.name = name ↔
          name = spec.name := eq_comm
      rw [subtreesAll, ClassTree.subtrees]
      by_cases h : spec.name ∈ seen
      · obtain ⟨entered, horder, hnames, hseen⟩ := ihr seen
        rw [indexClasses_cons_of_mem h]
        refine ⟨entered, horder.trans (List.sublist_append_right _ _), hnames, fun name => ?_⟩
        have habsorb : name ∈ seen ∨ name = spec.name ↔ name ∈ seen :=
          or_iff_left_of_imp fun heq => heq ▸ h
        simp only [hseen name, reached_cons_iff, or_and_right, exists_or, exists_eq_left, hself]
        rw [← or_assoc, habsorb]
      · obtain ⟨inside, hinside, hinner, hseen⟩ := ihc (spec.name :: seen)
        obtain ⟨others, hothers, hrest, hlast⟩ :=
          ihr (indexClasses (spec.name :: seen) children).1
        rw [indexClasses_cons_of_notMem h]
        refine ⟨.mk spec children :: (inside ++ others), ?_, ?_, fun name => ?_⟩
        · exact (hinside.cons_cons _).append hothers
        · rw [List.map_cons, List.map_append, hinner, hrest]
          rfl
        · simp only [hlast, hseen, reached_cons_iff, reached_entered_iff, or_and_right, exists_or,
            exists_eq_left, List.mem_cons, hself]
          simp only [or_assoc, or_left_comm]

theorem indexClasses_seen_subset {before : List ClassSpec} {seen : List String}
    (hseen : seen ⊆ before.map ClassSpec.name) (trees : List ClassTree) :
    (indexClasses seen trees).1 ⊆ (before ++ walkAll trees).map ClassSpec.name := by
  rw [indexClasses_seen, List.map_append]
  intro name hname
  rcases List.mem_append.mp hname with hname | hname
  · have hlisted := (indexClasses_names_sublist seen trees).subset (List.mem_reverse.mp hname)
    exact List.mem_append_right _ hlisted
  · exact List.mem_append_left _ (hseen hname)

-- Where a class is not listed, one around it bears the name of an earlier class.
theorem listed_or_inside_repeated {before : List ClassSpec} {seen : List String}
    (hseen : seen ⊆ before.map ClassSpec.name) {trees : List ClassTree} {tree : ClassTree}
    (h : tree ∈ subtreesAll trees) :
    tree.spec.name ∈ (indexClasses seen trees).1 ∨
      ∃ outer ∈ subtreesAll trees, tree ∈ subtreesAll outer.children ∧
        outer.spec ∈ repeated (before ++ walkAll trees) := by
  induction trees using ClassTree.trees_induction generalizing before seen with
  | nil => simp [subtreesAll] at h
  | cons spec children rest ihc ihr =>
      have hwalk : before ++ walkAll (.mk spec children :: rest) =
          (before ++ [spec] ++ walkAll children) ++ walkAll rest := by
        simp [walkAll, ClassTree.walk]
      have hmine : subtreesAll (.mk spec children :: rest) =
          .mk spec children :: (subtreesAll children ++ subtreesAll rest) := by
        rw [subtreesAll, ClassTree.subtrees, List.cons_append]
      rw [hwalk]
      rw [hmine] at h ⊢
      have hnames : before.map ClassSpec.name ⊆
          (before ++ [spec] ++ walkAll children).map ClassSpec.name := by simp
      rcases List.mem_cons.mp h with rfl | h
      · exact .inl (name_mem_indexClasses_seen seen List.mem_cons_self)
      by_cases hs : spec.name ∈ seen
      · rw [indexClasses_cons_of_mem hs]
        rcases List.mem_append.mp h with h | h
        · -- The class is left out with all that is inside it.
          refine .inr ⟨_, List.mem_cons_self, h, repeated_subset_append _ _ ?_⟩
          rw [List.append_assoc]
          exact mem_repeated (hseen hs) _
        · rcases ihr (List.Subset.trans hseen hnames) h with hlisted | ⟨outer, ho, hin, hrepeat⟩
          · exact .inl hlisted
          · exact .inr ⟨outer, List.mem_cons_of_mem _ (List.mem_append_right _ ho), hin, hrepeat⟩
      · have hinner : spec.name :: seen ⊆ (before ++ [spec]).map ClassSpec.name := by
          rw [List.map_append, List.cons_subset]
          exact ⟨by simp, List.subset_append_of_subset_left _ hseen⟩
        rw [indexClasses_cons_of_notMem hs]
        rcases List.mem_append.mp h with h | h
        · rcases ihc hinner h with hlisted | ⟨outer, ho, hin, hrepeat⟩
          · exact .inl (subset_indexClasses_seen _ _ hlisted)
          · exact .inr ⟨outer, List.mem_cons_of_mem _ (List.mem_append_left _ ho), hin,
              repeated_subset_append _ _ hrepeat⟩
        · rcases ihr (indexClasses_seen_subset hinner children) h with
            hlisted | ⟨outer, ho, hin, hrepeat⟩
          · exact .inl hlisted
          · exact .inr ⟨outer, List.mem_cons_of_mem _ (List.mem_append_right _ ho), hin, hrepeat⟩

end Listing

section Text

@[elab_as_elim]
theorem IndexEntry.entries_induction {motive : List IndexEntry → Prop} (nil : motive [])
    (cons : ∀ name children rest, motive children → motive rest →
      motive (.mk name children :: rest)) (entries : List IndexEntry) : motive entries :=
  @IndexEntry.rec_1 (fun entry => ∀ rest, motive rest → motive (entry :: rest)) motive
    (fun _ _ hchildren _ hrest => cons _ _ _ hchildren hrest) nil
    (fun _ rest hentry hrest => hentry rest hrest) entries

-- A text that holds another one somewhere.
def Shows (text part : String) : Prop := part.toList <:+: text.toList

theorem shows_append (before part after : String) : Shows (before ++ part ++ after) part := by
  rw [Shows, String.toList_append, String.toList_append]
  exact List.infix_append _ _ _

theorem shows_joinLines {lines : List String} {line part : String} (hline : line ∈ lines)
    (h : Shows line part) : Shows (joinLines lines) part := by
  have hended : Shows (line ++ "\n") part := by
    rw [Shows, String.toList_append]
    exact h.trans (List.prefix_append _ _).isInfix
  have hmem : (line ++ "\n").toList ∈ (lines.map (· ++ "\n")).map String.toList :=
    List.mem_map_of_mem (List.mem_map_of_mem hline)
  rw [Shows, joinLines, String.toList_join, List.flatMap_def]
  exact hended.trans (List.infix_of_mem_flatten hmem)

theorem shows_commentLine {line part : String} (h : Shows line part) :
    Shows (commentLine line) part := by
  unfold commentLine
  split
  · rename_i hempty
    rw [Shows, String.isEmpty_iff.mp hempty] at h
    rw [Shows, List.infix_nil.mp h]
    exact List.nil_infix
  · rw [Shows, String.toList_append]
    exact h.trans (List.suffix_append _ _).isInfix

theorem exists_own_link_line (depth : Nat) (name : String) (children : List IndexEntry) :
    ∃ line ∈ entryLines depth (.mk name children), Shows line (link name) := by
  cases children with
  | nil =>
      rw [entryLines]
      exact ⟨_, List.mem_cons_self, shows_append _ _ _⟩
  | cons child more =>
      rw [entryLines]
      refine ⟨_, List.mem_append_left _ (List.mem_append_left _ List.mem_cons_self), ?_⟩
      rw [Shows, String.toList_append]
      exact (List.suffix_append _ _).isInfix

theorem exists_link_line (depth : Nat) {entries : List IndexEntry} {name : String}
    (h : name ∈ namesAll entries) : ∃ line ∈ entriesLines depth entries, Shows line (link name) := by
  induction entries using IndexEntry.entries_induction generalizing depth with
  | nil => simp [namesAll] at h
  | cons className children rest ihc ihr =>
      rw [namesAll, names, List.cons_append, List.mem_cons, List.mem_append] at h
      rw [entriesLines]
      rcases h with rfl | h | h
      · obtain ⟨line, hline, hlink⟩ := exists_own_link_line depth name children
        exact ⟨line, List.mem_append_left _ hline, hlink⟩
      · obtain ⟨line, hline, hlink⟩ := ihc (depth + 1) h
        refine ⟨line, List.mem_append_left _ ?_, hlink⟩
        cases children with
        | nil => simp [namesAll] at h
        | cons child more =>
            rw [entryLines]
            simp only [List.mem_append]
            exact .inl (.inr (.inl (.inr hline)))
      · obtain ⟨line, hline, hlink⟩ := ihr depth h
        exact ⟨line, List.mem_append_right _ hline, hlink⟩

theorem packageInfo_shows_link {modules : List ModuleModel} {name : String}
    (h : name ∈ namesAll (index (modules.map ModuleModel.root))) (package : String) :
    Shows (packageInfo package modules) (link name) := by
  obtain ⟨line, hline, hlink⟩ := exists_link_line 0 h
  have hlist : line ∈ htmlList 0 (index (modules.map ModuleModel.root)) :=
    List.mem_append_left _ (List.mem_append_right _ hline)
  have hcomment : line ∈ packageComment modules := List.mem_append_right _ hlist
  refine shows_joinLines ?_ (shows_commentLine hlink)
  simp only [List.mem_append]
  exact .inl (.inl (.inl (.inr (List.mem_map_of_mem hcomment))))

end Text

end Java

-- What the documentation of a package says about the classes of a compilation.
structure LinksClasses (compilation : Compilation) (roots : List ClassTree) (listed : List String) :
    Prop where
  walks : (subtreesAll roots).map ClassTree.spec = compilation.classes
  -- Only what is inside a class that was reported can be left out.
  listed_or_inside : ∀ tree ∈ subtreesAll roots, tree.spec.name ∈ listed ∨
    ∃ outer ∈ subtreesAll roots, tree ∈ subtreesAll outer.children ∧
      ⟨outer.spec.path, .duplicateClassName outer.spec.name⟩ ∈ compilation.diagnostics
  -- Of the classes of one name that are reached, exactly one has an entry.
  entered : listed.Nodup ∧ ∃ entered : List ClassTree, entered.Sublist (subtreesAll roots) ∧
    (entered.map fun tree => tree.spec.name) = listed ∧
    ∀ name, name ∈ listed ↔ ∃ tree, Java.Reached roots entered tree ∧ tree.spec.name = name
  linked : ∀ name ∈ listed, ∀ package,
    Java.Shows (Java.packageInfo package (compilation.modules.map CompiledModule.model))
      (Java.link name)

theorem package_links_reached_classes (forest : Forest) (withSchema : Bool)
    (compilation : Compilation) (h : forest.compile withSchema = .ok compilation) :
    LinksClasses compilation (compilation.modules.map fun m => m.model.root)
      (Java.IndexEntry.namesAll (Java.index (compilation.modules.map fun m => m.model.root))) := by
  have hclasses : compilation.classes =
      walkAll (compilation.modules.map fun m => m.model.root) := by
    rw [Compilation.classes, ClassTree.walkAll_eq_flatMap, List.flatMap_map]
  have hseen (name : String) :
      name ∈ (Java.indexClasses [] (compilation.modules.map fun m => m.model.root)).1 ↔
        name ∈ Java.IndexEntry.namesAll
          (Java.index (compilation.modules.map fun m => m.model.root)) := by
    rw [Java.indexClasses_seen, List.append_nil, List.mem_reverse, Java.index]
  refine ⟨?_, fun tree htree => ?_, ⟨(Java.faithfulIndex _).names_nodup, ?_⟩, ?_⟩
  · rw [hclasses, ClassTree.walkAll_eq_map_subtreesAll]
  · have hnone : ([] : List String) ⊆ ([] : List ClassSpec).map ClassSpec.name :=
      List.nil_subset _
    have hlisted := Java.listed_or_inside_repeated hnone htree
    rw [hseen, List.nil_append, ← hclasses] at hlisted
    rcases hlisted with hlisted | ⟨outer, houter, hinside, hrepeated⟩
    · exact .inl hlisted
    · have hnotice : outer.spec.repeatNotice ∈ compilation.diagnostics := by
        refine List.mem_of_mem_filter (p := fun d => d.remark.kind = .duplicateClassName) ?_
        rw [Forest.repeats_told h]
        exact List.mem_map_of_mem hrepeated
      exact .inr ⟨outer, houter, hinside, hnotice⟩
  · obtain ⟨entered, horder, hnames, hreached⟩ :=
      Java.exists_entered [] (compilation.modules.map fun m => m.model.root)
    refine ⟨entered, horder, hnames, fun name => ?_⟩
    rw [← hseen, hreached]
    simp
  · intro name hname package
    refine Java.packageInfo_shows_link ?_ package
    rw [List.map_map]
    exact hname

-- The class of `x` is inside the second class called `A`.
def nestedTwin : Statement :=
  .mk .module "m" [.mk .namespaceUri "urn:m" [], .mk .modulePrefix "p" [], .mk .container "a" [],
    .mk .container "b" [.mk .container "a" [.mk .container "x" []]]]

theorem package_links_classes_of_nestedTwin :
    ∃ compilation, Forest.compile [nestedTwin] true = .ok compilation ∧
      compilation.classes.map ClassSpec.path = ["/", "/a/", "/b/", "/b/a/", "/b/a/x/"] ∧
      LinksClasses compilation (compilation.modules.map fun m => m.model.root)
        (Java.IndexEntry.namesAll (Java.index (compilation.modules.map fun m => m.model.root))) := by
  have h : Forest.compile [nestedTwin] true = .ok _ := rfl
  exact ⟨_, h, by decide +kernel, package_links_reached_classes _ _ _ h⟩

theorem class_inside_repeat_not_listed :
    ∃ compilation, Forest.compile [nestedTwin] false = .ok compilation ∧
      "X" ∈ compilation.classes.map ClassSpec.name ∧
      "X" ∉ Java.IndexEntry.namesAll
        (Java.index (compilation.modules.map fun m => m.model.root)) := by
  have h : Forest.compile [nestedTwin] false = .ok _ := rfl
  exact ⟨_, h, by decide +kernel, by decide +kernel⟩

end YangBinding
