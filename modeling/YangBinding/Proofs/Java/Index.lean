import YangBinding.Java.PackageInfo
import YangBinding.Proofs.Class.Repeats

namespace YangBinding

theorem ClassTree.walkAll_eq_flatMap (trees : List ClassTree) :
    walkAll trees = trees.flatMap walk := by
  induction trees with
  | nil => rfl
  | cons tree rest ih => rw [walkAll, ih, List.flatMap_cons]

-- The names of the classes of some trees, in the order of the walk.
def ClassTree.namesAll (trees : List ClassTree) : List String :=
  (walkAll trees).map ClassSpec.name

theorem ClassTree.namesAll_cons (spec : ClassSpec) (children rest : List ClassTree) :
    namesAll (.mk spec children :: rest) = spec.name :: (namesAll children ++ namesAll rest) := by
  rw [namesAll, walkAll, walk, List.map_append, List.map_cons]
  rfl

namespace Java

namespace IndexEntry

mutual

-- The names in an index, an outer one before those inside it.
def names : IndexEntry → List String
  | .mk className children => className :: namesAll children

def namesAll : List IndexEntry → List String
  | [] => []
  | entry :: rest => names entry ++ namesAll rest

end

mutual

-- The entry that shows a tree as it is.
def ofTree : ClassTree → IndexEntry
  | .mk spec children => .mk spec.name (ofTrees children)

def ofTrees : List ClassTree → List IndexEntry
  | [] => []
  | tree :: rest => ofTree tree :: ofTrees rest

end

-- An entry made for a class: it has its name, and inside it are entries made for some of the
-- classes inside, in order. Those left out have names that are listed.
inductive MadeFor (listed : List String) : ClassTree → IndexEntry → Prop
  | mk {spec : ClassSpec} {children kept : List ClassTree} {entries : List IndexEntry}
      (order : kept.Sublist children) (inside : List.Forall₂ (MadeFor listed) kept entries)
      (complete : ∀ child ∈ children, child.spec.name ∈ listed) :
      MadeFor listed (.mk spec children) (.mk spec.name entries)

end IndexEntry

open IndexEntry

theorem indexClasses_cons_of_mem {seen : List String} {spec : ClassSpec}
    {children rest : List ClassTree} (h : spec.name ∈ seen) :
    indexClasses seen (.mk spec children :: rest) = indexClasses seen rest := by
  rw [indexClasses, indexClass, if_pos (List.contains_iff_mem.mpr h)]
  rfl

theorem indexClasses_cons_of_notMem {seen : List String} {spec : ClassSpec}
    {children rest : List ClassTree} (h : spec.name ∉ seen) :
    indexClasses seen (.mk spec children :: rest) =
      let inner := indexClasses (spec.name :: seen) children
      let others := indexClasses inner.1 rest
      (others.1, .mk spec.name inner.2 :: others.2) := by
  rw [indexClasses, indexClass, if_neg fun hc => h (List.contains_iff_mem.mp hc)]
  rfl

-- What has been seen is what was seen before and what has been listed since, the last one first.
theorem indexClasses_seen (seen : List String) (trees : List ClassTree) :
    (indexClasses seen trees).1 = (namesAll (indexClasses seen trees).2).reverse ++ seen := by
  induction trees using ClassTree.trees_induction generalizing seen with
  | nil => rfl
  | cons spec children rest ihc ihr =>
      by_cases h : spec.name ∈ seen
      · rw [indexClasses_cons_of_mem h]
        exact ihr seen
      · rw [indexClasses_cons_of_notMem h]
        dsimp only
        rw [ihr, ihc]
        simp [namesAll, names]

theorem indexClasses_seen_nodup {seen : List String} (h : seen.Nodup) (trees : List ClassTree) :
    (indexClasses seen trees).1.Nodup := by
  induction trees using ClassTree.trees_induction generalizing seen with
  | nil => exact h
  | cons spec children rest ihc ihr =>
      by_cases hs : spec.name ∈ seen
      · rw [indexClasses_cons_of_mem hs]
        exact ihr h
      · rw [indexClasses_cons_of_notMem hs]
        exact ihr (ihc (List.nodup_cons.mpr ⟨hs, h⟩))

theorem indexClasses_names_sublist (seen : List String) (trees : List ClassTree) :
    (namesAll (indexClasses seen trees).2).Sublist (ClassTree.namesAll trees) := by
  induction trees using ClassTree.trees_induction generalizing seen with
  | nil => exact List.Sublist.refl _
  | cons spec children rest ihc ihr =>
      rw [ClassTree.namesAll_cons]
      by_cases h : spec.name ∈ seen
      · rw [indexClasses_cons_of_mem h]
        exact ((ihr seen).trans (List.sublist_append_right _ _)).cons _
      · rw [indexClasses_cons_of_notMem h]
        exact ((ihc _).append (ihr _)).cons_cons _

theorem subset_indexClasses_seen (seen : List String) (trees : List ClassTree) :
    seen ⊆ (indexClasses seen trees).1 := by
  rw [indexClasses_seen]
  exact List.subset_append_right _ _

theorem name_mem_indexClasses_seen (seen : List String) {trees : List ClassTree}
    {tree : ClassTree} (h : tree ∈ trees) : tree.spec.name ∈ (indexClasses seen trees).1 := by
  induction trees generalizing seen with
  | nil => simp at h
  | cons first rest ih =>
      obtain ⟨spec, children⟩ := first
      by_cases hs : spec.name ∈ seen
      · rw [indexClasses_cons_of_mem hs]
        rcases List.mem_cons.mp h with rfl | h
        · exact subset_indexClasses_seen _ _ hs
        · exact ih seen h
      · rw [indexClasses_cons_of_notMem hs]
        rcases List.mem_cons.mp h with rfl | h
        · refine subset_indexClasses_seen _ _ (subset_indexClasses_seen _ _ ?_)
          exact List.mem_cons_self
        · exact ih _ h

theorem indexClasses_madeFor (seen listed : List String) {trees : List ClassTree}
    (h : (indexClasses seen trees).1 ⊆ listed) :
    ∃ kept, kept.Sublist trees ∧
      List.Forall₂ (MadeFor listed) kept (indexClasses seen trees).2 := by
  induction trees using ClassTree.trees_induction generalizing seen with
  | nil => exact ⟨[], List.Sublist.refl _, .nil⟩
  | cons spec children rest ihc ihr =>
      by_cases hs : spec.name ∈ seen
      · rw [indexClasses_cons_of_mem hs] at h ⊢
        obtain ⟨kept, hkept, hmade⟩ := ihr seen h
        exact ⟨kept, hkept.cons _, hmade⟩
      · rw [indexClasses_cons_of_notMem hs] at h ⊢
        have hinner : (indexClasses (spec.name :: seen) children).1 ⊆ listed :=
          List.Subset.trans (subset_indexClasses_seen _ _) h
        obtain ⟨inside, hinside, hmade⟩ := ihc _ hinner
        obtain ⟨kept, hkept, hothers⟩ := ihr _ h
        refine ⟨.mk spec children :: kept, hkept.cons_cons _, .cons ?_ hothers⟩
        exact .mk hinside hmade fun child hc => hinner (name_mem_indexClasses_seen _ hc)

-- With no name twice, nothing is left out.
theorem indexClasses_of_nodup {seen : List String} {trees : List ClassTree}
    (hn : (ClassTree.namesAll trees).Nodup) (hd : (ClassTree.namesAll trees).Disjoint seen) :
    (indexClasses seen trees).2 = ofTrees trees := by
  induction trees using ClassTree.trees_induction generalizing seen with
  | nil => rfl
  | cons spec children rest ihc ihr =>
      rw [ClassTree.namesAll_cons, List.nodup_cons, List.nodup_append'] at hn
      rw [ClassTree.namesAll_cons, List.disjoint_cons_left, List.disjoint_append_left] at hd
      obtain ⟨hname, hchildren, hrest, hapart⟩ := hn
      obtain ⟨hseen, hdchildren, hdrest⟩ := hd
      obtain ⟨hnchildren, hnrest⟩ := not_or.mp (List.mem_append.not.mp hname)
      have hinner : (indexClasses (spec.name :: seen) children).2 = ofTrees children := by
        exact ihc hchildren (List.disjoint_cons_right.mpr ⟨hnchildren, hdchildren⟩)
      have hothers : (indexClasses (indexClasses (spec.name :: seen) children).1 rest).2 =
          ofTrees rest := by
        refine ihr hrest ?_
        have hlisted := indexClasses_names_sublist (spec.name :: seen) children
        rw [indexClasses_seen, List.disjoint_append_right, List.disjoint_cons_right]
        refine ⟨?_, hnrest, hdrest⟩
        intro name hr hl
        exact hapart (hlisted.subset (List.mem_reverse.mp hl)) hr
      rw [indexClasses_cons_of_notMem hseen]
      dsimp only
      rw [hinner, hothers, ofTrees, ofTree]

-- What an index tells about the classes it was made for.
structure FaithfulIndex (roots : List ClassTree) (entries : List IndexEntry) : Prop where
  names_nodup : (namesAll entries).Nodup
  names_sublist : (namesAll entries).Sublist ((ClassTree.walkAll roots).map ClassSpec.name)
  madeFor : ∃ kept, kept.Sublist roots ∧ List.Forall₂ (MadeFor (namesAll entries)) kept entries
  roots_listed : ∀ root ∈ roots, root.spec.name ∈ namesAll entries
  -- With no name twice, the index is the forest.
  whole : ((ClassTree.walkAll roots).map ClassSpec.name).Nodup → entries = ofTrees roots

theorem faithfulIndex (roots : List ClassTree) : FaithfulIndex roots (index roots) := by
  have hseen : (indexClasses [] roots).1 = (namesAll (index roots)).reverse := by
    rw [indexClasses_seen, List.append_nil, index]
  have hlisted : (indexClasses [] roots).1 ⊆ namesAll (index roots) := by
    rw [hseen]
    exact fun _ h => List.mem_reverse.mp h
  have hnodup := indexClasses_seen_nodup List.nodup_nil roots
  rw [hseen, List.nodup_reverse] at hnodup
  exact {
    names_nodup := hnodup
    names_sublist := indexClasses_names_sublist [] roots
    madeFor := indexClasses_madeFor [] _ hlisted
    roots_listed := fun _ hr => hlisted (name_mem_indexClasses_seen [] hr)
    whole := fun hn => indexClasses_of_nodup hn (List.disjoint_nil_right _) }

end Java

-- The index of any classes is faithful, and that of a compilation without repeated class names
-- shows all its classes.
theorem index_is_faithful :
    (∀ roots, Java.FaithfulIndex roots (Java.index roots)) ∧
    ∀ (forest : Forest) (withSchema : Bool) (compilation : Compilation),
      forest.compile withSchema = .ok compilation →
      (∀ d ∈ compilation.diagnostics, d.remark.kind ≠ .duplicateClassName) →
      Java.index (compilation.modules.map fun m => m.model.root) =
        Java.IndexEntry.ofTrees (compilation.modules.map fun m => m.model.root) := by
  refine ⟨Java.faithfulIndex, fun forest withSchema compilation h hnone => ?_⟩
  have hnodup := Forest.class_names_nodup h hnone
  have hclasses : compilation.classes =
      ClassTree.walkAll (compilation.modules.map fun m => m.model.root) := by
    rw [Compilation.classes, ClassTree.walkAll_eq_flatMap, List.flatMap_map]
  rw [hclasses] at hnodup
  exact (Java.faithfulIndex _).whole hnodup

theorem index_is_faithful_listInContainer :
    ∃ compilation, Forest.compile [listInContainer] true = .ok compilation ∧
      (∀ d ∈ compilation.diagnostics, d.remark.kind ≠ .duplicateClassName) ∧
      Java.index (compilation.modules.map fun m => m.model.root) =
        Java.IndexEntry.ofTrees (compilation.modules.map fun m => m.model.root) := by
  have hlist : Forest.compile [listInContainer] true = .ok _ := rfl
  exact ⟨_, hlist, by decide +kernel, index_is_faithful.2 _ _ _ hlist (by decide +kernel)⟩

end YangBinding
