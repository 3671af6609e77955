import YangBinding.Class.KeyLeaf
import YangBinding.Proofs.Outcome
import YangBinding.Schema.Record

namespace YangBinding.Node

theorem mem_children_of_find? {n child : Node} {keyword : Keyword}
    (h : n.find? keyword = some child) : child ∈ n.children ∧ child.keyword = keyword :=
  ⟨List.mem_of_find?_eq_some h, by simpa using List.find?_some h⟩

theorem mem_children_of_findNamed? {n child : Node} {keyword : Keyword} {name : String}
    (h : n.findNamed? keyword name = some child) :
    child ∈ n.children ∧ child.keyword = keyword ∧ child.arg = name :=
  ⟨List.mem_of_find?_eq_some h, by simpa using List.find?_some h⟩

theorem keyLeaf_eq_ok_iff {list : Node} {name : String} {key : KeyLeaf} :
    list.keyLeaf name = .ok key ↔
      ∃ leaf, list.findNamed? .leaf name = some leaf ∧ key = ⟨name, leaf.valueType⟩ := by
  unfold keyLeaf
  cases list.findNamed? .leaf name with
  | none => simp
  | some leaf => simp [eq_comm]

theorem keys_eq_ok_iff {list : Node} {keys : List KeyLeaf} :
    list.keys = .ok keys ↔ ∃ key, list.find? .key = some key ∧
      (Text.words key.arg).mapM list.keyLeaf = .ok keys ∧ keys ≠ [] := by
  unfold Node.keys
  cases list.find? .key with
  | none => simp
  | some key =>
      constructor
      · intro h
        obtain ⟨found, hfound, h⟩ := Except.bind_eq_ok_iff.mp h
        split at h
        · simp at h
        · rename_i hne
          obtain rfl := Except.ok.inj h
          exact ⟨key, rfl, hfound, by simpa using hne⟩
      · rintro ⟨_, heq, hkeys, hne⟩
        obtain rfl := Option.some.inj heq
        refine Except.bind_eq_ok_iff.mpr ⟨keys, hkeys, ?_⟩
        rw [if_neg (by simpa using hne)]
        rfl

theorem keyLeaf_of_mem_keys {list : Node} {keys : List KeyLeaf} (h : list.keys = .ok keys)
    {key : KeyLeaf} (hk : key ∈ keys) :
    key.identifier ∈ list.keyNames ∧ list.keyLeaf key.identifier = .ok key := by
  obtain ⟨statement, hfind, hkeys, -⟩ := keys_eq_ok_iff.mp h
  obtain ⟨name, hname, hleaf⟩ := (Except.mapM_eq_ok_iff.mp hkeys).exists_of_mem_right hk
  obtain ⟨leaf, hfound, rfl⟩ := keyLeaf_eq_ok_iff.mp hleaf
  obtain ⟨hs, hkeyword⟩ := mem_children_of_find? hfind
  refine ⟨List.mem_flatMap.mpr ⟨statement, ?_, hname⟩, hleaf⟩
  exact List.mem_filter.mpr ⟨hs, by simpa using hkeyword⟩

theorem leaf_of_mem_keys {list : Node} {keys : List KeyLeaf} (h : list.keys = .ok keys)
    {key : KeyLeaf} (hk : key ∈ keys) :
    key.identifier ∈ list.keyNames ∧
      ∃ leaf ∈ list.children, leaf.keyword = .leaf ∧ leaf.arg = key.identifier := by
  obtain ⟨hname, hleaf⟩ := keyLeaf_of_mem_keys h hk
  obtain ⟨leaf, hfound, -⟩ := keyLeaf_eq_ok_iff.mp hleaf
  exact ⟨hname, leaf, mem_children_of_findNamed? hfound⟩

theorem occurs_of_isKeyLeaf {list leaf : Node} (hk : leaf.keyword = .leaf)
    (hname : leaf.arg ∈ list.keyNames) : leaf.occurs (some list) = ⟨1, some 1⟩ := by
  have hkey : leaf.isKeyLeaf (some list) := by simp [isKeyLeaf, hk, hname]
  simp [occurs, isSingle, hkey]

end YangBinding.Node
