import YangBinding.Proofs.Bare
import YangBinding.Proofs.Class.Mirror

namespace YangBinding

namespace Node

mutual

-- The statement of a node, with `inside` in place of what the node numbered `place` holds.
def refilled (place : Nat) (inside : List Statement) : Node → Statement
  | .mk id keyword arg children =>
    .mk keyword arg (if id = place then inside else refilledAll place inside children)

def refilledAll (place : Nat) (inside : List Statement) : List Node → List Statement
  | [] => []
  | n :: rest => refilled place inside n :: refilledAll place inside rest

end

-- The numbers behind the refilled statement move. What counts has none, so the induction leaves
-- open where the numbering starts.
theorem bareAll_refilledAll {place : Nat} {nodes : List Node}
    (h : ∀ n ∈ preorderAll nodes, n.id = place → ¬ n.keyword.isEntered)
    (inside : List Statement) (first : Nat) :
    bareAll (numberAll first (refilledAll place inside nodes)) = bareAll nodes := by
  induction nodes using forest_induction generalizing first with
  | nil => rfl
  | cons id keyword arg children rest ihc ihr =>
      rw [preorderAll, preorder] at h
      have hself : id = place → ¬ keyword.isEntered :=
        h _ (List.mem_append_left _ List.mem_cons_self)
      have hchildren := ihc fun n hn =>
        h n (List.mem_append_left _ (List.mem_cons_of_mem _ hn))
      have hrest := ihr fun n hn => h n (List.mem_append_right _ hn)
      rw [refilledAll, refilled, numberAll, number, bareAll, bareAll, bare, bare, hrest]
      by_cases hplace : id = place
      · rw [if_neg (hself hplace), if_neg (hself hplace)]
      · rw [if_neg hplace, hchildren]

end Node

theorem Keyword.not_isEntered {keyword : Keyword}
    (h : keyword ∉ [.module, .submodule, .container, .list, .leaf, .leafList]) :
    ¬ keyword.isEntered := by
  cases keyword <;> simp_all [isEntered, isModule, isData]

namespace Forest

-- The forest in which the statement numbered `place` holds `inside`.
def refill (forest : Forest) (place : Nat) (inside : List Statement) : Forest :=
  Node.refilledAll place inside forest.roots

-- A compilation depends on nothing but what counts of the roots.
theorem compile_eq_of_bareAll_eq {forest other : Forest}
    (h : Node.bareAll forest.roots = Node.bareAll other.roots) (withSchema : Bool) :
    forest.compile withSchema = other.compile withSchema := by
  have hmodules : (forest.roots.mapM fun root : Node => root.compileRoot withSchema) =
      other.roots.mapM fun root : Node => root.compileRoot withSchema := by
    rw [← Node.mapM_compileRoot_bareAll forest.roots, h, Node.mapM_compileRoot_bareAll]
  have htold : told [] (forest.events withSchema) = told [] (other.events withSchema) := by
    rw [events, ← Node.told_bareAll _ forest.roots, h, Node.told_bareAll, events]
  rw [compile_eq_map, compile_eq_map, hmodules, htold]

end Forest

theorem unexpanded_statements_opaque (forest : Forest) (n : Node) (hn : n ∈ forest.nodes)
    (hk : n.keyword ∉ [.module, .submodule, .container, .list, .leaf, .leafList])
    (inside : List Statement) (withSchema : Bool) :
    (forest.refill n.id inside).compile withSchema = forest.compile withSchema := by
  have hplace : ∀ m ∈ Node.preorderAll forest.roots, m.id = n.id → ¬ m.keyword.isEntered := by
    intro m hm hid
    rw [Forest.eq_of_id_eq hm hn hid]
    exact Keyword.not_isEntered hk
  exact Forest.compile_eq_of_bareAll_eq (Node.bareAll_refilledAll hplace inside 0) withSchema

-- The statements behind the key get other numbers, and the list without keys goes unnoticed.
theorem unexpanded_key_opaque :
    Node.mk 5 .key "k" [] ∈ Forest.nodes [listInContainer] ∧
      Forest.refill [listInContainer] 5 [.mk .list "e" []] =
        [.mk .module "m" [.mk .namespaceUri "urn:m" [], .mk .modulePrefix "p" [],
          .mk .container "a" [.mk .list "b" [.mk .key "k" [.mk .list "e" []], .mk .leaf "k" []]],
          .mk .grouping "g" [.mk .container "c" []]]] ∧
      (Forest.refill [listInContainer] 5 [.mk .list "e" []]).compile true =
        Forest.compile [listInContainer] true := by
  have hn : Node.mk 5 .key "k" [] ∈ Forest.nodes [listInContainer] :=
    List.mem_of_getElem? (i := 5) rfl
  exact ⟨hn, rfl, unexpanded_statements_opaque _ _ hn (by decide) _ true⟩

end YangBinding
