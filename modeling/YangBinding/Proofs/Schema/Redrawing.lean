import YangBinding.Proofs.Discreet
import YangBinding.Proofs.Schema.Accounting

namespace YangBinding

theorem Keyword.not_inSchema_of_isBound {keyword : Keyword} (h : keyword.isBound) :
    ¬ keyword.inSchema := by
  cases keyword <;> simp_all [isBound, inSchema]

namespace Node

namespace Discreet

variable {change : Node → Node} (h : Discreet change)
include h

section Routes

-- No route goes into a bound, so the routes do not show whether a leaf has one more.
theorem routesInto_children_eq {n : Node} (hn : n.keyword.isEntered) (around : Route) :
    routesInto Keyword.inSchema around (change n).children =
      routesInto Keyword.inSchema around (n.children.map change) := by
  rw [← routesInto_filter, h.filter_eq Keyword.inSchema hn fun _ => Keyword.not_inSchema_of_isBound,
    ← routesInto_filter around (n.children.map change), List.filter_map]
  simp only [Function.comp_def, h.keyword_eq]

theorem routesInto_eq (around : Route) (nodes : List Node) :
    routesInto Keyword.inSchema (around.map change) (nodes.map change) =
      (routesInto Keyword.inSchema around nodes).map (List.map change) := by
  induction nodes using forest_induction generalizing around with
  | nil => rfl
  | cons id keyword arg children rest ihc ihr =>
      let n := Node.mk id keyword arg children
      rw [List.map_cons, routesInto, routesInto, List.map_append, ihr, routesFrom_eq,
        routesFrom_eq, h.keyword_eq]
      split
      · rename_i hk
        have hinner : routesInto Keyword.inSchema (change n :: around.map change)
            (n.children.map change) =
            (routesInto Keyword.inSchema (n :: around) n.children).map (List.map change) :=
          ihc (n :: around)
        rw [h.routesInto_children_eq (Keyword.isEntered_of_inSchema hk), hinner]
        rfl
      · rfl

theorem routes_eq {n : Node} (hn : n.keyword.isEntered) :
    (change n).routes Keyword.inSchema = (n.routes Keyword.inSchema).map (List.map change) := by
  have hinner := h.routesInto_eq [] n.children
  rw [List.map_nil] at hinner
  rw [routes, h.routesInto_children_eq hn, hinner, routes]
  rfl

end Routes

variable (hinj : Function.Injective change)
include hinj

-- The two schemas are drawn from the same routes.
theorem exists_survey_both {n : Node} (hn : n.keyword.isEntered) (base : String) :
    ∃ drawn refused, Survey base (n.routes Keyword.inSchema) drawn refused ∧
      (∀ parent namespaceUri, n.schema parent namespaceUri base =
        .ofRoutes n parent namespaceUri base drawn refused) ∧
      ∀ parent namespaceUri, (change n).schema parent namespaceUri base =
        .ofRoutes (change n) parent namespaceUri base (drawn.map (List.map change))
          (refused.map (List.map change)) := by
  obtain ⟨inner, refused, hsurvey, hschema⟩ := n.exists_survey base
  obtain ⟨inner', refused', hsurvey', hschema'⟩ := (change n).exists_survey base
  have hmapped := hsurvey.map hinj h.arg_eq
  rw [h.routes_eq hn] at hsurvey'
  obtain ⟨hdrawn, hrefused⟩ := hsurvey'.unique hmapped
  refine ⟨[] :: inner, refused, hsurvey, hschema, fun parent namespaceUri => ?_⟩
  rw [hschema', hdrawn, hrefused]

theorem schemaEvents_eq (root : Node) :
    (change root).schemaEvents.map Event.unnumbered =
      root.schemaEvents.map Event.unnumbered := by
  unfold schemaEvents
  rw [h.keyword_eq]
  split
  · rename_i hk
    have hn : root.keyword.isEntered := by rw [hk]; rfl
    obtain ⟨drawn, refused, -, hschema, hschema'⟩ := h.exists_survey_both hinj hn "/"
    have hrefusal (route : Route) :
        (Route.refusal (change root) "/" (route.map change)).unnumbered =
          (Route.refusal root "/" route).unnumbered := by
      rw [Route.refusal, Route.path_map h.arg_eq]
      rfl
    rw [hschema, hschema', Drawing.ofRoutes, Drawing.ofRoutes]
    simp only [List.map_map, Function.comp_def, Event.unnumbered, hrefusal]
  · rfl

theorem rootEvents_true_eq (root : Node) :
    ((change root).rootEvents true).map Event.unnumbered =
      (root.rootEvents true).map Event.unnumbered := by
  rw [rootEvents_true, rootEvents_true, List.map_append, List.map_append, h.rootEvents_false_eq,
    h.schemaEvents_eq hinj]

theorem told_map_eq (claimed : List String) (roots : List Node) :
    told claimed ((roots.map change).flatMap fun root => root.rootEvents true) =
      told claimed (roots.flatMap fun root => root.rootEvents true) := by
  rw [← told_unnumbered claimed, ← told_unnumbered claimed (roots.flatMap _), List.map_flatMap,
    List.map_flatMap, List.flatMap_map]
  simp only [h.rootEvents_true_eq hinj]

end Discreet

end Node

end YangBinding
