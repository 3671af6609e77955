import YangBinding.CommandLine.Input
import YangBinding.Proofs.Json.Grammar

namespace YangBinding

open CommandLine (readDocument)

theorem readDocument_eq_of_parse_eq {text other : String} (h : Json.parse text = Json.parse other)
    (path : String) (pointer : Option String) :
    readDocument path pointer text = readDocument path pointer other := by
  rw [readDocument, h, readDocument]

-- What stands behind the first value is not looked at, be it another document.
theorem rest_of_text_unread (text : String) (value : Json) (h : Json.parse text = .ok value) :
    ∃ lead body rest, text.toList = lead ++ (body ++ rest) ∧ Json.Gaps lead ∧
      Json.Spells Json.depthLimit (.value value) body ∧
      (Json.OneValue text.toList ↔ Json.Gaps rest) ∧
      ∀ more, Json.Stops body more →
        Json.parse (String.ofList (lead ++ (body ++ more))) = .ok value ∧
        ∀ path pointer, readDocument path pointer (String.ofList (lead ++ (body ++ more))) =
          readDocument path pointer text := by
  obtain ⟨rest, hbegins⟩ := Json.parse_eq_ok_iff.mp h
  have hone := hbegins.oneValue_iff
  obtain ⟨lead, body, hlead, hbody, -, htext⟩ := hbegins
  refine ⟨lead, body, rest, htext, hlead, hbody, hone, fun more hstops => ?_⟩
  have hparse : Json.parse (String.ofList (lead ++ (body ++ more))) = .ok value := by
    refine Json.parse_eq_ok_iff.mpr ⟨more, lead, body, hlead, hbody, hstops, ?_⟩
    rw [String.toList_ofList]
  exact ⟨hparse, readDocument_eq_of_parse_eq (hparse.trans h.symm)⟩

-- Two modules, one behind the other.
def twoDocuments : String :=
  "\x7b\"keyword\":\"module\",\"arg\":\"a\"\x7d \x7b\"keyword\":\"module\",\"arg\":\"b\"\x7d"

theorem begins_twoDocuments :
    Json.Begins Json.depthLimit twoDocuments.toList
      (.obj [("keyword", .str "module"), ("arg", .str "a")])
      " \x7b\"keyword\":\"module\",\"arg\":\"b\"\x7d".toList := by
  have hnone : Json.Gaps [] := List.forall_mem_nil _
  have hcomma : Json.Separates false [','] := .next hnone hnone
  have hclosed : Json.Spells 0 (.fields false []) ['\x7d'] := .noFields hnone
  have harg : Json.Spells 0 (.value (.str "a")) "\"a\"".toList :=
    .scalar (.string (.of_isPlain "a".toList (by decide)))
  have hmodule : Json.Spells 0 (.value (.str "module")) "\"module\"".toList :=
    .scalar (.string (.of_isPlain "module".toList (by decide)))
  have hfields : Json.Spells 0 (.fields true [("keyword", .str "module"), ("arg", .str "a")])
      "\"keyword\":\"module\",\"arg\":\"a\"\x7d".toList :=
    .field (.first hnone) (.of_isPlain "keyword".toList (by decide)) hnone hnone hmodule
      (.field hcomma (.of_isPlain "arg".toList (by decide)) hnone hnone harg hclosed)
  have hobject := (Json.Spells.obj hfields).mono (show 1 ≤ Json.depthLimit by decide)
  exact ⟨[], _, hnone, hobject, Json.stops_of_not_startsNumber rfl _ _, by decide⟩

theorem parse_twoDocuments :
    Json.parse twoDocuments = .ok (.obj [("keyword", .str "module"), ("arg", .str "a")]) :=
  Json.parse_eq_ok_iff.mpr ⟨_, begins_twoDocuments⟩

theorem rest_of_twoDocuments_unread :
    ∃ lead body rest, twoDocuments.toList = lead ++ (body ++ rest) ∧ Json.Gaps lead ∧
      Json.Spells Json.depthLimit
        (.value (.obj [("keyword", .str "module"), ("arg", .str "a")])) body ∧
      (Json.OneValue twoDocuments.toList ↔ Json.Gaps rest) ∧
      ∀ more, Json.Stops body more →
        Json.parse (String.ofList (lead ++ (body ++ more))) =
          .ok (.obj [("keyword", .str "module"), ("arg", .str "a")]) ∧
        ∀ path pointer, readDocument path pointer (String.ofList (lead ++ (body ++ more))) =
          readDocument path pointer twoDocuments :=
  rest_of_text_unread twoDocuments _ parse_twoDocuments

-- The second module is lost without a word.
theorem second_document_lost :
    Json.parse twoDocuments = .ok (.obj [("keyword", .str "module"), ("arg", .str "a")]) ∧
      readDocument "in.json" none twoDocuments = .ok [.mk .module "a" []] ∧
      ¬ Json.OneValue twoDocuments.toList := by
  have hdocument : readDocument "in.json" none twoDocuments = .ok [.mk .module "a" []] := by
    rw [readDocument, parse_twoDocuments]
    rfl
  refine ⟨parse_twoDocuments, hdocument, ?_⟩
  rw [begins_twoDocuments.oneValue_iff]
  intro hgaps
  have hbrace : Json.Cursor.isGap '\x7b' := hgaps '\x7b' (by decide)
  revert hbrace
  decide

end YangBinding
