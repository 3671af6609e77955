import YangBinding.Proofs.Json.Scalars

namespace YangBinding.Json

-- What a text can spell: a value, or the part of a container behind its opening bracket. With
-- `first` false it is the part behind an element.
inductive Part where
  | value (v : Json)
  | items (first : Bool) (items : List Json)
  | fields (first : Bool) (fields : List (String × Json))

-- What stands in front of an element: blanks, with a comma among them unless it is the first.
inductive Separates : Bool → List Char → Prop
  | first {gaps} : Gaps gaps → Separates true gaps
  | next {before after} : Gaps before → Gaps after → Separates false (before ++ ',' :: after)

-- The grammar, with containers nested so deep at most.
inductive Spells : Nat → Part → List Char → Prop
  | scalar {depth v body} : SpellsScalar v body → Spells depth (.value v) body
  | arr {depth items body} : Spells depth (.items true items) body →
      Spells (depth + 1) (.value (.arr items)) ('[' :: body)
  | obj {depth fields body} : Spells depth (.fields true fields) body →
      Spells (depth + 1) (.value (.obj fields)) ('\x7b' :: body)
  | noItems {depth first gaps} : Gaps gaps → Spells depth (.items first []) (gaps ++ [']'])
  | item {depth first sep v items body rest} : Separates first sep →
      Spells depth (.value v) body → Spells depth (.items false items) rest →
      Spells depth (.items first (v :: items)) (sep ++ (body ++ rest))
  | noFields {depth first gaps} : Gaps gaps → Spells depth (.fields first []) (gaps ++ ['\x7d'])
  | field {depth first sep text quoted before after v fields body rest} : Separates first sep →
      SpellsString text quoted → Gaps before → Gaps after → Spells depth (.value v) body →
      Spells depth (.fields false fields) rest →
      Spells depth (.fields first ((String.ofList text, v) :: fields))
        (sep ++ '"' :: (quoted ++ (before ++ ':' :: (after ++ (body ++ rest)))))

theorem Spells.mono {depth deeper : Nat} {part : Part} {body : List Char}
    (h : Spells depth part body) (hle : depth ≤ deeper) : Spells deeper part body := by
  induction h generalizing deeper with
  | scalar h => exact .scalar h
  | arr _ ih =>
      obtain ⟨deeper, rfl⟩ : ∃ d, deeper = d + 1 := ⟨deeper - 1, by omega⟩
      exact .arr (ih (by omega))
  | obj _ ih =>
      obtain ⟨deeper, rfl⟩ : ∃ d, deeper = d + 1 := ⟨deeper - 1, by omega⟩
      exact .obj (ih (by omega))
  | noItems hgaps => exact .noItems hgaps
  | item hsep _ _ ihv ihr => exact .item hsep (ihv hle) (ihr hle)
  | noFields hgaps => exact .noFields hgaps
  | field hsep hname hbefore hafter _ _ ihv ihr =>
      exact .field hsep hname hbefore hafter (ihv hle) (ihr hle)

section Boundaries

theorem Spells.opens {depth : Nat} {v : Json} {body : List Char}
    (h : Spells depth (.value v) body) :
    ∃ c cs, body = c :: cs ∧ Cursor.isGap c = false ∧ (c == ']') = false := by
  cases h with
  | scalar h =>
      obtain ⟨c, cs, hcs, hopens⟩ := h.opens
      exact ⟨c, cs, hcs, hopens.gap, hopens.close⟩
  | arr _ => exact ⟨_, _, rfl, rfl, rfl⟩
  | obj _ => exact ⟨_, _, rfl, rfl, rfl⟩

-- What can stand behind an element of a container.
def isDelimiter (c : Char) : Bool := Cursor.isGap c || c == ',' || c == ']' || c == '\x7d'

theorem stops_of_isDelimiter {c : Char} (h : isDelimiter c) (body cs : List Char) :
    Stops body (c :: cs) := by
  intro _ d hd
  obtain rfl := Option.some.inj hd
  simp only [isDelimiter, Cursor.isGap, Bool.or_eq_true, beq_iff_eq] at h
  rcases h with ((((((rfl | rfl) | rfl) | rfl) | rfl) | rfl) | rfl) <;>
    simp [continuesNumber, isMark]

theorem stops_gaps_append {gaps : List Char} (hgaps : Gaps gaps) {c : Char} (hc : isDelimiter c)
    (body cs : List Char) : Stops body (gaps ++ c :: cs) := by
  cases gaps with
  | nil => exact stops_of_isDelimiter hc body cs
  | cons d gaps =>
      have hd : Cursor.isGap d := hgaps d List.mem_cons_self
      exact stops_of_isDelimiter (by simp [isDelimiter, hd]) body _

theorem Separates.stops {sep : List Char} (h : Separates false sep) (body cs : List Char) :
    Stops body (sep ++ cs) := by
  cases h with
  | next hbefore _ =>
      rw [List.append_assoc, List.cons_append]
      exact stops_gaps_append hbefore rfl body _

theorem Spells.stops_items {depth : Nat} {items : List Json} {rest : List Char}
    (h : Spells depth (.items false items) rest) (body more : List Char) :
    Stops body (rest ++ more) := by
  cases h with
  | noItems hgaps =>
      rw [List.append_assoc, List.singleton_append]
      exact stops_gaps_append hgaps rfl body more
  | item hsep _ _ =>
      rw [List.append_assoc]
      exact hsep.stops body _

theorem Spells.stops_fields {depth : Nat} {fields : List (String × Json)} {rest : List Char}
    (h : Spells depth (.fields false fields) rest) (body more : List Char) :
    Stops body (rest ++ more) := by
  cases h with
  | noFields hgaps =>
      rw [List.append_assoc, List.singleton_append]
      exact stops_gaps_append hgaps rfl body more
  | field hsep _ _ _ _ _ =>
      rw [List.append_assoc]
      exact hsep.stops body _

end Boundaries

section Complete

variable {trail : Trail} {first : Bool} {sep : List Char}

theorem nextElement?_of_separates (h : Separates first sep) {c : Char}
    (hgap : Cursor.isGap c = false) (hclose : (c == ']') = false) (cs : List Char)
    (p : Position) :
    ∃ q, nextElement? trail first ⟨sep ++ c :: cs, p⟩ = .ok (some ⟨c :: cs, q⟩) := by
  cases h with
  | first hgaps => exact nextElement?_first hgaps p hgap hclose cs
  | @next before after hbefore hafter =>
      rw [List.append_assoc, List.cons_append]
      obtain ⟨next, hnext⟩ := skipGaps_append hbefore (c := ',') rfl (after ++ c :: cs) p
      obtain ⟨q, hq⟩ := skipGaps_append hafter hgap cs (next.past ',')
      refine ⟨q, ?_⟩
      rw [nextElement?, hnext]
      simp [Cursor.advance, hq, hclose]

theorem nextKey?_of_separates (h : Separates first sep) {text quoted : List Char}
    (hname : SpellsString text quoted) (more : List Char) (p : Position) :
    ∃ q, nextKey? trail first ⟨sep ++ '"' :: (quoted ++ more), p⟩ =
      .ok (some (String.ofList text, ⟨more, q⟩)) := by
  cases h with
  | first hgaps =>
      obtain ⟨next, hnext⟩ := skipGaps_append hgaps (c := '"') rfl (quoted ++ more) p
      obtain ⟨q, hq⟩ := string_of_spells hname more next
      refine ⟨q, ?_⟩
      rw [nextKey?, hnext]
      simp [hq, onTrail, Except.map, Except.mapError]
  | @next before after hbefore hafter =>
      rw [List.append_assoc, List.cons_append]
      obtain ⟨comma, hcomma⟩ := skipGaps_append hbefore (c := ',') rfl
        (after ++ '"' :: (quoted ++ more)) p
      obtain ⟨next, hnext⟩ := skipGaps_append hafter (c := '"') rfl (quoted ++ more)
        (comma.past ',')
      obtain ⟨q, hq⟩ := string_of_spells hname more next
      refine ⟨q, ?_⟩
      rw [nextKey?, hcomma]
      simp [Cursor.advance, hnext, hq, onTrail, Except.map, Except.mapError]

theorem passColon_append {gaps : List Char} (hgaps : Gaps gaps) (cs : List Char) (p : Position) :
    ∃ q, passColon trail ⟨gaps ++ ':' :: cs, p⟩ = .ok ⟨cs, q⟩ := by
  obtain ⟨q, hq⟩ := skipGaps_append hgaps (c := ':') rfl cs p
  refine ⟨q.past ':', ?_⟩
  rw [passColon, hq]
  rfl

-- The reader takes the text for this part, whatever comes behind it.
def Part.ReadFrom (fuel depth : Nat) : Part → List Char → Prop
  | .value v, body => ∀ gaps, Gaps gaps → ∀ more, Stops body more → ∀ trail p, ∃ q,
      readValue fuel depth trail ⟨gaps ++ (body ++ more), p⟩ = .ok (v, ⟨more, q⟩)
  | .items first vs, body => ∀ bound index, body.length ≤ bound → (index == 0) = first →
      ∀ more trail p, ∃ q, readElements (readValue fuel depth) trail bound index
        ⟨body ++ more, p⟩ = .ok (vs, ⟨more, q⟩)
  | .fields first fs, body => ∀ bound, body.length ≤ bound → ∀ more trail p, ∃ q,
      readFields (readValue fuel depth) trail bound first ⟨body ++ more, p⟩ = .ok (fs, ⟨more, q⟩)

theorem readFrom_scalar (fuel depth : Nat) {v : Json} {body : List Char}
    (h : SpellsScalar v body) : (Part.value v).ReadFrom fuel depth body := by
  intro gaps hgaps more hstops trail p
  obtain ⟨c, cs, rfl, hopens⟩ := h.opens
  obtain ⟨next, hnext⟩ := readValue_scalar hgaps fuel depth trail p hopens.gap hopens.list
    hopens.object (cs ++ more)
  obtain ⟨q, hq⟩ := readScalar_of_spells h hstops next
  refine ⟨q, ?_⟩
  rw [List.cons_append, hnext, hq]
  rfl

variable {fuel depth : Nat}

theorem readFrom_item (hsep : Separates first sep) {v : Json} {items : List Json}
    {body rest : List Char} (hopens : ∃ c cs, body = c :: cs ∧ Cursor.isGap c = false ∧
      (c == ']') = false) (hstops : ∀ more, Stops body (rest ++ more))
    (hvalue : (Part.value v).ReadFrom fuel depth body)
    (hrest : (Part.items false items).ReadFrom fuel depth rest) :
    (Part.items first (v :: items)).ReadFrom fuel depth (sep ++ (body ++ rest)) := by
  intro bound index hbound hindex more trail p
  obtain ⟨c, cs, rfl, hgap, hclose⟩ := hopens
  simp only [List.length_append, List.length_cons] at hbound
  obtain ⟨bound, rfl⟩ : ∃ b, bound = b + 1 := ⟨bound - 1, by omega⟩
  obtain ⟨start, hstart⟩ := @nextElement?_of_separates trail _ _ hsep c hgap hclose
    (cs ++ (rest ++ more)) p
  obtain ⟨next, hnext⟩ := hvalue [] (List.forall_mem_nil _) (rest ++ more) (hstops more)
    (.index index :: trail) start
  obtain ⟨q, hq⟩ := hrest bound (index + 1) (by omega) rfl more trail next
  rw [← hindex] at hstart
  refine ⟨q, ?_⟩
  rw [List.append_assoc, List.append_assoc, List.cons_append]
  exact readElements_step hstart hnext hq

theorem readFrom_field (hsep : Separates first sep) {text quoted before after : List Char}
    (hname : SpellsString text quoted) (hbefore : Gaps before) (hafter : Gaps after) {v : Json}
    {fields : List (String × Json)} {body rest : List Char}
    (hstops : ∀ more, Stops body (rest ++ more))
    (hvalue : (Part.value v).ReadFrom fuel depth body)
    (hrest : (Part.fields false fields).ReadFrom fuel depth rest) :
    (Part.fields first ((String.ofList text, v) :: fields)).ReadFrom fuel depth
      (sep ++ '"' :: (quoted ++ (before ++ ':' :: (after ++ (body ++ rest))))) := by
  intro bound hbound more trail p
  simp only [List.length_append, List.length_cons] at hbound
  obtain ⟨bound, rfl⟩ : ∃ b, bound = b + 1 := ⟨bound - 1, by omega⟩
  obtain ⟨key, hkey⟩ := @nextKey?_of_separates trail _ _ hsep _ _ hname
    (before ++ ':' :: (after ++ (body ++ (rest ++ more)))) p
  obtain ⟨colon, hcolon⟩ :=
    @passColon_append trail _ hbefore (after ++ (body ++ (rest ++ more))) key
  obtain ⟨next, hnext⟩ := hvalue after hafter (rest ++ more) (hstops more)
    (.field (String.ofList text) :: trail) colon
  obtain ⟨q, hq⟩ := hrest bound (by omega) more trail next
  refine ⟨q, ?_⟩
  simp only [List.append_assoc, List.cons_append]
  exact readFields_step hkey hcolon hnext hq

theorem readFrom_of_spells {part : Part} {body : List Char} (h : Spells depth part body)
    (hfuel : body.length ≤ fuel) : part.ReadFrom fuel depth body := by
  induction h with
  | scalar h => exact readFrom_scalar fuel _ h
  | @arr depth items body _ ih =>
      rw [List.length_cons] at hfuel
      intro gaps hgaps more _ trail p
      obtain ⟨next, hnext⟩ := readValue_list hgaps fuel depth trail p (body ++ more)
      obtain ⟨q, hq⟩ := ih (by omega) fuel 0 (by omega) rfl more trail next
      exact ⟨q, by rw [List.cons_append, hnext, hq]; rfl⟩
  | @obj depth fields body _ ih =>
      rw [List.length_cons] at hfuel
      intro gaps hgaps more _ trail p
      obtain ⟨next, hnext⟩ := readValue_object hgaps fuel depth trail p (body ++ more)
      obtain ⟨q, hq⟩ := ih (by omega) fuel (by omega) more trail next
      exact ⟨q, by rw [List.cons_append, hnext, hq]; rfl⟩
  | noItems hgaps =>
      intro bound index hbound _ more trail p
      rw [List.length_append, List.length_singleton] at hbound
      obtain ⟨bound, rfl⟩ : ∃ b, bound = b + 1 := ⟨bound - 1, by omega⟩
      rw [List.append_assoc, List.singleton_append]
      exact readElements_close hgaps p more
  | item hsep hv hr ihv ihr =>
      simp only [List.length_append] at hfuel
      exact readFrom_item hsep hv.opens (hr.stops_items _) (ihv (by omega)) (ihr (by omega))
  | noFields hgaps =>
      intro bound hbound more trail p
      rw [List.length_append, List.length_singleton] at hbound
      obtain ⟨bound, rfl⟩ : ∃ b, bound = b + 1 := ⟨bound - 1, by omega⟩
      rw [List.append_assoc, List.singleton_append]
      exact readFields_close hgaps p more
  | field hsep hname hbefore hafter hv hr ihv ihr =>
      simp only [List.length_append, List.length_cons] at hfuel
      exact readFrom_field hsep hname hbefore hafter (hr.stops_fields _) (ihv (by omega))
        (ihr (by omega))

end Complete

section Sound

variable {trail : Trail} {first : Bool} {k k' : Cursor}

theorem Gaps.append {gaps more : List Char} (h : Gaps gaps) (hmore : Gaps more) :
    Gaps (gaps ++ more) :=
  List.forall_mem_append.mpr ⟨h, hmore⟩

theorem Separates.append {sep gaps : List Char} (h : Separates first sep) (hgaps : Gaps gaps) :
    Separates first (sep ++ gaps) := by
  cases h with
  | first hsep => exact .first (hsep.append hgaps)
  | next hbefore hafter =>
      rw [List.append_assoc, List.cons_append]
      exact .next hbefore (hafter.append hgaps)

theorem skipGaps_cases (k : Cursor) : ∃ gaps, Gaps gaps ∧ k.rest = gaps ++ k.skipGaps.rest := by
  have hfrom (cs : List Char) (p : Position) :
      ∃ gaps, Gaps gaps ∧ cs = gaps ++ (Cursor.skipGapsFrom cs p).rest := by
    induction cs generalizing p with
    | nil => exact ⟨[], List.forall_mem_nil _, rfl⟩
    | cons c cs ih =>
        rw [Cursor.skipGapsFrom]
        split
        · rename_i hgap
          obtain ⟨gaps, hgaps, hcs⟩ := ih (p.past c)
          exact ⟨c :: gaps, List.forall_mem_cons.mpr ⟨hgap, hgaps⟩, by rw [List.cons_append, ← hcs]⟩
        · exact ⟨[], List.forall_mem_nil _, rfl⟩
  exact hfrom k.rest k.position

-- A comma and the blanks on both sides of it.
theorem separates_of_comma {cs : List Char} (hcomma : k.skipGaps.rest = ',' :: cs) :
    ∃ sep, Separates false sep ∧ k.rest = sep ++ k.skipGaps.advance.skipGaps.rest := by
  obtain ⟨before, hbefore, hrest⟩ := skipGaps_cases k
  obtain ⟨after, hafter, htail⟩ := skipGaps_cases k.skipGaps.advance
  have hadvance : k.skipGaps.advance.rest = cs := by rw [Cursor.advance, hcomma]
  refine ⟨before ++ ',' :: after, .next hbefore hafter, ?_⟩
  rw [hrest, hcomma, List.append_assoc, List.cons_append, ← htail, hadvance]

theorem gaps_of_close {c : Char} {cs : List Char} (hclose : k.skipGaps.rest = c :: cs) :
    ∃ gaps, Gaps gaps ∧ k.rest = gaps ++ [c] ++ k.skipGaps.advance.rest := by
  obtain ⟨gaps, hgaps, hrest⟩ := skipGaps_cases k
  refine ⟨gaps, hgaps, ?_⟩
  rw [hrest, Cursor.advance, hclose, List.append_assoc, List.singleton_append]

theorem nextElement?_cases {next : Option Cursor} (h : nextElement? trail first k = .ok next) :
    (next = none ∧ ∃ gaps, Gaps gaps ∧ k.rest = gaps ++ [']'] ++ k.skipGaps.advance.rest) ∨
      ∃ k', next = some k' ∧ ∃ sep, Separates first sep ∧ k.rest = sep ++ k'.rest := by
  unfold nextElement? at h
  simp only at h
  split at h
  · exact nomatch h
  · rename_i c cs hcs
    split at h
    · rename_i hclose
      exact .inl ⟨(Except.ok.inj h).symm, gaps_of_close (beq_iff_eq.mp hclose ▸ hcs)⟩
    right
    split at h
    · rename_i hfirst
      obtain ⟨gaps, hgaps, hrest⟩ := skipGaps_cases k
      rw [hfirst]
      exact ⟨k.skipGaps, (Except.ok.inj h).symm, gaps, .first hgaps, hrest⟩
    split at h
    · rename_i hfirst hcomma
      rw [Bool.not_eq_true] at hfirst
      rw [hfirst]
      split at h
      · exact nomatch h
      split at h
      · exact nomatch h
      · exact ⟨_, (Except.ok.inj h).symm, separates_of_comma (beq_iff_eq.mp hcomma ▸ hcs)⟩
    · exact nomatch h

theorem onTrail_eq_ok_iff {α : Type} {result : Except Fault α} {a : α} :
    onTrail trail result = .ok a ↔ result = .ok a := by
  cases result with
  | error fault => simp [onTrail, Except.mapError]
  | ok b => simp [onTrail, Except.mapError]

-- A key and its colon are still to come.
theorem spells_of_key {k : Cursor} {cs : List Char} (hquote : k.rest = '"' :: cs)
    {next : Option (String × Cursor)} (h : onTrail trail (k.string.map some) = .ok next) :
    ∃ text quoted k', next = some (String.ofList text, k') ∧ SpellsString text quoted ∧
      k.rest = '"' :: (quoted ++ k'.rest) := by
  obtain ⟨⟨name, k'⟩, hstring, rfl⟩ := Except.map_eq_ok_iff.mp (onTrail_eq_ok_iff.mp h)
  have hk : k = ⟨'"' :: cs, k.position⟩ := by rw [← hquote]
  rw [hk] at hstring
  obtain ⟨text, quoted, rfl, hcs, hname⟩ := spells_of_string hstring
  exact ⟨text, quoted, k', rfl, hname, by rw [hquote, hcs]⟩

theorem nextKey?_cases {next : Option (String × Cursor)} (h : nextKey? trail first k = .ok next) :
    (next = none ∧ ∃ gaps, Gaps gaps ∧ k.rest = gaps ++ ['\x7d'] ++ k.skipGaps.advance.rest) ∨
      ∃ text quoted k', next = some (String.ofList text, k') ∧ SpellsString text quoted ∧
        ∃ sep, Separates first sep ∧ k.rest = sep ++ '"' :: (quoted ++ k'.rest) := by
  unfold nextKey? at h
  simp only at h
  split at h
  · exact nomatch h
  · rename_i c cs hcs
    split at h
    · rename_i hclose
      exact .inl ⟨(Except.ok.inj h).symm, gaps_of_close (beq_iff_eq.mp hclose ▸ hcs)⟩
    right
    split at h
    · rename_i hfirst
      split at h
      · rename_i hquote
        obtain ⟨gaps, hgaps, hrest⟩ := skipGaps_cases k
        obtain ⟨text, quoted, k', hnext, hname, hkey⟩ :=
          spells_of_key (beq_iff_eq.mp hquote ▸ hcs) h
        rw [hfirst]
        exact ⟨text, quoted, k', hnext, hname, gaps, .first hgaps, by rw [hrest, hkey]⟩
      · exact nomatch h
    split at h
    · rename_i hfirst hcomma
      rw [Bool.not_eq_true] at hfirst
      rw [hfirst]
      split at h
      · exact nomatch h
      · rename_i d ds hds
        split at h
        · rename_i hquote
          obtain ⟨sep, hsep, hrest⟩ := separates_of_comma (beq_iff_eq.mp hcomma ▸ hcs)
          obtain ⟨text, quoted, k', hnext, hname, hkey⟩ :=
            spells_of_key (beq_iff_eq.mp hquote ▸ hds) h
          exact ⟨text, quoted, k', hnext, hname, sep, hsep, by rw [hrest, hkey]⟩
        split at h
        · exact nomatch h
        · exact nomatch h
    · exact nomatch h

theorem gaps_of_passColon (h : passColon trail k = .ok k') :
    ∃ gaps, Gaps gaps ∧ k.rest = gaps ++ ':' :: k'.rest := by
  unfold passColon at h
  simp only at h
  split at h
  · exact nomatch h
  · rename_i c cs hcs
    split at h
    · rename_i hcolon
      obtain rfl := Except.ok.inj h
      obtain ⟨gaps, hgaps, hrest⟩ := gaps_of_close (beq_iff_eq.mp hcolon ▸ hcs)
      exact ⟨gaps, hgaps, by rw [hrest, List.append_assoc, List.singleton_append]⟩
    · exact nomatch h

-- What was read is spelled in front of what is left, behind blanks.
def ReadsSpelled (depth : Nat) (read : Trail → Cursor → Except Refusal (Json × Cursor)) : Prop :=
  ∀ trail k v k', read trail k = .ok (v, k') → ∃ lead body, Gaps lead ∧
    Spells depth (.value v) body ∧ Stops body k'.rest ∧ k.rest = lead ++ (body ++ k'.rest)

section Containers

variable {depth : Nat} {read : Trail → Cursor → Except Refusal (Json × Cursor)}
  (hread : ReadsSpelled depth read)
include hread

theorem spells_of_readElements {bound index : Nat} {items : List Json}
    (h : readElements read trail bound index k = .ok (items, k')) :
    ∃ body, Spells depth (.items (index == 0) items) body ∧ k.rest = body ++ k'.rest := by
  induction bound generalizing index items k with
  | zero => exact nomatch h
  | succ bound ih =>
      rw [readElements] at h
      obtain ⟨next, hnext, h⟩ := Except.bind_eq_ok_iff.mp h
      rcases nextElement?_cases hnext with
        ⟨rfl, gaps, hgaps, hrest⟩ | ⟨start, rfl, sep, hsep, hrest⟩
      · obtain ⟨rfl, rfl⟩ := Prod.mk.inj (Except.ok.inj h)
        exact ⟨gaps ++ [']'], .noItems hgaps, hrest⟩
      · obtain ⟨⟨v, after⟩, hvalue, h⟩ := Except.bind_eq_ok_iff.mp h
        obtain ⟨⟨vs, last⟩, hvs, h⟩ := Except.bind_eq_ok_iff.mp h
        obtain ⟨rfl, rfl⟩ := Prod.mk.inj (Except.ok.inj h)
        obtain ⟨lead, body, hlead, hbody, -, hstart⟩ := hread _ _ _ _ hvalue
        obtain ⟨rest, hspells, hafter⟩ := ih hvs
        refine ⟨sep ++ lead ++ (body ++ rest), .item (hsep.append hlead) hbody hspells, ?_⟩
        rw [hrest, hstart, hafter]
        simp only [List.append_assoc]

theorem spells_of_readFields {bound : Nat} {fields : List (String × Json)}
    (h : readFields read trail bound first k = .ok (fields, k')) :
    ∃ body, Spells depth (.fields first fields) body ∧ k.rest = body ++ k'.rest := by
  induction bound generalizing first fields k with
  | zero => exact nomatch h
  | succ bound ih =>
      rw [readFields] at h
      obtain ⟨next, hnext, h⟩ := Except.bind_eq_ok_iff.mp h
      rcases nextKey?_cases hnext with
        ⟨rfl, gaps, hgaps, hrest⟩ | ⟨text, quoted, key, rfl, hname, sep, hsep, hrest⟩
      · obtain ⟨rfl, rfl⟩ := Prod.mk.inj (Except.ok.inj h)
        exact ⟨gaps ++ ['\x7d'], .noFields hgaps, hrest⟩
      · obtain ⟨colon, hcolon, h⟩ := Except.bind_eq_ok_iff.mp h
        obtain ⟨⟨v, after⟩, hvalue, h⟩ := Except.bind_eq_ok_iff.mp h
        obtain ⟨⟨fs, last⟩, hfs, h⟩ := Except.bind_eq_ok_iff.mp h
        obtain ⟨rfl, rfl⟩ := Prod.mk.inj (Except.ok.inj h)
        obtain ⟨gaps, hgaps, hkey⟩ := gaps_of_passColon hcolon
        obtain ⟨lead, body, hlead, hbody, -, hstart⟩ := hread _ _ _ _ hvalue
        obtain ⟨rest, hspells, hafter⟩ := ih hfs
        refine ⟨_, .field hsep hname hgaps hlead hbody hspells, ?_⟩
        rw [hrest, hkey, hstart, hafter]
        simp only [List.append_assoc, List.cons_append]

end Containers

theorem spells_of_scalar {c : Char} {cs : List Char} (hcs : k.skipGaps.rest = c :: cs) {v : Json}
    (h : onTrail trail (readScalar c k.skipGaps) = .ok (v, k')) (depth : Nat) :
    ∃ lead body, Gaps lead ∧ Spells depth (.value v) body ∧ Stops body k'.rest ∧
      k.rest = lead ++ (body ++ k'.rest) := by
  obtain ⟨lead, hlead, hrest⟩ := skipGaps_cases k
  have hk : k.skipGaps = ⟨c :: cs, k.skipGaps.position⟩ := by rw [← hcs]
  rw [onTrail_eq_ok_iff, hk] at h
  obtain ⟨body, hbody, hspells, hstops⟩ := spells_of_readScalar h
  exact ⟨lead, body, hlead, .scalar hspells, hstops, by rw [hrest, hcs, hbody]⟩

-- The induction is on how deep containers may be nested.
theorem readValue_readsSpelled (fuel depth : Nat) : ReadsSpelled depth (readValue fuel depth) := by
  induction depth with
  | zero =>
      intro trail k v k' h
      rw [readValue] at h
      cases hcs : k.skipGaps.rest with
      | nil =>
          rw [hcs] at h
          cases h
      | cons c cs =>
          simp only [hcs] at h
          split at h
          · cases h
          split at h
          · cases h
          · exact spells_of_scalar hcs h 0
  | succ depth ih =>
      intro trail k v k' h
      obtain ⟨lead, hlead, hrest⟩ := skipGaps_cases k
      rw [readValue] at h
      cases hcs : k.skipGaps.rest with
      | nil =>
          rw [hcs] at h
          cases h
      | cons c cs =>
          have hadvance : k.skipGaps.advance.rest = cs := by rw [Cursor.advance, hcs]
          simp only [hcs] at h
          split at h
          · rename_i hlist
            obtain ⟨⟨items, after⟩, hitems, h⟩ := Except.bind_eq_ok_iff.mp h
            obtain ⟨rfl, rfl⟩ := Prod.mk.inj (Except.ok.inj h)
            obtain ⟨body, hbody, hcs'⟩ := spells_of_readElements ih hitems
            rw [hadvance] at hcs'
            exact ⟨lead, '[' :: body, hlead, .arr hbody, stops_of_not_startsNumber rfl _ _,
              by rw [hrest, hcs, hcs', beq_iff_eq.mp hlist, List.cons_append]⟩
          split at h
          · rename_i hobject
            obtain ⟨⟨fields, after⟩, hfields, h⟩ := Except.bind_eq_ok_iff.mp h
            obtain ⟨rfl, rfl⟩ := Prod.mk.inj (Except.ok.inj h)
            obtain ⟨body, hbody, hcs'⟩ := spells_of_readFields ih hfields
            rw [hadvance] at hcs'
            exact ⟨lead, '\x7b' :: body, hlead, .obj hbody, stops_of_not_startsNumber rfl _ _,
              by rw [hrest, hcs, hcs', beq_iff_eq.mp hobject, List.cons_append]⟩
          · exact spells_of_scalar hcs h (depth + 1)

end Sound

-- The text begins with a value, behind blanks, and what is left does not go on with it.
def Begins (depth : Nat) (text : List Char) (v : Json) (rest : List Char) : Prop :=
  ∃ lead body, Gaps lead ∧ Spells depth (.value v) body ∧ Stops body rest ∧
    text = lead ++ (body ++ rest)

theorem readValue_eq_ok_iff {fuel depth : Nat} {text : List Char} (hfuel : text.length ≤ fuel)
    (trail : Trail) (p : Position) {v : Json} {rest : List Char} :
    (∃ q, readValue fuel depth trail ⟨text, p⟩ = .ok (v, ⟨rest, q⟩)) ↔
      Begins depth text v rest := by
  constructor
  · rintro ⟨q, h⟩
    exact readValue_readsSpelled fuel depth _ _ _ _ h
  · rintro ⟨lead, body, hlead, hbody, hstops, rfl⟩
    simp only [List.length_append] at hfuel
    exact readFrom_of_spells hbody (by omega) lead hlead rest hstops trail p

theorem parse_eq_ok_iff {text : String} {v : Json} :
    parse text = .ok v ↔ ∃ rest, Begins depthLimit text.toList v rest := by
  have hfuel : text.toList.length ≤ text.length + 1 := by
    rw [String.length_toList]
    exact Nat.le_succ _
  constructor
  · intro h
    obtain ⟨⟨v, k⟩, hread, rfl⟩ := Except.map_eq_ok_iff.mp h
    exact ⟨k.rest, (readValue_eq_ok_iff hfuel [] .start).mp ⟨k.position, hread⟩⟩
  · rintro ⟨rest, h⟩
    obtain ⟨q, hq⟩ := (readValue_eq_ok_iff hfuel [] .start).mpr h
    rw [parse, Cursor.ofText, hq]
    rfl

theorem Begins.mono {depth deeper : Nat} {text rest : List Char} {v : Json}
    (h : Begins depth text v rest) (hle : depth ≤ deeper) : Begins deeper text v rest := by
  obtain ⟨lead, body, hlead, hbody, hrest⟩ := h
  exact ⟨lead, body, hlead, hbody.mono hle, hrest⟩

-- A text begins with one value only, and that ends at one place only. The reader finds both, if it
-- may go deep enough.
theorem Begins.unique {depth other : Nat} {text rest rest' : List Char} {v w : Json}
    (h : Begins depth text v rest) (h' : Begins other text w rest') : v = w ∧ rest = rest' := by
  have hfuel := Nat.le_refl text.length
  obtain ⟨q, hq⟩ :=
    (readValue_eq_ok_iff hfuel [] .start).mpr (h.mono (Nat.le_max_left depth other))
  obtain ⟨q', hq'⟩ :=
    (readValue_eq_ok_iff hfuel [] .start).mpr (h'.mono (Nat.le_max_right depth other))
  obtain ⟨hv, hk⟩ := Prod.mk.inj (Except.ok.inj (hq.symm.trans hq'))
  exact ⟨hv, congrArg Cursor.rest hk⟩

-- A text that is one value, with nothing but blanks around it.
def OneValue (text : List Char) : Prop :=
  ∃ depth v lead body trail, Gaps lead ∧ Spells depth (.value v) body ∧ Gaps trail ∧
    text = lead ++ (body ++ trail)

theorem stops_of_gaps {gaps : List Char} (h : Gaps gaps) (body : List Char) : Stops body gaps := by
  cases gaps with
  | nil => exact fun _ => nofun
  | cons c gaps =>
      have hc : Cursor.isGap c := h c List.mem_cons_self
      exact stops_of_isDelimiter (by simp [isDelimiter, hc]) body gaps

theorem Begins.oneValue_iff {depth : Nat} {text rest : List Char} {v : Json}
    (h : Begins depth text v rest) : OneValue text ↔ Gaps rest := by
  constructor
  · rintro ⟨other, w, lead, body, trail, hlead, hbody, htrail, htext⟩
    obtain ⟨-, rfl⟩ := h.unique ⟨lead, body, hlead, hbody, stops_of_gaps htrail body, htext⟩
    exact htrail
  · intro hrest
    obtain ⟨lead, body, hlead, hbody, -, htext⟩ := h
    exact ⟨depth, v, lead, body, rest, hlead, hbody, hrest, htext⟩

end YangBinding.Json
