import YangBinding.Java.Source
import YangBinding.Proofs.Java.Names

namespace YangBinding.Java

section Depth

variable {before after depth : Nat} {cs ds : List Char}

-- How many blocks are open behind a text, unless it closes one that is not open.
def depthAfter : Nat → List Char → Option Nat
  | depth, [] => some depth
  | depth, c :: rest =>
    if c = '\x7b' then depthAfter (depth + 1) rest
    else if c = '\x7d' then if depth = 0 then none else depthAfter (depth - 1) rest
    else depthAfter depth rest

theorem depthAfter_append :
    depthAfter depth (cs ++ ds) = (depthAfter depth cs).bind (depthAfter · ds) := by
  fun_induction depthAfter depth cs with
  | case1 => rfl
  | case2 depth rest ih => simpa [depthAfter] using ih
  | case3 rest => simp [depthAfter]
  | case4 depth rest hdepth _ ih => simpa [depthAfter, hdepth] using ih
  | case5 depth c rest hopen hclose ih => simpa [depthAfter, hopen, hclose] using ih

theorem count_of_depthAfter (h : depthAfter before cs = some after) :
    after + cs.count '\x7d' = before + cs.count '\x7b' := by
  fun_induction depthAfter before cs with
  | case1 => simpa using h.symm
  | case2 depth rest ih =>
      have hrest := ih h
      simp only [List.count_cons_self, List.count_cons, beq_iff_eq, Char.reduceEq, if_false]
      omega
  | case3 rest => cases h
  | case4 depth rest hdepth _ ih =>
      have hrest := ih h
      simp only [List.count_cons_self, List.count_cons, beq_iff_eq, Char.reduceEq, if_false]
      omega
  | case5 depth c rest hopen hclose ih =>
      have hrest := ih h
      rw [List.count_cons_of_ne hopen, List.count_cons_of_ne hclose]
      exact hrest

-- As many blocks are closed as are opened, and none before it is opened.
structure Balanced (cs : List Char) : Prop where
  settled : cs.count '\x7b' = cs.count '\x7d'
  sane : ∀ start, start <+: cs → start.count '\x7d' ≤ start.count '\x7b'

theorem balanced_of_depthAfter (h : depthAfter 0 cs = some 0) : Balanced cs where
  settled := by
    have hcount := count_of_depthAfter h
    omega
  sane := by
    rintro start ⟨rest, rfl⟩
    rw [depthAfter_append] at h
    obtain ⟨depth, hstart, -⟩ := Option.bind_eq_some_iff.mp h
    have hcount := count_of_depthAfter hstart
    omega

end Depth

section Nesting

variable {a b d : Nat} {cs ds : List Char} {line : String} {lines more : List String}

-- Wherever `a` blocks or more are open, the text leaves `b` of these `a` open.
def Nests (a b : Nat) (cs : List Char) : Prop :=
  ∀ depth, depthAfter (depth + a) cs = some (depth + b)

theorem Nests.append (hcs : Nests a b cs) (hds : Nests b d ds) : Nests a d (cs ++ ds) := by
  intro depth
  rw [depthAfter_append, hcs depth]
  exact hds depth

-- One block, which ends the text, with nothing but plain text in front of it.
structure OneBlock (cs : List Char) : Prop where
  balanced : Balanced cs
  outermost : ∃ before inside, cs = before ++ '\x7b' :: (inside ++ ['\x7d', '\n']) ∧
    '\x7b' ∉ before ∧ '\x7d' ∉ before ∧ Balanced inside

theorem Nests.balanced (h : Nests 0 0 cs) : Balanced cs := balanced_of_depthAfter (h 0)

theorem Nests.shift (h : Nests a b cs) (k : Nat) : Nests (a + k) (b + k) cs := by
  intro depth
  have hdepth := h (depth + k)
  rwa [Nat.add_right_comm, Nat.add_right_comm depth k b, Nat.add_assoc, Nat.add_assoc] at hdepth

-- The lines of a text, one after the other.
inductive LinesNest : Nat → Nat → List String → Prop
  | nil (a : Nat) : LinesNest a a []
  | cons {a b d : Nat} {line : String} {lines : List String} (head : Nests a b line.toList)
      (tail : LinesNest b d lines) : LinesNest a d (line :: lines)

namespace LinesNest

theorem single (h : Nests a b line.toList) : LinesNest a b [line] := .cons h (.nil b)

theorem append (h : LinesNest a b lines) (hmore : LinesNest b d more) :
    LinesNest a d (lines ++ more) := by
  induction h with
  | nil => exact hmore
  | cons head _ ih => exact .cons head (ih hmore)

theorem shift (h : LinesNest a b lines) (k : Nat) : LinesNest (a + k) (b + k) lines := by
  induction h with
  | nil => exact .nil _
  | cons head _ ih => exact .cons (head.shift k) ih

theorem flatMap {α : Type} {items : List α} {f : α → List String}
    (h : ∀ item ∈ items, LinesNest a a (f item)) : LinesNest a a (items.flatMap f) := by
  induction items with
  | nil => exact .nil a
  | cons item rest ih =>
      rw [List.forall_mem_cons] at h
      exact h.1.append (ih h.2)

end LinesNest

end Nesting

section Braceless

variable {a b : Nat} {text other ident : String} {lines : List String} {texts : List String}

def braceless (text : String) : Bool := text.toList.all fun c => c != '\x7b' && c != '\x7d'

theorem braceless_iff : braceless text ↔ '\x7b' ∉ text.toList ∧ '\x7d' ∉ text.toList := by
  simp only [braceless, List.all_eq_true, Bool.and_eq_true, bne_iff_ne]
  constructor
  · intro h
    exact ⟨fun hopen => (h _ hopen).1 rfl, fun hclose => (h _ hclose).2 rfl⟩
  · rintro ⟨hopen, hclose⟩ c hc
    exact ⟨fun heq => hopen (heq ▸ hc), fun heq => hclose (heq ▸ hc)⟩

-- A literal is spelled out before it is searched, as reading it back from its bytes is slow.
theorem braceless_ofList {cs : List Char}
    (h : cs.all fun c => c != '\x7b' && c != '\x7d') : braceless (String.ofList cs) := by
  rw [braceless, String.toList_ofList]
  exact h

@[simp] theorem braceless_append :
    braceless (text ++ other) ↔ braceless text ∧ braceless other := by
  simp [braceless, String.toList_append]

def AllBraceless (texts : List String) : Prop := ∀ text ∈ texts, braceless text

instance (texts : List String) : Decidable (AllBraceless texts) :=
  inferInstanceAs (Decidable (∀ text ∈ texts, braceless text))

@[simp] theorem allBraceless_nil : AllBraceless [] := nofun

@[simp] theorem allBraceless_cons :
    AllBraceless (text :: texts) ↔ braceless text ∧ AllBraceless texts := List.forall_mem_cons

@[simp] theorem allBraceless_append :
    AllBraceless (texts ++ lines) ↔ AllBraceless texts ∧ AllBraceless lines :=
  List.forall_mem_append

theorem allBraceless_flatMap {α : Type} {items : List α} {f : α → List String} :
    AllBraceless (items.flatMap f) ↔ ∀ item ∈ items, AllBraceless (f item) := by
  simp only [AllBraceless, List.mem_flatMap]
  exact ⟨fun h item hitem text htext => h text ⟨item, hitem, htext⟩,
    fun h text ⟨item, hitem, htext⟩ => h item hitem text htext⟩

theorem braceless_join (h : AllBraceless texts) : braceless (String.join texts) := by
  induction texts with
  | nil => simp [braceless]
  | cons text rest ih =>
      rw [allBraceless_cons] at h
      simp [h.1, ih h.2]

theorem braceless_intercalate {divider : String} (hdivider : braceless divider)
    (h : AllBraceless texts) : braceless (String.intercalate divider texts) := by
  induction texts with
  | nil => simp [braceless]
  | cons text rest ih =>
      rw [allBraceless_cons] at h
      cases rest with
      | nil => simpa using h.1
      | cons next rest =>
          rw [String.intercalate_cons_cons]
          simp [h.1, hdivider, ih h.2]

theorem braceless_of_subset (hsub : text.toList ⊆ other.toList) (h : braceless other) :
    braceless text := by
  rw [braceless_iff] at h ⊢
  exact ⟨fun hopen => h.1 (hsub hopen), fun hclose => h.2 (hsub hclose)⟩

theorem nests_of_braceless (h : braceless text) (a : Nat) : Nests a a text.toList := by
  intro depth
  unfold braceless at h
  generalize text.toList = cs at h ⊢
  induction cs with
  | nil => rfl
  | cons c rest ih =>
      rw [List.all_cons, Bool.and_eq_true, Bool.and_eq_true, bne_iff_ne, bne_iff_ne] at h
      rw [depthAfter, if_neg h.1.1, if_neg h.1.2]
      exact ih h.2

theorem oneBlock_of_nests (htext : braceless text) {inside : List Char} (h : Nests 0 0 inside) :
    OneBlock (text.toList ++ '\x7b' :: (inside ++ ['\x7d', '\n'])) where
  balanced := by
    have hopening : Nests 0 1 ['\x7b'] := fun depth => by simp [depthAfter]
    have hclosing : Nests 1 0 ['\x7d', '\n'] := fun depth => by simp [depthAfter]
    have hblock := hopening.append ((h.shift 1).append hclosing)
    exact ((nests_of_braceless htext 0).append hblock).balanced
  outermost := by
    obtain ⟨hopen, hclose⟩ := braceless_iff.mp htext
    exact ⟨text.toList, inside, rfl, hopen, hclose, h.balanced⟩

namespace LinesNest

theorem of_braceless (h : AllBraceless lines) : LinesNest a a lines := by
  induction lines with
  | nil => exact .nil a
  | cons line rest ih =>
      rw [allBraceless_cons] at h
      exact .cons (nests_of_braceless h.1 a) (ih h.2)

theorem indent (htext : braceless text) (h : LinesNest a b lines) :
    LinesNest a b (lines.map (text ++ ·)) := by
  induction h with
  | nil => exact .nil _
  | cons head _ ih =>
      refine .cons ?_ ih
      rw [String.toList_append]
      exact (nests_of_braceless htext _).append head

theorem ended {ending : String} (h : braceless text) (hending : Nests a b ending.toList) :
    LinesNest a b [text ++ ending] := by
  refine .single ?_
  rw [String.toList_append]
  exact (nests_of_braceless h a).append hending

theorem joinLines (h : LinesNest a b lines) : Nests a b (joinLines lines).toList := by
  induction h with
  | nil => intro depth; rfl
  | cons head _ ih =>
      have hend : braceless "\n" := braceless_ofList (by decide)
      rw [Java.joinLines, List.map_cons, String.join_cons, String.toList_append,
        String.toList_append]
      exact (head.append (nests_of_braceless hend _)).append ih

end LinesNest

end Braceless

section Names

variable {ident : String}

theorem eq_of_brace_mem_upper {c d : Char} (h : d ∈ Text.upper c)
    (hd : 0x7B ≤ d.toNat ∧ d.toNat ≤ 0x7D) : d = c :=
  Text.eq_of_mem_map_caseImage (by decide) (by decide +kernel) (by decide +kernel) h hd

theorem eq_of_brace_mem_lower {c d : Char} (h : d ∈ Text.lower c)
    (hd : 0x7B ≤ d.toNat ∧ d.toNat ≤ 0x7D) : d = c :=
  Text.eq_of_mem_map_caseImage (by decide) (by decide +kernel) (by decide +kernel) h hd

theorem braceless_className (h : braceless ident) : braceless (className ident) := by
  rw [braceless_iff] at h ⊢
  constructor
  · intro hopen
    exact h.1 (mem_of_mem_className (fun _ hd => eq_of_brace_mem_upper hd (by decide)) hopen)
  · intro hclose
    exact h.2 (mem_of_mem_className (fun _ hd => eq_of_brace_mem_upper hd (by decide)) hclose)

theorem braceless_lowerCamel (h : braceless ident) : braceless (lowerCamel ident) := by
  rw [braceless_iff] at h ⊢
  constructor
  · intro hopen
    exact h.1 (mem_of_mem_lowerCamel (fun _ hd => eq_of_brace_mem_upper hd (by decide))
      (fun _ hd => eq_of_brace_mem_lower hd (by decide)) hopen)
  · intro hclose
    exact h.2 (mem_of_mem_lowerCamel (fun _ hd => eq_of_brace_mem_upper hd (by decide))
      (fun _ hd => eq_of_brace_mem_lower hd (by decide)) hclose)

theorem braceless_memberName (h : braceless ident) : braceless (memberName ident) := by
  unfold memberName
  dsimp only
  split
  · exact braceless_append.mpr ⟨braceless_lowerCamel h, braceless_ofList (by decide)⟩
  · exact braceless_lowerCamel h

theorem braceless_valueParam (h : braceless ident) : braceless (valueParam ident) :=
  braceless_append.mpr ⟨braceless_lowerCamel h, braceless_ofList (by decide)⟩

end Names

section Dates

theorem braceless_of_isDigit {text : String} (h : ∀ c ∈ text.toList, c.isDigit) :
    braceless text := by
  rw [braceless_iff]
  constructor
  · intro hopen
    exact absurd (h _ hopen) (by decide)
  · intro hclose
    exact absurd (h _ hclose) (by decide)

theorem braceless_toString (n : Nat) : braceless (toString n) := by
  refine braceless_of_isDigit fun c hc => ?_
  rw [Nat.toString_eq_ofList_toDigits, String.toList_ofList] at hc
  exact Nat.isDigit_of_mem_toDigits (by decide) (by decide) hc

theorem braceless_padded (width n : Nat) : braceless (Date.padded width n) := by
  refine braceless_of_isDigit fun c hc => ?_
  rw [Date.padded, String.toList_ofList, List.mem_append] at hc
  rcases hc with hc | hc
  · rw [List.eq_of_mem_replicate hc]
    decide
  · exact Nat.isDigit_of_mem_toDigits (by decide) (by decide) hc

theorem braceless_short (d : Date) : braceless d.short := by
  simp only [Date.short, braceless_append, braceless_toString, braceless_padded, and_true,
    true_and, and_self]
  exact braceless_ofList (by decide)

theorem braceless_yearText (year : Int) : braceless (Date.yearText year) := by
  refine braceless_append.mpr ⟨?_, braceless_padded _ _⟩
  split
  · exact braceless_ofList (by decide)
  · split
    · exact braceless_ofList (by decide)
    · exact braceless_ofList (by decide)

theorem braceless_long (d : Date) : braceless d.long := by
  simp only [Date.long, braceless_append, braceless_toString, braceless_yearText, and_true,
    true_and, and_self]
  exact braceless_ofList (by decide)

end Dates

end YangBinding.Java
