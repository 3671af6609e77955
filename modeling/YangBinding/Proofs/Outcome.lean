import Mathlib.Data.List.Forall2

-- What a list of pairs related one by one says about a member on the right.
theorem List.Forall₂.exists_of_mem_right {α β : Type} {R : α → β → Prop} {xs : List α}
    {ys : List β} (h : List.Forall₂ R xs ys) {y : β} (hy : y ∈ ys) : ∃ x ∈ xs, R x y := by
  induction h with
  | nil => simp at hy
  | @cons x head xs ys hxy _ ih =>
      rcases List.mem_cons.mp hy with rfl | hy
      · exact ⟨x, List.mem_cons_self, hxy⟩
      · obtain ⟨x', hx', hr⟩ := ih hy
        exact ⟨x', List.mem_cons_of_mem _ hx', hr⟩

namespace Except

variable {ε α β : Type}

theorem bind_eq_ok_iff {x : Except ε α} {f : α → Except ε β} {b : β} :
    x >>= f = .ok b ↔ ∃ a, x = .ok a ∧ f a = .ok b := by
  cases x with
  | error e => simp [bind, Except.bind]
  | ok a => simp [bind, Except.bind]

-- A check that can fail, and what comes after it.
theorem guard_eq_ok_iff {p : Prop} [Decidable p] {e : ε} {next : Unit → Except ε α} {a : α} :
    (if p then throw e >>= next else next ()) = .ok a ↔ ¬ p ∧ next () = .ok a := by
  by_cases hp : p
  · simp [hp, throw, throwThe, MonadExceptOf.throw, bind, Except.bind]
  · simp [hp]

theorem map_eq_ok_iff {x : Except ε α} {f : α → β} {b : β} :
    x.map f = .ok b ↔ ∃ a, x = .ok a ∧ f a = b := by
  cases x with
  | error e => simp [Except.map]
  | ok a => simp [Except.map]

theorem mapM_eq_ok_iff {f : α → Except ε β} {xs : List α} {ys : List β} :
    xs.mapM f = .ok ys ↔ List.Forall₂ (fun x y => f x = .ok y) xs ys := by
  induction xs generalizing ys with
  | nil =>
      rw [List.mapM_nil, List.forall₂_nil_left_iff]
      exact ⟨fun h => (Except.ok.inj h).symm, fun h => h ▸ rfl⟩
  | cons x rest ih =>
      rw [List.mapM_cons, bind_eq_ok_iff, List.forall₂_cons_left_iff]
      constructor
      · rintro ⟨y, hy, h⟩
        obtain ⟨tail, htail, heq⟩ := bind_eq_ok_iff.mp h
        exact ⟨y, tail, hy, ih.mp htail, (Except.ok.inj heq).symm⟩
      · rintro ⟨y, tail, hy, htail, rfl⟩
        exact ⟨y, hy, bind_eq_ok_iff.mpr ⟨tail, ih.mpr htail, rfl⟩⟩

theorem map_bind_eq (x : Except ε α) (f : α → Except ε β) {γ : Type} (g : β → γ) :
    (x >>= f).map g = x >>= fun a => (f a).map g := by
  cases x with
  | error e => rfl
  | ok a => rfl

theorem mapM_map_eq (f : α → Except ε β) {γ : Type} (g : β → γ) (xs : List α) :
    (xs.mapM fun x => (f x).map g) = (xs.mapM f).map (List.map g) := by
  induction xs with
  | nil => rfl
  | cons x rest ih =>
      rw [List.mapM_cons, List.mapM_cons, map_bind_eq, ih]
      cases f x with
      | error e => rfl
      | ok y =>
          cases rest.mapM f with
          | error e => rfl
          | ok ys => rfl

theorem mapM_map_zipWith (f : α → Except ε β) {γ : Type} (g : α → β → γ) (xs : List α) :
    (xs.mapM fun x => (f x).map (g x)) = (xs.mapM f).map (List.zipWith g xs) := by
  induction xs with
  | nil => rfl
  | cons x rest ih =>
      rw [List.mapM_cons, List.mapM_cons, map_bind_eq, ih]
      cases f x with
      | error e => rfl
      | ok y =>
          cases rest.mapM f with
          | error e => rfl
          | ok ys => rfl

-- The error of an outcome that has no value.
def failure? : Except ε α → Option ε
  | .ok _ => none
  | .error e => some e

theorem failure?_eq_none_iff {x : Except ε α} : x.failure? = none ↔ ∃ a, x = .ok a := by
  cases x with
  | error e => simp [failure?]
  | ok a => simp [failure?]

theorem failure?_eq_some_iff {x : Except ε α} {e : ε} : x.failure? = some e ↔ x = .error e := by
  cases x with
  | error e => simp [failure?]
  | ok a => simp [failure?]

theorem failure?_map (x : Except ε α) (f : α → β) : (x.map f).failure? = x.failure? := by
  cases x with
  | error e => rfl
  | ok a => rfl

-- What a second step can fail with counts only when the first has a value.
theorem failure?_bind (x : Except ε α) (f : α → Except ε β) (second : Option ε)
    (h : ∀ a, x = .ok a → (f a).failure? = second) :
    (x >>= f).failure? = x.failure?.or second := by
  cases x with
  | error e => rfl
  | ok a => exact h a rfl

theorem failure?_mapM (f : α → Except ε β) (xs : List α) :
    (xs.mapM f).failure? = xs.findSome? fun x => (f x).failure? := by
  induction xs with
  | nil => rfl
  | cons x rest ih =>
      have hrest (y : β) : (rest.mapM f >>= fun ys => pure (y :: ys)).failure? =
          rest.findSome? fun x => (f x).failure? := by
        rw [failure?_bind _ _ none fun _ _ => rfl, ih, Option.or_none]
      rw [List.mapM_cons, failure?_bind _ _ _ fun y _ => hrest y, List.findSome?_cons]
      cases (f x).failure? with
      | none => rfl
      | some e => rfl

end Except
