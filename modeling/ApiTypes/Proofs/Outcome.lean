import Mathlib.Data.List.Forall2
import ApiTypes.Error

/-!
# Outcomes

A computation in `Except` that succeeds is opened one bind at a time.
-/

namespace ApiTypes

/-- A computation succeeds exactly if both of its parts do. -/
theorem bind_eq_ok {ε α β : Type} {x : Except ε α} {f : α → Except ε β} {b : β} :
    (x >>= f) = .ok b ↔ ∃ a, x = .ok a ∧ f a = .ok b := by
  cases x with
  | error e => simp [bind, Except.bind]
  | ok a => simp [bind, Except.bind]

/-- A computation fails in the first of its parts that fails. -/
theorem bind_eq_error {ε α β : Type} {x : Except ε α} {f : α → Except ε β} {e : ε} :
    (x >>= f) = .error e ↔ x = .error e ∨ ∃ a, x = .ok a ∧ f a = .error e := by
  cases x with
  | error other => simp [bind, Except.bind]
  | ok a => simp [bind, Except.bind]

theorem map_eq_ok {ε α β : Type} {f : α → β} {x : Except ε α} {b : β} :
    (f <$> x) = .ok b ↔ ∃ a, x = .ok a ∧ f a = b := by
  cases x with
  | error e => simp [Functor.map, Except.map]
  | ok a => simp [Functor.map, Except.map]

theorem eq_ok_of_toOption {ε α : Type} {x : Except ε α} {a : α} (h : x.toOption = some a) :
    x = .ok a := by
  cases x with
  | error e => cases h
  | ok b => exact congrArg Except.ok (Option.some.inj h)

theorem exists_ok_of_isSome {ε α : Type} {x : Except ε α} (h : x.toOption.isSome = true) :
    ∃ a, x = .ok a := by
  cases x with
  | error e => cases h
  | ok a => exact ⟨a, rfl⟩

@[simp] theorem pure_eq_ok {ε α : Type} (a : α) : (pure a : Except ε α) = .ok a := rfl

@[simp] theorem ok_bind {ε α β : Type} (a : α) (f : α → Except ε β) :
    (Except.ok a >>= f) = f a := rfl

@[simp] theorem map_ok {ε α β : Type} (f : α → β) (a : α) :
    (f <$> (Except.ok a : Except ε α)) = .ok (f a) := rfl

theorem ite_bind_eq_ok {ε α β : Type} {c : Prop} [Decidable c] {x y : Except ε α}
    {f : α → Except ε β} {b : β} :
    (if c then x >>= f else y >>= f) = .ok b ↔ ∃ a, (if c then x else y) = .ok a ∧ f a = .ok b := by
  split <;> exact bind_eq_ok

/-- What is lifted from the misuses of values to all errors succeeds with the same value. -/
theorem lift_eq_ok {α : Type} {x : Except Malformed α} {a : α} :
    (liftM x : Except Error α) = .ok a ↔ x = .ok a := by
  cases x with
  | error e => simp [liftM, monadLift, MonadLift.monadLift]
  | ok b => simp [liftM, monadLift, MonadLift.monadLift]

@[simp] theorem lift_ok {α : Type} (a : α) :
    (liftM (Except.ok a : Except Malformed α) : Except Error α) = .ok a := rfl

/-- A list is worked through with success exactly if every element is, in order. -/
theorem mapM_eq_ok {ε α β : Type} {f : α → Except ε β} {list : List α} {result : List β} :
    list.mapM f = .ok result ↔ List.Forall₂ (fun a b => f a = .ok b) list result := by
  induction list generalizing result with
  | nil => simp [eq_comm]
  | cons a list ih =>
    rw [List.mapM_cons]
    simp only [bind_eq_ok, pure_eq_ok, Except.ok.injEq, ih, List.forall₂_cons_left_iff]
    constructor
    · intro h
      rcases h with ⟨b, hb, rest, hrest, rfl⟩
      exact ⟨b, rest, hb, hrest, rfl⟩
    · intro h
      rcases h with ⟨b, rest, hb, hrest, rfl⟩
      exact ⟨b, hb, rest, hrest, rfl⟩

theorem exists_of_forall₂ {α β : Type} {related : α → β → Prop} {left : List α} {right : List β}
    (h : List.Forall₂ related left right) {a : α} (ha : a ∈ left) : ∃ b ∈ right, related a b := by
  induction h with
  | nil => cases ha
  | cons hfirst _ ih =>
    rcases List.mem_cons.mp ha with rfl | hmem
    · exact ⟨_, List.mem_cons_self, hfirst⟩
    · rcases ih hmem with ⟨b, hb, hrelated⟩
      exact ⟨b, List.mem_cons_of_mem _ hb, hrelated⟩

theorem getElem?_of_forall₂ {α β : Type} {related : α → β → Prop} {left : List α} {right : List β}
    (h : List.Forall₂ related left right) {i : Nat} {a : α} (ha : left[i]? = some a) :
    ∃ b, right[i]? = some b ∧ related a b := by
  induction h generalizing i with
  | nil => cases ha
  | cons hfirst _ ih =>
    cases i with
    | zero =>
      cases ha
      exact ⟨_, rfl, hfirst⟩
    | succ i => exact ih ha

theorem forall₂_congr_of_mem {α β : Type} {related other : α → β → Prop} {left : List α}
    {right : List β} (h : ∀ a ∈ left, ∀ b, related a b ↔ other a b) :
    List.Forall₂ related left right ↔ List.Forall₂ other left right := by
  induction left generalizing right with
  | nil => simp
  | cons a left ih =>
    obtain ⟨hfirst, hrest⟩ := List.forall_mem_cons.mp h
    simp only [List.forall₂_cons_left_iff, hfirst, ih hrest]

/-- What every step of a fold keeps holds of its result. -/
theorem foldlM_invariant {ε α β : Type} {f : β → α → Except ε β} {holds : β → Prop}
    {list : List α} (step : ∀ a ∈ list, ∀ b c, holds b → f b a = .ok c → holds c) {start result : β}
    (hstart : holds start) (h : list.foldlM f start = .ok result) : holds result := by
  induction list generalizing start with
  | nil =>
    cases h
    exact hstart
  | cons a list ih =>
    rw [List.foldlM_cons, bind_eq_ok] at h
    rcases h with ⟨next, hnext, hrest⟩
    exact ih (fun b hb => step b (List.mem_cons_of_mem _ hb))
      (step a List.mem_cons_self _ _ hstart hnext) hrest

/-- A fold fails if it comes to an element at which every step fails. -/
theorem foldlM_ne_ok {ε α β : Type} {f : β → α → Except ε β} {list : List α} {a : α} (ha : a ∈ list)
    (step : ∀ b c, f b a ≠ .ok c) (start result : β) : list.foldlM f start ≠ .ok result := by
  intro h
  obtain ⟨before, after, rfl⟩ := List.append_of_mem ha
  rw [List.foldlM_append, bind_eq_ok] at h
  obtain ⟨b, _, h⟩ := h
  rw [List.foldlM_cons, bind_eq_ok] at h
  obtain ⟨c, hc, _⟩ := h
  exact step b c hc

/-- A fold follows another one, if every step follows the other's step. -/
theorem foldlM_simulation {ε α β γ : Type} {f : β → α → Except ε β} {g : γ → α → Except ε γ}
    {related : β → γ → Prop} {list : List α}
    (step : ∀ a ∈ list, ∀ b c next, related b c → f b a = .ok next →
      ∃ other, g c a = .ok other ∧ related next other)
    {b : β} {c : γ} (hstart : related b c) {result : β} (h : list.foldlM f b = .ok result) :
    ∃ other, list.foldlM g c = .ok other ∧ related result other := by
  induction list generalizing b c with
  | nil =>
    cases h
    exact ⟨c, rfl, hstart⟩
  | cons a list ih =>
    rw [List.foldlM_cons, bind_eq_ok] at h
    rcases h with ⟨next, hnext, hrest⟩
    rcases step a List.mem_cons_self b c next hstart hnext with ⟨other, hother, hrelated⟩
    rw [List.foldlM_cons, hother, ok_bind]
    exact ih (fun a hmem => step a (List.mem_cons_of_mem _ hmem)) hrelated hrest

end ApiTypes
