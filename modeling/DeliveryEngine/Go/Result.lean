import Mathlib.Data.List.Forall2
import Mathlib.Tactic.Lemma

/-!
# Results that may be errors

A Go function that can fail returns a value and an error, here an `Except`.  A sequence of calls that
returns at the first error is a chain of binds; these lemmas take a chain that came through apart, one
call at a time.
-/

namespace DeliveryEngine.Go

variable {ε ε' α β : Type} {x : Except ε α} {b : β} {f : α → Except ε β}

lemma bind_eq_ok : (x >>= f) = .ok b ↔ ∃ a, x = .ok a ∧ f a = .ok b := by
  cases x with
  | error e => exact ⟨nofun, nofun⟩
  | ok a =>
    refine ⟨fun h => ⟨a, rfl, h⟩, ?_⟩
    rintro ⟨_, ⟨⟩, h⟩
    exact h

lemma mapError_bind_eq_ok {f : ε → ε'} {g : α → Except ε' β}
    (h : (x.mapError f >>= g) = .ok b) : ∃ a, x = .ok a ∧ g a = .ok b := by
  cases x with
  | error e => cases h
  | ok a => exact ⟨a, rfl, h⟩

lemma mapError_eq_ok {f : ε → ε'} {a : α} : x.mapError f = .ok a ↔ x = .ok a := by
  cases x with
  | error e => simp [Except.mapError]
  | ok b => simp [Except.mapError]

lemma map_eq_ok {f : α → β} : x.map f = .ok b ↔ ∃ a, x = .ok a ∧ f a = b := by
  cases x with
  | error e => simp [Except.map]
  | ok a => simp [Except.map]

variable {g : α → Except ε β} {rest : Except ε β}

lemma refusal_bind_eq_ok {c : Prop} [Decidable c] {e : ε} (h : (if c then throw e >>= g else rest) = .ok b) :
    rest = .ok b := by
  split at h
  · cases h
  · exact h

lemma not_of_refusal_bind {c : Prop} [Decidable c] {e : ε}
    (h : (if c then throw e >>= g else rest) = .ok b) : ¬ c := by
  intro hc
  rw [if_pos hc] at h
  cases h

lemma mapM_eq_ok {xs : List α} {ys : List β} : xs.mapM f = .ok ys ↔ List.Forall₂ (fun x y => f x = .ok y) xs ys := by
  induction xs generalizing ys with
  | nil =>
    rw [List.forall₂_nil_left_iff]
    exact ⟨fun h => (Except.ok.inj h).symm, fun h => h ▸ rfl⟩
  | cons x xs ih =>
    simp only [List.mapM_cons, bind_eq_ok, ih, List.forall₂_cons_left_iff]
    constructor
    · rintro ⟨y, hy, ys, hys, ⟨⟩⟩
      exact ⟨y, ys, hy, hys, rfl⟩
    · rintro ⟨y, ys, hy, hys, rfl⟩
      exact ⟨y, hy, ys, hys, rfl⟩

lemma forM_eq_ok {f : α → Except ε Unit} {xs : List α} : xs.forM f = .ok () ↔ ∀ x ∈ xs, f x = .ok () := by
  induction xs with
  | nil => exact ⟨fun _ _ hx => absurd hx List.not_mem_nil, fun _ => rfl⟩
  | cons x xs ih =>
    rw [show (x :: xs).forM f = (f x >>= fun _ => xs.forM f) from rfl, bind_eq_ok, List.forall_mem_cons, ← ih]
    exact ⟨fun ⟨_, hx, hxs⟩ => ⟨hx, hxs⟩, fun ⟨hx, hxs⟩ => ⟨_, hx, hxs⟩⟩

end DeliveryEngine.Go
