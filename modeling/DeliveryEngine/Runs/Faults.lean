import DeliveryEngine.Runs.Program

/-!
# A store whose operations may fail

A store behind a transport answers an operation with an error in two ways: the operation never happened, or it
did and only its answer was lost.  Which of the two happens, and when, is decided by a list of faults that stands
beside the store, so a statement about every list is a statement about every way in which operations can fail.

`Faulty.serve_cases` is all that a proof needs to know of it.
-/

namespace DeliveryEngine.Runs

/-- What happens to one operation. -/
inductive Fault (ε : Type)
  | clean
  /-- The operation does not happen. -/
  | refused (e : ε)
  /-- The operation happens, and its answer is lost. -/
  | unacknowledged (e : ε)

/-- A store, and what will happen to the operations on it; beyond the end of the list they are clean. -/
structure Faulty (σ ε : Type) where
  store : σ
  faults : List (Fault ε) := []

namespace Faulty

variable {Q : Type} {A : Q → Type} {σ ε : Type} (serve : (q : Q) → σ → A q × σ)

/-- The answer of an operation to which a fault happens, and the store after it. -/
def answer (fault : Fault ε) (q : Q) (s : σ) : Except ε (A q) × σ :=
  match fault with
  | .clean => (.ok (serve q s).1, (serve q s).2)
  | .refused e => (.error e, s)
  | .unacknowledged e => (.error e, (serve q s).2)

variable (q : Q) (c : Faulty σ ε)

def serveFaulty : Except ε (A q) × Faulty σ ε :=
  let r := answer serve (c.faults.headD .clean) q c.store
  (r.1, ⟨r.2, c.faults.tail⟩)

lemma serve_cases :
    ((serveFaulty serve q c).1 = .ok (serve q c.store).1 ∧ (serveFaulty serve q c).2.store = (serve q c.store).2) ∨
    ∃ e, (serveFaulty serve q c).1 = .error e ∧
      ((serveFaulty serve q c).2.store = c.store ∨ (serveFaulty serve q c).2.store = (serve q c.store).2) := by
  rw [serveFaulty]
  cases c.faults.headD .clean with
  | clean => exact .inl ⟨rfl, rfl⟩
  | refused e => exact .inr ⟨e, rfl, .inl rfl⟩
  | unacknowledged e => exact .inr ⟨e, rfl, .inr rfl⟩

end Faulty

end DeliveryEngine.Runs
