import Mathlib.Logic.Function.Basic
import Mathlib.Tactic.Lemma

/-!
# A shared value without a lock

Several processes change one stored value, each by copying it and later writing back what it made of its copy.
`Exclusive` says of a schedule that no process writes back after another has written since its copy was taken.  Then
every copy not overtaken is the stored value (`Cell.Current`), along any schedule.
-/

namespace DeliveryEngine.Runs

variable {ι σ : Type} [DecidableEq ι]

/-- What a process does to the shared value. -/
inductive Access (ι : Type)
  | load (p : ι)
  | save (p : ι)
  | leave (p : ι)

namespace Access

/-- Who has been overtaken: another process has saved since they loaded. -/
def overtaken : Access ι → (ι → Bool) → ι → Bool
  | load p, s => Function.update s p false
  | save p, s => fun q => q ≠ p || s q
  | leave _, s => s

/-- Whether an access is a save by a process that has been overtaken. -/
def isLate : Access ι → (ι → Bool) → Bool
  | save p, s => s p
  | _, _ => false

end Access

/-- No process saves once it has been overtaken. -/
def Exclusive : (ι → Bool) → List (Access ι) → Bool
  | _, [] => true
  | s, a :: rest => !a.isLate s && Exclusive (a.overtaken s) rest

variable (s : ι → Bool)

@[simp]
lemma exclusive_cons (a : Access ι) (rest : List (Access ι)) :
    Exclusive s (a :: rest) = true ↔ a.isLate s = false ∧ Exclusive (a.overtaken s) rest = true := by
  simp [Exclusive]

/-- Who has been overtaken after a schedule. -/
def overtakenBy (s : ι → Bool) (accesses : List (Access ι)) : ι → Bool :=
  accesses.foldl (fun s a => a.overtaken s) s

lemma exclusive_append (before later : List (Access ι)) : Exclusive s (before ++ later) = true ↔
      Exclusive s before = true ∧ Exclusive (overtakenBy s before) later = true := by
  induction before generalizing s with
  | nil => simp [Exclusive, overtakenBy]
  | cons a before ih =>
    rw [List.cons_append, exclusive_cons, exclusive_cons, ih, and_assoc]
    rfl

/-- A stored value, and the copies that processes hold. -/
structure Cell (ι σ : Type) where
  stored : σ
  copy : ι → Option σ

namespace Cell

/-- What an access may do to the cell. -/
structure Next (a : Access ι) (c c' : Cell ι σ) : Prop where
  /-- Only a save changes the stored value. -/
  stored : (∀ p, a ≠ .save p) → c'.stored = c.stored
  /-- What a process loads is the stored value. -/
  loaded : ∀ p v, a = .load p → c'.copy p = some v → v = c.stored
  /-- Nobody else's copy changes. -/
  kept : ∀ p v, a ≠ .load p → c'.copy p = some v → c.copy p = some v
  /-- The one who saves keeps no copy. -/
  saved : ∀ p, a = .save p → c'.copy p = none

/-- Every copy that has not been overtaken is the stored value. -/
def Current (s : ι → Bool) (c : Cell ι σ) : Prop := ∀ p v, s p = false → c.copy p = some v → v = c.stored

lemma Current.next {s : ι → Bool} {a : Access ι} {c c' : Cell ι σ} (h : c.Current s)
    (hnext : Next a c c') : c'.Current (a.overtaken s) := by
  intro p v hp hv
  cases a with
  | load q =>
    rw [hnext.stored (by simp)]
    by_cases hpq : q = p
    · exact hnext.loaded p v (by rw [hpq]) hv
    · refine h p v ?_ (hnext.kept p v (by simpa using hpq) hv)
      simpa [Access.overtaken, Ne.symm hpq] using hp
  | save q =>
    have hpq : p = q := by
      by_contra hne
      simp [Access.overtaken, hne] at hp
    rw [hpq, hnext.saved q rfl] at hv
    cases hv
  | leave q =>
    rw [hnext.stored (by simp)]
    exact h p v hp (hnext.kept p v (by simp) hv)

end Cell

end DeliveryEngine.Runs
