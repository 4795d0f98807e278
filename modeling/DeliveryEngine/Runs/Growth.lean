import Mathlib.Data.List.Basic
import Mathlib.Data.Nat.Init
import Mathlib.Tactic.Lemma

/-!
# Lists that grow along a run

A list kept by a machine that only ever appends one entry at a time: at step `k` it is `f k`.  Later lists
extend earlier ones (`Grows.prefix_of_le`), and every entry of a list that started out empty was appended by
some step (`Grows.exists_step`).
-/

namespace DeliveryEngine.Runs

open List

variable {α : Type}

/-- Each step leaves the list or appends one entry to it. -/
def Grows (f : ℕ → List α) : Prop := ∀ k, f (k + 1) = f k ∨ ∃ x, f (k + 1) = f k ++ [x]

namespace Grows

variable {f : ℕ → List α} (h : Grows f)
include h

lemma prefix_succ (k : ℕ) : f k <+: f (k + 1) := by
  rcases h k with heq | ⟨x, heq⟩
  · exact heq ▸ prefix_rfl
  · exact ⟨[x], heq.symm⟩

lemma prefix_of_le {k n : ℕ} (hle : k ≤ n) : f k <+: f n := by
  induction n, hle using Nat.le_induction with
  | base => exact prefix_rfl
  | succ n _ ih => exact ih.trans (h.prefix_succ n)

lemma lt_of_length_lt {k n : ℕ} (hlt : (f k).length < (f n).length) : k < n := by
  by_contra hle
  exact absurd (h.prefix_of_le (Nat.le_of_not_lt hle)).length_le (by omega)

lemma exists_step (hstart : f 0 = []) {n i : ℕ} {x : α} (hx : (f n)[i]? = some x) :
    ∃ m < n, (f m).length = i ∧ f (m + 1) = f m ++ [x] := by
  induction n with
  | zero =>
    rw [hstart] at hx
    cases hx
  | succ n ih =>
    by_cases hold : i < (f n).length
    · have hsame : (f n)[i]? = some x := by
        obtain ⟨added, hadded⟩ := h.prefix_succ n
        rw [← hx, ← hadded, getElem?_append_left hold]
      obtain ⟨m, hm, hrest⟩ := ih hsame
      exact ⟨m, Nat.lt_succ_of_lt hm, hrest⟩
    · rcases h n with heq | ⟨y, heq⟩
      · rw [heq, getElem?_eq_none (Nat.le_of_not_lt hold)] at hx
        cases hx
      · have hlast : i = (f n).length := by
          have hlt := (List.getElem?_eq_some_iff.mp hx).1
          rw [heq, length_append, length_singleton] at hlt
          omega
        rw [heq, hlast, getElem?_concat_length] at hx
        cases hx
        exact ⟨n, Nat.lt_succ_self n, hlast.symm, heq⟩

end Grows

end DeliveryEngine.Runs
