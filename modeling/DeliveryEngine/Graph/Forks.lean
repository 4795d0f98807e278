import Mathlib.Data.List.Chain

/-!
# Lists whose neighbours are comparable

A check that compares each element of a list with the one before it does not compare all pairs.  For
a transitive relation, what it misses is exactly a *fork*: two elements on the same side of one
listed between them.  `pairwise_comparable_iff` says so.
-/

namespace DeliveryEngine.Forks

open List

variable {α : Type} {r : α → α → Prop}

/-- One of the two is related to the other. -/
def Comparable (r : α → α → Prop) (a b : α) : Prop := r a b ∨ r b a

/-- The middle one is related to both of the others, or both of the others to it. -/
def Forked (r : α → α → Prop) (a b c : α) : Prop := r b a ∧ r b c ∨ r a b ∧ r c b

section
variable (htrans : ∀ x y z, r x y → r y z → r x z)
include htrans

lemma comparable_or_forked {a b c : α} (hab : Comparable r a b) (hbc : Comparable r b c) :
    Comparable r a c ∨ Forked r a b c := by
  rcases hab with hab | hab <;> rcases hbc with hbc | hbc
  · exact .inl (.inl (htrans a b c hab hbc))
  · exact .inr (.inr ⟨hab, hbc⟩)
  · exact .inr (.inl ⟨hab, hbc⟩)
  · exact .inl (.inr (htrans c b a hbc hab))

/-- An element comparable with the first of a list of comparable neighbours is comparable with all of
them, if it forks with none of the steps. -/
lemma forall_comparable {x y : α} {ys : List α} (hxy : Comparable r x y) (hchain : (y :: ys).IsChain (Comparable r))
    (hforks : ∀ a b, [a, b].Sublist (y :: ys) → Forked r x a b → Comparable r x b) :
    ∀ z ∈ y :: ys, Comparable r x z := by
  induction ys generalizing y with
  | nil => simpa using hxy
  | cons y' ys ih =>
    rw [isChain_cons_cons] at hchain
    have hxy' : Comparable r x y' := by
      rcases comparable_or_forked htrans hxy hchain.1 with h | h
      · exact h
      · exact hforks y y' (by simp) h
    refine forall_mem_cons.mpr ⟨hxy, ih hxy' hchain.2 fun a b hsub => ?_⟩
    exact hforks a b (hsub.cons _)

/-- When neighbours are comparable, all pairs are exactly when the two ends of every fork are. -/
theorem pairwise_comparable_iff {l : List α} (hchain : l.IsChain (Comparable r)) : l.Pairwise (Comparable r) ↔
      ∀ a b c, [a, b, c].Sublist l → Forked r a b c → Comparable r a c := by
  constructor
  · intro hpair a b c hsub _
    have habc := hpair.sublist hsub
    simp only [pairwise_cons, mem_cons] at habc
    exact habc.1 c (.inr (.inl rfl))
  · intro hforks
    induction l with
    | nil => exact .nil
    | cons x l ih =>
      refine pairwise_cons.mpr ⟨?_, ih hchain.tail fun a b c hsub => ?_⟩
      · cases l with
        | nil => simp
        | cons y ys =>
          rw [isChain_cons_cons] at hchain
          exact forall_comparable htrans hchain.1 hchain.2 fun a b hsub => hforks x a b (hsub.cons_cons x)
      · exact hforks a b c (hsub.cons _)

end

end DeliveryEngine.Forks
