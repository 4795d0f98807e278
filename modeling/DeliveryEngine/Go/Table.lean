import Mathlib.Data.List.Nodup
import Mathlib.Logic.Function.Basic
import Mathlib.Tactic.Lemma

/-!
# Maps that are read with a zero value

A map from text to values that is read with the zero value where it has no entry.  It has finitely many entries,
and a loop over it visits each of them once, in some order.

`Table.get_visit` is what such a loop does when each round looks at, and changes, its own entry only.
-/

namespace DeliveryEngine.Go

/-- A map with a zero value.  Every key with another value is listed; a listed key may hold the zero value. -/
structure Table (α : Type) [Inhabited α] where
  get : String → α
  keys : List String
  nodup : keys.Nodup
  support : ∀ k, k ∉ keys → get k = default

namespace Table

variable {α : Type} [Inhabited α]

def empty : Table α := ⟨fun _ => default, [], List.nodup_nil, fun _ _ => rfl⟩

variable (t : Table α) (k : String) (a : α)

/-- `m[k] = a`. -/
def set : Table α where
  get := Function.update t.get k a
  keys := if k ∈ t.keys then t.keys else t.keys ++ [k]
  nodup := by
    split_ifs with hk
    · exact t.nodup
    · exact t.nodup.append (List.nodup_singleton k) (by simpa using hk)
  support j hj := by
    have hjk : j ≠ k := by
      rintro rfl
      split_ifs at hj with hk
      · exact hj hk
      · exact hj (by simp)
    rw [Function.update_of_ne hjk]
    refine t.support j fun hmem => hj ?_
    split_ifs
    · exact hmem
    · exact List.mem_append_left _ hmem

@[simp] lemma get_set (j : String) :
    (t.set k a).get j = if j = k then a else t.get j := Function.update_apply t.get k a j

lemma mem_keys_of_ne {t : Table α} {k : String} (h : t.get k ≠ default) : k ∈ t.keys := by
  by_contra hk
  exact h (t.support k hk)

/-- A loop over some keys, each round of which changes its own entry. -/
def visit (f : String → α → α) (ks : List String) (t : Table α) : Table α :=
  ks.foldl (fun t k => t.set k (f k (t.get k))) t

variable (f : String → α → α)

lemma visit_cons (k : String) (ks : List String) (t : Table α) :
    visit f (k :: ks) t = visit f ks (t.set k (f k (t.get k))) := rfl

lemma get_visit {ks : List String} (hks : ks.Nodup) (t : Table α) (j : String) :
    (visit f ks t).get j = if j ∈ ks then f j (t.get j) else t.get j := by
  induction ks generalizing t with
  | nil => rfl
  | cons k ks ih =>
    obtain ⟨hk, hks⟩ := List.nodup_cons.mp hks
    rw [visit_cons, ih hks]
    by_cases hj : j = k
    · subst hj
      simp [hk]
    · simp [hj]

end Table

end DeliveryEngine.Go
