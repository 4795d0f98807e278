import Mathlib.Data.Finmap
import Mathlib.Tactic.Lemma

/-!
# Go maps with string keys

A Go `map[string]T` is a finite partial function.  Reading an absent key yields the zero value
of `T`, and ranging over the map visits its keys in an unspecified order.  `GoMap` is Mathlib's
`Finmap`, so two maps with the same entries are equal; a range is a fold over a list of keys
that `Enumerates` the map, and a statement about a range quantifies over every such list.
-/

namespace DeliveryEngine.Go

open List

/-- A Go `map[string]T`. -/
abbrev GoMap (α : Type) := Finmap (fun _ : String => α)

namespace GoMap

variable {α : Type} (m : GoMap α) (k : String)

/-- The value at a key, if present: `v, ok := m[k]`. -/
def get? : Option α := m.lookup k

/-- The value at a key, or the zero value: `m[k]`. -/
def getD (m : GoMap α) (k : String) (zero : α) : α := (m.get? k).getD zero

/-- The assignment `m[k] = v`. -/
def set (v : α) : GoMap α := m.insert k v

/-- The statement `delete(m, k)`. -/
def delete : GoMap α := Finmap.erase k m

/-- The test `len(m) > 0`. -/
def nonempty (m : GoMap α) : Bool := decide (m.keys.Nonempty)

@[simp] lemma get?_empty (k : String) : (∅ : GoMap α).get? k = none := Finmap.lookup_empty k

variable (m : GoMap α)

lemma get?_set (k k' : String) (v : α) : (m.set k v).get? k' = if k' = k then some v else m.get? k' := by
  by_cases h : k' = k
  · subst h
    rw [if_pos rfl]
    exact Finmap.lookup_insert m
  · rw [if_neg h]
    exact Finmap.lookup_insert_of_ne m h

variable {k : String}

@[simp] lemma get?_set_self (k : String) (v : α) : (m.set k v).get? k = some v := by
  rw [get?_set, if_pos rfl]

lemma get?_set_of_ne {k' : String} (v : α) (h : k' ≠ k) : (m.set k v).get? k' = m.get? k' := by
  rw [get?_set, if_neg h]

lemma getD_set (k k' : String) (v zero : α) : (m.set k v).getD k' zero = if k' = k then v else m.getD k' zero := by
  unfold getD
  rw [get?_set]
  split <;> rfl

variable {m}

lemma nonempty_of_getD_ne {zero : α} (h : m.getD k zero ≠ zero) : m.nonempty = true := by
  have hmem : k ∈ m := by
    rw [← Finmap.lookup_isSome, Option.isSome_iff_ne_none]
    exact fun hnone => h (by rw [getD, get?, hnone, Option.getD_none])
  exact decide_eq_true ⟨k, Finmap.mem_keys.mpr hmem⟩

/-! ## Indexing a list -/

section IndexBy
variable {β : Type} (key : β → String) (val : β → α)

/-- The map of a list: `for _, x := range xs { m[key(x)] = val(x) }`. -/
def indexBy (xs : List β) : GoMap α := xs.foldl (fun m x => m.set (key x) (val x)) ∅

/-- The last element of a list with a key. -/
def Latest (xs : List β) (k : String) (x : β) : Prop :=
  ∃ before after, xs = before ++ x :: after ∧ key x = k ∧ ∀ y ∈ after, key y ≠ k

variable {key val}

lemma indexBy_concat (xs : List β) (x : β) :
    indexBy key val (xs ++ [x]) = (indexBy key val xs).set (key x) (val x) := by
  rw [indexBy, foldl_append]
  rfl

variable {xs : List β}

lemma get?_indexBy_of_notMem (h : ∀ x ∈ xs, key x ≠ k) : (indexBy key val xs).get? k = none := by
  induction xs using List.reverseRecOn with
  | nil => exact get?_empty k
  | append_singleton xs x ih =>
    rw [indexBy_concat, get?_set_of_ne _ _ (h x (by simp)).symm]
    exact ih fun y hy => h y (mem_append_left _ hy)

lemma get?_indexBy_of_latest {x : β} (h : Latest key xs k x) : (indexBy key val xs).get? k = some (val x) := by
  obtain ⟨before, after, rfl, rfl, hafter⟩ := h
  induction after using List.reverseRecOn with
  | nil => rw [indexBy_concat, get?_set_self]
  | append_singleton after y ih =>
    rw [show before ++ x :: (after ++ [y]) = (before ++ x :: after) ++ [y] by simp,
      indexBy_concat, get?_set_of_ne _ _ (hafter y (by simp)).symm]
    exact ih fun z hz => hafter z (mem_append_left _ hz)

lemma latest_or_notMem (xs : List β) (k : String) : (∃ x, Latest key xs k x) ∨ ∀ x ∈ xs, key x ≠ k := by
  induction xs with
  | nil => simp
  | cons x xs ih =>
    rcases ih with ⟨y, before, after, rfl, hy⟩ | hnone
    · exact .inl ⟨y, x :: before, after, rfl, hy⟩
    · by_cases hx : key x = k
      · exact .inl ⟨x, [], xs, rfl, hx, hnone⟩
      · exact .inr (forall_mem_cons.mpr ⟨hx, hnone⟩)

lemma get?_indexBy_eq_some {v : α} : (indexBy key val xs).get? k = some v ↔ ∃ x, Latest key xs k x ∧ val x = v := by
  rcases latest_or_notMem xs k with ⟨y, hy⟩ | hnone
  · rw [get?_indexBy_of_latest hy]
    constructor
    · rintro ⟨⟩
      exact ⟨y, hy, rfl⟩
    · rintro ⟨x, hx, rfl⟩
      rw [← get?_indexBy_of_latest hy, get?_indexBy_of_latest hx]
  · rw [get?_indexBy_of_notMem hnone]
    refine ⟨(fun h => nomatch h), ?_⟩
    rintro ⟨x, ⟨before, after, rfl, hx, -⟩, -⟩
    exact absurd hx (hnone x (by simp))

lemma get?_indexBy (hnodup : (xs.map key).Nodup) {x : β} (hx : x ∈ xs) :
    (indexBy key val xs).get? (key x) = some (val x) := by
  obtain ⟨before, after, rfl⟩ := append_of_mem hx
  refine get?_indexBy_of_latest ⟨before, after, rfl, rfl, fun y hy heq => ?_⟩
  rw [map_append, map_cons, nodup_middle, nodup_cons] at hnodup
  exact hnodup.1 (mem_append_right _ (heq ▸ mem_map_of_mem hy))

lemma indexBy_congr {ys : List β} (hnodup : (xs.map key).Nodup) (h : xs.Perm ys) :
    indexBy key val ys = indexBy key val xs := by
  refine Finmap.ext_lookup fun k => ?_
  by_cases hk : ∃ x ∈ xs, key x = k
  · obtain ⟨x, hx, rfl⟩ := hk
    exact (get?_indexBy ((h.map key).nodup_iff.mp hnodup) (h.mem_iff.mp hx)).trans (get?_indexBy hnodup hx).symm
  · push Not at hk
    exact (get?_indexBy_of_notMem fun y hy => hk y (h.mem_iff.mpr hy)).trans (get?_indexBy_of_notMem hk).symm

end IndexBy

/-- A range over the map visits each of its keys once, in the order of the list. -/
def Enumerates (order : List String) (m : GoMap α) : Prop := order.Nodup ∧ ∀ k, k ∈ order ↔ (m.get? k).isSome

variable {order : List String}

lemma Enumerates.of_isSome {β : Type} {m' : GoMap β}
    (h : Enumerates order m) (hsame : ∀ k, (m'.get? k).isSome = (m.get? k).isSome) :
    Enumerates order m' :=
  ⟨h.1, fun k => by rw [hsame k]; exact h.2 k⟩

lemma enumerates_indexBy {β : Type} {key : β → String} {val : β → α} {xs : List β}
    (hnodup : (xs.map key).Nodup) : Enumerates (xs.map key) (indexBy key val xs) := by
  refine ⟨hnodup, fun k => ⟨fun hk => ?_, fun hsome => ?_⟩⟩
  · obtain ⟨x, hx, rfl⟩ := mem_map.mp hk
    rw [get?_indexBy hnodup hx]
    rfl
  · by_contra hk
    have hnone : ∀ x ∈ xs, key x ≠ k := fun x hx heq => hk (heq ▸ mem_map_of_mem hx)
    rw [get?_indexBy_of_notMem hnone] at hsome
    cases hsome

/-- Visits that each change the value under their own key change it as the one visit of that key does. -/
lemma get?_foldl_visits {σ : Type} {m : σ → GoMap α} {g : σ → String → σ} {P : σ → Prop} {f : String → α → α}
    (hvisit : ∀ s k, P s → P (g s k) ∧
      ∀ id, (m (g s k)).get? id = ((m s).get? id).map fun a => if id = k then f k a else a)
    (hnodup : order.Nodup) {s : σ} (hs : P s) (id : String) :
    (m (order.foldl g s)).get? id = ((m s).get? id).map fun a => if id ∈ order then f id a else a := by
  induction order generalizing s with
  | nil => simp
  | cons k order ih =>
    obtain ⟨hk, hnodup⟩ := nodup_cons.mp hnodup
    obtain ⟨hnext, hget⟩ := hvisit s k hs
    rw [foldl_cons, ih hnodup hnext, hget, Option.map_map]
    by_cases hid : id = k
    · subst hid
      simp [Function.comp_def, hk]
    · simp [Function.comp_def, hid]

lemma Enumerates.perm {xs ys : List String} (hxs : Enumerates xs m) (hys : Enumerates ys m) : xs.Perm ys :=
  (perm_ext_iff_of_nodup hxs.1 hys.1).mpr fun k => (hxs.2 k).trans (hys.2 k).symm

end GoMap

end DeliveryEngine.Go
