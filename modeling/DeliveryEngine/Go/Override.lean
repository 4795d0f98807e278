import Mathlib.Data.List.Basic
import Mathlib.Data.List.Infix
import Mathlib.Tactic.Lemma

/-!
# Lists merged by key

A list of named things is laid over another: a thing whose name the lower list already has takes that place, any other
is added at the end.  The places are looked up once, before anything is laid over; where a name stands twice, its last
place counts.  `laid_override_iff` says when nothing is lost but what is laid over: no two different things of the
upper list may compete for a place.
-/

namespace DeliveryEngine.Go

open List Option

variable {α κ : Type} [DecidableEq κ] (key : α → κ)

/-- The last place of a key: `for i, x := range xs { index[key(x)] = i }`. -/
def lastIdx : List α → κ → Option ℕ
  | [], _ => none
  | x :: xs, k =>
    match lastIdx xs k with
    | some i => some (i + 1)
    | none => if key x = k then some 0 else none

/-- One thing laid over: in the place its key has in `base`, or at the end. -/
def overrideOne (base result : List α) (x : α) : List α :=
  match lastIdx key base (key x) with
  | some i => result.set i x
  | none => result ++ [x]

/-- `upper` laid over `base`. -/
def override (base upper : List α) : List α := upper.foldl (overrideOne key base) base

variable (upper : List α)

/-- The last thing of `upper` with a key. -/
def lastOf (k : κ) : Option α := upper.reverse.find? (fun x => key x = k)

variable {key} {k : κ}

lemma lastIdx_eq_none_iff {xs : List α} : lastIdx key xs k = none ↔ ∀ x ∈ xs, key x ≠ k := by
  induction xs with
  | nil => simp [lastIdx]
  | cons x xs ih =>
    rw [forall_mem_cons, ← ih, lastIdx]
    cases lastIdx key xs k with
    | some i => simp
    | none => simp

variable {i : ℕ}

lemma getElem?_of_lastIdx {xs : List α} (h : lastIdx key xs k = some i) : ∃ x, xs[i]? = some x ∧ key x = k := by
  induction xs generalizing i with
  | nil => cases h
  | cons x xs ih =>
    rw [lastIdx] at h
    split at h
    next j hj =>
      obtain rfl := some.inj h
      exact ih hj
    next =>
      split at h
      next hx =>
        obtain rfl := some.inj h
        exact ⟨x, rfl, hx⟩
      next => cases h

lemma lastOf_concat (x : α) (k : κ) :
    lastOf key (upper ++ [x]) k = if key x = k then some x else lastOf key upper k := by
  rw [lastOf, reverse_append, reverse_singleton, singleton_append]
  by_cases h : key x = k
  · simp [h]
  · simp [h, lastOf]

variable {upper : List α}

lemma lastOf_eq_none_iff : lastOf key upper k = none ↔ ∀ x ∈ upper, key x ≠ k := by simp [lastOf]

variable {x : α}

lemma mem_of_lastOf (h : lastOf key upper k = some x) : x ∈ upper ∧ key x = k := by
  refine ⟨mem_reverse.mp (mem_of_find?_eq_some h), ?_⟩
  simpa using find?_some h

lemma exists_le_of_lastOf {y : α} (hy : upper[i]? = some y) (hk : key y = k) :
    ∃ x j, lastOf key upper k = some x ∧ upper[j]? = some x ∧ i ≤ j := by
  induction upper using List.reverseRecOn generalizing i with
  | nil => simp at hy
  | append_singleton upper x ih =>
    rw [lastOf_concat]
    have hi : i < (upper ++ [x]).length := (List.getElem?_eq_some_iff.mp hy).1
    rw [length_append, length_singleton] at hi
    by_cases hx : key x = k
    · exact ⟨x, upper.length, if_pos hx, by simp, by omega⟩
    · rw [if_neg hx]
      have hlt : i < upper.length := by
        by_contra hge
        obtain rfl : i = upper.length := by omega
        rw [getElem?_concat_length] at hy
        exact hx (some.inj hy ▸ hk)
      rw [getElem?_append_left hlt] at hy
      obtain ⟨z, j, hz, hj, hle⟩ := ih hy
      have hjlt : j < upper.length := (List.getElem?_eq_some_iff.mp hj).1
      exact ⟨z, j, hz, by rw [getElem?_append_left hjlt, hj], hle⟩

/-- What stands at a place of the lower list once `upper` has been laid over it. -/
def placed (key : α → κ) (base upper : List α) (i : ℕ) (x : α) : α :=
  if lastIdx key base (key x) = some i then (lastOf key upper (key x)).getD x else x

lemma override_eq (base upper : List α) : override key base upper =
      base.mapIdx (placed key base upper) ++ upper.filter (fun x => (lastIdx key base (key x)).isNone) := by
  induction upper using List.reverseRecOn with
  | nil =>
    have hplaced : placed key base [] = fun _ x => x := by
      funext i x
      simp [placed, lastOf]
    rw [hplaced]
    refine ext_getElem? fun i => ?_
    simp [override, getElem?_mapIdx]
  | append_singleton upper x ih =>
    rw [override, foldl_append, ← override, ih, foldl_cons, foldl_nil, overrideOne, filter_append]
    split
    next i hi =>
      rw [show [x].filter (fun y => (lastIdx key base (key y)).isNone) = [] by simp [hi], append_nil]
      have hlt : i < base.length := by
        obtain ⟨y, hy, -⟩ := getElem?_of_lastIdx hi
        exact (List.getElem?_eq_some_iff.mp hy).1
      rw [set_append_left _ _ (by simpa using hlt)]
      congr 1
      -- Place `i` takes `x`; at any other place the key differs or is not at its last place.
      refine ext_getElem? fun j => ?_
      rw [getElem?_set, getElem?_mapIdx, getElem?_mapIdx]
      by_cases hij : i = j
      · subst hij
        obtain ⟨y, hy, hkey⟩ := getElem?_of_lastIdx hi
        rw [hy]
        simp [placed, hkey, hi, lastOf_concat, hlt]
      · rw [if_neg hij]
        cases hj : base[j]? with
        | none => rfl
        | some y =>
          have hsame : placed key base (upper ++ [x]) j y = placed key base upper j y := by
            unfold placed
            by_cases hlast : lastIdx key base (key y) = some j
            · have hne : key x ≠ key y := by
                intro heq
                rw [heq, hlast] at hi
                exact hij (some.inj hi).symm
              rw [if_pos hlast, if_pos hlast, lastOf_concat, if_neg hne]
            · rw [if_neg hlast, if_neg hlast]
          rw [map_some, map_some, hsame]
    next hnone =>
      rw [show [x].filter (fun y => (lastIdx key base (key y)).isNone) = [x] by simp [hnone], append_assoc]
      congr 1
      refine mapIdx_eq_mapIdx_iff.mpr fun i hi => ?_
      have hne : key x ≠ key base[i] := fun heq => lastIdx_eq_none_iff.mp hnone base[i] (getElem_mem hi) heq.symm
      unfold placed
      rw [lastOf_concat, if_neg hne]

variable {base : List α}

lemma getElem?_override_of_notMem (hx : base[i]? = some x)
    (hnot : ∀ y ∈ upper, key y ≠ key x) : (override key base upper)[i]? = some x := by
  have hi : i < base.length := (List.getElem?_eq_some_iff.mp hx).1
  rw [override_eq, getElem?_append_left (by simpa using hi), getElem?_mapIdx, hx, map_some,
    placed, lastOf_eq_none_iff.mpr hnot, getD_none, ite_self]

lemma drop_override (base upper : List α) : (override key base upper).drop base.length =
      upper.filter (fun x => (lastIdx key base (key x)).isNone) := by
  rw [override_eq, drop_append_of_le_length (by simp), drop_eq_nil_of_le (by simp), nil_append]

lemma getElem?_override_of_lastOf (hi : lastIdx key base (key x) = some i)
    (hx : lastOf key upper (key x) = some x) : (override key base upper)[i]? = some x := by
  obtain ⟨y, hy, hkey⟩ := getElem?_of_lastIdx hi
  have hlt : i < base.length := (List.getElem?_eq_some_iff.mp hy).1
  rw [override_eq, getElem?_append_left (by simpa using hlt), getElem?_mapIdx, hy, map_some,
    placed, hkey, if_pos hi, hx, getD_some]

lemma mem_of_mem_override (h : x ∈ override key base upper) : x ∈ base ∨ x ∈ upper := by
  rw [override_eq, mem_append, mem_mapIdx] at h
  rcases h with ⟨i, hi, rfl⟩ | h
  · unfold placed
    split
    · cases hlast : lastOf key upper (key base[i]) with
      | none => exact .inl (getElem_mem hi)
      | some y => exact .inr (mem_of_lastOf hlast).1
    · exact .inl (getElem_mem hi)
  · exact .inr (mem_of_mem_filter h)

variable (key) in
/-- `upper` laid over `base` with nothing lost: what is not laid over stays where it was, and each thing of
`upper` is in the place its key has in `base`, or behind `base`. -/
structure Laid (base upper result : List α) : Prop where
  kept : ∀ (i : ℕ) x, base[i]? = some x → (∀ y ∈ upper, key y ≠ key x) → result[i]? = some x
  laid : ∀ x ∈ upper, (∃ i : ℕ, lastIdx key base (key x) = some i ∧ result[i]? = some x) ∨
    (lastIdx key base (key x) = none ∧ x ∈ result.drop base.length)

variable (key) in
/-- No two different things of `upper` compete for a place of `base`. -/
def Agree (base upper : List α) : Prop :=
  ∀ x ∈ upper, ∀ y ∈ upper, key x = key y → (∃ z ∈ base, key z = key x) → x = y

lemma laid_override_iff : Laid key base upper (override key base upper) ↔ Agree key base upper := by
  have hlast : ∀ x ∈ upper, ∀ i, lastIdx key base (key x) = some i →
      ∃ w, lastOf key upper (key x) = some w ∧ (override key base upper)[i]? = some w := by
    intro x hx i hi
    have hsome : lastOf key upper (key x) ≠ none := fun h => lastOf_eq_none_iff.mp h x hx rfl
    obtain ⟨w, hw⟩ := ne_none_iff_exists'.mp hsome
    obtain ⟨-, hkey⟩ := mem_of_lastOf hw
    exact ⟨w, hw, getElem?_override_of_lastOf (hkey ▸ hi) (hkey ▸ hw)⟩
  constructor
  · rintro ⟨-, hlaid⟩ x hx y hy hxy ⟨z, hz, hzx⟩
    -- Both stand in the one place their key has.
    have hplace : ∀ u ∈ upper, key u = key x → lastOf key upper (key x) = some u := by
      intro u hu hux
      rcases hlaid u hu with ⟨i, hi, hui⟩ | ⟨hnone, -⟩
      · obtain ⟨w, hw, hwi⟩ := hlast u hu i hi
        rw [hwi] at hui
        rw [← hux, hw, some.inj hui]
      · exact absurd (hzx.trans hux.symm) (lastIdx_eq_none_iff.mp hnone z hz)
    exact some.inj ((hplace x hx rfl).symm.trans (hplace y hy hxy.symm))
  · refine fun hagree => ⟨fun i x hx hnot => getElem?_override_of_notMem hx hnot, fun x hx => ?_⟩
    cases hi : lastIdx key base (key x) with
    | none =>
      refine .inr ⟨rfl, ?_⟩
      rw [drop_override, mem_filter]
      exact ⟨hx, by rw [hi]; rfl⟩
    | some i =>
      obtain ⟨w, hw, hwi⟩ := hlast x hx i hi
      obtain ⟨hwmem, hwkey⟩ := mem_of_lastOf hw
      obtain ⟨z, hz, hzx⟩ := getElem?_of_lastIdx hi
      rw [hagree w hwmem x hx hwkey ⟨z, mem_of_getElem? hz, hzx.trans hwkey.symm⟩] at hwi
      exact .inl ⟨i, rfl, hwi⟩

@[simp] lemma override_nil : override key [] upper = upper := by
  rw [override_eq]
  simp [lastIdx]

/-! ## Several lists, one over the other -/

variable (key) in
/-- What was declared is in the merged list, or something declared later under the same key is. -/
def Survives (declared result : List α) : Prop :=
  ∀ (i : ℕ) x, declared[i]? = some x → x ∈ result ∨ ∃ (j : ℕ) (y : α), i < j ∧ declared[j]? = some y ∧ key y = key x ∧ y ∈ result

lemma Survives.override {declared : List α} (h : Survives key declared base) :
    Survives key (declared ++ upper) (override key base upper) := by
  -- A thing of the lower list stays, or the last thing of `upper` with its key has its place.
  have hbase : ∀ x ∈ base, x ∈ Go.override key base upper ∨
      ∃ (k : ℕ) (y : α), upper[k]? = some y ∧ key y = key x ∧ y ∈ Go.override key base upper := by
    intro x hx
    obtain ⟨i, hi⟩ := mem_iff_getElem?.mp hx
    rcases hlast : lastOf key upper (key x) with _ | y
    · exact .inl (mem_of_getElem? (getElem?_override_of_notMem hi (lastOf_eq_none_iff.mp hlast)))
    · obtain ⟨hy, hyx⟩ := mem_of_lastOf hlast
      obtain ⟨k, hk⟩ := mem_iff_getElem?.mp hy
      refine .inr ⟨k, y, hk, hyx, ?_⟩
      have hplace : lastIdx key base (key y) ≠ none := fun hn => lastIdx_eq_none_iff.mp hn x hx hyx.symm
      obtain ⟨j, hj⟩ := ne_none_iff_exists'.mp hplace
      exact mem_of_getElem? (getElem?_override_of_lastOf hj (hyx ▸ hlast))
  intro i x hx
  by_cases hi : i < declared.length
  · rw [getElem?_append_left hi] at hx
    -- Its own survivor is in `base`, at `i` or later.
    have hsurv : ∃ (j : ℕ) (y : α), i ≤ j ∧ declared[j]? = some y ∧ key y = key x ∧ y ∈ base ∧ (i = j → y = x) := by
      rcases h i x hx with hmem | ⟨j, y, hij, hy, hkey, hmem⟩
      · exact ⟨i, x, le_rfl, hx, rfl, hmem, fun _ => rfl⟩
      · exact ⟨j, y, hij.le, hy, hkey, hmem, fun h => absurd h hij.ne⟩
    obtain ⟨j, y, hij, hy, hkey, hmem, hsame⟩ := hsurv
    have hj : j < declared.length := (List.getElem?_eq_some_iff.mp hy).1
    rcases hbase y hmem with hin | ⟨k, z, hz, hzy, hin⟩
    · rcases hij.eq_or_lt with heq | hlt
      · exact .inl (hsame heq ▸ hin)
      · exact .inr ⟨j, y, hlt, by rw [getElem?_append_left hj, hy], hkey, hin⟩
    · refine .inr ⟨declared.length + k, z, by omega, ?_, hzy.trans hkey, hin⟩
      rw [getElem?_append_right (by omega), Nat.add_sub_cancel_left, hz]
  · rw [getElem?_append_right (by omega)] at hx
    cases hplace : lastIdx key base (key x) with
    | none =>
      left
      have hmem : x ∈ (Go.override key base upper).drop base.length := by
        rw [drop_override, mem_filter]
        exact ⟨mem_of_getElem? hx, by rw [hplace]; rfl⟩
      exact mem_of_mem_drop hmem
    | some p =>
      obtain ⟨y, k, hlast, hk, hle⟩ := exists_le_of_lastOf hx (rfl : key x = key x)
      obtain ⟨-, hyx⟩ := mem_of_lastOf hlast
      have hin := mem_of_getElem? (getElem?_override_of_lastOf (hyx ▸ hplace) (hyx ▸ hlast))
      rcases hle.eq_or_lt with heq | hlt
      · left
        rw [← heq, hx] at hk
        exact some.inj hk ▸ hin
      · refine .inr ⟨declared.length + k, y, by omega, ?_, hyx, hin⟩
        rw [getElem?_append_right (by omega), Nat.add_sub_cancel_left, hk]

end DeliveryEngine.Go
