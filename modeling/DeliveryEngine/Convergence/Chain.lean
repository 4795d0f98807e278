import DeliveryEngine.Convergence.Handlers

/-!
# The wisps of a loop

The wisps of a loop form a chain: the iterations are numbered from one on, in the order in which the wisps were
poured, and only the last wisp may be open.  So the number of closed wisps is the last iteration that has ended, and the next
one to be poured has the number after it.
-/

namespace DeliveryEngine.Convergence

open List
open MemStore (Status)

def closedOf (wisps : List Wisp) : List Wisp := wisps.filter (·.status = .closed)

def openOf (wisps : List Wisp) : List Wisp := wisps.filter (·.status ≠ .closed)

structure Chain (wisps : List Wisp) (minted : ℕ) : Prop where
  split : wisps = closedOf wisps ++ openOf wisps
  one : (openOf wisps).length ≤ 1
  numbered : wisps.map Wisp.iteration = List.range' 1 wisps.length
  nodup : (wisps.map Wisp.id).Nodup
  fresh : ∀ x ∈ wisps, x.id < minted

variable {wisps : List Wisp} {minted : ℕ} {x : Wisp}

/-! ## Changes -/

section
variable {f : Wisp → Wisp} (hstatus : ∀ x, (f x).status = x.status)
include hstatus

lemma filter_status_map (p : Status → Bool) :
    (wisps.map f).filter (fun x => p x.status) = (wisps.filter fun x => p x.status).map f := by
  have hp : ((fun x : Wisp => p x.status) ∘ f) = fun x => p x.status := by
    funext x
    simp [hstatus]
  rw [filter_map, hp]

lemma closedOf_map : closedOf (wisps.map f) = (closedOf wisps).map f := filter_status_map hstatus (· = .closed)

lemma openOf_map : openOf (wisps.map f) = (openOf wisps).map f := filter_status_map hstatus (· ≠ .closed)

lemma Chain.map (h : Chain wisps minted) (hid : ∀ x, (f x).id = x.id)
    (hiteration : ∀ x, (f x).iteration = x.iteration) : Chain (wisps.map f) minted where
  split := by rw [closedOf_map hstatus, openOf_map hstatus, ← map_append, ← h.split]
  one := by
    rw [openOf_map hstatus, length_map]
    exact h.one
  numbered := by
    rw [map_map, length_map, show Wisp.iteration ∘ f = Wisp.iteration from funext hiteration]
    exact h.numbered
  nodup := by
    rw [map_map, show Wisp.id ∘ f = Wisp.id from funext hid]
    exact h.nodup
  fresh y hy := by
    obtain ⟨x, hx, rfl⟩ := mem_map.mp hy
    rw [hid]
    exact h.fresh x hx

end

def changeAt (id : WispID) (f : Wisp → Wisp) (x : Wisp) : Wisp := if x.id = id then f x else x

lemma changeAt_field {α : Type} (field : Wisp → α) (id : WispID) (f : Wisp → Wisp)
    (hf : ∀ x, field (f x) = field x) (x : Wisp) : field (changeAt id f x) = field x := by
  rw [changeAt]
  split
  · exact hf x
  · rfl

lemma changeAt_of_ne {id : WispID} {f : Wisp → Wisp} (hx : x.id ≠ id) : changeAt id f x = x := if_neg hx

lemma changeAt_self (f : Wisp → Wisp) : changeAt x.id f x = f x := if_pos rfl

variable (done : List Wisp)

lemma closedOf_closed (hdone : ∀ x ∈ done, x.status = .closed) : closedOf done = done :=
  filter_eq_self.mpr fun x hx => by simpa using hdone x hx

lemma openOf_closed (hdone : ∀ x ∈ done, x.status = .closed) : openOf done = [] :=
  filter_eq_nil_iff.mpr fun x hx => by simpa using hdone x hx

lemma closedOf_status (hx : x ∈ closedOf wisps) : x.status = .closed := by simpa using (mem_filter.mp hx).2

lemma closedOf_concat_open (hopen : x.status ≠ .closed) : closedOf (wisps ++ [x]) = closedOf wisps := by
  simp [hopen, closedOf]

variable {done}

lemma chain_concat (hdone : ∀ y ∈ done, y.status = .closed)
    (hnumbered : done.map Wisp.iteration = List.range' 1 done.length) (hiteration : x.iteration = done.length + 1)
    (hnodup : ((done ++ [x]).map Wisp.id).Nodup) (hfresh : ∀ y ∈ done ++ [x], y.id < minted) :
    Chain (done ++ [x]) minted where
  split := by
    rw [closedOf, openOf, filter_append, filter_append, ← closedOf, ← openOf, closedOf_closed done hdone,
      openOf_closed done hdone]
    by_cases hx : x.status = .closed <;> simp [hx]
  one := by
    rw [openOf, filter_append, ← openOf, openOf_closed done hdone]
    exact (length_filter_le _ _).trans (by simp)
  numbered := by
    rw [map_append, hnumbered, length_append, map_singleton, hiteration, length_singleton, range'_concat]
    simp [Nat.add_comm]
  nodup := hnodup
  fresh := hfresh

lemma chain_of_closed (hdone : ∀ y ∈ done, y.status = .closed)
    (hnumbered : done.map Wisp.iteration = List.range' 1 done.length) (hnodup : (done.map Wisp.id).Nodup)
    (hfresh : ∀ y ∈ done, y.id < minted) : Chain done minted where
  split := by rw [closedOf_closed done hdone, openOf_closed done hdone, append_nil]
  one := by rw [openOf_closed done hdone]; exact Nat.zero_le _
  numbered := hnumbered
  nodup := hnodup
  fresh := hfresh

/-! ## What the children say -/

lemma childStats_closed (wisps : List Wisp) : (childStats wisps).closedCount = (closedOf wisps).length ∧
    (childStats wisps).highestClosed = (closedOf wisps).foldl higher none := by
  induction wisps using List.reverseRecOn with
  | nil => exact ⟨rfl, rfl⟩
  | append_singleton wisps x ih =>
    rw [childStats] at ih ⊢
    obtain ⟨hcount, hhighest⟩ := ih
    cases hstatus : x.status <;> simp [closedOf, hstatus, hcount, hhighest]

lemma childStats_closedCount (wisps : List Wisp) : (childStats wisps).closedCount = (closedOf wisps).length :=
  (childStats_closed wisps).1

lemma foldl_higher (wisps : List Wisp) (hsorted : wisps.Pairwise fun x y => x.iteration < y.iteration) :
    wisps.foldl higher none = wisps.getLast? := by
  induction wisps using List.reverseRecOn with
  | nil => rfl
  | append_singleton wisps x ih =>
    rw [foldl_append, ih (pairwise_append.mp hsorted).1, getLast?_concat]
    cases hlast : wisps.getLast? with
    | none => rfl
    | some y =>
      have hlt : y.iteration < x.iteration :=
        (pairwise_append.mp hsorted).2.2 y (mem_of_getLast? hlast) x (mem_singleton_self x)
      simp [higher, hlt]

/-- The closed wisp that was poured last. -/
def lastClosed (wisps : List Wisp) : Option Wisp := (closedOf wisps).getLast?

lemma lastClosed_mem (h : lastClosed wisps = some x) : x ∈ wisps ∧ x.status = .closed := by
  have hmem := mem_of_getLast? h
  exact ⟨mem_of_mem_filter hmem, closedOf_status hmem⟩

/-! ## What holds of a chain -/

namespace Chain

variable {y : Wisp} (h : Chain wisps minted)
include h

lemma iteration_getElem {i : ℕ} (hi : wisps[i]? = some x) : x.iteration = i + 1 := by
  have hmap : (wisps.map Wisp.iteration)[i]? = some x.iteration := by rw [getElem?_map, hi, Option.map_some]
  rw [h.numbered] at hmap
  obtain ⟨hlt, heq⟩ := List.getElem?_eq_some_iff.mp hmap
  rw [getElem_range'] at heq
  omega

lemma length_eq : wisps.length = (closedOf wisps).length + (openOf wisps).length := by
  conv_lhs => rw [h.split]
  rw [length_append]

variable {n : ℕ}

lemma exists_iteration (hn : 1 ≤ n) (hlen : n ≤ wisps.length) : ∃ x ∈ wisps, x.iteration = n := by
  have hlt : n - 1 < wisps.length := by omega
  refine ⟨wisps[n - 1], getElem_mem hlt, ?_⟩
  have := h.iteration_getElem (getElem?_eq_getElem hlt)
  omega

lemma numbered_closed : (closedOf wisps).map Wisp.iteration = List.range' 1 (closedOf wisps).length := by
  have htake : (closedOf wisps).map Wisp.iteration = (wisps.map Wisp.iteration).take (closedOf wisps).length := by
    conv_rhs => rw [h.split]
    rw [map_append, ← h.split]
    simp
  rw [htake, h.numbered, h.length_eq, ← range'_append_1]
  exact take_left' length_range'

lemma next (hnone : ∀ x ∈ wisps, x.iteration ≠ n) (hpos : 1 ≤ n)
    (hle : n ≤ (closedOf wisps).length + 1) : n = (closedOf wisps).length + 1 ∧ wisps = closedOf wisps := by
  have hlen : wisps.length < n := by
    by_contra hle'
    obtain ⟨x, hx, hxn⟩ := h.exists_iteration hpos (by omega)
    exact hnone x hx hxn
  have hopen : openOf wisps = [] := eq_nil_of_length_eq_zero (by have := h.length_eq; omega)
  have hsplit := h.split
  rw [hopen, append_nil] at hsplit
  have hlen' : wisps.length = (closedOf wisps).length := congrArg List.length hsplit
  exact ⟨by omega, hsplit⟩

lemma pour (hnone : ∀ x ∈ wisps, x.iteration ≠ n) (hpos : 1 ≤ n)
    (hle : n ≤ (closedOf wisps).length + 1) (hidden : Bool) :
    Chain (wisps ++ [{ id := minted, iteration := n, hidden }]) (minted + 1) := by
  obtain ⟨hn, hclosed⟩ := h.next hnone hpos hle
  have hdone : ∀ y ∈ wisps, y.status = .closed := fun y hy => by
    rw [hclosed] at hy
    exact closedOf_status hy
  refine chain_concat hdone h.numbered ?_ ?_ fun y hy => ?_
  · rw [hn, ← hclosed]
  · rw [map_append, map_singleton, ← concat_eq_append]
    refine h.nodup.concat fun hmem => ?_
    obtain ⟨y, hy, hid⟩ := mem_map.mp hmem
    exact absurd hid (h.fresh y hy).ne
  · rcases mem_append.mp hy with hy | hy
    · exact (h.fresh y hy).trans (Nat.lt_succ_self _)
    · rw [mem_singleton.mp hy]
      exact Nat.lt_succ_self _

lemma chain_closedOf : Chain (closedOf wisps) minted :=
  chain_of_closed (fun _ => closedOf_status) h.numbered_closed ((filter_sublist.map _).nodup h.nodup)
    fun y hy => h.fresh y (mem_of_mem_filter hy)

lemma highestClosed : (childStats wisps).highestClosed = lastClosed wisps := by
  rw [(childStats_closed wisps).2]
  refine foldl_higher _ ?_
  have hsorted : ((closedOf wisps).map Wisp.iteration).Pairwise (· < ·) := by
    rw [h.numbered_closed]
    exact pairwise_lt_range'
  exact pairwise_map.mp hsorted

variable (hx : x ∈ wisps)
include hx

lemma eq_of_id (hy : y ∈ wisps) (hid : x.id = y.id) : x = y := inj_on_of_nodup_map h.nodup hx hy hid

lemma eq_of_iteration (hy : y ∈ wisps) (heq : x.iteration = y.iteration) : x = y := by
  obtain ⟨i, hi⟩ := mem_iff_getElem?.mp hx
  obtain ⟨j, hj⟩ := mem_iff_getElem?.mp hy
  have := h.iteration_getElem hi
  have := h.iteration_getElem hj
  obtain rfl : i = j := by omega
  exact Option.some.inj (hi.symm.trans hj)

lemma iteration_le (hclosed : x.status = .closed) : 1 ≤ x.iteration ∧ x.iteration ≤ (closedOf wisps).length := by
  have hmem : x ∈ closedOf wisps := mem_filter.mpr ⟨hx, by simpa using hclosed⟩
  obtain ⟨i, hi⟩ := mem_iff_getElem?.mp hmem
  have hlt := (List.getElem?_eq_some_iff.mp hi).1
  have hi' : wisps[i]? = some x := by
    rw [h.split, getElem?_append_left hlt]
    exact hi
  have := h.iteration_getElem hi'
  omega

section
variable (hopen : x.status ≠ .closed)
include hopen

lemma eq_concat : openOf wisps = [x] ∧ wisps = closedOf wisps ++ [x] := by
  have hmem : x ∈ openOf wisps := mem_filter.mpr ⟨hx, by simpa using hopen⟩
  have hone : openOf wisps = [x] := by
    obtain ⟨z, hz⟩ := length_eq_one_iff.mp (le_antisymm h.one (length_pos_iff.mpr (ne_nil_of_mem hmem)))
    rw [hz] at hmem ⊢
    rw [mem_singleton.mp hmem]
  refine ⟨hone, ?_⟩
  conv_lhs => rw [h.split]
  rw [hone]

lemma iteration_eq : x.iteration = (closedOf wisps).length + 1 := by
  have hi := congrArg (·[(closedOf wisps).length]?) (h.eq_concat hx hopen).2
  exact h.iteration_getElem (by simpa using hi)

lemma map_open (f : Wisp → Wisp) : wisps.map (changeAt x.id f) = closedOf wisps ++ [f x] := by
  obtain ⟨-, heq⟩ := h.eq_concat hx hopen
  conv_lhs => rw [heq]
  rw [map_append, map_singleton, changeAt_self]
  congr 1
  have hne : ∀ y ∈ closedOf wisps, changeAt x.id f y = y := fun y hy => by
    refine changeAt_of_ne fun hid => hopen ?_
    rw [← h.eq_of_id (mem_of_mem_filter hy) hx hid]
    exact closedOf_status hy
  rw [map_congr_left hne, map_id']

lemma setStatus (status : Status) : Chain (closedOf wisps ++ [{ x with status }]) minted := by
  obtain ⟨-, heq⟩ := h.eq_concat hx hopen
  have hids : (closedOf wisps ++ [{ x with status }]).map Wisp.id = wisps.map Wisp.id := by
    conv_rhs => rw [heq]
    rw [map_append, map_append]
    rfl
  have hiteration : x.iteration = (closedOf wisps).length + 1 := h.iteration_eq hx hopen
  refine chain_concat (fun _ => closedOf_status) h.numbered_closed hiteration (hids ▸ h.nodup) fun y hy => ?_
  have hid : y.id ∈ wisps.map Wisp.id := hids ▸ mem_map_of_mem hy
  obtain ⟨z, hz, hzid⟩ := mem_map.mp hid
  exact hzid ▸ h.fresh z hz

end

lemma closed_of_iteration (hle : x.iteration ≤ (closedOf wisps).length) : x.status = .closed := by
  by_contra hopen
  have := h.iteration_eq hx hopen
  omega

lemma eq_dropLast_concat (htop : ∀ y ∈ wisps, y.iteration ≤ x.iteration) : wisps = wisps.dropLast ++ [x] := by
  have hne := ne_nil_of_mem hx
  have hlast := h.iteration_getElem (getLast?_eq_getElem? ▸ getLast?_eq_some_getLast hne)
  obtain ⟨i, hi⟩ := mem_iff_getElem?.mp hx
  have hlt := (List.getElem?_eq_some_iff.mp hi).1
  have hxi := h.iteration_getElem hi
  have htop := htop _ (getLast_mem hne)
  have heq : x = wisps.getLast hne := h.eq_of_iteration hx (getLast_mem hne) (by omega)
  rw [heq, dropLast_append_getLast]

lemma filter_top (htop : ∀ y ∈ wisps, y.iteration ≤ x.iteration) : Chain (wisps.filter (·.id ≠ x.id)) minted := by
  have heq := h.eq_dropLast_concat hx htop
  have hnodup := h.nodup
  have hnumbered := h.numbered
  rw [heq, map_append, nodup_append] at hnodup
  rw [heq, map_append, length_append, length_singleton, range'_concat] at hnumbered
  have hfilter : wisps.filter (·.id ≠ x.id) = wisps.dropLast := by
    conv_lhs => rw [heq]
    have hkeep : wisps.dropLast.filter (·.id ≠ x.id) = wisps.dropLast := filter_eq_self.mpr fun y hy => by
      have := hnodup.2.2 y.id (mem_map_of_mem hy) x.id (by simp)
      simpa using this
    rw [filter_append, hkeep]
    simp
  have hmem : ∀ {y}, y ∈ wisps.dropLast → y ∈ wisps := fun hy => mem_of_mem_dropLast hy
  rw [hfilter]
  refine chain_of_closed (fun y hy => ?_) (append_inj_left hnumbered (by simp)) hnodup.1
    fun y hy => h.fresh y (hmem hy)
  by_contra hopen
  -- An open wisp would be the last one.
  obtain ⟨-, hconcat⟩ := h.eq_concat (hmem hy) hopen
  have hyx : y = x := by
    rw [hconcat] at heq
    simpa using (append_inj_right' heq rfl)
  exact hnodup.2.2 y.id (mem_map_of_mem hy) x.id (by simp) (congrArg Wisp.id hyx)

lemma lastClosed_iteration (hclosed : x.status = .closed) :
    lastClosed wisps = some x ↔ x.iteration = (closedOf wisps).length := by
  have hget {y : Wisp} {i : ℕ} := (chain_closedOf h).iteration_getElem (x := y) (i := i)
  have hmem : x ∈ closedOf wisps := mem_filter.mpr ⟨hx, decide_eq_true hclosed⟩
  obtain ⟨i, hi⟩ := mem_iff_getElem?.mp hmem
  have hlt := (List.getElem?_eq_some_iff.mp hi).1
  have hiteration := hget hi
  rw [lastClosed, getLast?_eq_getElem?]
  constructor
  · intro hlast
    have := hget hlast
    omega
  · intro heq
    rwa [show (closedOf wisps).length - 1 = i by omega]

end Chain

end DeliveryEngine.Convergence
