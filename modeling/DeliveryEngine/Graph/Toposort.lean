import DeliveryEngine.Graph.ThreeColour

/-!
# Sorting by repeated passes

Names are put in an order in which each comes after those it waits for.  A pass takes every name that is not taken yet
and whose predecessors all are, the ones taken earlier in the same pass included; when a pass takes nothing, the rest
is taken as it stands.  `sort_perm` and `sort_finished` are what a graph without a cycle gets from it.
-/

namespace DeliveryEngine.Toposort

open ThreeColour List

variable {α : Type} [DecidableEq α] (waits : α → List α) (known : α → Bool)

/-- Take a name if it is not taken yet and nothing it waits for is missing. -/
def take (done : List α) (id : α) : List α :=
  if id ∈ done then done
  else if (waits id).all (fun dep => !known dep || dep ∈ done) then done ++ [id]
  else done

/-- Take a name if it is not taken yet. -/
def takeAnyway (done : List α) (id : α) : List α := if id ∈ done then done else done ++ [id]

/-- Go over the names until all are taken.  The fuel bounds the number of passes. -/
def passes (ids : List α) : ℕ → List α → List α
  | 0, done => done
  | fuel + 1, done =>
    if done.length < ids.length then
      let next := ids.foldl (take waits known) done
      passes ids fuel (if next = done then ids.foldl takeAnyway done else next)
    else done

/-- The names in the order in which they are taken. -/
def sort (ids : List α) : List α := passes waits known ids ids.length []

variable {waits known}

/-! ## One pass -/

/-- What has been taken: some of the names, each once, and each after those it waits for. -/
structure Taken (waits : α → List α) (known : α → Bool) (ids done : List α) : Prop where
  nodup : done.Nodup
  subset : done ⊆ ids
  finished : Finished waits known done.reverse

omit [DecidableEq α] in
lemma Taken.nil (ids : List α) : Taken waits known ids [] := ⟨nodup_nil, by simp, .nil⟩

variable {done ids : List α}

lemma Taken.take (h : Taken waits known ids done) {id : α} (hid : id ∈ ids) :
    Taken waits known ids (take waits known done id) := by
  unfold Toposort.take
  split_ifs with hdone hready
  · exact h
  · refine ⟨?_, ?_, ?_⟩
    · exact h.nodup.append (nodup_singleton id) (by simpa using hdone)
    · exact append_subset.mpr ⟨h.subset, by simpa using hid⟩
    · rw [reverse_append]
      refine .cons (fun dep hdep hk => mem_reverse.mpr ?_) h.finished
      have hdep := all_eq_true.mp hready dep hdep
      simpa [hk] using hdep
  · exact h

lemma prefix_take (done : List α) (id : α) : done <+: take waits known done id := by
  unfold take
  split_ifs
  · exact prefix_rfl
  · exact prefix_append _ _
  · exact prefix_rfl

lemma prefix_foldl_take (ns done : List α) : done <+: ns.foldl (take waits known) done := by
  induction ns generalizing done with
  | nil => exact prefix_rfl
  | cons n ns ih => exact (prefix_take done n).trans (ih _)

lemma Taken.foldl_take (h : Taken waits known ids done) {ns : List α}
    (hns : ns ⊆ ids) : Taken waits known ids (ns.foldl (Toposort.take waits known) done) := by
  induction ns generalizing done with
  | nil => exact h
  | cons n ns ih =>
    rw [cons_subset] at hns
    exact ih (h.take hns.1) hns.2

lemma mem_foldl_take {ns : List α} {id : α} (hid : id ∈ ns)
    (hready : ∀ dep ∈ waits id, known dep = true → dep ∈ done) :
    id ∈ ns.foldl (take waits known) done := by
  induction ns generalizing done with
  | nil => cases hid
  | cons n ns ih =>
    rw [foldl_cons]
    rcases mem_cons.mp hid with rfl | hid
    · refine (prefix_foldl_take ns _).subset ?_
      have hall : (waits id).all (fun dep => !known dep || dep ∈ done) = true := by
        refine all_eq_true.mpr fun dep hdep => ?_
        cases hk : known dep with
        | false => rfl
        | true => simpa using hready dep hdep hk
      unfold take
      split_ifs with hdone
      · exact hdone
      · simp
    · exact ih hid fun dep hdep hk => (prefix_take done n).subset (hready dep hdep hk)

lemma exists_taken {order : List α} (hknown : ∀ y, known y = true → y ∈ ids)
    (horder : Finished waits known order) (hids : ∀ id ∈ ids, id ∈ order)
    (hmissing : ∃ id ∈ ids, id ∉ done) : ∃ id ∉ done, id ∈ ids.foldl (take waits known) done := by
  obtain ⟨id, hid, hid'⟩ := hmissing
  obtain ⟨x, -, ⟨hx, hxdone⟩, hlow⟩ :=
    horder.exists_lowest (fun x => x ∈ ids ∧ x ∉ done) ⟨id, hids id hid, hid, hid'⟩
  refine ⟨x, hxdone, mem_foldl_take hx fun dep hdep hk => ?_⟩
  by_contra hnot
  exact hlow dep hdep hk ⟨hknown dep hk, hnot⟩

/-! ## All passes -/

section Acyclic
variable {order : List α} (hnodup : ids.Nodup) (hknown : ∀ y, known y = true → y ∈ ids)
  (horder : Finished waits known order) (hids : ∀ id ∈ ids, id ∈ order)

include hnodup hknown horder hids

lemma foldl_take_ne (hlength : done.length < ids.length) : ids.foldl (take waits known) done ≠ done := by
  have hmissing : ∃ id ∈ ids, id ∉ done := by
    by_contra hall
    have hsubset : ids ⊆ done := fun id hid => by_contra fun hnot => hall ⟨id, hid, hnot⟩
    exact absurd (subperm_of_subset hnodup hsubset).length_le (by omega)
  obtain ⟨x, hx, hxnext⟩ := exists_taken hknown horder hids hmissing
  exact fun heq => hx (heq ▸ hxnext)

lemma Taken.passes (fuel : ℕ) (h : Taken waits known ids done) (hfuel : ids.length ≤ done.length + fuel) :
    Taken waits known ids (passes waits known ids fuel done) ∧
      ids.length ≤ (passes waits known ids fuel done).length := by
  induction fuel generalizing done with
  | zero => exact ⟨h, hfuel⟩
  | succ fuel ih =>
    unfold Toposort.passes
    split_ifs with hlength
    · have hgrown : done <+: ids.foldl (Toposort.take waits known) done := prefix_foldl_take ids done
      have hne := foldl_take_ne hnodup hknown horder hids hlength
      have hlonger : done.length < (ids.foldl (Toposort.take waits known) done).length :=
        Nat.lt_of_le_of_ne hgrown.length_le fun heq => hne (hgrown.eq_of_length heq).symm
      dsimp only
      rw [if_neg hne]
      exact ih (h.foldl_take (List.Subset.refl ids)) (by omega)
    · exact ⟨h, by omega⟩

theorem sort_perm : (sort waits known ids).Perm ids := by
  obtain ⟨htaken, hlength⟩ := (Taken.nil ids).passes hnodup hknown horder hids ids.length (by simp)
  exact (subperm_of_subset htaken.nodup htaken.subset).perm_of_length_le hlength

theorem sort_finished : Finished waits known (sort waits known ids).reverse :=
  ((Taken.nil ids).passes hnodup hknown horder hids ids.length (by simp)).1.finished

end Acyclic

end DeliveryEngine.Toposort
