import DeliveryEngine.Beads.Revisions

/-!
# What the operations of the store in memory leave alone

A write to a bead changes what `get` and `depList` answer for its identifier, and nothing else.  For the operations
on one bead this is `OnlyAt`; what they make of the bead itself is said beside it.
-/

namespace DeliveryEngine.MemStore

open List
open Beads (Metadata Key Dep DepType)

namespace State

/-- The two states differ at one identifier at most. -/
def OnlyAt (id : String) (s s' : State) : Prop := ∀ j ≠ id, s'.get j = s.get j ∧ s'.depList j = s.depList j

variable {s s' : State} {id : String}

lemma onlyAt_refl (id : String) (s : State) : OnlyAt id s s := fun _ _ => ⟨rfl, rfl⟩

/-! ## Changing a bead -/

variable {f : Bead → Bead}

section
variable (hf : ∀ b, (f b).id = b.id)
include hf

lemma find?_changeFirst (id j : String) (beads : List Bead) : (changeFirst id f beads).find? (·.id = j) =
      if j = id then (beads.find? (·.id = id)).map f else beads.find? (·.id = j) := by
  induction beads with
  | nil => simp [changeFirst]
  | cons b beads ih =>
    rw [changeFirst]
    by_cases hb : b.id = id
    · rw [if_pos hb, find?_cons, hf]
      by_cases hj : j = id
      · simp [hb, hj]
      · simp [hb, hj, Ne.symm hj]
    · rw [if_neg hb, find?_cons, ih, find?_cons, find?_cons]
      by_cases hj : j = id
      · subst hj
        simp [hb]
      · simp [hj]

variable (s : State) (id : String)

lemma get_change (j : String) :
    (s.change id f).get j = if j = id then (s.get id).map f else s.get j := find?_changeFirst hf id j s.beads

lemma onlyAt_change : OnlyAt id s (s.change id f) := fun j hj => ⟨(get_change hf s id j).trans (if_neg hj), rfl⟩

lemma get_change_self : (s.change id f).get id = (s.get id).map f := (get_change hf s id id).trans (if_pos rfl)

end

lemma get_eq_none_iff : s.get id = none ↔ ∀ b ∈ s.beads, b.id ≠ id := by simp [get, find?_eq_none]

/-! ## Removing and creating a bead -/

lemma onlyAt_remove (s : State) (id : String) : OnlyAt id s (s.remove id) := fun j hj => by
  refine ⟨?_, rfl⟩
  show (s.beads.eraseP (·.id = id)).find? (·.id = j) = s.beads.find? (·.id = j)
  induction s.beads with
  | nil => rfl
  | cons b beads ih =>
    by_cases hb : b.id = id
    · rw [eraseP_cons_of_pos (by simpa using hb), find?_cons_of_neg]
      simpa [hb] using Ne.symm hj
    · rw [eraseP_cons_of_neg (by simpa using hb), find?_cons, find?_cons, ih]

lemma get_remove_self (hs : s.WellFormed) (id : String) : (s.remove id).get id = none := by
  rw [get_eq_none_iff]
  intro b hb hid
  obtain ⟨a, before, after, hbefore, ha, hsplit, herase⟩ : ∃ a before after, (∀ c ∈ before, c.id ≠ id) ∧ a.id = id ∧
      s.beads = before ++ a :: after ∧ s.beads.eraseP (·.id = id) = before ++ after := by
    simpa using exists_of_eraseP (p := fun c : Bead => decide (c.id = id)) (mem_of_mem_eraseP hb)
      (by simpa using hid)
  have hnodup := hs.nodup
  rw [hsplit, map_append] at hnodup
  have hmem : b ∈ before ++ after := herase ▸ hb
  rcases mem_append.mp hmem with hmem | hmem
  · exact hbefore b hmem hid
  · have hnot := (nodup_cons.mp (nodup_append.mp hnodup).2.1).1
    exact hnot (mem_map.mpr ⟨b, hmem, hid.trans ha.symm⟩)

/-- The identifier that the next bead gets. -/
def nextID (s : State) : String := s.mintID (s.seq + 1)

lemma get_nextID (hs : s.WellFormed) : s.get s.nextID = none := by
  rw [get_eq_none_iff]
  intro b hb hid
  obtain ⟨n, hn, hmint⟩ := hs.minted b hb
  have := s.mintID_injective (hmint.symm.trans hid)
  omega

lemma get_create (hs : s.WellFormed) (now : Go.Time) (b : Bead) (j : String) :
    (s.create now b).get j = if j = s.nextID then some (s.newBead now b) else s.get j := by
  have hnew : (s.newBead now b).id = s.nextID := rfl
  show (s.beads ++ [s.newBead now b]).find? (·.id = j) = _
  rw [find?_append, find?_singleton, hnew]
  by_cases hj : j = s.nextID
  · subst hj
    have hnone : s.beads.find? (·.id = s.nextID) = none := get_nextID hs
    simp [hnone]
  · simp only [Ne.symm hj, decide_false, if_neg hj]
    exact Option.or_none

lemma needDep_issueID (issueID need : String) : (needDep issueID need).issueID = issueID := by
  rw [needDep]
  split_ifs <;> rfl

lemma onlyAt_create (hs : s.WellFormed) (now : Go.Time) (b : Bead) : OnlyAt s.nextID s (s.create now b) :=
  fun j hj => by
    refine ⟨(get_create hs now b j).trans (if_neg hj), ?_⟩
    show (s.deps ++ b.needs.map (needDep s.nextID)).filter (·.issueID = j) = s.deps.filter (·.issueID = j)
    have hnone : (b.needs.map (needDep s.nextID)).filter (·.issueID = j) = [] :=
      filter_eq_nil_iff.mpr fun d hd => by
        obtain ⟨need, -, rfl⟩ := mem_map.mp hd
        simpa [needDep_issueID] using Ne.symm hj
    rw [filter_append, hnone, append_nil]

/-! ## Dependencies -/

lemma filter_absorb {new : Dep} {j : String} (hj : j ≠ new.issueID) {deps deps' : List Dep}
    (h : Beads.Store.absorb new deps = some deps') :
    deps'.filter (·.issueID = j) = deps.filter (·.issueID = j) := by
  induction deps generalizing deps' with
  | nil => cases h
  | cons d deps ih =>
    rw [Beads.Store.absorb] at h
    split_ifs at h with hsame htype
    · obtain rfl := Option.some.inj h
      rfl
    · obtain rfl := Option.some.inj h
      rw [filter_cons_of_neg (by simpa using Ne.symm hj), filter_cons_of_neg (by simpa [htype.1] using Ne.symm hj)]
    · obtain ⟨rest, hrest, rfl⟩ := Option.map_eq_some_iff.mp h
      rw [filter_cons, filter_cons, ih hrest]

variable (s : State) (issueID dependsOnID : String)

lemma onlyAt_depAdd (type : DepType) : OnlyAt issueID s (s.depAdd issueID dependsOnID type) := fun j hj => by
  refine ⟨rfl, ?_⟩
  show ((Beads.Store.absorb _ s.deps).getD _).filter (·.issueID = j) = s.deps.filter (·.issueID = j)
  cases h : Beads.Store.absorb ⟨issueID, dependsOnID, type⟩ s.deps with
  | none =>
    simp [Ne.symm hj]
  | some deps => exact filter_absorb hj h

lemma onlyAt_depRemove : OnlyAt issueID s (s.depRemove issueID dependsOnID) :=
  fun j hj => by
    refine ⟨rfl, ?_⟩
    show (s.deps.eraseP _).filter (·.issueID = j) = s.deps.filter (·.issueID = j)
    induction s.deps with
    | nil => rfl
    | cons d deps ih =>
      by_cases hd : d.issueID = issueID ∧ d.dependsOnID = dependsOnID
      · rw [eraseP_cons_of_pos (by simpa using hd), filter_cons_of_neg]
        simpa [hd.1] using Ne.symm hj
      · rw [eraseP_cons_of_neg (by simpa using hd), filter_cons, filter_cons, ih]

/-! ## Closing many beads -/

lemma get_closeAll (s : State) (now : Go.Time) (ids : List String) (metadata : Metadata) (j : String) :
    (s.closeAll now ids metadata).2.get j =
      (s.get j).map fun b => if closesIn ids b then b.close now metadata else b := by
  show (s.beads.map _).find? _ = (s.beads.find? _).map _
  rw [find?_map]
  congr 2
  funext b
  simp only [Function.comp_apply]
  split <;> rfl

end State

end DeliveryEngine.MemStore
