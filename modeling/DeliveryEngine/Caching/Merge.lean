import DeliveryEngine.Caching.Rows

/-!
# Merging a full scan into the cache

A reconciliation lists all active beads of the backing store and merges them into the cache under the lock.  The merge
carries the sequence number that the cache had before the listing, and leaves alone every row that a later mutation
fenced or a local write touched in the last seconds.  Its three loops visit disjoint sets of identifiers, so what it
makes of a row, and reports of it, is decided row by row (`mergeSnapshot_spec`).
-/

namespace DeliveryEngine.Caching

open List
open Beads (Dep)
open MemStore (Bead)

/-- What a full scan found. -/
structure Snapshot where
  /-- The active beads, each identifier once. -/
  beads : List Bead
  nodup : (beads.map Bead.id).Nodup
  /-- Beads that were missing from the listing and that the backing store says are closed. -/
  confirmedClosed : String → Option Bead := fun _ => none
  confirmed_id : ∀ id b, confirmedClosed id = some b → b.id = id := by intro _ _ h; cases h
  depMap : String → List Dep := fun _ => []
  /-- Whether `depMap` is the backing store's dependencies. -/
  useFreshDeps : Bool := true

def Snapshot.find? (snap : Snapshot) (id : String) : Option Bead := snap.beads.find? (·.id = id)

def Snapshot.ids (snap : Snapshot) : List String := snap.beads.map Bead.id

inductive EventType
  | created
  | updated
  | closed

structure Notification where
  eventType : EventType
  bead : Bead

inductive MergeAction
  | absorb
  | evict
  | skipFenced
  | skipRecentLocal
  | gcFences

structure MergeDecision where
  action : MergeAction
  notification : Option EventType := none
  /-- The skip leaves dependency rows that the snapshot does not vouch for. -/
  degradeDepsComplete : Bool := false

section

-- Whether the store behind the cache is the one whose listings carry dependencies in the beads.
variable (bd : Bool)

/-- The dependency rows that the snapshot has for a bead: its dependency map if that is complete, else the bead's
own fields, else what is cached. -/
def depsForReconcile (snap : Snapshot) (row : Row) (fresh : Bead) : List Dep :=
  if snap.useFreshDeps then snap.depMap fresh.id
  else if bd then depsFromBeadFields fresh
  else if depsFromBeadFields fresh = [] then row.deps.getD [] else depsFromBeadFields fresh

variable (row : Row)

/-- Whether a mutation after `startSeq` touched the row. -/
def Row.fenced (startSeq : ℕ) : Bool := startSeq < row.deletedSeq || startSeq < row.beadSeq

/-- The decision for one identifier: what its row holds, and its bead and dependencies in the snapshot, if it is
there.  A fence beats recency, and recency beats the snapshot. -/
def reconcileMergeDecision (fresh? : Option (Bead × List Dep)) (startSeq : ℕ) (now : Go.Time) : MergeDecision :=
  match fresh?, row.bead with
  | some (fresh, freshDeps), cached? =>
    if row.fenced startSeq then
      { action := .skipFenced, degradeDepsComplete := cached?.isSome && row.deps.isNone }
    else if cached?.any (fun cached => recentLocalMutation row.localBeadAt now && beadChanged cached fresh true) then
      { action := .skipRecentLocal
        degradeDepsComplete := row.deps.isNone || depsChanged (row.deps.getD []) freshDeps }
    else
      { action := .absorb
        notification :=
          match cached? with
          | none => some .created
          | some cached =>
            if beadChanged cached fresh true || depsChanged (row.deps.getD []) freshDeps then some .updated
            else none }
  | none, some cached =>
    if row.fenced startSeq then { action := .skipFenced }
    else if cached.status ≠ .closed ∧ recentLocalMutation row.localBeadAt now then { action := .skipRecentLocal }
    else { action := .evict, notification := if cached.status ≠ .closed then some .closed else none }
  | none, none =>
    if row.fenced startSeq then { action := .skipFenced }
    else if recentLocalMutation row.localBeadAt now then { action := .skipRecentLocal }
    else { action := .gcFences }

/-! ## The `is_blocked` projection -/

variable (c : Cache) (snap : Snapshot)

/-- Whether the status of a bead that blocks by one of the dependencies changed between the cache and the
snapshot. -/
def targetStatusChanged (deps : List Dep) : Bool :=
  deps.any fun d => isReadyBlockingDependencyType d.type && (snap.find? d.dependsOnID).any fun fresh =>
      (c.row d.dependsOnID).bead.all fun cached => cached.status ≠ fresh.status

/-- A bead that comes without an `is_blocked` projection keeps the cached one, unless its dependencies or one of
the beads that block it changed. -/
def preserveReadyProjection (fresh : Bead) : Bead :=
  match fresh.isBlocked, (c.row fresh.id).bead.bind Bead.isBlocked with
  | none, some blocked =>
    let freshDeps := depsForReconcile bd snap (c.row fresh.id) fresh
    if depsChanged ((c.row fresh.id).deps.getD []) freshDeps || targetStatusChanged c snap freshDeps then fresh
    else { fresh with isBlocked := some blocked }
  | _, _ => fresh

lemma preserveReadyProjection_id (fresh : Bead) :
    (preserveReadyProjection bd c snap fresh).id = fresh.id := by
  unfold preserveReadyProjection
  split
  · dsimp only
    split_ifs <;> rfl
  · rfl

def preserveCachedReadyProjection : Snapshot :=
  { snap with
    beads := snap.beads.map (preserveReadyProjection bd c snap)
    nodup := by
      rw [map_map]
      have hids : Bead.id ∘ preserveReadyProjection bd c snap = Bead.id :=
        funext (preserveReadyProjection_id bd c snap)
      rw [hids]
      exact snap.nodup }

/-! ## The three loops -/

variable (snap : Snapshot) (startSeq : ℕ) (now : Go.Time) (row : Row) (id : String)

/-- The snapshot's bead and dependencies for a row. -/
def freshFor : Option (Bead × List Dep) :=
  (snap.find? id).map fun fresh => (fresh, depsForReconcile bd snap row fresh)

/-- A row after its decision is carried out. -/
def Row.merge (seq : ℕ) (fresh? : Option (Bead × List Dep)) (action : MergeAction) (now : Go.Time) : Row :=
  match action, fresh? with
  | .absorb, some (fresh, freshDeps) =>
    row.absorb seq fresh now { depsMode := .explicit freshDeps, seqMode := .clearGuarded, clearDirty := true }
  | .evict, _ => {}
  | .gcFences, _ => {}
  | _, _ => row

/-- The notification of a decision: an evicted bead is reported as the backing store confirmed it closed, or as it
was cached, with its status set. -/
def notificationOf (fresh? : Option (Bead × List Dep)) (d : MergeDecision) : Option Notification :=
  match d.notification, fresh?, row.bead with
  | some .closed, _, some cached => some ⟨.closed, (snap.confirmedClosed id).getD { cached with status := .closed }⟩
  | some eventType, some (fresh, _), _ => some ⟨eventType, fresh⟩
  | _, _, _ => none

structure MergeState where
  cache : Cache
  notifications : List Notification := []
  depsComplete : Bool

/-- One round of a loop. -/
def mergeID (m : MergeState) (id : String) : MergeState :=
  let row := m.cache.row id
  let fresh? := freshFor bd snap row id
  let d := reconcileMergeDecision row fresh? startSeq now
  { cache := m.cache.setRow id (row.merge m.cache.mutationSeq fresh? d.action now)
    notifications := m.notifications ++ (notificationOf snap row id fresh? d).toList
    depsComplete := m.depsComplete && !d.degradeDepsComplete }

variable (c : Cache)

/-- The cached rows that the snapshot does not have. -/
def evictionIDs : List String := c.rows.keys.filter fun id => (c.row id).bead.isSome && id ∉ snap.ids

/-- The identifiers with marks or dependency rows, and with a bead on neither side. -/
def orphanFenceIDs : List String :=
  c.rows.keys.filter fun id => (c.row id).bead.isNone && id ∉ snap.ids && c.row id ≠ {}

/-- Merge a snapshot that was begun at `startSeq`; the notifications are for the caller to send. -/
def mergeSnapshot : Cache × List Notification :=
  let snap := preserveCachedReadyProjection bd c snap
  let absorbed := snap.ids.foldl (mergeID bd snap startSeq now) { cache := c, depsComplete := snap.useFreshDeps }
  let evicted := (evictionIDs snap absorbed.cache).foldl (mergeID bd snap startSeq now) absorbed
  let swept := (orphanFenceIDs snap evicted.cache).foldl (mergeID bd snap startSeq now) evicted
  ({ swept.cache with depsComplete := swept.depsComplete, primePartialErr := false, state := .live },
    swept.notifications)

/-! ## What the loops do, row by row -/

/-- The decision for an identifier with a given row. -/
def decisionFor : MergeDecision := reconcileMergeDecision row (freshFor bd snap row id) startSeq now

def mergedRow (seq : ℕ) (row : Row) (id : String) : Row :=
  row.merge seq (freshFor bd snap row id) (decisionFor bd snap startSeq now row id).action now

def rowNotification : Option Notification :=
  notificationOf snap row id (freshFor bd snap row id) (decisionFor bd snap startSeq now row id)

/-- A loop over distinct identifiers decides each of them on the row it had before the loop. -/
lemma foldl_mergeID {ids : List String} (hids : ids.Nodup) (m : MergeState) :
    let m' := ids.foldl (mergeID bd snap startSeq now) m
    m'.cache.mutationSeq = m.cache.mutationSeq ∧
    (∀ j, m'.cache.row j =
      if j ∈ ids then mergedRow bd snap startSeq now m.cache.mutationSeq (m.cache.row j) j
      else m.cache.row j) ∧
    m'.notifications = m.notifications ++
      ids.flatMap (fun id => (rowNotification bd snap startSeq now (m.cache.row id) id).toList) ∧
    m'.depsComplete = (m.depsComplete &&
      ids.all fun id => !(decisionFor bd snap startSeq now (m.cache.row id) id).degradeDepsComplete) := by
  induction ids generalizing m with
  | nil => simp
  | cons id ids ih =>
    obtain ⟨hid, hids⟩ := nodup_cons.mp hids
    obtain ⟨hseq, hrow, hnotes, hcomplete⟩ := ih hids (mergeID bd snap startSeq now m id)
    have hother : ∀ j ∈ ids, (mergeID bd snap startSeq now m id).cache.row j = m.cache.row j := fun j hj =>
      (Cache.row_setRow _ _ _).trans (if_neg fun h : j = id => hid (h ▸ hj))
    rw [foldl_cons]
    refine ⟨hseq, fun j => ?_, ?_, ?_⟩
    · rw [hrow]
      by_cases hj : j ∈ ids
      · rw [if_pos hj, if_pos (mem_cons_of_mem _ hj), hother j hj]
        rfl
      · rw [if_neg hj, mergeID, Cache.row_setRow]
        by_cases hjid : j = id
        · subst hjid
          rw [if_pos rfl, if_pos mem_cons_self]
          rfl
        · rw [if_neg hjid, if_neg (by simp [hj, hjid])]
    · rw [hnotes, flatMap_cons, ← append_assoc]
      congr 1
      exact flatMap_congr fun j hj => by rw [hother j hj]
    · rw [hcomplete, all_cons, ← Bool.and_assoc]
      congr 1
      exact Bool.eq_iff_iff.mpr (by
        simp only [all_eq_true]
        exact forall₂_congr fun j hj => by rw [hother j hj])

variable {bd snap startSeq now} {id : String}

lemma Snapshot.find?_isSome : (snap.find? id).isSome ↔ id ∈ snap.ids := by
  simp [Snapshot.find?, Snapshot.ids]

lemma Snapshot.find?_of_mem {b : Bead} (hb : b ∈ snap.beads) : snap.find? b.id = some b := by
  obtain ⟨b', hb'⟩ := Option.isSome_iff_exists.mp (Snapshot.find?_isSome.mpr (mem_map_of_mem hb))
  have hid : b'.id = b.id := by simpa using find?_some hb'
  rw [hb', inj_on_of_nodup_map snap.nodup (mem_of_find?_eq_some hb') hb hid]

section
variable (h : id ∉ snap.ids)
include h

variable {row : Row}

lemma freshFor_of_notMem : freshFor bd snap row id = none := by
  rw [freshFor, Option.map_eq_none_iff, ← Option.not_isSome_iff_eq_none, Snapshot.find?_isSome]
  exact h

lemma degrade_of_notMem : (decisionFor bd snap startSeq now row id).degradeDepsComplete = false := by
  rw [decisionFor, freshFor_of_notMem h]
  unfold reconcileMergeDecision
  cases row.bead <;> dsimp only <;> split_ifs <;> rfl

lemma rowNotification_of_none (hbead : row.bead = none) :
    rowNotification bd snap startSeq now row id = none := by
  rw [rowNotification, freshFor_of_notMem h]
  unfold notificationOf
  rw [hbead]
  split
  · cases ‹none = some _›
  · cases ‹none = some _›
  · rfl

lemma mergedRow_empty (seq : ℕ) : mergedRow bd snap startSeq now seq {} id = {} := by
  rw [mergedRow, decisionFor, freshFor_of_notMem h]
  rfl

lemma merge_evicted (seq : ℕ) : mergedRow bd snap startSeq now seq row id = {} ∨
      mergedRow bd snap startSeq now seq row id = row := by
  rw [mergedRow, freshFor_of_notMem h]
  unfold Row.merge
  split
  · cases ‹none = some _›
  · exact .inl rfl
  · exact .inl rfl
  · exact .inr rfl

end

section
variable (bd snap startSeq now)

/-- What a merge makes of the cache: of every row what its own decision makes of it, with the notifications of the
snapshot's beads and of the cached beads that the snapshot does not have. -/
lemma mergeSnapshot_spec :
    let kept := preserveCachedReadyProjection bd c snap
    let merged := mergeSnapshot bd snap startSeq now c
    (∀ j, merged.1.row j = mergedRow bd kept startSeq now c.mutationSeq (c.row j) j) ∧
    (∃ evicted : List String, evicted.Nodup ∧ (∀ id, id ∈ evicted ↔ (c.row id).bead.isSome ∧ id ∉ kept.ids) ∧
      merged.2 = (kept.ids ++ evicted).flatMap fun id =>
        (rowNotification bd kept startSeq now (c.row id) id).toList) ∧
    merged.1.depsComplete = (kept.useFreshDeps &&
      kept.ids.all fun id => !(decisionFor bd kept startSeq now (c.row id) id).degradeDepsComplete) := by
  intro kept merged
  let round := mergeID bd kept startSeq now
  let start : MergeState := { cache := c, depsComplete := kept.useFreshDeps }
  -- The second loop visits the cached beads that the snapshot does not have.
  let evictions := evictionIDs kept (kept.ids.foldl round start).cache
  obtain ⟨-, hrow₁, -, -⟩ := foldl_mergeID bd kept startSeq now kept.nodup start
  have hevictions : ∀ id, id ∈ evictions ↔ (c.row id).bead.isSome ∧ id ∉ kept.ids := fun id => by
    have hrow : id ∉ kept.ids → (kept.ids.foldl round start).cache.row id = c.row id := fun hid =>
      (hrow₁ id).trans (if_neg hid)
    constructor
    · intro h
      have h' := (mem_filter.mp h).2
      simp only [Bool.and_eq_true, decide_eq_true_eq] at h'
      exact ⟨hrow h'.2 ▸ h'.1, h'.2⟩
    · rintro ⟨hbead, hid⟩
      refine mem_filter.mpr ⟨Cache.mem_keys_of_row fun hempty => ?_, by simp [hrow hid, hbead, hid]⟩
      rw [← hrow hid, hempty] at hbead
      cases hbead
  have hnodup : evictions.Nodup := (kept.ids.foldl round start).cache.rows.nodup.filter _
  have hnodup₂ : (kept.ids ++ evictions).Nodup := nodup_append'.mpr
    ⟨kept.nodup, hnodup, fun id hid hev => ((hevictions id).mp hev).2 hid⟩
  -- The third loop visits rows that have a bead on neither side, and were left alone so far.
  let evicted := evictions.foldl round (kept.ids.foldl round start)
  let orphans := orphanFenceIDs kept evicted.cache
  obtain ⟨-, hrow₂, -, -⟩ := foldl_mergeID bd kept startSeq now hnodup₂ start
  rw [foldl_append] at hrow₂
  have horphans : ∀ id ∈ orphans, id ∉ kept.ids ++ evictions ∧ id ∉ kept.ids ∧ (c.row id).bead = none := by
    intro id h
    have h' := (mem_filter.mp h).2
    simp only [Bool.and_eq_true, decide_eq_true_eq, Option.isNone_iff_eq_none] at h'
    obtain ⟨⟨hbead, hid⟩, hne⟩ := h'
    have hrow : evicted.cache.row id = _ := hrow₂ id
    by_cases hev : id ∈ evictions
    · rw [if_pos (mem_append_right _ hev)] at hrow
      rcases merge_evicted hid c.mutationSeq with h | h
      · exact absurd (hrow.trans h) hne
      · have hsome := ((hevictions id).mp hev).1
        rw [← h, ← hrow, hbead] at hsome
        cases hsome
    · have hnot : id ∉ kept.ids ++ evictions := by simp [hid, hev]
      rw [if_neg hnot] at hrow
      exact ⟨hnot, hid, hrow ▸ hbead⟩
  -- So the three loops are one, over distinct identifiers.
  have hnodup₃ : (kept.ids ++ evictions ++ orphans).Nodup := nodup_append'.mpr
    ⟨hnodup₂, evicted.cache.rows.nodup.filter _, fun id hid h => (horphans id h).1 hid⟩
  obtain ⟨-, hrow₃, hnotes, hcomplete⟩ := foldl_mergeID bd kept startSeq now hnodup₃ start
  rw [foldl_append, foldl_append] at hrow₃ hnotes hcomplete
  refine ⟨fun j => (hrow₃ j).trans ?_, ⟨evictions, hnodup, hevictions, hnotes.trans ?_⟩, hcomplete.trans ?_⟩
  · split
    · rfl
    · next hj =>
      obtain ⟨hkept, hj⟩ : j ∉ kept.ids ++ evictions ∧ j ∉ orphans := by simpa [not_or, and_assoc] using hj
      have hrow : evicted.cache.row j = c.row j := (hrow₂ j).trans (if_neg hkept)
      obtain ⟨hid, hev⟩ : j ∉ kept.ids ∧ j ∉ evictions := by simpa using hkept
      have hempty : c.row j = {} := by
        by_contra hne
        refine hj (mem_filter.mpr ⟨Cache.mem_keys_of_row (by rwa [hrow]), ?_⟩)
        have hbead : (c.row j).bead = none := by
          rw [← Option.not_isSome_iff_eq_none]
          exact fun h => hev ((hevictions j).mpr ⟨h, hid⟩)
        simp [hrow, hbead, hid, hne]
      rw [hempty, mergedRow_empty hid]
  · have hsilent : orphans.flatMap (fun id =>
        (rowNotification bd kept startSeq now (c.row id) id).toList) = [] :=
      flatMap_eq_nil_iff.mpr fun id hid => by
        rw [rowNotification_of_none (horphans id hid).2.1 (horphans id hid).2.2]
        rfl
    rw [flatMap_append, hsilent, append_nil]
    rfl
  · have hsure : ∀ id ∈ evictions ++ orphans,
        (decisionFor bd kept startSeq now (c.row id) id).degradeDepsComplete = false := fun id hid =>
      degrade_of_notMem ((mem_append.mp hid).elim (fun h => ((hevictions id).mp h).2) fun h => (horphans id h).2.1)
    rw [append_assoc, all_append]
    refine congrArg _ (Bool.and_eq_left_iff_imp.mpr fun _ => all_eq_true.mpr fun id hid => ?_)
    exact congrArg not (hsure id hid)

end

end

end DeliveryEngine.Caching
