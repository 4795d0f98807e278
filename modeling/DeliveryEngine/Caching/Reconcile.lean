import DeliveryEngine.Caching.Reads

/-!
# What a merge guarantees

A row that a mutation after the start of the scan touched is left as it is.  If the merge declares the dependency rows
complete, every cached bead should have dependency rows that are the snapshot's or newer.  Where nothing is fenced or
recent, the cache is the snapshot afterwards, and a second merge of it reports nothing.
`merge_fenced_and_convergent_iff` says for which states and snapshots all of this holds.
-/

namespace DeliveryEngine.Caching

open List Option
open Beads (Dep)
open MemStore (Bead)

/-- Every cached bead stands under its own identifier. -/
def Cache.Keyed (c : Cache) : Prop := ∀ id b, (c.row id).bead = some b → b.id = id

/-! ## One row -/

variable {f : Bead}

section
variable {bd : Bool} {snap : Snapshot} {startSeq : ℕ} {now : Go.Time} {row : Row} {id : String}

def Keeps (bd : Bool) (snap : Snapshot) (startSeq : ℕ) (now : Go.Time) (row : Row) (id : String) : Prop :=
  (decisionFor bd snap startSeq now row id).action = .skipFenced ∨
    (decisionFor bd snap startSeq now row id).action = .skipRecentLocal

lemma mem_ids_of_find? (h : snap.find? id = some f) : id ∈ snap.ids := Snapshot.find?_isSome.mp (by rw [h]; rfl)

lemma id_of_find? (h : snap.find? id = some f) : f.id = id := by simpa using find?_some h

lemma decisionFor_fenced (h : row.fenced startSeq = true) :
    (decisionFor bd snap startSeq now row id).action = .skipFenced ∧
      (decisionFor bd snap startSeq now row id).notification = none := by
  unfold decisionFor reconcileMergeDecision
  split
  all_goals
    rw [if_pos h]
    exact ⟨rfl, rfl⟩

lemma mergedRow_of_keeps (h : Keeps bd snap startSeq now row id) (seq : ℕ) :
    mergedRow bd snap startSeq now seq row id = row := by
  unfold mergedRow
  rcases h with h | h <;> rw [h] <;> rfl

lemma rowNotification_fenced (h : row.fenced startSeq = true) :
    rowNotification bd snap startSeq now row id = none := by
  unfold rowNotification notificationOf
  rw [(decisionFor_fenced h).2]

/-- How a merge absorbs a bead. -/
def absorbed (bd : Bool) (snap : Snapshot) (now : Go.Time) (seq : ℕ) (row : Row) (f : Bead) : Row :=
  row.absorb seq f now
    { depsMode := .explicit (depsForReconcile bd snap row f), seqMode := .clearGuarded, clearDirty := true }

lemma mergedRow_cases (bd : Bool) (snap : Snapshot) (startSeq : ℕ) (now : Go.Time) (row : Row) (id : String)
    (seq : ℕ) :
    (Keeps bd snap startSeq now row id ∧ mergedRow bd snap startSeq now seq row id = row) ∨
    (∃ f, snap.find? id = some f ∧ mergedRow bd snap startSeq now seq row id = absorbed bd snap now seq row f) ∨
    (id ∉ snap.ids ∧ mergedRow bd snap startSeq now seq row id = {}) := by
  by_cases hkeeps : Keeps bd snap startSeq now row id
  · exact .inl ⟨hkeeps, mergedRow_of_keeps hkeeps seq⟩
  · right
    cases hf : snap.find? id with
    | none =>
      have hid : id ∉ snap.ids := fun h => by
        rw [← Snapshot.find?_isSome, hf] at h
        cases h
      refine .inr ⟨hid, ?_⟩
      rw [Keeps, decisionFor, freshFor_of_notMem hid] at hkeeps
      rw [mergedRow, decisionFor, freshFor_of_notMem hid]
      unfold reconcileMergeDecision at hkeeps ⊢
      cases hbead : row.bead <;> rw [hbead] at hkeeps <;> dsimp only at hkeeps ⊢ <;> split_ifs at hkeeps ⊢
      all_goals first | rfl | simp at hkeeps
    | some f =>
      have hfresh : freshFor bd snap row id = some (f, depsForReconcile bd snap row f) := by
        rw [freshFor, hf, map_some]
      refine .inl ⟨f, rfl, ?_⟩
      rw [Keeps, decisionFor, hfresh] at hkeeps
      rw [mergedRow, decisionFor, hfresh]
      unfold reconcileMergeDecision at hkeeps ⊢
      dsimp only at hkeeps ⊢
      split_ifs at hkeeps ⊢
      · exact absurd (.inl rfl) hkeeps
      · exact absurd (.inr rfl) hkeeps
      · rfl

lemma rowNotification_id (hkeyed : ∀ b, row.bead = some b → b.id = id) {n : Notification}
    (hn : n ∈ rowNotification bd snap startSeq now row id) : n.bead.id = id := by
  unfold rowNotification notificationOf at hn
  split at hn
  · next hbead =>
    obtain rfl := some.inj hn
    have hid := hkeyed _ hbead
    cases hconfirmed : snap.confirmedClosed id with
    | none => exact hid
    | some b => exact snap.confirmed_id id b hconfirmed
  · next hfresh _ =>
    obtain rfl := some.inj hn
    obtain ⟨g, hg, heq⟩ := map_eq_some_iff.mp hfresh
    obtain ⟨rfl, -⟩ := Prod.mk.inj heq
    exact id_of_find? hg
  · cases hn

end

lemma depsChanged_eq_false {old fresh : List Dep} : depsChanged old fresh = false ↔ old.Perm fresh := by
  rw [depsChanged, Bool.not_eq_false', isPerm_iff]

lemma targetStatusChanged_eq_false {c : Cache} {snap : Snapshot} {deps : List Dep} :
    targetStatusChanged c snap deps = false ↔
      ∀ d ∈ deps, isReadyBlockingDependencyType d.type = true → ∀ target ∈ snap.find? d.dependsOnID,
        ∃ cached ∈ (c.row d.dependsOnID).bead, cached.status = target.status := by
  unfold targetStatusChanged
  rw [List.any_eq_false]
  refine forall₂_congr fun d _ => ?_
  cases snap.find? d.dependsOnID <;> cases (c.row d.dependsOnID).bead <;> simp

/-! ## The notifications of a list of rows -/

lemma filter_notifications {note : String → Option Notification} (hnote : ∀ id, ∀ n ∈ note id, n.bead.id = id)
    {ids : List String} (hids : ids.Nodup) (id : String) :
    (ids.flatMap fun id => (note id).toList).filter (·.bead.id = id) = if id ∈ ids then (note id).toList else [] := by
  induction ids with
  | nil => rfl
  | cons j ids ih =>
    obtain ⟨hj, hids⟩ := nodup_cons.mp hids
    rw [flatMap_cons, filter_append, ih hids]
    by_cases hjid : j = id
    · subst hjid
      have hown : (note j).toList.filter (·.bead.id = j) = (note j).toList :=
        filter_eq_self.mpr fun n hn => by simpa using hnote j n (by simpa using hn)
      rw [hown, if_neg hj, if_pos mem_cons_self, append_nil]
    · have hnone : (note j).toList.filter (·.bead.id = id) = [] :=
        filter_eq_nil_iff.mpr fun n hn => by
          simpa using fun h => hjid ((hnote j n (by simpa using hn)).symm.trans h)
      rw [hnone]
      simp [Ne.symm hjid]

/-! ## The projection that a snapshot keeps -/

section
variable (bd : Bool) (snap : Snapshot) (c : Cache)

lemma kept_ids : (preserveCachedReadyProjection bd c snap).ids = snap.ids := by
  rw [Snapshot.ids, preserveCachedReadyProjection, List.map_map]
  exact map_congr_left fun b _ => preserveReadyProjection_id bd c snap b

lemma kept_find? (id : String) : (preserveCachedReadyProjection bd c snap).find? id =
    (snap.find? id).map (preserveReadyProjection bd c snap) := by
  rw [Snapshot.find?, preserveCachedReadyProjection, find?_map]
  congr 2
  funext b
  simp [preserveReadyProjection_id]

lemma preserveReadyProjection_eq (b : Bead) :
    ∃ blocked, preserveReadyProjection bd c snap b = { b with isBlocked := blocked } := by
  unfold preserveReadyProjection
  split
  · dsimp only
    split_ifs
    · exact ⟨b.isBlocked, rfl⟩
    · exact ⟨_, rfl⟩
  · exact ⟨b.isBlocked, rfl⟩

lemma depsForReconcile_preserve (row : Row) (b : Bead) :
    depsForReconcile bd (preserveCachedReadyProjection bd c snap) row
      (preserveReadyProjection bd c snap b) = depsForReconcile bd snap row b := by
  obtain ⟨blocked, heq⟩ := preserveReadyProjection_eq bd snap c b
  rw [heq]
  rfl

end

/-! ## The guarantee -/

section
variable (bd : Bool) (snap : Snapshot) (startSeq : ℕ) (now : Go.Time) (c : Cache) (id : String)

/-- Dependency rows that are the snapshot's, or that a mutation after the start of the scan installed. -/
def Vouched (row : Row) : Prop :=
  ∃ deps, row.deps = some deps ∧ (id ∈ snap.ids ∧ deps.Perm (snap.depMap id) ∨ startSeq < row.depsSeq)

/-- No row is fenced, and none was written locally in the last seconds. -/
def AtRest : Prop := ∀ id, (c.row id).fenced startSeq = false ∧ recentLocalMutation (c.row id).localBeadAt now = false

/-- What a merge is to guarantee. -/
structure FencedAndConvergent : Prop where
  fenced : ∀ id, (c.row id).fenced startSeq = true →
    (mergeSnapshot bd snap startSeq now c).1.row id = c.row id ∧
      ∀ n ∈ (mergeSnapshot bd snap startSeq now c).2, n.bead.id ≠ id
  complete : (mergeSnapshot bd snap startSeq now c).1.depsComplete = true →
    ∀ id, ((mergeSnapshot bd snap startSeq now c).1.row id).bead.isSome →
      Vouched snap startSeq id ((mergeSnapshot bd snap startSeq now c).1.row id)
  exact : AtRest startSeq now c → ∀ id,
    ((mergeSnapshot bd snap startSeq now c).1.row id).bead = snap.find? id ∧
      ((mergeSnapshot bd snap startSeq now c).1.row id).deps = (snap.find? id).map fun _ => snap.depMap id
  closes : AtRest startSeq now c → ∀ id b, (c.row id).bead = some b → b.status ≠ .closed → id ∉ snap.ids →
    ∃ n, (mergeSnapshot bd snap startSeq now c).2.filter (·.bead.id = id) = [n] ∧ n.eventType = .closed
  quiet : AtRest startSeq now c → ∀ startSeq' now',
    (mergeSnapshot bd snap startSeq' now' (mergeSnapshot bd snap startSeq now c).1).2 = []

/-- A cached row that the snapshot does not replace: a fence holds it, or it was written locally in the last seconds
and is not what the snapshot has. -/
def HeldBack (cached : Bead) : Prop :=
  (c.row id).fenced startSeq = true ∨ recentLocalMutation (c.row id).localBeadAt now = true ∧
      match snap.find? id with
      | some fresh => beadChanged cached (preserveReadyProjection bd c snap fresh) true = true
      | none => cached.status ≠ .closed

/-- The dependency rows of a row that is held back pass for complete: under a fence any will do, otherwise they are
compared with the snapshot's. -/
def PassesForComplete : Prop :=
  if (c.row id).fenced startSeq = true then (c.row id).deps.isSome = true
  else ∃ deps, (c.row id).deps = some deps ∧ deps.Perm (snap.depMap id)

/-- A cached row that a merge leaves with dependency rows from before the scan, or with none: the snapshot does not
have it, and it is fenced, or open and written locally in the last seconds; or the snapshot has it with other
dependencies, and it is fenced. -/
def Stale : Prop :=
  ∃ cached ∈ (c.row id).bead,
    (id ∉ snap.ids ∧ ((c.row id).fenced startSeq = true ∨
        cached.status ≠ .closed ∧ recentLocalMutation (c.row id).localBeadAt now = true) ∧
      ((c.row id).deps = none ∨ (c.row id).depsSeq ≤ startSeq)) ∨
    (id ∈ snap.ids ∧ (c.row id).fenced startSeq = true ∧ (∃ deps ∈ (c.row id).deps, ¬deps.Perm (snap.depMap id)) ∧
      (c.row id).depsSeq ≤ startSeq)

instance : Decidable (Stale snap startSeq now c id) :=
  inferInstanceAs (Decidable (∃ cached ∈ (c.row id).bead, _ ∨ _))

/-- The snapshot has its dependencies from the backing store; or it has none, and what a bead says of itself, or the
cache where that is nothing and the beads need not say it, is what the snapshot would have. -/
def BringsDeps (b : Bead) : Prop :=
  snap.useFreshDeps = true ∨ snap.depMap b.id =
    if bd = true ∨ depsFromBeadFields b ≠ [] then depsFromBeadFields b else (c.row b.id).deps.getD []

/-- A bead comes without the `is_blocked` projection that the cached one has, while neither its dependencies nor the
statuses of the beads that block it changed. -/
def LacksProjection (b : Bead) : Prop :=
  b.isBlocked = none ∧ (∃ cached ∈ (c.row b.id).bead, cached.isBlocked ≠ none) ∧
    ((c.row b.id).deps.getD []).Perm (snap.depMap b.id) ∧
    ∀ d ∈ snap.depMap b.id, isReadyBlockingDependencyType d.type = true → ∀ target ∈ snap.find? d.dependsOnID,
      ∃ cached ∈ (c.row d.dependsOnID).bead, cached.status = target.status

variable {bd snap startSeq now c} {id : String}

lemma not_keeps {row : Row} (hfenced : row.fenced startSeq = false)
    (hrecent : recentLocalMutation row.localBeadAt now = false) :
    ¬Keeps bd snap startSeq now row id := by
  unfold Keeps decisionFor reconcileMergeDecision
  split
  all_goals
    rw [if_neg (by simp [hfenced]), if_neg (by simp [hrecent])]
    simp

lemma merge_fenced (hc : c.Keyed) (h : (c.row id).fenced startSeq = true) :
    (mergeSnapshot bd snap startSeq now c).1.row id = c.row id ∧
      ∀ n ∈ (mergeSnapshot bd snap startSeq now c).2, n.bead.id ≠ id := by
  obtain ⟨hrow, ⟨evicted, -, -, hnotes⟩, -⟩ := mergeSnapshot_spec bd snap startSeq now c
  refine ⟨(hrow id).trans (mergedRow_of_keeps (.inl (decisionFor_fenced h).1) _), fun n hn hid => ?_⟩
  rw [hnotes] at hn
  obtain ⟨j, -, hj⟩ := mem_flatMap.mp hn
  have hnote := mem_toList.mp hj
  obtain rfl : j = id := (rowNotification_id (hc j) hnote).symm.trans hid
  rw [rowNotification_fenced h] at hnote
  cases hnote

lemma merge_depsComplete_iff : (mergeSnapshot bd snap startSeq now c).1.depsComplete = true ↔
      snap.useFreshDeps = true ∧ ∀ id ∈ snap.ids,
        (decisionFor bd (preserveCachedReadyProjection bd c snap) startSeq now
          (c.row id) id).degradeDepsComplete = false := by
  obtain ⟨-, -, hcomplete⟩ := mergeSnapshot_spec bd snap startSeq now c
  rw [hcomplete, Bool.and_eq_true, kept_ids, List.all_eq_true]
  simp only [Bool.not_eq_true']
  rfl

lemma absorbed_deps (hfresh : snap.useFreshDeps = true) (hf : f.id = id) (seq : ℕ)
    (row : Row) : (absorbed bd snap now seq row f).deps = some (snap.depMap id) := by
  show some (depsForReconcile bd snap row f) = _
  rw [depsForReconcile, if_pos hfresh, hf]

lemma keeps_iff_heldBack {cached : Bead} (hbead : (c.row id).bead = some cached) :
    Keeps bd (preserveCachedReadyProjection bd c snap) startSeq now (c.row id) id ↔
      HeldBack bd snap startSeq now c id cached := by
  unfold Keeps HeldBack decisionFor
  rw [freshFor, kept_find?]
  unfold reconcileMergeDecision
  rw [hbead]
  cases snap.find? id with
  | none =>
    dsimp only [map_none]
    by_cases hfenced : (c.row id).fenced startSeq = true
    · simp [hfenced]
    · by_cases hrecent : cached.status ≠ .closed ∧ recentLocalMutation (c.row id).localBeadAt now = true
      · simp [hfenced, hrecent]
      · rw [if_neg hrecent]
        simp [hfenced, And.comm.trans (iff_false_intro hrecent)]
  | some f =>
    dsimp only [map_some]
    by_cases hfenced : (c.row id).fenced startSeq = true
    · simp [hfenced]
    · by_cases hrecent : (recentLocalMutation (c.row id).localBeadAt now &&
          beadChanged cached (preserveReadyProjection bd c snap f) true) = true
      · simp_all
      · rw [if_neg hfenced, if_neg (by simpa using hrecent)]
        simpa [hfenced] using hrecent

/-- A row of the snapshot spoils the completeness of the dependency rows if it is held back and does not pass. -/
lemma degrade_iff (hfresh : snap.useFreshDeps = true) (hid : id ∈ snap.ids) :
    (decisionFor bd (preserveCachedReadyProjection bd c snap) startSeq now
      (c.row id) id).degradeDepsComplete = false ↔
    ∀ cached, (c.row id).bead = some cached → HeldBack bd snap startSeq now c id cached →
      PassesForComplete snap startSeq c id := by
  obtain ⟨f, hf⟩ := isSome_iff_exists.mp (Snapshot.find?_isSome.mpr hid)
  have hdeps : depsForReconcile bd (preserveCachedReadyProjection bd c snap) (c.row id)
      (preserveReadyProjection bd c snap f) = snap.depMap id := by
    rw [depsForReconcile_preserve, depsForReconcile, if_pos hfresh, id_of_find? hf]
  unfold HeldBack PassesForComplete decisionFor
  rw [freshFor, kept_find?, hf, map_some, map_some]
  unfold reconcileMergeDecision
  dsimp only
  cases hbead : (c.row id).bead with
  | none => simp [apply_ite MergeDecision.degradeDepsComplete]
  | some cached =>
    by_cases hfenced : (c.row id).fenced startSeq = true
    · simp [hfenced, isSome_iff_ne_none]
    · by_cases hrecent : (recentLocalMutation (c.row id).localBeadAt now &&
          beadChanged cached (preserveReadyProjection bd c snap f) true) = true
      · cases (c.row id).deps <;> simp_all [depsChanged, isPerm_iff]
      · rw [if_neg hfenced, if_neg (by simpa using hrecent)]
        simp_all

/-- Of a row that is held back, and passes for complete if the snapshot has it, the dependency rows are vouched for
unless it is stale. -/
lemma vouched_iff {cached : Bead} (hbead : (c.row id).bead = some cached)
    (hheld : HeldBack bd snap startSeq now c id cached)
    (hpass : id ∈ snap.ids → PassesForComplete snap startSeq c id) :
    Vouched snap startSeq id (c.row id) ↔ ¬Stale snap startSeq now c id := by
  unfold Vouched Stale
  by_cases hid : id ∈ snap.ids
  · have hpass := hpass hid
    unfold PassesForComplete at hpass
    by_cases hfenced : (c.row id).fenced startSeq = true
    · rw [if_pos hfenced] at hpass
      obtain ⟨deps, hdeps⟩ := isSome_iff_exists.mp hpass
      simp [hbead, hid, hfenced, hdeps, imp_iff_not_or]
    · rw [if_neg hfenced] at hpass
      obtain ⟨deps, hdeps, hperm⟩ := hpass
      simp [hid, hfenced, hdeps, hperm]
  · have hkept : (c.row id).fenced startSeq = true ∨
        cached.status ≠ .closed ∧ recentLocalMutation (c.row id).localBeadAt now = true := by
      rw [← Snapshot.find?_isSome, not_isSome_iff_eq_none] at hid
      unfold HeldBack at hheld
      rw [hid] at hheld
      exact hheld.imp_right And.symm
    cases hdeps : (c.row id).deps <;> simp_all

lemma heldBack_of_stale {cached : Bead} (hbead : (c.row id).bead = some cached) (h : Stale snap startSeq now c id) :
    HeldBack bd snap startSeq now c id cached := by
  obtain ⟨_, hcached, h⟩ := h
  obtain rfl := some.inj (hbead.symm.trans hcached)
  rcases h with ⟨hid, hkept, -⟩ | ⟨-, hfenced, -⟩
  · rw [← Snapshot.find?_isSome, not_isSome_iff_eq_none] at hid
    unfold HeldBack
    rw [hid]
    exact hkept.imp_right And.symm
  · exact .inl hfenced

lemma merge_complete_iff : ((mergeSnapshot bd snap startSeq now c).1.depsComplete = true →
      ∀ id, ((mergeSnapshot bd snap startSeq now c).1.row id).bead.isSome →
        Vouched snap startSeq id ((mergeSnapshot bd snap startSeq now c).1.row id)) ↔
    ((mergeSnapshot bd snap startSeq now c).1.depsComplete = true → ∀ id, ¬Stale snap startSeq now c id) := by
  obtain ⟨hrow, -, -⟩ := mergeSnapshot_spec bd snap startSeq now c
  refine forall_congr' fun hcomplete => forall_congr' fun id => ?_
  obtain ⟨hfresh, hsure⟩ := merge_depsComplete_iff.mp hcomplete
  constructor
  · intro h hstale
    have ⟨cached, hbead, _⟩ := hstale
    have hheld : HeldBack bd snap startSeq now c id cached := heldBack_of_stale hbead hstale
    have hkept := (hrow id).trans (mergedRow_of_keeps ((keeps_iff_heldBack hbead).mpr hheld) _)
    rw [hkept] at h
    exact (vouched_iff hbead hheld fun hid => (degrade_iff hfresh hid).mp (hsure id hid) cached hbead hheld).mp
      (h (by rw [hbead]; rfl)) hstale
  · intro h hbead
    rw [hrow id] at hbead ⊢
    rcases mergedRow_cases bd (preserveCachedReadyProjection bd c snap) startSeq now (c.row id) id
      c.mutationSeq with ⟨hkeeps, heq⟩ | ⟨f, hf, heq⟩ | ⟨-, heq⟩
    · rw [heq] at hbead ⊢
      obtain ⟨cached, hcached⟩ := isSome_iff_exists.mp hbead
      have hheld := (keeps_iff_heldBack hcached).mp hkeeps
      exact (vouched_iff hcached hheld fun hid => (degrade_iff hfresh hid).mp (hsure id hid) cached hcached hheld).mpr h
    · refine ⟨snap.depMap id, ?_, .inl ⟨?_, .refl _⟩⟩
      · rw [heq]
        have hkept : (preserveCachedReadyProjection bd c snap).useFreshDeps = true := hfresh
        exact absorbed_deps hkept (id_of_find? hf) _ _
      · rw [← kept_ids bd snap c]
        exact mem_ids_of_find? hf
    · rw [heq] at hbead
      cases hbead

lemma merge_atRest (hrest : AtRest startSeq now c) (id : String) :
    (mergeSnapshot bd snap startSeq now c).1.row id =
      match snap.find? id with
      | some f => absorbed bd (preserveCachedReadyProjection bd c snap) now c.mutationSeq (c.row id)
          (preserveReadyProjection bd c snap f)
      | none => {} := by
  obtain ⟨hrow, -, -⟩ := mergeSnapshot_spec bd snap startSeq now c
  rw [hrow id]
  rcases mergedRow_cases bd (preserveCachedReadyProjection bd c snap) startSeq now (c.row id) id
    c.mutationSeq with ⟨hkeeps, -⟩ | ⟨f, hf, heq⟩ | ⟨hid, heq⟩
  · exact absurd hkeeps (not_keeps (hrest id).1 (hrest id).2)
  · rw [kept_find?] at hf
    obtain ⟨g, hg, rfl⟩ := map_eq_some_iff.mp hf
    rw [heq, hg]
  · rw [kept_ids, ← Snapshot.find?_isSome, not_isSome_iff_eq_none] at hid
    rw [heq, hid]

lemma absorbed_preserve_deps (seq : ℕ) (row : Row) (f : Bead) :
    (absorbed bd (preserveCachedReadyProjection bd c snap) now seq row
      (preserveReadyProjection bd c snap f)).deps = some (depsForReconcile bd snap row f) :=
  congrArg some (depsForReconcile_preserve bd snap c row f)

lemma installs_iff (b : Bead) : preserveReadyProjection bd c snap b = b ∧
      depsForReconcile bd snap (c.row b.id) b = snap.depMap b.id ↔
    BringsDeps bd snap c b ∧ ¬LacksProjection snap c b := by
  have hdeps : depsForReconcile bd snap (c.row b.id) b = snap.depMap b.id ↔ BringsDeps bd snap c b := by
    unfold depsForReconcile BringsDeps
    rw [eq_comm]
    cases snap.useFreshDeps <;> cases bd <;> by_cases hfields : depsFromBeadFields b = [] <;> simp [hfields]
  rw [and_comm, hdeps]
  refine and_congr_right fun hbrings => ?_
  unfold preserveReadyProjection LacksProjection
  rw [hdeps.mpr hbrings]
  cases hb : b.isBlocked with
  | some own => simp
  | none =>
    cases hcached : (c.row b.id).bead.bind Bead.isBlocked with
    | none =>
      refine iff_of_true rfl ?_
      rintro ⟨-, ⟨cached, hbead, hsome⟩, -⟩
      rw [mem_def.mp hbead] at hcached
      exact hsome hcached
    | some blocked =>
      obtain ⟨cached, hbead, hblocked⟩ := bind_eq_some_iff.mp hcached
      have hproj : ∃ cached ∈ (c.row b.id).bead, cached.isBlocked ≠ none := ⟨cached, hbead, by simp [hblocked]⟩
      have hcarried : { b with isBlocked := some blocked } ≠ b := fun h => by
        rw [← h] at hb
        cases hb
      rw [ite_eq_left_iff, Bool.not_eq_true, Bool.or_eq_false_iff, depsChanged_eq_false, targetStatusChanged_eq_false]
      simp only [hcarried, hproj, imp_false, true_and]

lemma merge_exact_iff : (AtRest startSeq now c → ∀ id,
      ((mergeSnapshot bd snap startSeq now c).1.row id).bead = snap.find? id ∧
        ((mergeSnapshot bd snap startSeq now c).1.row id).deps = (snap.find? id).map fun _ => snap.depMap id) ↔
    (AtRest startSeq now c → ∀ b ∈ snap.beads, BringsDeps bd snap c b ∧ ¬LacksProjection snap c b) := by
  simp only [← installs_iff]
  refine forall_congr' fun hrest => ⟨fun h b hb => ?_, fun h id => ?_⟩
  · have hfind := Snapshot.find?_of_mem hb
    obtain ⟨hbead, hdeps⟩ := h b.id
    rw [merge_atRest hrest, hfind] at hbead hdeps
    exact ⟨some.inj hbead, some.inj ((absorbed_preserve_deps _ _ _).symm.trans hdeps)⟩
  · rw [merge_atRest hrest]
    cases hf : snap.find? id with
    | none => exact ⟨rfl, rfl⟩
    | some f =>
      obtain ⟨hpreserve, hdeps⟩ := h f (mem_of_find?_eq_some hf)
      rw [id_of_find? hf] at hdeps
      refine ⟨congrArg some hpreserve, ?_⟩
      rw [absorbed_preserve_deps, hdeps]
      rfl

lemma merge_closes (hc : c.Keyed) (hrest : AtRest startSeq now c) {b : Bead}
    (hb : (c.row id).bead = some b) (hopen : b.status ≠ .closed) (hid : id ∉ snap.ids) :
    ∃ n, (mergeSnapshot bd snap startSeq now c).2.filter (·.bead.id = id) = [n] ∧ n.eventType = .closed := by
  obtain ⟨-, ⟨evicted, hnodup, hevicted, hnotes⟩, -⟩ := mergeSnapshot_spec bd snap startSeq now c
  have hid' : id ∉ (preserveCachedReadyProjection bd c snap).ids := by rwa [kept_ids]
  have hmem : id ∈ evicted := (hevicted id).mpr ⟨by rw [hb]; rfl, hid'⟩
  have hall : ((preserveCachedReadyProjection bd c snap).ids ++ evicted).Nodup :=
    List.Nodup.append (preserveCachedReadyProjection bd c snap).nodup hnodup
      fun j hj hj' => ((hevicted j).mp hj').2 hj
  rw [hnotes, filter_notifications (fun j n hn => rowNotification_id (hc j) hn) hall,
    if_pos (mem_append_right _ hmem)]
  refine ⟨⟨.closed, (snap.confirmedClosed id).getD { b with status := .closed }⟩, ?_, rfl⟩
  have hdecision : decisionFor bd (preserveCachedReadyProjection bd c snap) startSeq now (c.row id) id =
      { action := .evict, notification := some .closed } := by
    rw [decisionFor, freshFor_of_notMem hid']
    unfold reconcileMergeDecision
    rw [hb]
    dsimp only
    rw [if_neg (by simp [(hrest id).1]), if_neg (by simp [(hrest id).2]), if_pos hopen]
  rw [rowNotification, hdecision]
  unfold notificationOf
  rw [hb]
  rfl

lemma isPerm_self {α : Type*} [BEq α] [LawfulBEq α] (xs : List α) : xs.isPerm xs = true := isPerm_iff.mpr (.refl xs)

lemma depsChanged_self (deps : List Dep) : depsChanged deps deps = false := depsChanged_eq_false.mpr (.refl deps)

lemma beadChanged_self (b : Bead) (skipLabels : Bool) : beadChanged b b skipLabels = false := by
  simp [beadChanged, depsChanged_self, isPerm_self]

lemma rowNotification_same {row : Row} (hf : snap.find? id = some f)
    (hbead : row.bead = some f) (hdeps : row.deps.getD [] = depsForReconcile bd snap row f) :
    rowNotification bd snap startSeq now row id = none := by
  have hnone : (decisionFor bd snap startSeq now row id).notification = none := by
    rw [decisionFor, freshFor, hf, map_some]
    unfold reconcileMergeDecision
    rw [hbead]
    dsimp only
    rw [hdeps, beadChanged_self, depsChanged_self]
    split
    · rfl
    · split <;> rfl
  unfold rowNotification notificationOf
  rw [hnone]

section

-- The cache after the first merge.
variable {m : Cache} (hm : ∀ id, m.row id = match snap.find? id with
  | some f => absorbed bd (preserveCachedReadyProjection bd c snap) now c.mutationSeq (c.row id)
      (preserveReadyProjection bd c snap f)
  | none => {})

include hm

lemma merged_deps (hf : snap.find? id = some f) :
    (m.row id).deps = some (depsForReconcile bd snap (c.row id) f) := by
  rw [hm, hf]
  exact absorbed_preserve_deps _ _ _

lemma depsForReconcile_merged (hf : snap.find? id = some f) :
    depsForReconcile bd snap (m.row id) f = depsForReconcile bd snap (c.row id) f := by
  rw [depsForReconcile, merged_deps hm hf]
  unfold depsForReconcile
  split_ifs <;> rfl

lemma targetStatusChanged_merged (deps : List Dep) : targetStatusChanged m snap deps = false := by
  unfold targetStatusChanged
  rw [List.any_eq_false]
  intro d _
  rw [hm]
  cases snap.find? d.dependsOnID with
  | none => simp
  | some f =>
    obtain ⟨blocked, heq⟩ := preserveReadyProjection_eq bd snap c f
    simp [absorbed, Row.absorb, heq]

lemma preserveReadyProjection_merged (hf : snap.find? id = some f) :
    preserveReadyProjection bd m snap f = preserveReadyProjection bd c snap f := by
  obtain rfl := id_of_find? hf
  have hbead : (m.row f.id).bead = some (preserveReadyProjection bd c snap f) := by
    rw [hm, hf]
    rfl
  obtain ⟨blocked, heq⟩ := preserveReadyProjection_eq bd snap c f
  cases hf' : f.isBlocked with
  | some own =>
    unfold preserveReadyProjection
    rw [hf']
  | none =>
    cases blocked with
    | none =>
      have hself : preserveReadyProjection bd c snap f = f := by rw [heq, ← hf']
      conv_lhs => unfold preserveReadyProjection
      rw [hbead, hself, bind_some, hf']
    | some kept =>
      conv_lhs => unfold preserveReadyProjection
      rw [hbead, heq, hf']
      dsimp only
      rw [depsForReconcile_merged hm hf, merged_deps hm hf, getD_some, depsChanged_self, targetStatusChanged_merged hm]
      rfl

lemma merge_quiet (startSeq' : ℕ) (now' : Go.Time) : (mergeSnapshot bd snap startSeq' now' m).2 = [] := by
  obtain ⟨-, ⟨evicted, -, hevicted, hnotes⟩, -⟩ := mergeSnapshot_spec bd snap startSeq' now' m
  rw [hnotes, flatMap_eq_nil_iff]
  intro id hid
  -- Nothing is left to evict, so the row is one of the snapshot's.
  have hmem : id ∈ snap.ids := by
    rcases mem_append.mp hid with hid | hid
    · rwa [kept_ids] at hid
    · obtain ⟨hbead, hout⟩ := (hevicted id).mp hid
      rw [kept_ids, ← Snapshot.find?_isSome, not_isSome_iff_eq_none] at hout
      rw [hm, hout] at hbead
      cases hbead
  obtain ⟨f, hf⟩ := isSome_iff_exists.mp (Snapshot.find?_isSome.mpr hmem)
  have hkept := kept_find? bd snap m id
  rw [hf] at hkept
  rw [toList_eq_nil_iff]
  refine rowNotification_same hkept ?_ ?_
  · rw [preserveReadyProjection_merged hm hf, hm, hf]
    rfl
  · rw [depsForReconcile_preserve, depsForReconcile_merged hm hf, merged_deps hm hf, getD_some]

end

end

/-! ## Beads that a scan overtook -/

/-- Three beads, of which the third is written again shortly before a scan, and the second after its start. -/
def overtaken : World :=
  ({} : World).afterAll asKept
    [(⟨1⟩, .create { title := "work" }), (⟨1⟩, .create { title := "work", needs := ["gc-1"] }),
      (⟨1⟩, .create { title := "work" }), (.unix 0, .update "gc-3" { title := some "edited" }),
      (.unix 1, .update "gc-2" { title := some "renamed" })]

/-- A scan at the fourth mutation that found the last two beads as they were. -/
def overtakenScan : Snapshot := .ofScan [{ id := "gc-2", title := "work" }, { id := "gc-3", title := "work" }] [] []

lemma Cache.forall_bead {c : Cache} {P : String → Bead → Prop}
    (h : ∀ id ∈ c.rows.keys, ∀ b ∈ (c.row id).bead, P id b) (id : String) (b : Bead) (hb : (c.row id).bead = some b) :
    P id b :=
  h id (Cache.mem_keys_of_row (fun hempty => by rw [hempty] at hb; cases hb)) b hb

/-- A scan begins on an empty store; meanwhile a bead is created, closed with `CloseAll`, which forgets its dependency
rows, and reopened. -/
def reopenedDuringScan : World :=
  let primed := ({} : World).after asKept (prime .zero)
  let created := primed.after asKept (create .zero { title := "work" })
  let closed := created.after asKept (closeAll .zero ["gc-1"] [])
  closed.after asKept (reopen .zero "gc-1")

end DeliveryEngine.Caching
