import DeliveryEngine.Beads.Frames
import DeliveryEngine.Caching.Reads

/-!
# What the cache has to know to serve ready beads

`Faithful` is what the cache has to know so that no bead it serves as ready has a blocker, row by row (`Tracks`): the
statuses of the beads that are not closed, and dependency rows that name all blockers.  The calls that write one bead
keep it, if the fields of the bead name all blockers (`FieldsNameBlockers`) or the rows are known (`ReopenKnown`).
-/

namespace DeliveryEngine.Caching

open Beads (Dep DepType Metadata Key)
open MemStore (Bead Status UpdateOpts TxOp State)
open Runs (Program)
open MemStore.State (OnlyAt)

/-! ## What one row has to know -/

/-- Dependency rows that name every blocker of some others. -/
def NamesBlockers (deps named : List Dep) : Prop :=
  ∀ d ∈ deps, isReadyBlockingDependencyType d.type = true →
    ∃ d' ∈ named, d'.dependsOnID = d.dependsOnID ∧ isReadyBlockingDependencyType d'.type = true

instance (deps named : List Dep) : Decidable (NamesBlockers deps named) :=
  inferInstanceAs (Decidable (∀ d ∈ deps, _ → ∃ d' ∈ named, _))

lemma namesBlockers_refl (deps : List Dep) : NamesBlockers deps deps := fun d hd htype => ⟨d, hd, rfl, htype⟩

/-- A row of the cache beside what the backing store has under the identifier. -/
structure Tracks (id : String) (stored : Option Bead) (deps : List Dep) (complete : Bool) (row : Row) : Prop where
  keyed : ∀ cached ∈ row.bead, cached.id = id
  /-- Only beads that are gone are marked dirty. -/
  dirty : row.dirty = true → stored = none
  status : row.bead.map Bead.status = stored.map Bead.status ∨ row.bead = none ∧ ∃ b ∈ stored, b.status = .closed
  named : stored.isSome → ∀ cached ∈ row.deps, NamesBlockers deps cached
  /-- Where the dependency rows are called complete, a bead without them has no blocker. -/
  known : complete = true → row.deps = none → ∀ b ∈ stored, b.status ≠ .closed → NamesBlockers deps []
  storedProjection : ∀ b ∈ stored, b.isBlocked ≠ some false
  projection : ∀ cached ∈ row.bead, cached.isBlocked ≠ some false

/-- The cache knows what it has to know to serve ready beads. -/
structure Faithful (w : World) : Prop where
  wellFormed : w.store.WellFormed
  tracks : ∀ id, Tracks id (w.store.get id) (w.store.depList id) w.cache.depsComplete (w.cache.row id)

section
variable {id : String} {stored : Option Bead} {deps : List Dep} {complete : Bool} {row row' : Row}

lemma tracks_absent (hbead : row.bead = none) : Tracks id none deps complete row where
  keyed := by simp [hbead]
  dirty _ := rfl
  status := by simp [hbead]
  named h := by cases h
  known _ _ b hb := by cases hb
  storedProjection b hb := by cases hb
  projection := by simp [hbead]

lemma Tracks.bead_none (h : Tracks id none deps complete row) : row.bead = none := by
  rcases h.status with h | ⟨h, -⟩
  · simpa using h
  · exact h

lemma Tracks.cached {b : Bead} (h : Tracks id stored deps complete row) (hb : stored = some b)
    (hopen : b.status ≠ .closed) : ∃ cached, row.bead = some cached ∧ cached.status = b.status := by
  rcases h.status with hstatus | ⟨-, b', hb', hclosed⟩
  · rw [hb] at hstatus
    exact Option.map_eq_some_iff.mp hstatus
  · obtain rfl := Option.some.inj (hb.symm.trans hb')
    exact absurd hclosed hopen

lemma tracks_copy {b cached : Bead} (hid : cached.id = id) (hstatus : cached.status = b.status)
    (hstored : b.isBlocked ≠ some false) (hcached : cached.isBlocked ≠ some false) (hbead : row.bead = some cached)
    (hdirty : row.dirty = false) (hnamed : ∀ cached ∈ row.deps, NamesBlockers deps cached)
    (hknown : complete = true → row.deps = none → b.status ≠ .closed → NamesBlockers deps []) :
    Tracks id (some b) deps complete row where
  keyed := by simpa [hbead] using hid
  dirty h := by simp [hdirty] at h
  status := .inl (by simp [hbead, hstatus])
  named _ := hnamed
  known hcomplete hnone b' hb' := by
    obtain rfl := Option.some.inj hb'
    exact hknown hcomplete hnone
  storedProjection := by simpa using hstored
  projection := by simpa [hbead] using hcached

/-- A row that differs in marks, or in a forgotten projection. -/
structure Row.Quieter (row row' : Row) : Prop where
  deps : row'.deps = row.deps
  dirty : row'.dirty = row.dirty
  bead : row'.bead = row.bead ∨ row'.bead = row.bead.map fun b => { b with isBlocked := none }

lemma Row.Quieter.refl (row : Row) : row.Quieter row := ⟨rfl, rfl, .inl rfl⟩

lemma Row.Quieter.trans {row'' : Row} (h : row.Quieter row') (h' : row'.Quieter row'') : row.Quieter row'' where
  deps := h'.deps.trans h.deps
  dirty := h'.dirty.trans h.dirty
  bead := by
    rcases h.bead with h | h <;> rcases h'.bead with h' | h' <;> rw [h', h]
    · exact .inl rfl
    · exact .inr rfl
    · exact .inr rfl
    · exact .inr (by rw [Option.map_map]; rfl)

lemma Row.Quieter.bead_none (h : row.Quieter row') (hnone : row.bead = none) : row'.bead = none := by
  rcases h.bead with hbead | hbead <;> simp [hbead, hnone]

lemma Tracks.quieter (h : Tracks id stored deps complete row) (hrow : row.Quieter row') :
    Tracks id stored deps complete row' := by
  have hmem : ∀ cached ∈ row'.bead, ∃ b ∈ row.bead, cached.id = b.id ∧
      (cached.isBlocked = b.isBlocked ∨ cached.isBlocked = none) := by
    intro cached hcached
    rcases hrow.bead with hbead | hbead
    · exact ⟨cached, hbead ▸ hcached, rfl, .inl rfl⟩
    · rw [hbead] at hcached
      obtain ⟨b, hb, rfl⟩ := Option.map_eq_some_iff.mp hcached
      exact ⟨b, hb, rfl, .inr rfl⟩
  have hstatus : row'.bead.map Bead.status = row.bead.map Bead.status := by
    rcases hrow.bead with hbead | hbead
    · rw [hbead]
    · rw [hbead, Option.map_map]
      rfl
  refine
    { keyed := fun cached hcached => ?_
      dirty := fun hdirty => h.dirty (hrow.dirty ▸ hdirty)
      status := ?_
      named := fun hsome => by rw [hrow.deps]; exact h.named hsome
      known := fun hcomplete hnone => h.known hcomplete (hrow.deps ▸ hnone)
      storedProjection := h.storedProjection
      projection := fun cached hcached => ?_ }
  · obtain ⟨b, hb, hid, -⟩ := hmem cached hcached
    exact hid.trans (h.keyed b hb)
  · rw [hstatus]
    exact h.status.imp_right fun ⟨hnone, hclosed⟩ => ⟨hrow.bead_none hnone, hclosed⟩
  · obtain ⟨b, hb, -, hblocked | hblocked⟩ := hmem cached hcached
    · rw [hblocked]
      exact h.projection b hb
    · rw [hblocked]
      simp

end

/-! ## What the sections leave alone -/

/-- Outside some identifiers the second cache differs in marks and forgotten projections only. -/
structure Cache.Spares (ids : List String) (c c' : Cache) : Prop where
  depsComplete : c'.depsComplete = c.depsComplete
  rows : ∀ j ∉ ids, (c.row j).Quieter (c'.row j)

namespace Cache

variable {ids : List String} {c c' c'' : Cache}

lemma Spares.refl (ids : List String) (c : Cache) : Spares ids c c := ⟨rfl, fun _ _ => .refl _⟩

lemma Spares.trans (h : Spares ids c c') (h' : Spares ids c' c'') : Spares ids c c'' :=
  ⟨h'.depsComplete.trans h.depsComplete, fun j hj => (h.rows j hj).trans (h'.rows j hj)⟩

lemma Spares.mono {ids' : List String} (h : Spares ids c c') (hids : ∀ id ∈ ids, id ∈ ids') : Spares ids' c c' :=
  ⟨h.depsComplete, fun j hj => h.rows j fun hj' => hj (hids j hj')⟩

lemma Spares.row (h : Spares [] c c') (id : String) : (c.row id).Quieter (c'.row id) := h.rows id (by simp)

variable (c : Cache) (id : String)

lemma spares_setRow (row : Row) : Spares [id] c (c.setRow id row) where
  depsComplete := rfl
  rows j hj := by
    rw [row_setRow, if_neg (by simpa using hj)]
    exact .refl _

lemma spares_visit (f : Row → Row) (hf : ∀ row : Row, row.Quieter (f row)) {keys : List String} (hkeys : keys.Nodup)
    (seq : ℕ) (c : Cache) :
    Spares [] c { c with mutationSeq := seq, rows := c.rows.visit (fun _ row => f row) keys } where
  depsComplete := rfl
  rows j _ := by
    have hget : (c.rows.visit (fun _ row => f row) keys).get j = if j ∈ keys then f (c.rows.get j) else c.rows.get j :=
      Go.Table.get_visit _ hkeys _ _
    show (c.row j).Quieter ((c.rows.visit (fun _ row => f row) keys).get j)
    rw [hget]
    split
    · exact hf _
    · exact .refl _

lemma spares_noteMutation (c : Cache) (ids : List String) : Spares [] c (c.noteMutation ids) :=
  spares_visit (fun row => { row with beadSeq := c.mutationSeq + 1 }) (fun _ => ⟨rfl, rfl, .inl rfl⟩)
    ((List.nodup_dedup _).filter _) _ c

lemma spares_noteLocalMutation (c : Cache) (now : Go.Time) (ids : List String) :
    Spares [] c (c.noteLocalMutation now ids) :=
  spares_visit (fun row => { row with beadSeq := c.mutationSeq + 1, localBeadAt := some now })
    (fun _ => ⟨rfl, rfl, .inl rfl⟩) ((List.nodup_dedup _).filter _) _ c

lemma spares_clearDependentReadyProjections : Spares [] c (c.clearDependentReadyProjections id) := by
  unfold clearDependentReadyProjections
  split_ifs
  · exact .refl _ _
  · dsimp only
    split_ifs
    · exact .refl _ _
    · exact (spares_visit Row.clearReadyProjection (fun _ => ⟨rfl, rfl, .inr rfl⟩) (c.rows.nodup.filter _) c.mutationSeq
        c).trans (spares_noteMutation _ _)

lemma spares_setRow_clear (row : Row) : Spares [id] c ((c.setRow id row).clearDependentReadyProjections id) :=
  (spares_setRow c id row).trans ((spares_clearDependentReadyProjections _ id).mono (by simp))

end Cache

open Cache (Spares spares_clearDependentReadyProjections spares_noteLocalMutation spares_setRow)

/-! ## Calls that write one bead -/

def FieldsNameBlockers (s : State) (id : String) : Prop :=
  ∀ b ∈ s.get id, NamesBlockers (s.depList id) (depsFromBeadFields b)

instance (s : State) (id : String) : Decidable (FieldsNameBlockers s id) :=
  inferInstanceAs (Decidable (∀ b ∈ s.get id, _))

variable {takeIn : Option Bead → Cache → Cache} {s : State}

section
variable {w w' : World} {now : Go.Time} {id : String}

lemma Faithful.write (h : Faithful w) (hwf : w'.store.WellFormed) (honly : OnlyAt id w.store w'.store)
    (hspares : Spares [id] w.cache w'.cache)
    (hid : Tracks id (w'.store.get id) (w'.store.depList id) w.cache.depsComplete (w'.cache.row id)) : Faithful w' where
  wellFormed := hwf
  tracks j := by
    rw [hspares.depsComplete]
    by_cases hj : j = id
    · exact hj ▸ hid
    · rw [(honly j hj).1, (honly j hj).2]
      exact (h.tracks j).quieter (hspares.rows j (by simpa using hj))

variable {op : MemStore.Op}

lemma Faithful.wellFormed_served (h : Faithful w) {r : Except MemStore.Failure op.Value}
    (hop : op.serve now w.store = (r, s)) : s.WellFormed := by
  have := (op.advances now w.store h.wellFormed).1
  rwa [hop] at this

variable (present : List Dep → Bead → Bead)

lemma after_discard {α : Type} (w : World) (call : Call α) :
    w.after present (discard call) = w.after present call := by
  rw [World.after, discard, Program.run_bind]
  rfl

lemma after_unlessMatching (w : World) (matching : Cache → Bool) (call : Call (Except MemStore.Failure Unit)) :
    w.after present (unlessMatching matching call) = if matching w.cache then w else w.after present call := by
  show (Program.run _ (if matching w.cache then _ else _) w).2 = _
  split <;> rfl

lemma run_readLocked (w : World) : readLocked.run (serve present) w = (w.cache, w) := rfl

lemma run_askGet (w : World) : (askGet id).run (serve present) w = (shown present w.store id, w) := rfl

lemma run_askStore (w : World) (op : MemStore.Op) : (askStore now op).run (serve present) w =
    ((op.serve now w.store).1, { w with store := (op.serve now w.store).2 }) := rfl

lemma run_writeThrough (w : World) (op : MemStore.Op) (takeIn : Option Bead → Cache → Cache) :
    (writeThrough now op id takeIn).run (serve present) w =
      match op.serve now w.store with
      | (.error e, s) => (.error e, { w with store := s })
      | (.ok v, s) => (.ok v, ⟨s, takeIn (shown present s id) w.cache⟩) := by
  rw [writeThrough, Program.run_bind, run_askStore]
  rcases op.serve now w.store with ⟨_ | _, s⟩ <;> rfl

lemma shown_asKept (s : State) (id : String) : shown asKept s id = s.get id := by
  rw [shown]
  cases s.get id <;> rfl

lemma Faithful.writeThrough (h : Faithful w) (hserve : (∃ e, op.serve now w.store = (.error e, w.store)) ∨
      ∃ v s b, op.serve now w.store = (.ok v, s) ∧ OnlyAt id w.store s ∧ s.get id = some b ∧
        Spares [id] w.cache (takeIn (some b) w.cache) ∧
        Tracks id (some b) (s.depList id) w.cache.depsComplete ((takeIn (some b) w.cache).row id)) :
    Faithful (w.after asKept (writeThrough now op id takeIn)) := by
  rw [World.after, run_writeThrough]
  obtain ⟨e, hop⟩ | ⟨v, s, b, hop, honly, hget, hspares, htracks⟩ := hserve
  · rw [hop]
    exact h
  · rw [hop]
    dsimp only
    rw [shown_asKept, hget]
    exact h.write (h.wellFormed_served hop) honly hspares (hget ▸ htracks)

end

section
variable (c : Cache) (now : Go.Time) (id : String) (b : Bead) (mode : DepsMode)

lemma spares_install : Spares [id] c (c.install now id b mode) :=
  ((spares_noteLocalMutation c now [id]).mono (by simp)).trans (spares_setRow _ id _)

lemma install_bead : ((c.install now id b mode).row id).bead = some b := by
  rw [Cache.install, Cache.row_absorbFresh, if_pos rfl]
  rfl

lemma install_deps : ((c.install now id b mode).row id).deps = mode.install b (c.row id).deps := by
  rw [Cache.install, Cache.row_absorbFresh, if_pos rfl, ← ((spares_noteLocalMutation c now [id]).row id).deps]
  rfl

end

section
variable {w : World} {now : Go.Time} {id : String} {c : Cache} {b : Bead}

lemma tracks_absorbed {c' : Cache} {cached : Bead} {mode : DepsMode} {deps : List Dep} {complete : Bool}
    (hc : Spares [] (c.absorbFresh id cached now { depsMode := mode, seqMode := .keep, clearDirty := true }) c')
    (hid : cached.id = id) (hstatus : cached.status = b.status)
    (hstored : b.isBlocked ≠ some false) (hcached : cached.isBlocked ≠ some false)
    (hnamed : ∀ named ∈ mode.install cached (c.row id).deps, NamesBlockers deps named)
    (hknown : complete = true → mode.install cached (c.row id).deps = none → b.status ≠ .closed →
      NamesBlockers deps []) :
    Tracks id (some b) deps complete (c'.row id) := by
  refine Tracks.quieter ?_ (hc.row id)
  rw [Cache.row_absorbFresh, if_pos rfl]
  exact tracks_copy hid hstatus hstored hcached rfl rfl hnamed hknown

variable {c' : Cache}

lemma spares_installed {mode : DepsMode} (hc : Spares [] (c.install now id b mode) c') :
    Spares [id] c c' := (spares_install c now id b mode).trans (hc.mono (by simp))

/-- A copy of a bead that leaves alone what its dependencies are read from. -/
structure SameFields (b copy : Bead) : Prop where
  id : copy.id = b.id
  dependencies : copy.dependencies = b.dependencies
  needs : copy.needs = b.needs
  isBlocked : copy.isBlocked = b.isBlocked

lemma SameFields.depsFromBeadFields {copy : Bead} (h : SameFields b copy) :
    depsFromBeadFields copy = depsFromBeadFields b := by
  rw [Caching.depsFromBeadFields, Caching.depsFromBeadFields, h.id, h.dependencies, h.needs]

lemma tracks_fromFields {stored cached : Bead} {complete : Bool}
    (hstored : s.get id = some stored) (hfields : FieldsNameBlockers s id)
    (hblocked : stored.isBlocked ≠ some false) (hb : SameFields stored b)
    (hcached : SameFields stored cached) (hstatus : cached.status = b.status)
    (hc : Spares [] (c.install now id cached .fromFields) c') :
    Tracks id (some b) (s.depList id) complete (c'.row id) := by
  refine tracks_absorbed hc (hcached.id.trans (State.id_of_get hstored)) hstatus (hb.isBlocked ▸ hblocked)
    (hcached.isBlocked ▸ hblocked) ?_ fun _ h => by cases h
  intro named hnamed
  obtain rfl := Option.some.inj hnamed
  rw [hcached.depsFromBeadFields]
  exact hfields stored hstored

variable {op : MemStore.Op} {v : op.Value}

section
variable (h : Faithful w)
include h

lemma Faithful.markDirty (hget : w.store.get id = none) (hc : Spares [] w.cache c) :
    Faithful { w with cache := c.markDirty id } := by
  refine h.write h.wellFormed (State.onlyAt_refl id _) ((hc.mono (by simp)).trans (spares_setRow c id _)) ?_
  have hbead : (c.row id).bead = none := (hc.row id).bead_none (Tracks.bead_none (hget ▸ h.tracks id))
  show Tracks id (w.store.get id) _ _ ((c.setRow id { c.row id with dirty := true }).row id)
  rw [hget, Cache.row_setRow, if_pos rfl]
  exact tracks_absent hbead

variable {f : Bead → Bead}

section
variable (hfields : FieldsNameBlockers w.store id)
include hfields

lemma Faithful.changed (cached : Bead) (hget : w.store.get id = some b)
    (hf : ∀ b, SameFields b (f b)) (hcached : SameFields b cached)
    (hstatus : cached.status = (f b).status) (hspares : Spares [] (w.cache.install now id cached .fromFields) c') :
    OnlyAt id w.store (w.store.change id f) ∧ (w.store.change id f).get id = some (f b) ∧ Spares [id] w.cache c' ∧
      Tracks id (some (f b)) ((w.store.change id f).depList id) w.cache.depsComplete (c'.row id) := by
  refine ⟨State.onlyAt_change (fun b => (hf b).id) _ _, ?_, spares_installed hspares,
    tracks_fromFields (s := w.store) hget hfields ((h.tracks id).storedProjection b hget) (hf b) hcached hstatus hspares⟩
  rw [State.get_change_self fun b => (hf b).id, hget]
  rfl

lemma Faithful.changeThrough {verb : String} (f cached : Bead → Bead)
    (hserve : op.serve now w.store = w.store.onBead verb id fun _ => (.ok v, w.store.change id f))
    (hstatus : ∀ b, (cached b).status = (f b).status)
    (hspares : ∀ b, Spares [] (w.cache.install now id (cached b) .fromFields) (takeIn (some (f b)) w.cache))
    (hf : ∀ b, SameFields b (f b) := by exact fun _ => ⟨rfl, rfl, rfl, rfl⟩)
    (hcached : ∀ b, SameFields b (cached b) := by exact fun _ => ⟨rfl, rfl, rfl, rfl⟩) :
    Faithful (w.after asKept (Caching.writeThrough now op id takeIn)) := by
  refine h.writeThrough ?_
  rw [hserve, State.onBead]
  cases hget : w.store.get id with
  | none => exact .inl ⟨_, rfl⟩
  | some b => exact .inr ⟨v, _, f b, rfl, h.changed hfields _ hget hf (hcached b) (hstatus b) (hspares b)⟩

lemma Faithful.update (opts : UpdateOpts) : Faithful (w.after asKept (Caching.update now id opts)) := by
  rw [Caching.update, after_unlessMatching]
  split_ifs
  · exact h
  refine h.changeThrough hfields (opts.apply now) (fun b => applyUpdateOptsToBead opts (opts.apply now b)) rfl
    (fun b => ?_) fun b => ?_
  · show opts.status.getD (opts.status.getD b.status) = opts.status.getD b.status
    cases opts.status <;> rfl
  · show Spares [] _ (if opts.status.isSome then _ else _)
    split_ifs
    · exact spares_clearDependentReadyProjections _ id
    · exact .refl _ _

lemma Faithful.setMetadata (key : Key) (value : String) :
    Faithful (w.after asKept (Caching.setMetadata now id key value)) := by
  rw [Caching.setMetadata, after_unlessMatching]
  split_ifs
  · exact h
  exact h.changeThrough hfields (Bead.setMetadata now [(key, value)]) (Bead.setMetadata now [(key, value)]) rfl
    (fun _ => rfl) fun _ => .refl _ _

lemma Faithful.setMetadataBatch (kvs : Metadata) :
    Faithful (w.after asKept (Caching.setMetadataBatch now id kvs)) := by
  rw [Caching.setMetadataBatch]
  split_ifs with hempty
  · exact h
  rw [after_unlessMatching]
  split_ifs
  · exact h
  have hserve : (MemStore.Op.setMetadataBatch id kvs).serve now w.store =
      w.store.onBead "setting metadata batch on" id fun _ => (.ok (), w.store.change id (Bead.setMetadata now kvs)) := by
    rw [MemStore.Op.serve, State.setMetadataBatch, if_neg hempty]
  have hwrite : Faithful (w.after asKept
      (Caching.writeThrough now (.setMetadataBatch id kvs) id (afterMetadata now id kvs))) :=
    h.changeThrough hfields (Bead.setMetadata now kvs) (Bead.setMetadata now kvs) hserve
      (fun _ => rfl) fun _ => .refl _ _
  rw [World.after, run_writeThrough, hserve, State.onBead] at hwrite
  rw [World.after, Program.run_bind, run_writeThrough, hserve, State.onBead]
  cases hget : w.store.get id with
  | none => exact h.markDirty hget (Cache.spares_noteMutation w.cache [id])
  | some b =>
    rw [hget] at hwrite
    exact hwrite

lemma Faithful.releaseIfCurrent (expectedAssignee : String) :
    Faithful (w.after asKept (Caching.releaseIfCurrent now id expectedAssignee)) := by
  let op : MemStore.Op := .releaseIfCurrent id expectedAssignee
  have hserve : op.serve now w.store = (.ok false, w.store) ∨
      ∃ b, w.store.get id = some b ∧ op.serve now w.store = (.ok true, w.store.change id (Bead.release now)) := by
    show w.store.releaseIfCurrent now id expectedAssignee = _ ∨ ∃ b, _ ∧ w.store.releaseIfCurrent now id expectedAssignee = _
    rw [State.releaseIfCurrent]
    cases hget : w.store.get id with
    | none => exact .inl rfl
    | some b =>
      dsimp only
      split_ifs
      · exact .inl rfl
      · exact .inr ⟨b, rfl, rfl⟩
  rw [World.after, Caching.releaseIfCurrent, Program.run_bind, run_askStore asKept w op]
  obtain hop | ⟨b, hget, hop⟩ := hserve
  · rw [hop]
    exact h
  · have hwf := h.wellFormed_served hop
    obtain ⟨honly, hget', hspares, htracks⟩ := h.changed hfields (f := Bead.release now) (b.release now) hget
      (fun _ => ⟨rfl, rfl, rfl, rfl⟩) ⟨rfl, rfl, rfl, rfl⟩ rfl (spares_clearDependentReadyProjections _ id)
    have hshown := (shown_asKept (w.store.change id (Bead.release now)) id).trans hget'
    rw [hop]
    show Faithful ⟨_, afterRelease now id (shown asKept (w.store.change id (Bead.release now)) id) w.cache⟩
    rw [hshown]
    exact h.write hwf honly hspares (hget'.symm ▸ htracks)

end

lemma Faithful.statusThrough {verb : String} {status : Status}
    (hserve : op.serve now w.store = w.store.onBead verb id fun b =>
      if b.status = status then (.ok v, w.store) else (.ok v, w.store.change id f))
    (hstatus : ∀ b, (f b).status = status)
    (hknown : status ≠ .closed → w.cache.depsComplete = true → (w.cache.row id).deps = none →
      ∀ b ∈ w.store.get id, NamesBlockers (w.store.depList id) [])
    (hf : ∀ b, SameFields b (f b) := by exact fun _ => ⟨rfl, rfl, rfl, rfl⟩) :
    Faithful (w.after asKept (Caching.writeThrough now op id (afterStatus now id status))) := by
  refine h.writeThrough ?_
  rw [hserve, State.onBead]
  cases hget : w.store.get id with
  | none => exact .inl ⟨_, rfl⟩
  | some b =>
    have hspares (b : Bead) : Spares [] (w.cache.install now id { b with status } .keepCached)
        (afterStatus now id status (some b) w.cache) := spares_clearDependentReadyProjections _ id
    have hblocked := (h.tracks id).storedProjection b hget
    have hnoted := ((spares_noteLocalMutation w.cache now [id]).row id).deps
    have hnamed : ∀ named ∈ ((w.cache.noteLocalMutation now [id]).row id).deps, NamesBlockers _ named :=
      hnoted ▸ (h.tracks id).named (by rw [hget]; rfl)
    have hid := State.id_of_get hget
    right
    dsimp only
    split_ifs with hsame
    · refine ⟨v, _, b, rfl, State.onlyAt_refl id _, hget, spares_installed (hspares b), ?_⟩
      refine tracks_absorbed (hspares b) hid hsame.symm hblocked hblocked hnamed fun hcomplete hnone hopen => ?_
      exact hknown (hsame ▸ hopen) hcomplete (hnoted ▸ hnone) b hget
    · refine ⟨v, _, f b, rfl, State.onlyAt_change (fun b => (hf b).id) _ _, ?_, spares_installed (hspares (f b)), ?_⟩
      · rw [State.get_change_self fun b => (hf b).id, hget]
        rfl
      · refine tracks_absorbed (hspares (f b)) ((hf b).id.trans hid) (hstatus b).symm
          ((hf b).isBlocked ▸ hblocked) ((hf b).isBlocked ▸ hblocked) hnamed fun hcomplete hnone hopen => ?_
        exact hknown (hstatus b ▸ hopen) hcomplete (hnoted ▸ hnone) b hget

lemma Faithful.close : Faithful (w.after asKept (Caching.close now id)) := by
  rw [Caching.close, after_unlessMatching]
  split_ifs
  · exact h
  exact h.statusThrough rfl (fun _ => rfl) fun hne => absurd rfl hne

end

/-- The dependency rows of a bead are cached, or it has no blocker, or it is not closed. -/
def ReopenKnown (w : World) (id : String) : Prop :=
  (w.cache.row id).deps = none → ∀ b ∈ w.store.get id, b.status = .closed → NamesBlockers (w.store.depList id) []

lemma Faithful.reopen (h : Faithful w) (hknown : ReopenKnown w id) :
    Faithful (w.after asKept (Caching.reopen now id)) := by
  refine h.statusThrough rfl (fun _ => rfl) fun _ hcomplete hnone b hb => ?_
  by_cases hclosed : b.status = .closed
  · exact hknown hnone b hb hclosed
  · exact (h.tracks id).known hcomplete hnone b hb hclosed

lemma Cache.spares_clearReadyProjection (c : Cache) (id : String) : Spares [] c (c.clearReadyProjection id) where
  depsComplete := rfl
  rows j _ := by
    rw [clearReadyProjection, row_setRow]
    split_ifs with hj
    · exact hj ▸ ⟨rfl, rfl, .inr rfl⟩
    · exact .refl _

variable (present : List Dep → Bead → Bead)

lemma run_getWithDeps (w : World) (id : String) : (getWithDeps id).run (serve present) w =
      ((shown present w.store id).map fun fresh =>
        ({ fresh with dependencies := w.store.depList id, needs := [] }, w.store.depList id), w) := by
  rw [getWithDeps, Program.run_bind, run_askGet]
  cases shown present w.store id <;> rfl

lemma after_writeDeps (w : World) (hop : op.serve now w.store = (.ok v, s)) (edit : List Dep → Option (List Dep)) :
    w.after present (writeDeps now op id edit) = ⟨s, afterDeps now id ((shown present s id).map fun fresh =>
        ({ fresh with dependencies := s.depList id, needs := [] }, s.depList id)) edit w.cache⟩ := by
  rw [World.after, writeDeps, Program.run_bind, run_askStore, hop]
  rw [Program.run_bind, run_getWithDeps]
  rfl

lemma tracks_afterDeps_none (now : Go.Time) (hbead : (c.row id).bead = none) (edit : List Dep → Option (List Dep)) :
    Spares [id] c (afterDeps now id none edit c) ∧ ((afterDeps now id none edit c).row id).bead = none := by
  have hnoted : Spares [id] c (c.noteLocalMutation now [id]) := (spares_noteLocalMutation c now [id]).mono (by simp)
  have hnone := ((spares_noteLocalMutation c now [id]).row id).bead_none hbead
  unfold afterDeps
  dsimp only
  split_ifs
  · refine ⟨hnoted.trans (spares_setRow _ _ _), ?_⟩
    rw [Cache.clearStalenessMarks, Cache.row_setRow, if_pos rfl]
    exact hnone
  · split
    · exact ⟨hnoted, hnone⟩
    · refine ⟨((hnoted.trans (spares_setRow _ _ _)).trans
        ((Cache.spares_clearReadyProjection _ _).mono (by simp))).trans (spares_setRow _ _ _), ?_⟩
      rw [Cache.clearStalenessMarks, Cache.row_setRow, if_pos rfl]
      refine ((Cache.spares_clearReadyProjection _ id).row id).bead_none ?_
      rw [Cache.row_setRow, if_pos rfl]
      exact hnone

lemma Faithful.writeDeps (h : Faithful w) (hop : op.serve now w.store = (.ok v, s)) (honly : OnlyAt id w.store s)
    (hget : s.get id = w.store.get id) (edit : List Dep → Option (List Dep)) :
    Faithful (w.after asKept (Caching.writeDeps now op id edit)) := by
  have hwf := h.wellFormed_served hop
  rw [after_writeDeps asKept w hop, shown_asKept]
  cases hstored : s.get id with
  | none =>
    have hbead : (w.cache.row id).bead = none := Tracks.bead_none ((hget.symm.trans hstored) ▸ h.tracks id)
    obtain ⟨hspares, hnone⟩ := tracks_afterDeps_none now hbead edit
    exact h.write hwf honly hspares (hstored.symm ▸ tracks_absent hnone)
  | some b =>
    have hspares := Cache.spares_clearReadyProjection (w.cache.install now id
      { b with dependencies := s.depList id, needs := [] } (.explicit (s.depList id))) id
    have hblocked := (h.tracks id).storedProjection b (hget.symm.trans hstored)
    refine h.write hwf honly (spares_installed hspares) ?_
    rw [hstored]
    have hid : b.id = id := State.id_of_get hstored
    refine tracks_absorbed hspares hid rfl hblocked hblocked ?_ fun _ hnone => by cases hnone
    intro named hnamed
    obtain rfl := Option.some.inj hnamed
    exact namesBlockers_refl _

lemma Faithful.depAdd (h : Faithful w) (dependsOnID : String) (type : DepType) :
    Faithful (w.after asKept (Caching.depAdd now id dependsOnID type)) :=
  h.writeDeps rfl (State.onlyAt_depAdd _ _ _ _) rfl _

lemma Faithful.depRemove (h : Faithful w) (dependsOnID : String) :
    Faithful (w.after asKept (Caching.depRemove now id dependsOnID)) :=
  h.writeDeps rfl (State.onlyAt_depRemove _ _ _) rfl _

lemma after_delete (w : World) : w.after present (Caching.delete now id) =
      match w.store.delete id with
      | (.error _, s) => { w with store := s }
      | (.ok _, s) => ⟨s, afterDelete now id w.cache⟩ := by
  rw [World.after, Caching.delete, Program.run_bind, Program.run_bind]
  have hdelete : (askStore now (.delete id)).run (serve present) ((askGet id).run (serve present) w).2 =
      ((w.store.delete id).1, { w with store := (w.store.delete id).2 }) := rfl
  rw [hdelete]
  rcases w.store.delete id with ⟨_ | _, s⟩ <;> rfl

lemma Faithful.delete (h : Faithful w) : Faithful (w.after asKept (Caching.delete now id)) := by
  rw [after_delete, State.delete, State.onBead]
  cases hget : w.store.get id with
  | none => exact h
  | some b =>
    have hspares : Spares [id] w.cache (afterDelete now id w.cache) :=
      ((spares_noteLocalMutation w.cache now [id]).mono (by simp)).trans (Cache.spares_setRow_clear _ id _)
    have hbead : ((afterDelete now id w.cache).row id).bead = none := by
      refine ((spares_clearDependentReadyProjections _ id).row id).bead_none ?_
      rw [Cache.tombstone, Cache.row_setRow, if_pos rfl]
    refine h.write (State.advances_remove id h.wellFormed).1 (State.onlyAt_remove _ _) hspares ?_
    rw [State.get_remove_self h.wellFormed]
    exact tracks_absent hbead

lemma after_create (w : World) (b : Bead) : w.after present (Caching.create now b) = ⟨w.store.create now b,
        w.cache.install now ((shown present (w.store.create now b) w.store.nextID).getD (w.store.newBead now b)).id
          ((shown present (w.store.create now b) w.store.nextID).getD (w.store.newBead now b)) .fromFields⟩ := rfl

lemma Faithful.create (h : Faithful w) (hblocked : b.isBlocked ≠ some false)
    (hfields : FieldsNameBlockers (w.store.create now b) w.store.nextID) :
    Faithful (w.after asKept (Caching.create now b)) := by
  have hget : (w.store.create now b).get w.store.nextID = some (w.store.newBead now b) := by
    rw [State.get_create h.wellFormed, if_pos rfl]
  have hspares := Spares.refl [] (w.cache.install now w.store.nextID (w.store.newBead now b) .fromFields)
  rw [after_create, shown_asKept, hget]
  refine h.write (State.advances_create now b h.wellFormed).1
    (State.onlyAt_create h.wellFormed now b) (spares_installed hspares) ?_
  rw [hget]
  exact tracks_fromFields hget hfields hblocked ⟨rfl, rfl, rfl, rfl⟩ ⟨rfl, rfl, rfl, rfl⟩ rfl hspares

end

end DeliveryEngine.Caching
