import DeliveryEngine.Caching.Readiness
import DeliveryEngine.Runs.Lanes

/-!
# The cache at rest

Once all calls have returned, a cached bead that is not marked dirty should be the backing store's, and so should
cached dependency rows.  Calls on one bead that overlap break this (`overlappingWrites_not_coherent`).  Where none do,
each bead is a lane of its own, and `coherent_at_rest` holds for beads that the backing store shows with their
dependency rows in their fields, and without a projection `is_blocked`.
-/

namespace DeliveryEngine.Caching

open List Option
open Beads (Dep DepType Metadata Key)
open MemStore (Bead Status UpdateOpts Failure State)
open MemStore.State (OnlyAt)
open Runs.Lanes (takes_done takes_op)

/-! ## The lanes of the cache -/

variable (deps : List Dep) (b : Bead)

/-- A backing store that shows a bead with its dependency rows in its fields. -/
def carrying : Bead := { b with dependencies := deps, needs := [] }

@[simp] lemma depsFromBeadFields_carrying : depsFromBeadFields (carrying deps b) = deps := by
  rw [depsFromBeadFields]
  split_ifs with h
  · rfl
  · exact (not_not.mp h).symm

/-- The bead that a request is about; a `Create` learns it from the backing store. -/
def Request.target : Request → Option String
  | .update id _ | .close id | .reopen id | .setMetadata id _ _ | .setMetadataBatch id _ | .depAdd id _ _
  | .depRemove id _ | .delete id | .get id | .depList id | .releaseIfCurrent id _ => some id
  | .create _ | .closeAll _ _ | .tx _ | .ready | .cachedReady | .runReconciliation => none

variable (present : List Dep → Bead → Bead)

/-- Concurrent calls, each with its clock reading. -/
def lanes : Runs.Lanes Query Answer World (Go.Time × Request) String where
  serve := serve present
  program r := r.2.call r.1
  lane r := r.2.target
  finds
    | .store _ (.create _), w => some w.store.nextID
    | _, _ => none

/-- What both sides have under an identifier. -/
structure View where
  stored : Option Bead
  deps : List Dep
  row : Row

def view (id : String) (w : World) : View := ⟨w.store.get id, w.store.depList id, w.cache.row id⟩

/-- The cached copies are the backing store's. -/
structure View.Agrees (v : View) : Prop where
  bead : ∀ cached ∈ v.row.bead, v.stored.map (carrying v.deps) = some cached
  deps : ∀ cached ∈ v.row.deps, cached = v.deps
  projection : ∀ b ∈ v.stored, b.isBlocked = none

/-- No cached bead has a projection. -/
def Cache.Unprojected (c : Cache) : Prop := ∀ id, ∀ cached ∈ (c.row id).bead, cached.isBlocked = none

structure Shared (w : World) : Prop where
  wellFormed : w.store.WellFormed
  unprojected : w.cache.Unprojected

/-- A call, from what both sides have of the bead. -/
abbrev Takes {α : Type} (id : String) (call : Call α) (v : View) (Q : α → View → Prop) : Prop :=
  (lanes carrying).Takes view Shared id call v Q

/-- A call that leaves both sides in agreement on the bead. -/
abbrev Settles {α : Type} (id : String) (call : Call α) (v : View) : Prop := Takes id call v fun _ v' => v'.Agrees

/-! ## Sections -/

namespace Cache

variable {c : Cache} {now : Go.Time} {id : String}

lemma clearDependentReadyProjections_of_unprojected (h : c.Unprojected) (id : String) :
    c.clearDependentReadyProjections id = c := by
  have hnone : (c.rows.keys.filter fun j => c.projectionDependsOn id (c.row j)) = [] := by
    refine filter_eq_nil_iff.mpr fun j _ hj => ?_
    have hany : (c.row j).bead.any (·.isBlocked.isSome) = true := (Bool.and_eq_true_iff.mp hj).1
    cases hbead : (c.row j).bead with
    | none => simp [hbead] at hany
    | some b => simp [hbead, h j b hbead] at hany
  unfold clearDependentReadyProjections
  split_ifs
  · rfl
  · exact if_pos hnone

variable {j : String}

lemma get_visit_one_ne (f : String → Row → Row) (hj : j ≠ id) :
    (c.rows.visit f ((List.dedup [id]).filter (· ≠ ""))).get j = c.row j := by
  rw [Go.Table.get_visit _ ((nodup_dedup _).filter _), if_neg]
  · rfl
  · intro hmem
    exact hj (by simpa using mem_dedup.mp (mem_of_mem_filter hmem))

variable (c : Cache)

lemma row_noteLocalMutation_ne (now : Go.Time) (hj : j ≠ id) :
    (c.noteLocalMutation now [id]).row j = c.row j := get_visit_one_ne _ hj

lemma row_noteMutation_ne (hj : j ≠ id) : (c.noteMutation [id]).row j = c.row j := get_visit_one_ne _ hj

lemma row_noteMutation (id : String) : (c.noteMutation [id]).row id = c.row id ∨
      (c.noteMutation [id]).row id = { c.row id with beadSeq := c.mutationSeq + 1 } := by
  show (c.rows.visit _ _).get id = _ ∨ (c.rows.visit _ _).get id = _
  rw [Go.Table.get_visit _ ((nodup_dedup _).filter _)]
  split
  · exact .inr rfl
  · exact .inl rfl

lemma row_install_ne (now : Go.Time) (b : Bead) (mode : DepsMode) (hj : j ≠ id) :
    (c.install now id b mode).row j = c.row j := by
  rw [install, row_absorbFresh, if_neg hj, row_noteLocalMutation_ne c now hj]

end Cache

/-- What a section may do: it leaves the rows of other beads alone, and the copies in its own row agree with the
backing store. -/
structure Lands (id : String) (stored : Option Bead) (deps : List Dep) (c c' : Cache) : Prop where
  others : ∀ j ≠ id, c'.row j = c.row j
  agrees : View.Agrees ⟨stored, deps, c'.row id⟩

variable {b : Bead} {v : View}

section
variable {c c' : Cache} {now : Go.Time} {id : String} {stored : Option Bead} {deps : List Dep}

lemma View.Agrees.cached_isBlocked (h : v.Agrees) : ∀ cached ∈ v.row.bead, cached.isBlocked = none := by
  intro cached hcached
  obtain ⟨b, hb, rfl⟩ := map_eq_some_iff.mp (h.bead cached hcached)
  exact h.projection b hb

lemma Lands.unprojected (h : Lands id stored deps c c') (hc : c.Unprojected) : c'.Unprojected := by
  intro j cached hcached
  by_cases hj : j = id
  · subst hj
    exact h.agrees.cached_isBlocked cached hcached
  · rw [h.others j hj] at hcached
    exact hc j cached hcached

lemma Lands.clearDependent (h : Lands id stored deps c c') (hc : c.Unprojected) :
    Lands id stored deps c (c'.clearDependentReadyProjections id) := by
  rw [Cache.clearDependentReadyProjections_of_unprojected (h.unprojected hc)]
  exact h

lemma lands_setRow {row : Row} (h : View.Agrees ⟨stored, deps, row⟩) : Lands id stored deps c (c.setRow id row) where
  others j hj := by rw [Cache.row_setRow, if_neg hj]
  agrees := by
    rw [Cache.row_setRow, if_pos rfl]
    exact h

lemma lands_install (hproj : b.isBlocked = none) {mode : DepsMode}
    (hmode : ∀ cached ∈ mode.install (carrying deps b) (c.row id).deps, cached = deps) :
    Lands id (some b) deps c (c.install now id (carrying deps b) mode) where
  others _ hj := Cache.row_install_ne c now _ mode hj
  agrees :=
    { bead := fun cached hcached => by
        rw [install_bead] at hcached
        exact hcached
      deps := fun cached hcached => by
        rw [install_deps] at hcached
        exact hmode cached hcached
      projection := fun b' hb' => some.inj hb' ▸ hproj }

lemma lands_fromFields (hproj : b.isBlocked = none) :
    Lands id (some b) deps c (c.install now id (carrying deps b) .fromFields) :=
  lands_install hproj fun cached hcached => by simpa [DepsMode.install] using hcached.symm

lemma View.Agrees.mark {row row' : Row} (h : View.Agrees ⟨stored, deps, row⟩) (hbead : row'.bead = row.bead)
    (hdeps : row'.deps = row.deps) : View.Agrees ⟨stored, deps, row'⟩ where
  bead cached hcached := h.bead cached (by rwa [hbead] at hcached)
  deps cached hcached := h.deps cached (by rwa [hdeps] at hcached)
  projection := h.projection

lemma lands_marked (h : View.Agrees ⟨stored, deps, c.row id⟩) :
    Lands id stored deps c ((c.noteMutation [id]).markDirty id) where
  others j hj := by rw [Cache.markDirty, Cache.row_setRow, if_neg hj, Cache.row_noteMutation_ne c hj]
  agrees := by
    rw [Cache.markDirty, Cache.row_setRow, if_pos rfl]
    rcases c.row_noteMutation id with hrow | hrow <;> rw [hrow]
    · exact h.mark rfl rfl
    · exact h.mark rfl rfl

lemma lands_tombstone {seq : ℕ} : Lands id none deps c ((c.noteLocalMutation now [id]).tombstone id seq) where
  others j hj := by rw [Cache.tombstone, Cache.row_setRow, if_neg hj, Cache.row_noteLocalMutation_ne c now hj]
  agrees := by
    rw [Cache.tombstone, Cache.row_setRow, if_pos rfl]
    exact ⟨fun _ h => (by cases h), fun _ h => (by cases h), fun _ h => (by cases h)⟩

end

/-! ## Operations -/

variable {c : Cache}

section
variable {α : Type} {now : Go.Time} {id : String}

lemma takes_get : Takes id (askGet id) v fun fresh v' => fresh = v.stored.map (carrying v.deps) ∧ v' = v :=
  takes_op fun _ hw hv => ⟨fun _ _ => rfl, hw, hv ▸ rfl, hv⟩

lemma takes_depList : Takes id (askDepList id) v fun deps v' => deps = v.deps ∧ v' = v :=
  takes_op fun _ hw hv => ⟨fun _ _ => rfl, hw, hv ▸ rfl, hv⟩

lemma takes_readLocked : Takes id readLocked v fun c v' => c.row id = v.row ∧ v' = v :=
  takes_op fun _ hw hv => ⟨fun _ _ => rfl, ⟨hw.wellFormed, hw.unprojected⟩, hv ▸ rfl, hv⟩

variable {f : Cache → Cache}

lemma takes_underLock (hf : ∀ c, c.Unprojected → c.row id = v.row → Lands id v.stored v.deps c (f c)) :
    Settles id (underLock f) v :=
  takes_op fun w hw hv => by
    subst hv
    have hlands := hf w.cache hw.unprojected rfl
    refine ⟨fun j hj => ?_, ⟨hw.wellFormed, hlands.unprojected hw.unprojected⟩, hlands.agrees⟩
    exact congrArg (View.mk (w.store.get j) (w.store.depList j)) (hlands.others j hj)

lemma settles_section {a : α} (hf : ∀ c, c.Unprojected → c.row id = v.row → Lands id v.stored v.deps c (f c)) :
    Settles id (underLock f >>= fun _ => pure a) v :=
  (takes_underLock hf).bind fun _ _ h => takes_done h

variable {op : MemStore.Op}

lemma takes_store {Q : Except Failure op.Value → View → Prop}
    (hop : ∀ s : State, s.WellFormed → s.get id = v.stored → s.depList id = v.deps → OnlyAt id s (op.serve now s).2 ∧
        Q (op.serve now s).1 ⟨(op.serve now s).2.get id, (op.serve now s).2.depList id, v.row⟩) :
    Takes id (askStore now op) v Q :=
  takes_op fun w hw hv => by
    subst hv
    obtain ⟨honly, hQ⟩ := hop w.store hw.wellFormed rfl rfl
    refine ⟨fun j hj => ?_, ⟨(op.advances now w.store hw.wellFormed).1, hw.unprojected⟩, hQ⟩
    show View.mk ((op.serve now w.store).2.get j) ((op.serve now w.store).2.depList j) (w.cache.row j) =
      View.mk (w.store.get j) (w.store.depList j) (w.cache.row j)
    rw [(honly j hj).1, (honly j hj).2]

/-! ## What is written -/

/-- An operation that changes one bead, which must exist, and not its dependency rows. -/
structure Rewrites (now : Go.Time) (op : MemStore.Op) (id : String) (f : Bead → Bead) : Prop where
  missing : ∀ s : State, s.get id = none → ∃ e, op.serve now s = (.error e, s)
  found : ∀ (s : State) (b : Bead), s.get id = some b → ∃ value s', op.serve now s = (.ok value, s') ∧
    OnlyAt id s s' ∧ s'.get id = some (f b) ∧ s'.depList id = s.depList id

variable {f : Bead → Bead} {value : op.Value} {verb : String}

lemma rewrites_of_onBead {g : State → Bead → State}
    (hop : ∀ s, op.serve now s = s.onBead verb id fun b => (.ok value, g s b))
    (hg : ∀ s b, s.get id = some b → OnlyAt id s (g s b) ∧ (g s b).get id = some (f b) ∧ (g s b).depList id = s.depList id) :
    Rewrites now op id f where
  missing s hs := ⟨_, by rw [hop, State.onBead, hs]⟩
  found s b hs := ⟨value, g s b, by rw [hop, State.onBead, hs], hg s b hs⟩

lemma rewrites_change (hf : ∀ b, (f b).id = b.id)
    (hop : ∀ s, op.serve now s = s.onBead verb id fun _ => (.ok value, s.change id f)) :
    Rewrites now op id f :=
  rewrites_of_onBead hop fun s b hb =>
    ⟨State.onlyAt_change hf s id, by rw [State.get_change_self hf, hb, map_some], rfl⟩

lemma rewrites_changeUnless {p : Bead → Prop} [DecidablePred p] (hf : ∀ b, (f b).id = b.id)
    (hop : ∀ s, op.serve now s = s.onBead verb id fun b => if p b then (.ok value, s) else (.ok value, s.change id f)) :
    Rewrites now op id fun b => if p b then b else f b := by
  have hop' : ∀ s, op.serve now s = s.onBead verb id fun b => (.ok value, if p b then s else s.change id f) := by
    intro s
    rw [hop]
    congr 1
    funext b
    split <;> rfl
  refine rewrites_of_onBead hop' fun s b hb => ?_
  · split
    · exact ⟨State.onlyAt_refl id s, hb, rfl⟩
    · exact ⟨State.onlyAt_change hf s id, by rw [State.get_change_self hf, hb, map_some], rfl⟩

/-- An update that changes labels leaves no label twice. -/
def LabelsOnce (opts : UpdateOpts) (b : Bead) : Prop :=
  opts.labels = [] ∧ opts.removeLabels = [] ∨ ((b.labels ++ opts.labels).filter (· ∉ opts.removeLabels)).Nodup

instance (opts : UpdateOpts) (b : Bead) : Decidable (LabelsOnce opts b) := inferInstanceAs (Decidable (_ ∨ _))

lemma labels_again {labels added removed : List String} (hnodup : labels.Nodup) (hkept : ∀ l ∈ labels, l ∉ removed)
    (hadded : ∀ l ∈ added, l ∉ removed → l ∈ labels) :
    ((labels ++ added).filter (· ∉ removed)).reverse.dedup.reverse = labels := by
  have hsame : labels.filter (· ∉ removed) = labels := filter_eq_self.mpr fun l hl => by simpa using hkept l hl
  have hsub : (added.filter (· ∉ removed)).reverse ⊆ labels.reverse := by
    intro l hl
    have hl' := mem_filter.mp (mem_reverse.mp hl)
    exact mem_reverse.mpr (hadded l hl'.1 (by simpa using hl'.2))
  rw [filter_append, hsame, reverse_append, dedup_append, (nodup_reverse.mpr hnodup).dedup,
    List.Subset.union_eq_right hsub, reverse_reverse]

variable {opts : UpdateOpts}

lemma applyUpdateOptsToBead_carrying (hlabels : LabelsOnce opts b) (deps : List Dep) :
    applyUpdateOptsToBead opts (carrying deps (opts.apply now b)) = carrying deps (opts.apply now b) := by
  have hagain : (if opts.labels = [] ∧ opts.removeLabels = [] then (opts.apply now b).labels
      else (((opts.apply now b).labels ++ opts.labels).filter (· ∉ opts.removeLabels)).reverse.dedup.reverse) =
        (opts.apply now b).labels := by
    split_ifs with hnone
    · rfl
    · refine labels_again (hlabels.resolve_left hnone) (fun l hl => ?_) fun l hl hkept => ?_
      · simpa using (mem_filter.mp hl).2
      · exact mem_filter.mpr ⟨mem_append_right _ hl, by simpa using hkept⟩
  have hgetD : ∀ {α : Type} (o : Option α) (a : α), o.getD (o.getD a) = o.getD a := by
    intro α o a
    cases o <;> rfl
  have hor : opts.priority.or (opts.priority.or b.priority) = opts.priority.or b.priority := by
    cases opts.priority <;> rfl
  simp only [UpdateOpts.apply, Bead.touch] at hagain
  simp only [applyUpdateOptsToBead, carrying, UpdateOpts.apply, Bead.touch, hgetD, hor, Metadata.update_update, hagain]

variable {status : Status}

lemma lands_afterStatus (hc : c.Unprojected)
    (hdeps : ∀ cached ∈ (c.row id).deps, cached = v.deps) (hproj : b.isBlocked = none) (hstatus : b.status = status) :
    Lands id (some b) v.deps c (afterStatus now id status (some (carrying v.deps b)) c) := by
  subst hstatus
  have hlands : Lands id (some b) v.deps c (c.install now id (carrying v.deps b) .keepCached) := lands_install hproj hdeps
  exact hlands.clearDependent hc

lemma takes_getWithDeps (hb : v.stored = some b) :
    Takes id (getWithDeps id) v fun r v' => r = some (carrying v.deps b, v.deps) ∧ v' = v := by
  refine takes_get.bind ?_
  rintro fresh v' ⟨rfl, rfl⟩
  rw [hb]
  refine takes_depList.bind ?_
  rintro deps v' ⟨rfl, rfl⟩
  exact takes_done ⟨rfl, rfl⟩

lemma lands_afterDeps {deps : List Dep} (hproj : b.isBlocked = none) (edit : List Dep → Option (List Dep))
    (c : Cache) : Lands id (some b) deps c (afterDeps now id (some (carrying deps b, deps)) edit c) := by
  have hlands : Lands id (some b) deps c (c.install now id (carrying deps b) (.explicit deps)) :=
    lands_install hproj fun cached hcached => (some.inj hcached).symm
  have hsame : { carrying deps b with isBlocked := none } = carrying deps b := by
    rw [← hproj]
    rfl
  refine ⟨fun j hj => ?_, ?_⟩
  · rw [afterDeps, Cache.clearReadyProjection, Cache.row_setRow, if_neg hj]
    exact hlands.others j hj
  · rw [afterDeps, Cache.clearReadyProjection, Cache.row_setRow, if_pos rfl]
    refine hlands.agrees.mark ?_ rfl
    show Option.map _ (Row.bead _) = _
    rw [install_bead, map_some, hsame]

/-! ## Writers -/

variable (hv : v.Agrees)
include hv

lemma takes_unlessMatching {matching : Cache → Bool} {call : Call (Except Failure Unit)}
    (hcall : Settles id call v) : Settles id (unlessMatching matching call) v := by
  refine takes_readLocked.bind ?_
  rintro c v' ⟨-, rfl⟩
  split
  · exact takes_done hv
  · exact hcall

lemma takes_writeThrough {takeIn : Option Bead → Cache → Cache} (hop : Rewrites now op id f)
    (htakeIn : ∀ b ∈ v.stored, ∀ c, c.Unprojected → c.row id = v.row →
      Lands id (some (f b)) v.deps c (takeIn (some (carrying v.deps (f b))) c)) :
    Settles id (writeThrough now op id takeIn) v := by
  have hwrite : Takes id (askStore now op) v fun r v' =>
      (∃ e, r = .error e) ∧ v' = v ∨ ∃ value, ∃ b ∈ v.stored, r = .ok value ∧ v' = ⟨some (f b), v.deps, v.row⟩ := by
    refine takes_store fun s _ hget hdeps => ?_
    cases hstored : v.stored with
    | none =>
      obtain ⟨e, hserve⟩ := hop.missing s (hget.trans hstored)
      rw [hserve]
      refine ⟨State.onlyAt_refl id s, .inl ⟨⟨e, rfl⟩, ?_⟩⟩
      rw [hget, hdeps]
    | some b =>
      obtain ⟨value, s', hserve, honly, hget', hdeps'⟩ := hop.found s b (hget.trans hstored)
      rw [hserve]
      refine ⟨honly, .inr ⟨value, b, rfl, rfl, ?_⟩⟩
      rw [hget', hdeps', hdeps]
  refine hwrite.bind ?_
  rintro r v' (⟨⟨e, rfl⟩, rfl⟩ | ⟨value, b, hb, rfl, rfl⟩)
  · exact takes_done hv
  · refine takes_get.bind ?_
    rintro fresh v' ⟨rfl, rfl⟩
    exact settles_section (htakeIn b hb)

lemma takes_update (hlabels : ∀ b ∈ v.stored, LabelsOnce opts b) : Settles id (update now id opts) v := by
  refine takes_unlessMatching hv (takes_writeThrough hv (rewrites_change (f := opts.apply now) (fun _ => rfl) fun _ => rfl) ?_)
  intro b hb c hc _
  have hlands : Lands id (some (opts.apply now b)) v.deps c
      (c.install now id (applyUpdateOptsToBead opts (carrying v.deps (opts.apply now b))) .fromFields) := by
    rw [applyUpdateOptsToBead_carrying (hlabels b hb)]
    exact lands_fromFields (b := opts.apply now b) (hv.projection b hb)
  rw [afterUpdate]
  split
  · exact hlands.clearDependent hc
  · exact hlands

lemma settles_status (hop : Rewrites now op id fun b => if b.status = status then b else f b)
    (hproj : ∀ b, (f b).isBlocked = b.isBlocked) (hstatus : ∀ b, (f b).status = status) :
    Settles id (writeThrough now op id (afterStatus now id status)) v := by
  refine takes_writeThrough hv hop fun b hb c hc hrow => lands_afterStatus hc (hrow ▸ hv.deps) ?_ ?_
  · split
    · exact hv.projection b hb
    · exact (hproj b).trans (hv.projection b hb)
  · split
    · assumption
    · exact hstatus b

lemma takes_close : Settles id (close now id) v :=
  takes_unlessMatching hv (settles_status hv
    (rewrites_changeUnless (f := Bead.close now []) (fun _ => rfl) fun _ => rfl) (fun _ => rfl) fun _ => rfl)

lemma takes_reopen : Settles id (reopen now id) v :=
  settles_status hv (rewrites_changeUnless (f := Bead.reopen now) (fun _ => rfl) fun _ => rfl) (fun _ => rfl) fun _ => rfl

lemma takes_setMetadata {key : Key} {value : String} : Settles id (setMetadata now id key value) v :=
  takes_unlessMatching hv (takes_writeThrough hv
    (rewrites_change (f := Bead.setMetadata now [(key, value)]) (fun _ => rfl) fun _ => rfl)
    fun b hb _ _ _ => lands_fromFields (b := b.setMetadata now [(key, value)]) (hv.projection b hb))

lemma takes_setMetadataBatch {kvs : Metadata} : Settles id (setMetadataBatch now id kvs) v := by
  rw [setMetadataBatch]
  split
  · exact takes_done hv
  next hkvs =>
    have hop : Rewrites now (.setMetadataBatch id kvs) id (Bead.setMetadata now kvs) :=
      rewrites_change (fun _ => rfl) fun _ => if_neg hkvs
    refine takes_unlessMatching hv ((takes_writeThrough hv hop fun b hb _ _ _ =>
      lands_fromFields (b := b.setMetadata now kvs) (hv.projection b hb)).bind fun r v' hv' => ?_)
    cases r with
    | error e => exact settles_section fun c _ hrow => lands_marked (hrow ▸ hv')
    | ok value => exact takes_done hv'

/-! ## Dependencies, deletions and reads -/

lemma takes_writeDeps {edit : List Dep → Option (List Dep)}  (hstored : v.stored.isSome)
    (hop : ∀ s, ∃ value s', op.serve now s = (.ok value, s') ∧ OnlyAt id s s' ∧ s'.get id = s.get id) :
    Settles id (writeDeps now op id edit) v := by
  obtain ⟨b, hb⟩ := isSome_iff_exists.mp hstored
  have hwrite : Takes id (askStore now op) v fun r v' => (∃ value, r = .ok value) ∧ v'.stored = some b := by
    refine takes_store fun s _ hget _ => ?_
    obtain ⟨value, s', hserve, honly, hget'⟩ := hop s
    rw [hserve]
    exact ⟨honly, ⟨value, rfl⟩, hget'.trans (hget.trans hb)⟩
  refine hwrite.bind ?_
  rintro r v' ⟨⟨value, rfl⟩, hb'⟩
  refine (takes_getWithDeps hb').bind ?_
  rintro fresh v' ⟨rfl, rfl⟩
  refine settles_section fun c _ _ => ?_
  rw [hb']
  exact lands_afterDeps (hv.projection b hb) edit c

variable {dependsOnID : String}

lemma takes_depAdd {type : DepType} (hstored : v.stored.isSome) : Settles id (depAdd now id dependsOnID type) v :=
  takes_writeDeps hv hstored fun s => ⟨(), _, rfl, State.onlyAt_depAdd s id dependsOnID type, rfl⟩

lemma takes_depRemove (hstored : v.stored.isSome) : Settles id (depRemove now id dependsOnID) v :=
  takes_writeDeps hv hstored fun s => ⟨(), _, rfl, State.onlyAt_depRemove s id dependsOnID, rfl⟩

lemma takes_delete : Settles id (delete now id) v := by
  have hwrite : Takes id (askStore now (.delete id)) v fun r v' =>
      (∃ e, r = .error e) ∧ v' = v ∨ r = .ok () ∧ v'.stored = none := by
    refine takes_store fun s hs hget hdeps => ?_
    simp only [MemStore.Op.serve, State.delete, State.onBead]
    cases hstored : s.get id with
    | none =>
      refine ⟨State.onlyAt_refl id s, .inl ⟨⟨_, rfl⟩, ?_⟩⟩
      rw [hget, hdeps]
    | some b => exact ⟨State.onlyAt_remove s id, .inr ⟨rfl, State.get_remove_self hs id⟩⟩
  refine takes_get.bind ?_
  rintro _ v' ⟨-, rfl⟩
  refine hwrite.bind ?_
  rintro r v' (⟨⟨e, rfl⟩, rfl⟩ | ⟨rfl, hnone⟩)
  · exact takes_done hv
  · refine settles_section fun c hc _ => ?_
    rw [hnone]
    exact lands_tombstone.clearDependent hc

lemma takes_get_agrees : Settles id (askGet id) v := Runs.Lanes.Takes.mono takes_get fun _ _ h => h.2 ▸ hv

lemma lands_afterDirtyGet {startSeq : ℕ} (hb : v.stored = some b)  (hrow : c.row id = v.row) :
    Lands id v.stored v.deps c (afterDirtyGet now id startSeq (carrying v.deps b) c) := by
  rw [afterDirtyGet]
  split
  · refine lands_setRow ⟨fun cached hcached => ?_, fun cached hcached => ?_, hv.projection⟩
    · rw [hb]
      exact hcached
    · have hcached : some (depsFromBeadFields (carrying v.deps b)) = some cached := hcached
      rw [depsFromBeadFields_carrying] at hcached
      exact (some.inj hcached).symm
  · exact ⟨fun _ _ => rfl, hrow ▸ hv⟩

lemma takes_getCall : Settles id (Caching.get now id) v := by
  refine takes_readLocked.bind ?_
  rintro c v' ⟨-, rfl⟩
  dsimp only
  split_ifs
  · exact takes_done hv
  · exact takes_done hv
  · exact takes_get_agrees hv
  · refine takes_get.bind ?_
    rintro fresh v' ⟨rfl, rfl⟩
    cases hb : v'.stored with
    | none => exact takes_done hv
    | some b =>
      refine (takes_underLock fun _ _ hrow => lands_afterDirtyGet hv hb hrow).bind fun c' v' hv' => ?_
      split_ifs
      any_goals exact takes_done hv'
      exact (takes_get_agrees hv').bind fun _ _ h => takes_done h
  · exact takes_done hv
  · exact takes_get_agrees hv

lemma takes_depListCall : Settles id (Caching.depList id) v := by
  refine takes_readLocked.bind ?_
  rintro c v' ⟨-, rfl⟩
  split_ifs
  · exact Runs.Lanes.Takes.mono takes_depList fun _ _ h => h.2 ▸ hv
  · cases (c.row id).deps with
    | some deps => exact takes_done hv
    | none =>
      refine takes_depList.bind ?_
      rintro deps v' ⟨rfl, rfl⟩
      exact settles_section fun c _ hrow =>
        lands_setRow ⟨fun cached hcached => hv.bead cached (hrow ▸ hcached),
          fun cached hcached => (some.inj hcached).symm, hv.projection⟩

end

/-! ## Overlapping calls -/

/-- What a request has to find, or to bring: a bead without a projection, labels once, and a bead whose dependencies
are written. -/
def Regular (w : World) : Go.Time × Request → Prop
  | (_, .create b) => b.isBlocked = none
  | (_, .update id opts) => ∀ b ∈ w.store.get id, LabelsOnce opts b
  | (_, .depAdd id _ _) | (_, .depRemove id _) => (w.store.get id).isSome
  | (_, .close _) | (_, .reopen _) | (_, .setMetadata _ _ _) | (_, .setMetadataBatch _ _) | (_, .delete _)
  | (_, .get _) | (_, .depList _) => True
  | (_, .releaseIfCurrent _ _) | (_, .closeAll _ _) | (_, .tx _) | (_, .ready) | (_, .cachedReady)
  | (_, .runReconciliation) => False

instance (w : World) (r : Go.Time × Request) : Decidable (Regular w r) :=
  match r with
  | (_, .create b) => inferInstanceAs (Decidable (b.isBlocked = none))
  | (_, .update id opts) => inferInstanceAs (Decidable (∀ b ∈ w.store.get id, LabelsOnce opts b))
  | (_, .depAdd id _ _) | (_, .depRemove id _) => inferInstanceAs (Decidable ((w.store.get id).isSome = true))
  | (_, .close _) | (_, .reopen _) | (_, .setMetadata _ _ _) | (_, .setMetadataBatch _ _) | (_, .delete _)
  | (_, .get _) | (_, .depList _) => .isTrue trivial
  | (_, .releaseIfCurrent _ _) | (_, .closeAll _ _) | (_, .tx _) | (_, .ready) | (_, .cachedReady)
  | (_, .runReconciliation) => .isFalse id

variable {id : String}

lemma takes_discard {α : Type} {call : Call α} (h : Settles id call v) :
    Settles id (discard call) v := h.bind fun _ _ hv => takes_done hv

lemma takes_created {now : Go.Time} (hid : b.id = id) (hstored : v.stored = some b) (hproj : b.isBlocked = none) :
    Settles id (do
      let fresh ← askGet b.id
      let bead := fresh.getD b
      let _ ← underLock fun c => c.install now bead.id bead .fromFields
      return (Except.ok bead : Except Failure Bead)) v := by
  subst hid
  refine takes_get.bind ?_
  rintro fresh v' ⟨rfl, rfl⟩
  refine settles_section fun c _ _ => ?_
  rw [hstored]
  exact lands_fromFields hproj

lemma sound : (lanes carrying).Sound view Shared Regular View.Agrees where
  known w r id hshared hregular hlane hagrees := by
    rcases r with ⟨now, r⟩
    refine Runs.Lanes.Takes.safeIn ?_ hshared
    cases r <;> cases hlane
    case releaseIfCurrent => exact hregular.elim
    all_goals refine takes_discard ?_
    case update => exact takes_update hagrees hregular
    case close => exact takes_close hagrees
    case reopen => exact takes_reopen hagrees
    case setMetadata => exact takes_setMetadata hagrees
    case setMetadataBatch => exact takes_setMetadataBatch hagrees
    case depAdd => exact takes_depAdd hagrees hregular
    case depRemove => exact takes_depRemove hagrees hregular
    case delete => exact takes_delete hagrees
    case get => exact takes_getCall hagrees
    case depList => exact takes_depListCall hagrees
  unknown w r hregular hlane := by
    rcases r with ⟨now, r⟩
    cases r with
    | create b =>
      refine ⟨.store now (.create b), _, rfl, fun w hshared => ⟨w.store.nextID, rfl, fun _ => ?_⟩⟩
      have hwf := hshared.wellFormed
      have hshared' : Shared { w with store := w.store.create now b } :=
        ⟨(MemStore.Op.advances (.create b) now w.store hwf).1, hshared.unprojected⟩
      refine ⟨⟨fun j hj => ?_, fun _ => hshared'⟩, Runs.Lanes.Takes.safeIn ?_ hshared'⟩
      · have honly := State.onlyAt_create hwf now b j hj
        show View.mk ((w.store.create now b).get j) ((w.store.create now b).depList j) (w.cache.row j) =
          View.mk (w.store.get j) (w.store.depList j) (w.cache.row j)
        rw [honly.1, honly.2]
      · have hstored : (w.store.create now b).get w.store.nextID = some (w.store.newBead now b) :=
          (State.get_create hwf now b _).trans (if_pos rfl)
        exact takes_discard (takes_created (b := w.store.newBead now b) rfl hstored hregular)
    | closeAll | tx | ready | cachedReady | runReconciliation => exact hregular.elim
    | update | close | reopen | setMetadata | setMetadataBatch | depAdd | depRemove | delete | get | depList
    | releaseIfCurrent => cases hlane

/-! ## At rest -/

/-- The cached copies are the backing store's, and no write is skipped that the backing store needs. -/
structure Coherent (present : List Dep → Bead → Bead) (w : World) : Prop where
  bead : ∀ id cached, (w.cache.row id).bead = some cached → (w.cache.row id).dirty = false →
    shown present w.store id = some cached
  deps : ∀ id cached, (w.cache.row id).deps = some cached → cached = w.store.depList id
  close : ∀ id, w.cache.closeAlreadyMatchesCached id = true →
    ∃ b, shown present w.store id = some b ∧ b.status = .closed
  metadata : ∀ id kvs, w.cache.metadataAlreadyMatchesCached id kvs = true →
    ∃ b, shown present w.store id = some b ∧ metadataMatches kvs b = true
  update : ∀ id opts, w.cache.updateMatchesCached id opts = true →
    ∃ b, shown present w.store id = some b ∧ updateMatches opts b = true

lemma matchable_eq_some (h : c.matchable id = some b) : (c.row id).bead = some b ∧ (c.row id).dirty = false := by
  rw [Cache.matchable] at h
  split_ifs at h with hid
  exact ⟨h, by simpa using hid.2.2⟩

lemma coherent_of_agrees {w : World} (h : ∀ id, (view id w).Agrees) : Coherent carrying w := by
  have hbead : ∀ id cached, (w.cache.row id).bead = some cached → shown carrying w.store id = some cached :=
    fun id cached hcached => (h id).bead cached hcached
  have hskip : ∀ id (p : Bead → Bool), (w.cache.matchable id).any p = true →
      ∃ b, shown carrying w.store id = some b ∧ p b = true := by
    intro id p hp
    cases hm : w.cache.matchable id with
    | none => simp [hm] at hp
    | some b => exact ⟨b, hbead id b (matchable_eq_some hm).1, by simpa [hm] using hp⟩
  exact
    { bead := fun id cached hcached _ => hbead id cached hcached
      deps := fun id cached hcached => (h id).deps cached hcached
      close := fun id hmatch => by simpa using hskip id _ hmatch
      metadata := fun id kvs hmatch => hskip id _ hmatch
      update := fun id opts hmatch => hskip id _ hmatch }

/-- A cache after its first scan of a backing store. -/
def scanned (s : State) (now : Go.Time) : World := ({ store := s } : World).after present (prime now)

lemma agrees_scanned {s : State} (hs : s.WellFormed) (hproj : ∀ b ∈ s.beads, b.isBlocked = none) (now : Go.Time) :
    Shared (scanned carrying s now) ∧ ∀ id, (view id (scanned carrying s now)).Agrees := by
  let snap := firstScan carrying s
  have hafter : scanned carrying s now = ⟨s, afterPrime 0 snap now {}⟩ := after_prime carrying s now
  have hfound : ∀ id b, snap.find? id = some b →
      (s.get id).map (carrying (s.depList id)) = some b ∧ snap.depMap id = s.depList id := by
    intro id b hb
    obtain ⟨b₀, hb₀, rfl⟩ := mem_map.mp (pwFilter_subset _ (mem_of_find?_eq_some hb))
    have hid : (carrying (s.depList b₀.id) b₀).id = id := id_of_find? hb
    obtain rfl : b₀.id = id := hid
    exact ⟨by rw [hs.get (mem_of_mem_filter hb₀), map_some], depMap_ofScan (mem_ids_ofScan.mp (mem_ids_of_find? hb))⟩
  have hagrees : ∀ id, (view id (scanned carrying s now)).Agrees := by
    intro id
    have hprojection : ∀ b ∈ s.get id, b.isBlocked = none := fun b hb => hproj b (State.mem_of_get hb)
    rw [hafter]
    show View.Agrees ⟨s.get id, s.depList id, (afterPrime 0 snap now {}).row id⟩
    rw [row_afterPrime_empty, Cache.primedRow]
    cases hfind : snap.find? id with
    | none => exact ⟨fun _ h => (by cases h), fun _ h => (by cases h), hprojection⟩
    | some b =>
      obtain ⟨hbead, hdeps⟩ := hfound id b hfind
      refine ⟨fun cached hcached => ?_, fun cached hcached => ?_, hprojection⟩
      · obtain rfl := some.inj hcached
        exact hbead
      · obtain rfl := some.inj hcached
        exact hdeps
  refine ⟨⟨by rw [hafter]; exact hs, fun id => (hagrees id).cached_isBlocked⟩, hagrees⟩

/-- Once all calls have returned, the cache is coherent, if no two calls on one bead overlapped. -/
theorem coherent_at_rest (idPrefix : String) (disabled : Bool) (before : List (Go.Time × MemStore.Op))
    (started : Go.Time) (events : List (Runs.Lanes.Event (Go.Time × Request)))
    (hprojection : ∀ b ∈ (MemStore.run (.empty idPrefix disabled) before).beads, b.isBlocked = none)
    (hexclusive : (lanes carrying).Exclusive Regular
      { store := scanned carrying (MemStore.run (.empty idPrefix disabled) before) started } events)
    (hreturned : ((lanes carrying).run
      { store := scanned carrying (MemStore.run (.empty idPrefix disabled) before) started } events).returned = true) :
    Coherent carrying ((lanes carrying).run
      { store := scanned carrying (MemStore.run (.empty idPrefix disabled) before) started } events).store := by
  have hwf := (MemStore.run_advances before _ (State.wellFormed_empty idPrefix disabled)).1
  obtain ⟨hshared, hagrees⟩ := agrees_scanned hwf hprojection started
  exact coherent_of_agrees (Runs.Lanes.post_of_returned sound hshared hagrees hexclusive hreturned).2

/-- Two beads are created, and then written by two calls that take turns. -/
def besideEachOther : List (Runs.Lanes.Event (Go.Time × Request)) :=
  [0, 1].flatMap (fun i => .start (.zero, .create { title := "work" }) :: List.replicate 4 (.step i)) ++
    ["gc-1", "gc-2"].map (fun id => .start (.zero, .setMetadata id (.other "note") "first")) ++
    (List.replicate 4 [.step 2, .step 3]).flatten

theorem coherent_at_rest_besideEachOther :
    (lanes carrying).Exclusive Regular { store := scanned carrying (.empty "" false) .zero } besideEachOther ∧
      Coherent carrying
        ((lanes carrying).run { store := scanned carrying (.empty "" false) .zero } besideEachOther).store := by
  have hexclusive : (lanes carrying).Exclusive Regular { store := scanned carrying (.empty "" false) .zero }
      besideEachOther := by decide +kernel
  exact ⟨hexclusive, coherent_at_rest "" false [] .zero besideEachOther (fun b hb => absurd hb not_mem_nil)
    hexclusive (by decide +kernel)⟩

/-- Two calls that set one key of one bead. -/
def settingTwice : List (Go.Time × Request) :=
  [(.zero, .create { title := "work" }), (.zero, .setMetadata "gc-1" (.other "note") "first"),
    (.zero, .setMetadata "gc-1" (.other "note") "second")]

/-- The first call has written and read the bead; before it installs what it read, the second call runs through. -/
def overlappingWrites : List (Runs.Lanes.Event (Go.Time × Request)) :=
  (settingTwice.zipIdx.map fun (r, _) => .start r) ++
    [.step 0, .step 0, .step 0, .step 1, .step 1, .step 1, .step 2, .step 2, .step 2, .step 2, .step 1]

theorem overlappingWrites_not_coherent :
    ((lanes carrying).run { store := scanned carrying (.empty "" false) .zero } overlappingWrites).returned = true ∧
      ¬Coherent carrying
        ((lanes carrying).run { store := scanned carrying (.empty "" false) .zero } overlappingWrites).store := by
  refine ⟨by decide +kernel, fun h => ?_⟩
  have hskipped := h.metadata "gc-1" [(.other "note", "first")] (by decide +kernel)
  have hstored : (shown carrying ((lanes carrying).run { store := scanned carrying (.empty "" false) .zero }
      overlappingWrites).store.store "gc-1").all (fun b => !metadataMatches [(.other "note", "first")] b) = true := by
    decide +kernel
  obtain ⟨b, hb, hmatch⟩ := hskipped
  simp [hb, hmatch] at hstored

end DeliveryEngine.Caching
