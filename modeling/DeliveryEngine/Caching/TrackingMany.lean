import DeliveryEngine.Caching.Tracking

/-!
# Calls that write many beads

`CloseAll` and transactions read every bead again that they wrote, and take them in one after the other under the
lock (`foldl_tracks`).  A transaction leaves alone what it did not touch (`TxFrame`).
-/

namespace DeliveryEngine.Caching

open List
open Beads (Dep DepType Metadata Key)
open MemStore (Bead Status UpdateOpts TxOp State)
open Runs (Program)
open MemStore.State (OnlyAt)

lemma run_getAll (present : List Dep → Bead → Bead) (w : World) (ids : List String) :
    (getAll ids).run (serve present) w = (ids.map fun id => (id, shown present w.store id), w) := by
  induction ids with
  | nil => rfl
  | cons id ids ih =>
    rw [getAll, Program.run_bind, Program.run_bind]
    show Program.run _ (pure ((id, shown present w.store id) :: ((getAll ids).run (serve present) w).1))
      ((getAll ids).run (serve present) w).2 = _
    rw [ih]
    rfl

section

-- A section that takes in one bead after the other: what it finds is tracked then, and what is gone stays away.
variable {step : Cache → String × Option Bead → Cache} {s : State} {ids : List String} {complete : Bool}
variable (hspares : ∀ c item, Cache.Spares [item.1] c (step c item))
  (hfound : ∀ c, ∀ id ∈ ids, ∀ b, s.get id = some b →
    Tracks id (some b) (s.depList id) complete ((step c (id, some b)).row id))
  (hgone : ∀ c id, (c.row id).bead = none → ((step c (id, none)).row id).bead = none)

include hspares hfound hgone

lemma foldl_tracks (c : Cache) (hcomplete : c.depsComplete = complete)
    (hc : ∀ j, s.get j = none ∨ j ∉ ids → Tracks j (s.get j) (s.depList j) complete (c.row j)) :
    ((ids.map fun id => (id, s.get id)).foldl step c).depsComplete = complete ∧
      ∀ j, Tracks j (s.get j) (s.depList j) complete (((ids.map fun id => (id, s.get id)).foldl step c).row j) := by
  induction ids generalizing c with
  | nil => exact ⟨hcomplete, fun j => hc j (.inr not_mem_nil)⟩
  | cons id ids ih =>
    rw [map_cons]
    have hrow := hspares c (id, s.get id)
    refine ih (fun c j hj => hfound c j (mem_cons_of_mem _ hj)) _ (hrow.depsComplete.trans hcomplete) fun j hj => ?_
    by_cases hjid : j = id
    · subst hjid
      cases hget : s.get j with
      | none => exact tracks_absent (hgone c j (Tracks.bead_none (hget ▸ hc j (.inl hget))))
      | some b => exact hfound c j mem_cons_self b hget
    · refine (hc j (hj.imp_right fun hj => ?_)).quieter (hrow.rows j (by simpa using hjid))
      simpa [hjid] using hj

lemma Faithful.takeInAll {w : World} (h : Faithful w) {c : Cache} (hwf : s.WellFormed)
    (hout : ∀ j ∉ ids, s.get j = w.store.get j ∧ s.depList j = w.store.depList j)
    (hmore : ∀ j, s.get j = none → w.store.get j = none)
    (hcomplete : c.depsComplete = complete ∧ w.cache.depsComplete = complete)
    (hbeads : ∀ j, (w.cache.row j).bead = none → (c.row j).bead = none)
    (hrows : ∀ j, s.get j ≠ none → (w.cache.row j).Quieter (c.row j)) :
    Faithful ⟨s, (ids.map fun id => (id, s.get id)).foldl step c⟩ := by
  have hc : ∀ j, s.get j = none ∨ j ∉ ids → Tracks j (s.get j) (s.depList j) complete (c.row j) := by
    intro j hj
    by_cases hnone : s.get j = none
    · rw [hnone]
      exact tracks_absent (hbeads j (Tracks.bead_none (hmore j hnone ▸ h.tracks j)))
    · have hj := hj.resolve_left hnone
      rw [(hout j hj).1, (hout j hj).2, ← hcomplete.2]
      exact (h.tracks j).quieter (hrows j hnone)
  obtain ⟨hcomplete', htracks⟩ := foldl_tracks hspares hfound hgone c hcomplete.1 hc
  refine ⟨hwf, fun j => ?_⟩
  rw [hcomplete']
  exact htracks j

end

lemma foldl_markDirty (ids : List String) (c : Cache) :
    Cache.Spares ids c (ids.foldl Cache.markDirty c) ∧ ∀ j, ((ids.foldl Cache.markDirty c).row j).bead = (c.row j).bead := by
  induction ids generalizing c with
  | nil => exact ⟨.refl _ _, fun _ => rfl⟩
  | cons id ids ih =>
    obtain ⟨hspares, hbead⟩ := ih (c.markDirty id)
    refine ⟨((Cache.spares_setRow c id _).mono (by simp)).trans (hspares.mono fun j hj => mem_cons_of_mem _ hj),
      fun j => (hbead j).trans ?_⟩
    rw [Cache.markDirty, Cache.row_setRow]
    split_ifs with hj
    · rw [hj]
    · rfl

section
variable {w : World} {now : Go.Time}

lemma spares_absorbClosed (c : Cache) (item : String × Option Bead) :
    Cache.Spares [item.1] c (c.absorbClosed now item) := by
  unfold Cache.absorbClosed
  split
  · exact .refl _ _
  · split_ifs
    · exact Cache.spares_setRow_clear _ _ _
    · exact Cache.spares_setRow _ _ _

lemma after_closeAll (w : World) (ids : List String) (metadata : Metadata) :
    w.after asKept (Caching.closeAll now ids metadata) = ⟨(w.store.closeAll now ids metadata).2,
        afterCloseAll now ids (ids.map fun id => (id, (w.store.closeAll now ids metadata).2.get id)) w.cache⟩ := by
  show (Program.run _ (getAll ids >>= _) { w with store := (w.store.closeAll now ids metadata).2 }).2 = _
  rw [Program.run_bind, run_getAll]
  simp only [shown_asKept]
  rfl

lemma Faithful.closeAll (h : Faithful w) (ids : List String) (metadata : Metadata) :
    Faithful (w.after asKept (Caching.closeAll now ids metadata)) := by
  rw [after_closeAll]
  have hget := State.get_closeAll w.store now ids metadata
  have hnoted : Cache.Spares [] w.cache (w.cache.noteLocalMutation now ids) :=
    Cache.spares_noteLocalMutation w.cache now ids
  generalize hs : (w.store.closeAll now ids metadata).2 = s at hget ⊢
  obtain ⟨hmarked, hbeads⟩ := foldl_markDirty
    (((ids.map fun id => (id, s.get id)).filter (·.2.isNone)).map (·.1)) (w.cache.noteLocalMutation now ids)
  refine h.takeInAll spares_absorbClosed (fun c id hid b hb => ?found) (fun _ _ hnone => hnone) ?_
    (fun j hj => ⟨?_, ?_⟩) (fun j hnone => ?_) ⟨hmarked.depsComplete.trans hnoted.depsComplete, rfl⟩
    (fun j hnone => ?_) fun j hsome => ?_
  case found =>
    rw [hget] at hb
    obtain ⟨a, ha, rfl⟩ := Option.map_eq_some_iff.mp hb
    have hblocked := (h.tracks id).storedProjection a ha
    have haid := State.id_of_get ha
    -- Whether it was closed already or not, the bead is closed now.
    obtain ⟨closed, hclosed, hid', hstatus, hblocked'⟩ : ∃ closed : Bead,
        (if State.closesIn ids a then a.close now metadata else a) = closed ∧ closed.id = id ∧
          closed.status = .closed ∧ closed.isBlocked ≠ some false := by
      refine ⟨_, rfl, ?_⟩
      split_ifs with hcloses
      · exact ⟨haid, rfl, hblocked⟩
      · refine ⟨haid, ?_, hblocked⟩
        simpa [State.closesIn, haid, hid] using hcloses
    rw [hclosed]
    have hrow : (c.absorbClosed now (id, some closed)) = (c.absorbFresh id closed now
        { depsMode := .drop, seqMode := .keep, clearDirty := true }).clearDependentReadyProjections id := if_pos hstatus
    rw [hrow]
    exact tracks_absorbed (Cache.spares_clearDependentReadyProjections _ id) hid' rfl hblocked' hblocked'
      (fun named hnamed => by cases hnamed) fun _ _ hopen => absurd hstatus hopen
  · exact hs ▸ (State.advances_closeAll now ids metadata h.wellFormed).1
  · rw [hget]
    cases hstored : w.store.get j with
    | none => rfl
    | some b => simp [State.closesIn, State.id_of_get hstored, hj]
  · exact hs ▸ rfl
  · rw [hget] at hnone
    simpa using hnone
  · rw [hbeads j]
    exact (hnoted.row j).bead_none hnone
  · refine (hnoted.row j).trans (hmarked.rows j fun hj => hsome ?_)
    obtain ⟨item, hitem, rfl⟩ := mem_map.mp hj
    obtain ⟨hmem, hnone⟩ := mem_filter.mp hitem
    obtain ⟨id, -, rfl⟩ := mem_map.mp hmem
    simpa using hnone

end

/-! ## Transactions -/

/-- What a transaction has done to the store so far: outside the beads that it touched, nothing. -/
structure TxFrame (s₀ : State) (t : State × TxRecord) : Prop where
  wellFormed : t.1.WellFormed
  untouched : ∀ j ∉ t.2.touched, t.1.get j = s₀.get j ∧ t.1.depList j = s₀.depList j
  more : ∀ j, t.1.get j = none → s₀.get j = none

lemma mintID_ne_empty (s : State) (n : ℕ) : s.mintID n ≠ "" := by
  intro h
  have := congrArg String.toList h
  simp [State.mintID] at this

lemma txOp_cases {s : State} (hs : s.WellFormed) (op : TxOp) (now : Go.Time) :
    (∃ e, op.serve now s = (.error e, s)) ∨ ∃ v s', op.serve now s = (.ok v, s') ∧
      (∀ j, s'.get j = none → s.get j = none) ∧
      (s' = s ∨ ∃ id, id ≠ "" ∧ touchedBy op v = [id] ∧ OnlyAt id s s') := by
  -- A bead that exists has an identifier, and a change to it leaves it there.
  have hchange : ∀ {touched : List String} {id : String} {b : Bead} (f : Bead → Bead), (∀ b, (f b).id = b.id) →
      s.get id = some b → touched = [id] → (∀ j, (s.change id f).get j = none → s.get j = none) ∧
        (s.change id f = s ∨ ∃ j, j ≠ "" ∧ touched = [j] ∧ OnlyAt j s (s.change id f)) := by
    intro touched id b f hf hget htouched
    refine ⟨fun j hnone => ?_, .inr ⟨id, ?_, htouched, State.onlyAt_change hf _ _⟩⟩
    · rw [State.get_change hf] at hnone
      split_ifs at hnone with hj
      · rw [hj]
        simpa using hnone
      · exact hnone
    · obtain ⟨n, -, hn⟩ := hs.minted b (State.mem_of_get hget)
      rw [← State.id_of_get hget, hn]
      exact mintID_ne_empty s n
  cases op with
  | create b =>
    refine .inr ⟨_, _, rfl, fun j hnone => ?_, .inr ⟨s.nextID, mintID_ne_empty s _, rfl, ?_⟩⟩
    · rw [State.get_create hs] at hnone
      split_ifs at hnone
      exact hnone
    · exact State.onlyAt_create hs now b
  | update id opts =>
    rw [TxOp.serve, State.update, State.onBead]
    cases hget : s.get id with
    | none => exact .inl ⟨_, rfl⟩
    | some b => exact .inr ⟨_, _, rfl, hchange (opts.apply now) (fun _ => rfl) hget rfl⟩
  | setMetadataBatch id kvs =>
    rw [TxOp.serve, State.setMetadataBatch]
    split_ifs with hempty
    · exact .inr ⟨_, _, rfl, fun _ h => h, .inl rfl⟩
    rw [State.onBead]
    cases hget : s.get id with
    | none => exact .inl ⟨_, rfl⟩
    | some b => exact .inr ⟨_, _, rfl, hchange (Bead.setMetadata now kvs) (fun _ => rfl) hget (if_neg hempty)⟩
  | close id =>
    rw [TxOp.serve, State.close, State.onBead]
    cases hget : s.get id with
    | none => exact .inl ⟨_, rfl⟩
    | some b =>
      right
      dsimp only
      split_ifs
      · exact ⟨_, _, rfl, fun _ h => h, .inl rfl⟩
      · exact ⟨_, _, rfl, hchange (Bead.close now []) (fun _ => rfl) hget rfl⟩

variable {t : State × TxRecord}

lemma TxFrame.step {s₀ : State} (h : TxFrame s₀ t) (q : Go.Time × TxOp) : TxFrame s₀ (serveTx q t).2 := by
  have hwf := (q.2.advances q.1 t.1 h.wellFormed).1
  unfold serveTx
  obtain ⟨e, hop⟩ | ⟨v, s', hop, hmore, hwrote⟩ := txOp_cases h.wellFormed q.2 q.1
  · rw [hop]
    exact h
  · rw [hop] at hwf ⊢
    refine ⟨hwf, fun j hj => ?_, fun j hnone => h.more j (hmore j hnone)⟩
    have htouched : j ∉ t.2.touched := fun hmem => hj (mem_append_left _ hmem)
    obtain rfl | ⟨id, hne, hid, honly⟩ := hwrote
    · exact h.untouched j htouched
    · have hjid : j ≠ id := by
        rintro rfl
        exact hj (mem_append_right _ (by simp [hid, hne, htouched]))
      exact ⟨(honly j hjid).1.trans (h.untouched j htouched).1, (honly j hjid).2.trans (h.untouched j htouched).2⟩

lemma TxFrame.run {s₀ : State} (callback : TxCallback) (h : TxFrame s₀ t) :
    TxFrame s₀ (callback.run serveTx t).2 := by
  induction callback generalizing t with
  | done _ => exact h
  | ask q next ih => exact ih _ (h.step q)

section
variable {w : World} {now : Go.Time}

lemma after_tx (w : World) (callback : TxCallback) (hsucceeds : (callback.run serveTx (w.store, {})).1 = true) :
    w.after asKept (Caching.tx now callback) =
      let r := (callback.run serveTx (w.store, {})).2
      ⟨r.1, if r.2.touched = [] then w.cache else
        (r.2.touched.map fun id => (id, r.1.get id)).foldl (Cache.absorbTouched now r.2.closed)
          (w.cache.noteLocalMutation now r.2.touched)⟩ := by
  rw [World.after, Caching.tx, Program.run_bind]
  have hop : (Program.op (Query.tx callback) : Call _).run (serve asKept) w =
      (((callback.run serveTx (w.store, {})).1, (callback.run serveTx (w.store, {})).2.2),
        { w with store := (callback.run serveTx (w.store, {})).2.1 }) := rfl
  rw [hop]
  dsimp only
  rw [hsucceeds, Bool.not_true, if_neg Bool.false_ne_true]
  split_ifs with hempty
  · rfl
  · rw [Program.run_bind, run_getAll]
    simp only [shown_asKept]
    rfl

variable (closed : List String)

lemma spares_absorbTouched (c : Cache) (item : String × Option Bead) :
    Cache.Spares [item.1] c (c.absorbTouched now closed item) := by
  unfold Cache.absorbTouched
  split
  · split_ifs
    · exact Cache.spares_setRow_clear _ _ _
    · exact Cache.spares_setRow _ _ _
  · split_ifs
    · split
      · exact Cache.spares_setRow_clear _ _ _
      · exact .refl _ _
    · exact Cache.spares_setRow _ _ _

lemma absorbTouched_some (closed : List String) (c : Cache) (id : String) (b : Bead) :
    Cache.Spares [] (c.absorbFresh id b now { depsMode := .fromFields, seqMode := .keep, clearDirty := true })
      (c.absorbTouched now closed (id, some b)) := by
  unfold Cache.absorbTouched
  dsimp only
  split_ifs
  · exact Cache.spares_clearDependentReadyProjections _ id
  · exact .refl _ _

lemma absorbTouched_none (c : Cache) (id : String) (hnone : (c.row id).bead = none) :
    ((c.absorbTouched now closed (id, none)).row id).bead = none := by
  unfold Cache.absorbTouched
  rw [hnone]
  split_ifs
  · exact hnone
  · rw [Cache.markDirty, Cache.row_setRow, if_pos rfl]
    exact hnone

/-- The callback succeeds, and the fields of the beads that it wrote name their blockers. -/
def TxNamesBlockers (s : State) (callback : TxCallback) : Prop :=
  (callback.run serveTx (s, {})).1 = true ∧ ∀ id ∈ (callback.run serveTx (s, {})).2.2.touched,
      FieldsNameBlockers (callback.run serveTx (s, {})).2.1 id ∧
        ∀ b ∈ (callback.run serveTx (s, {})).2.1.get id, b.isBlocked ≠ some false

lemma Faithful.tx (h : Faithful w) {callback : TxCallback} (hcallback : TxNamesBlockers w.store callback) :
    Faithful (w.after asKept (Caching.tx now callback)) := by
  have hframe : TxFrame w.store (callback.run serveTx (w.store, {})).2 :=
    TxFrame.run callback ⟨h.wellFormed, fun _ _ => ⟨rfl, rfl⟩, fun _ h => h⟩
  rw [after_tx w callback hcallback.1]
  have hnamed := hcallback.2
  generalize (callback.run serveTx (w.store, {})).2 = r at hframe hnamed
  dsimp only
  split_ifs with hempty
  · refine ⟨hframe.wellFormed, fun j => ?_⟩
    obtain ⟨hget, hdeps⟩ := hframe.untouched j (by rw [hempty]; exact not_mem_nil)
    rw [hget, hdeps]
    exact h.tracks j
  · have hnoted := Cache.spares_noteLocalMutation w.cache now r.2.touched
    refine h.takeInAll (spares_absorbTouched _) (fun c id hid b hb => ?_) (absorbTouched_none _) hframe.wellFormed
      hframe.untouched hframe.more ⟨hnoted.depsComplete, rfl⟩ (fun j => (hnoted.row j).bead_none) fun j _ => hnoted.row j
    obtain ⟨hfields, hblocked⟩ := hnamed id hid
    refine tracks_absorbed (absorbTouched_some _ c id b) (State.id_of_get hb) rfl (hblocked b hb) (hblocked b hb)
      (fun named hnamed => ?_) fun _ hnone => by cases hnone
    obtain rfl := Option.some.inj hnamed
    exact hfields b hb

end

end DeliveryEngine.Caching
