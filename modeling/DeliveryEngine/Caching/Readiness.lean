import DeliveryEngine.Caching.Reconcile
import DeliveryEngine.Caching.TrackingMany

/-!
# Ready beads from the cache

Scans and reads keep what the cache has to know to serve ready beads, and what it then serves has no blocker
(`ready_never_blocked`), as long as the calls find what they need (`Allowed`).  The condition is not idle: a dependency
that was added with `DepAdd` is lost to the cache with the next write to the bead (`blockedBead_served`).
-/

namespace DeliveryEngine.Caching

open List Option
open Beads (Dep DepType Metadata Key)
open MemStore (Bead Status UpdateOpts TxOp State)
open Runs (Program)

/-! ## Reads of one bead -/

section
variable {w : World} {now : Go.Time} {id : String}

lemma after_get (h : Faithful w) : w.after asKept (Caching.get now id) = w := by
  have hdirty : (w.cache.row id).dirty = true → shown asKept w.store id = none := fun hd => by
    rw [shown_asKept]
    exact (h.tracks id).dirty hd
  rw [World.after, Caching.get, Program.run_bind, run_readLocked]
  dsimp only
  split_ifs with hdeleted hmutated hserving hd
  · rfl
  · rfl
  · rfl
  · rw [Program.run_bind, run_askGet, hdirty hd]
    rfl
  · rfl
  · rfl

lemma Faithful.depList (h : Faithful w) : Faithful (w.after asKept (Caching.depList id)) := by
  have hrun : w.after asKept (Caching.depList id) = w ∨ w.after asKept (Caching.depList id) =
      { w with cache := w.cache.setRow id { w.cache.row id with deps := some (w.store.depList id), depsSeq := 0 } } := by
    rw [World.after, Caching.depList, Program.run_bind, run_readLocked]
    split_ifs
    · exact .inl rfl
    · cases (w.cache.row id).deps with
      | some deps => exact .inl rfl
      | none => exact .inr rfl
  rcases hrun with hrun | hrun <;> rw [hrun]
  · exact h
  · refine h.write h.wellFormed (State.onlyAt_refl id _) (Cache.spares_setRow _ id _) ?_
    rw [Cache.row_setRow, if_pos rfl]
    have htracks := h.tracks id
    exact
      { htracks with
        named := fun _ named hnamed => by
          obtain rfl := some.inj hnamed
          exact namesBlockers_refl _
        known := fun _ hnone => by cases hnone }

end

/-! ## Full scans -/

variable (present : List Dep → Bead → Bead)

lemma run_depListAll (w : World) (ids : List String) :
    (depListAll ids).run (serve present) w = (ids.map fun id => (id, w.store.depList id), w) := by
  induction ids with
  | nil => rfl
  | cons id ids ih =>
    rw [depListAll, Program.run_bind, Program.run_bind]
    show Program.run _ (pure ((id, w.store.depList id) :: ((depListAll ids).run (serve present) w).1))
      ((depListAll ids).run (serve present) w).2 = _
    rw [ih]
    rfl

/-- A snapshot that shows the store as it is. -/
structure Snapshot.Exact (snap : Snapshot) (s : State) : Prop where
  found : ∀ id b, snap.find? id = some b → s.get id = some b ∧ b.status ≠ .closed
  all : ∀ id, ∀ b ∈ s.get id, b.status ≠ .closed → id ∈ snap.ids
  depMap : ∀ id ∈ snap.ids, snap.depMap id = s.depList id
  useFreshDeps : snap.useFreshDeps = true

variable {id : String}

lemma lookup_map_self {α : Type} (f : String → α) {ids : List String} (h : id ∈ ids) :
    (ids.map fun j => (j, f j)).lookup id = some (f id) := by
  induction ids with
  | nil => cases h
  | cons j ids ih =>
    by_cases hj : id = j
    · subst hj
      simp
    · have hbeq : (id == j) = false := beq_eq_false_iff_ne.mpr hj
      rw [map_cons, lookup_cons, hbeq]
      exact ih ((mem_cons.mp h).resolve_left hj)

variable {fresh closed : List Bead}

lemma mem_ids_ofScan {deps : List (String × List Dep)} :
    id ∈ (Snapshot.ofScan fresh closed deps).ids ↔ id ∈ fresh.map Bead.id := by
  have htrans : ∀ {x y z : Bead}, x.id ≠ z.id → x.id ≠ y.id ∨ y.id ≠ z.id := by
    intro x y z h
    by_contra hne
    push Not at hne
    exact h (hne.1.trans hne.2)
  have hforall := forall_mem_pwFilter (R := fun a b : Bead => a.id ≠ b.id) htrans ({ id } : Bead) fresh
  show id ∈ (fresh.pwFilter fun a b => a.id ≠ b.id).map Bead.id ↔ _
  simp only [List.mem_map]
  constructor
  · rintro ⟨b, hb, hid⟩
    exact ⟨b, pwFilter_subset fresh hb, hid⟩
  · rintro ⟨b, hb, hid⟩
    by_contra hnone
    push Not at hnone
    exact hforall.mp (fun a ha hne => hnone a ha hne.symm) b hb hid.symm

variable {s : State}

lemma depMap_ofScan (hid : id ∈ fresh.map Bead.id) :
    (Snapshot.ofScan fresh closed ((fresh.map Bead.id).map fun id => (id, s.depList id))).depMap id = s.depList id := by
  show ((((fresh.map Bead.id).map fun id => (id, s.depList id)).lookup id).getD []) = _
  rw [lookup_map_self _ hid]
  rfl

lemma exact_ofScan {fresh : List Bead} (hfresh : ∀ b ∈ fresh, s.get b.id = some b ∧ b.status ≠ .closed)
    (hall : ∀ b ∈ s.beads, b.status ≠ .closed → b ∈ fresh) (closed : List Bead) :
    (Snapshot.ofScan fresh closed ((fresh.map Bead.id).map fun id => (id, s.depList id))).Exact s where
  found id b hb := by
    have hmem : b ∈ fresh := pwFilter_subset fresh (mem_of_find?_eq_some hb)
    have hid := id_of_find? hb
    exact hid ▸ hfresh b hmem
  all id b hb hopen := mem_ids_ofScan.mpr (mem_map.mpr ⟨b, hall b (State.mem_of_get hb) hopen, State.id_of_get hb⟩)
  depMap _ hid := depMap_ofScan (mem_ids_ofScan.mp hid)
  useFreshDeps := rfl

/-- What a first scan finds. -/
def firstScan (s : State) : Snapshot :=
  let fresh := (s.beads.filter (·.status ≠ .closed)).map fun b => present (s.depList b.id) b
  .ofScan fresh [] ((fresh.map Bead.id).map fun id => (id, s.depList id))

lemma after_prime (s : State) (now : Go.Time) :
    ({ store := s } : World).after present (prime now) = ⟨s, afterPrime 0 (firstScan present s) now {}⟩ := by
  rw [World.after, prime]
  simp only [Program.run_bind, run_depListAll]
  rfl

variable {b : Bead}

lemma mem_listed (hs : s.WellFormed) :
    b ∈ (s.beads.filter (·.status ≠ .closed)).map (fun b => asKept (s.depList b.id) b) ↔
      b ∈ s.beads ∧ b.status ≠ .closed ∧ s.get b.id = some b := by
  have hmap : (s.beads.filter (·.status ≠ .closed)).map (fun b => asKept (s.depList b.id) b) =
      s.beads.filter (·.status ≠ .closed) := map_id _
  rw [hmap, mem_filter, decide_eq_true_eq]
  exact ⟨fun h => ⟨h.1, h.2, hs.get h.1⟩, fun h => ⟨h.1, h.2.1⟩⟩

section
variable {w : World} {now : Go.Time} {snap : Snapshot}

lemma tracks_scanned (hexact : snap.Exact s)
    (hblocked : ∀ id, ∀ b ∈ s.get id, b.isBlocked ≠ some false) {complete : Bool}
    {row : Row}
    (hfound : ∀ b, snap.find? id = some b → ∃ cached, row.bead = some cached ∧ cached.id = id ∧
      cached.status = b.status ∧ cached.isBlocked ≠ some false ∧ row.dirty = false ∧ row.deps = some (snap.depMap id))
    (hmissing : snap.find? id = none → row.bead = none ∧ row.dirty = false ∧ row.deps = none) :
    Tracks id (s.get id) (s.depList id) complete row := by
  cases hfind : snap.find? id with
  | some b =>
    obtain ⟨hget, -⟩ := hexact.found id b hfind
    obtain ⟨cached, hbead, hid, hstatus, hproj, hdirty, hdeps⟩ := hfound b hfind
    rw [hget]
    refine tracks_copy hid hstatus (hblocked id b hget) hproj hbead hdirty (fun named hnamed => ?_) fun _ hnone => ?_
    · rw [hdeps] at hnamed
      obtain rfl := some.inj hnamed
      rw [hexact.depMap id (mem_ids_of_find? hfind)]
      exact namesBlockers_refl _
    · rw [hdeps] at hnone
      cases hnone
  | none =>
    obtain ⟨hbead, hdirty, hdeps⟩ := hmissing hfind
    have hclosed : ∀ b ∈ s.get id, b.status = .closed := by
      intro b hb
      by_contra hopen
      have := Snapshot.find?_isSome.mpr (hexact.all id b hb hopen)
      rw [hfind] at this
      cases this
    cases hget : s.get id with
    | none => exact tracks_absent hbead
    | some b =>
      exact
        { keyed := by simp [hbead]
          dirty := fun h => by simp [hdirty] at h
          status := .inr ⟨hbead, b, rfl, hclosed b hget⟩
          named := by simp [hdeps]
          known := fun _ _ b' hb' hopen => by
            obtain rfl := some.inj hb'
            exact absurd (hclosed b hget) hopen
          storedProjection := hget ▸ hblocked id
          projection := by simp [hbead] }

lemma row_afterPrime_empty (snap : Snapshot) (id : String) :
    (afterPrime 0 snap now {}).row id = ({} : Cache).primedRow snap now id := by
  show ((Go.Table.empty.visit (fun id _ => ({} : Cache).primedRow snap now id)
    (snap.ids ++ []).dedup : Go.Table Row)).get id = _
  rw [Go.Table.get_visit _ (nodup_dedup _)]
  split_ifs with hid
  · rfl
  · rw [Cache.primedRow]
    cases hfind : snap.find? id with
    | none => rfl
    | some b => exact absurd (mem_dedup.mpr (mem_append_left _ (mem_ids_of_find? hfind))) hid

lemma faithful_prime (now : Go.Time) (hs : s.WellFormed) (hblocked : ∀ b ∈ s.beads, b.isBlocked ≠ some false) :
    Faithful (({ store := s } : World).after asKept (prime now)) := by
  have hexact : (firstScan asKept s).Exact s := exact_ofScan
    (fun b hb => ⟨((mem_listed hs).mp hb).2.2, ((mem_listed hs).mp hb).2.1⟩)
    (fun b hb hopen => (mem_listed hs).mpr ⟨hb, hopen, hs.get hb⟩) []
  have hproj : ∀ id, ∀ b ∈ s.get id, b.isBlocked ≠ some false := fun id b hb => hblocked b (State.mem_of_get hb)
  rw [after_prime]
  refine ⟨hs, fun id => tracks_scanned hexact hproj (fun b hb => ?_) fun hnone => ?_⟩
  · rw [row_afterPrime_empty, Cache.primedRow, hb]
    exact ⟨b, rfl, id_of_find? hb, rfl, hproj id b (hexact.found id b hb).1, rfl, rfl⟩
  · rw [row_afterPrime_empty, Cache.primedRow, hnone]
    exact ⟨rfl, rfl, rfl⟩

lemma preserveReadyProjection_isBlocked {c : Cache} {f : Bead} (hf : f.isBlocked ≠ some false)
    (hcached : ∀ cached ∈ (c.row f.id).bead, cached.isBlocked ≠ some false) :
    (preserveReadyProjection false c snap f).isBlocked ≠ some false := by
  unfold preserveReadyProjection
  split
  · next blocked hfresh hblocked =>
    dsimp only
    split_ifs
    · exact hf
    · obtain ⟨cached, hbead, hsome⟩ := bind_eq_some_iff.mp hblocked
      exact hsome ▸ hcached cached hbead
  · exact hf

lemma Faithful.merge (h : Faithful w) (hexact : snap.Exact w.store) (startSeq : ℕ) :
    Faithful { w with cache := (mergeSnapshot false snap startSeq now w.cache).1 } := by
  obtain ⟨hrow, -, -⟩ := mergeSnapshot_spec false snap startSeq now w.cache
  refine ⟨h.wellFormed, fun id => ?_⟩
  have htracks := h.tracks id
  have hproj : ∀ id, ∀ b ∈ w.store.get id, b.isBlocked ≠ some false := fun id => (h.tracks id).storedProjection
  rw [hrow id]
  rcases mergedRow_cases false (preserveCachedReadyProjection false w.cache snap) startSeq now (w.cache.row id) id
    w.cache.mutationSeq with ⟨hkeeps, heq⟩ | ⟨f, hf, heq⟩ | ⟨hid, heq⟩
  · rw [heq]
    refine { htracks with known := fun hcomplete hnone b hb hopen => ?_ }
    -- A row without dependency rows that is kept spoils the completeness of the dependency rows.
    exfalso
    obtain ⟨cached, hcached, -⟩ := htracks.cached hb hopen
    have hmem := hexact.all id b hb hopen
    have hsure := (merge_depsComplete_iff.mp hcomplete).2 id hmem
    have hpass := (degrade_iff hexact.useFreshDeps hmem).mp hsure cached hcached ((keeps_iff_heldBack hcached).mp hkeeps)
    unfold PassesForComplete at hpass
    rw [hnone] at hpass
    split_ifs at hpass
    · exact Bool.false_ne_true hpass
    · obtain ⟨deps, ⟨⟩, -⟩ := hpass
  · rw [kept_find?] at hf
    obtain ⟨g, hg, rfl⟩ := map_eq_some_iff.mp hf
    refine tracks_scanned hexact hproj (fun b hb => ?_) fun hnone => absurd (hg.symm.trans hnone) (by simp)
    obtain rfl := some.inj (hg.symm.trans hb)
    have hid := id_of_find? hg
    obtain ⟨blocked, hpreserve⟩ := preserveReadyProjection_eq false snap w.cache g
    rw [heq]
    refine ⟨_, rfl, (preserveReadyProjection_id false w.cache snap g).trans hid, ?_, ?_, rfl, ?_⟩
    · rw [hpreserve]
    · exact preserveReadyProjection_isBlocked (hproj id g (hexact.found id g hg).1) (by rw [hid]; exact htracks.projection)
    · rw [absorbed_preserve_deps, depsForReconcile, if_pos hexact.useFreshDeps, hid]
  · rw [kept_ids] at hid
    rw [heq]
    refine tracks_scanned hexact hproj (fun b hb => absurd (mem_ids_of_find? hb) hid) fun _ => ⟨rfl, rfl, rfl⟩

lemma Faithful.runReconciliation (h : Faithful w) : Faithful (w.after asKept (Caching.runReconciliation now)) := by
  let listed := (w.store.beads.filter (·.status ≠ .closed)).map fun b => asKept (w.store.depList b.id) b
  let missing := (w.cache.missingFromList listed).map fun id => (id, shown asKept w.store id)
  let fresh := listed ++ (recovered missing).2
  let snap := Snapshot.ofScan fresh (recovered missing).1 ((fresh.map Bead.id).map fun id => (id, w.store.depList id))
  have hafter : w.after asKept (Caching.runReconciliation now) =
      { w with cache := (mergeSnapshot false snap w.cache.mutationSeq now w.cache).1 } := by
    rw [World.after, Caching.runReconciliation]
    simp only [Program.run_bind, run_getAll, run_depListAll]
    rfl
  have hexact : snap.Exact w.store := by
    refine exact_ofScan (fun b hb => ?_) (fun b hb hopen => ?_) _
    · rcases mem_append.mp hb with hb | hb
      · exact ⟨((mem_listed h.wellFormed).mp hb).2.2, ((mem_listed h.wellFormed).mp hb).2.1⟩
      · rw [recovered, partition_eq_filter_filter] at hb
        obtain ⟨hmem, hopen⟩ := mem_filter.mp hb
        obtain ⟨item, hitem, hitem'⟩ := mem_filterMap.mp hmem
        obtain ⟨id, -, rfl⟩ := mem_map.mp hitem
        have hget : w.store.get id = some b := (shown_asKept _ _).symm.trans hitem'
        exact ⟨State.id_of_get hget ▸ hget, by simpa using hopen⟩
    · exact mem_append_left _ ((mem_listed h.wellFormed).mpr ⟨hb, hopen, h.wellFormed.get hb⟩)
  rw [hafter]
  exact h.merge hexact _

end

/-! ## What is served -/

/-- A dependency that blocks, on a bead that is not closed. -/
def Blocked (s : State) (id : String) : Prop :=
  ∃ d ∈ s.depList id, isReadyBlockingDependencyType d.type = true ∧ ∃ t ∈ s.get d.dependsOnID, t.status ≠ .closed

section
variable {w : World} {now : Go.Time}

lemma mem_beads {c : Cache} : b ∈ c.beads ↔ ∃ id, (c.row id).bead = some b := by
  rw [Cache.beads, mem_filterMap]
  constructor
  · rintro ⟨id, -, hb⟩
    exact ⟨id, hb⟩
  · rintro ⟨id, hb⟩
    refine ⟨id, Cache.mem_keys_of_row fun hempty => ?_, hb⟩
    rw [hempty] at hb
    cases hb

variable {suppressed : List String} (h : Faithful w) (hgone : ∀ id ∈ suppressed, w.store.get id = none)
include h hgone

lemma Faithful.statusOf {t : Bead} (ht : w.store.get id = some t) (hopen : t.status ≠ .closed) :
    w.cache.statusOf suppressed id = some t.status := by
  obtain ⟨cached, hcached, hstatus⟩ := (h.tracks id).cached ht hopen
  have hid : cached.id = id := (h.tracks id).keyed cached hcached
  have hnot : id ∉ suppressed := fun hmem => by
    rw [hgone id hmem] at ht
    cases ht
  have hmem : cached ∈ w.cache.beads.filter (·.id ∉ suppressed) :=
    mem_filter.mpr ⟨mem_beads.mpr ⟨id, hcached⟩, by simpa [hid] using hnot⟩
  obtain ⟨found, hfound⟩ : ∃ found, (w.cache.beads.filter (·.id ∉ suppressed)).find? (·.id = id) = some found :=
    isSome_iff_exists.mp (find?_isSome.mpr ⟨cached, hmem, by simpa using hid⟩)
  -- Every cached bead stands under its own identifier, so the one that is found is the one of the row.
  have hfid : found.id = id := by simpa using find?_some hfound
  obtain ⟨j, hj⟩ := mem_beads.mp (mem_filter.mp (mem_of_find?_eq_some hfound)).1
  have hjid : j = id := ((h.tracks j).keyed found hj).symm.trans hfid
  rw [hjid, hcached] at hj
  obtain rfl := some.inj hj
  rw [Cache.statusOf, hfound, map_some, hstatus]

lemma Faithful.not_blocked (hb : b ∈ w.cache.beads) (hcandidate : isReadyCandidate b now = true)
    (hknown : (w.cache.row b.id).deps.isSome ∨ w.cache.depsComplete = true)
    (hready : Cache.cachedBeadReady b (w.cache.statusOf suppressed) ((w.cache.row b.id).deps.getD []) = true) :
    ¬Blocked w.store b.id := by
  rintro ⟨d, hd, htype, t, ht, hopen⟩
  obtain ⟨id, hbead⟩ := mem_beads.mp hb
  obtain rfl := (h.tracks id).keyed b hbead
  have htracks := h.tracks b.id
  have hstatus : b.status = .opened := by
    simp only [isReadyCandidate, Bool.and_eq_true, decide_eq_true_eq] at hcandidate
    exact hcandidate.1.1.2
  obtain ⟨stored, hstored, hsame⟩ : ∃ stored, w.store.get b.id = some stored ∧ stored.status = b.status := by
    rcases htracks.status with hs | ⟨hnone, -⟩
    · rw [hbead] at hs
      exact map_eq_some_iff.mp hs.symm
    · rw [hbead] at hnone
      cases hnone
  have hnames : NamesBlockers (w.store.depList b.id) ((w.cache.row b.id).deps.getD []) := by
    cases hdeps : (w.cache.row b.id).deps with
    | some deps => exact htracks.named (by rw [hstored]; rfl) deps hdeps
    | none =>
      refine htracks.known (hknown.resolve_left (by simp [hdeps])) hdeps stored hstored ?_
      rw [hsame, hstatus]
      simp
  obtain ⟨d', hd', hon, htype'⟩ := hnames d hd htype
  have hblocks : (w.cache.statusOf suppressed d'.dependsOnID).any (· ≠ .closed) = true := by
    rw [hon, h.statusOf hgone ht hopen]
    simpa using hopen
  unfold Cache.cachedBeadReady at hready
  split at hready
  · next blocked hblocked =>
    refine htracks.projection b hbead ?_
    simpa [hblocked] using hready
  · have hany : ((w.cache.row b.id).deps.getD []).any (fun d => isReadyBlockingDependencyType d.type &&
        (w.cache.statusOf suppressed d.dependsOnID).any (· ≠ .closed)) = true :=
      List.any_eq_true.mpr ⟨d', hd', by rw [htype', hblocks]; rfl⟩
    rw [hany] at hready
    cases hready

lemma Faithful.readyBeads (hcomplete : w.cache.depsComplete = true) :
    ∀ b ∈ w.cache.readyBeads now suppressed, ¬Blocked w.store b.id := by
  intro b hb
  obtain ⟨hb, hready⟩ := mem_filter.mp hb
  obtain ⟨hb, hcandidate⟩ := mem_filter.mp hb
  exact h.not_blocked hgone (mem_filter.mp hb).1 hcandidate (.inr hcomplete) hready

omit hgone in
lemma Faithful.cachedReady {beads : List Bead} (hbeads : w.cache.cachedReady now = some beads) :
    ∀ b ∈ beads, ¬Blocked w.store b.id := by
  intro b hb
  rw [Cache.cachedReady] at hbeads
  split_ifs at hbeads with hserving
  obtain rfl := some.inj hbeads
  obtain ⟨hb, hready⟩ := mem_filter.mp hb
  have hknown := all_eq_true.mp (Bool.and_eq_true_iff.mp hserving).2 b hb
  obtain ⟨hb, hcandidate⟩ := mem_filter.mp hb
  exact h.not_blocked (fun id hid => absurd hid not_mem_nil) hb hcandidate (by simpa using hknown) hready

omit h hgone in
lemma run_fetchDirtyOverlay (w : World) (todo : List String) (hgone : ∀ id ∈ todo, w.store.get id = none)
    (suppressed : List String) :
    (fetchDirtyOverlay todo suppressed).run (serve asKept) w = (([], suppressed ++ todo), w) := by
  induction todo generalizing suppressed with
  | nil => rw [append_nil]; rfl
  | cons id todo ih =>
    rw [fetchDirtyOverlay, Program.run_bind, run_askGet, shown_asKept, hgone id mem_cons_self]
    dsimp only
    rw [ih fun j hj => hgone j (mem_cons_of_mem _ hj), append_assoc]
    rfl

/-- What a pass may answer: the cache as it is, without beads that are gone. -/
def PassOutcome.Sound (w : World) : PassOutcome → Prop
  | .served c suppressed => c = w.cache ∧ readyGate c = true ∧ ∀ id ∈ suppressed, w.store.get id = none
  | .retry suppressed => ∀ id ∈ suppressed, w.store.get id = none
  | .fallback => True

omit h in
lemma passEnd_sound (hgate : readyGate w.cache = true) (startSeq : ℕ) :
    (passEnd w.cache startSeq suppressed).Sound w := by
  unfold passEnd
  split_ifs
  · exact hgone
  · exact fun id hid => hgone id (mem_filter.mp hid).1
  · exact ⟨rfl, hgate, hgone⟩

variable (now : Go.Time)

lemma run_overlayPass :
    ∃ outcome, (overlayPass readyGate now suppressed).run (serve asKept) w = (outcome, w) ∧ outcome.Sound w := by
  have htodo : ∀ id ∈ w.cache.dirtyToRefresh suppressed, w.store.get id = none := by
    intro id hid
    have hdirty := (mem_filter.mp (mem_filter.mp hid).1).2
    exact (h.tracks id).dirty hdirty
  rw [overlayPass, Program.run_bind, run_readLocked]
  dsimp only
  split_ifs with hgate hempty hmany
  · exact ⟨_, rfl, trivial⟩
  · exact ⟨_, rfl, passEnd_sound hgone (by simpa using hgate) _⟩
  · exact ⟨_, rfl, trivial⟩
  · have hopen : readyGate w.cache = true := by simpa using hgate
    have hlock : (underLock fun c' => if readyGate c' = true then
        ([] : List OverlayFetched).foldl (Cache.absorbOverlay now w.cache.mutationSeq) c' else c').run (serve asKept) w =
          (w.cache, w) := by
      show (w.cache, { w with cache := if readyGate w.cache = true then w.cache else w.cache }) = _
      rw [ite_self]
    rw [Program.run_bind, run_fetchDirtyOverlay w _ htodo, Program.run_bind, hlock]
    rw [hopen, Bool.not_true]
    refine ⟨_, rfl, passEnd_sound (fun id hid => ?_) hopen _⟩
    rcases mem_append.mp hid with hid | hid
    · exact hgone id hid
    · exact htodo id hid

omit hgone

lemma run_readCacheWithOverlay : ∃ r, (readCacheWithOverlay readyGate now).run (serve asKept) w = (r, w) ∧
      ∀ c suppressed, r = some (c, suppressed) → (PassOutcome.served c suppressed).Sound w := by
  have hserved : ∀ {c suppressed}, (PassOutcome.served c suppressed).Sound w →
      ∀ c' suppressed', some (c, suppressed) = some (c', suppressed') → (PassOutcome.served c' suppressed').Sound w := by
    rintro c suppressed hsound c' suppressed' ⟨⟩
    exact hsound
  have hnil : ∀ id ∈ ([] : List String), w.store.get id = none := fun id hid => absurd hid not_mem_nil
  obtain ⟨outcome, hrun, hsound⟩ := run_overlayPass h hnil now
  rw [readCacheWithOverlay, Program.run_bind, hrun]
  cases outcome with
  | served c suppressed => exact ⟨_, rfl, hserved hsound⟩
  | fallback => exact ⟨_, rfl, fun c suppressed heq => by cases heq⟩
  | retry suppressed =>
    obtain ⟨outcome, hrun, hsound⟩ := run_overlayPass h hsound now
    rw [Program.run_bind, hrun]
    cases outcome with
    | served c suppressed => exact ⟨_, rfl, hserved hsound⟩
    | fallback => exact ⟨_, rfl, fun c suppressed heq => by cases heq⟩
    | retry suppressed => exact ⟨_, rfl, fun c suppressed heq => by cases heq⟩

lemma run_ready : ((Caching.ready now).run (serve asKept) w).2 = w ∧
      ∀ beads, ((Caching.ready now).run (serve asKept) w).1 = (true, beads) → ∀ b ∈ beads, ¬Blocked w.store b.id := by
  obtain ⟨_ | ⟨c, suppressed⟩, hrun, hsound⟩ := run_readCacheWithOverlay h now
  · rw [Caching.ready, Program.run_bind, hrun]
    exact ⟨rfl, fun beads heq => by cases heq⟩
  · rw [Caching.ready, Program.run_bind, hrun]
    obtain ⟨rfl, hgate, hgone⟩ := hsound c suppressed rfl
    refine ⟨rfl, fun beads heq => ?_⟩
    obtain rfl := (Prod.mk.inj heq).2
    refine h.readyBeads hgone ?_
    simp only [readyGate, Bool.and_eq_true] at hgate
    exact hgate.1.2

end

/-! ## Runs -/

/-- What a call needs to find. -/
def Allowed (now : Go.Time) (w : World) : Request → Prop
  | .create b => b.isBlocked ≠ some false ∧ FieldsNameBlockers (w.store.create now b) w.store.nextID
  | .update id _ => FieldsNameBlockers w.store id
  | .releaseIfCurrent id _ => FieldsNameBlockers w.store id
  | .setMetadata id _ _ => FieldsNameBlockers w.store id
  | .setMetadataBatch id _ => FieldsNameBlockers w.store id
  | .tx callback => TxNamesBlockers w.store callback
  | .reopen id => ReopenKnown w id
  | _ => True

/-- Every call of a run finds what it needs where it is made. -/
def Permitted : World → List (Go.Time × Request) → Prop
  | _, [] => True
  | w, (now, request) :: requests => Allowed now w request ∧ Permitted (w.after asKept (request.call now)) requests

lemma Faithful.request {w : World} (h : Faithful w) {now : Go.Time} {request : Request}
    (hallowed : Allowed now w request) :
    Faithful (w.after asKept (request.call now)) := by
  cases request <;> rw [Request.call, after_discard]
  case create b => exact h.create hallowed.1 hallowed.2
  case update id opts => exact h.update hallowed opts
  case releaseIfCurrent id expectedAssignee => exact h.releaseIfCurrent hallowed expectedAssignee
  case close id => exact h.close
  case reopen id => exact h.reopen hallowed
  case closeAll ids metadata => exact h.closeAll ids metadata
  case setMetadata id key value => exact h.setMetadata hallowed key value
  case setMetadataBatch id kvs => exact h.setMetadataBatch hallowed kvs
  case tx callback => exact h.tx hallowed
  case depAdd issueID dependsOnID type => exact h.depAdd dependsOnID type
  case depRemove issueID dependsOnID => exact h.depRemove dependsOnID
  case delete id => exact h.delete
  case get id => rwa [after_get h]
  case depList id => exact h.depList
  case ready => rwa [World.after, (run_ready h now).1]
  case cachedReady => exact h
  case runReconciliation => exact h.runReconciliation

lemma Faithful.requests {w : World} (h : Faithful w) {requests : List (Go.Time × Request)}
    (hpermitted : Permitted w requests) : Faithful (w.afterAll asKept requests) := by
  induction requests generalizing w with
  | nil => exact h
  | cons request requests ih => exact ih (h.request hpermitted.1) hpermitted.2

/-- A cache over a store, after its first scan. -/
def primedOver (s : State) (now : Go.Time) : World := ({ store := s } : World).after asKept (prime now)

/-- Over a store in memory, after any run of calls that find what they need, no bead that the cache serves as ready
has a blocker in the store. -/
theorem ready_never_blocked (idPrefix : String) (disabled : Bool) (before : List (Go.Time × MemStore.Op))
    (started : Go.Time) (requests : List (Go.Time × Request)) (now : Go.Time)
    (hprojection : ∀ b ∈ (MemStore.run (.empty idPrefix disabled) before).beads, b.isBlocked ≠ some false)
    (hpermitted : Permitted (primedOver (MemStore.run (.empty idPrefix disabled) before) started) requests) :
    let w := (primedOver (MemStore.run (.empty idPrefix disabled) before) started).afterAll asKept requests
    (∀ beads, ((ready now).run (serve asKept) w).1 = (true, beads) → ∀ b ∈ beads, ¬Blocked w.store b.id) ∧
      ∀ beads, ((cachedReady now).run (serve asKept) w).1 = some beads → ∀ b ∈ beads, ¬Blocked w.store b.id := by
  have hwf := (MemStore.run_advances before _ (State.wellFormed_empty idPrefix disabled)).1
  have hfaithful := (faithful_prime started hwf hprojection).requests hpermitted
  exact ⟨(run_ready hfaithful now).2, fun beads hbeads => hfaithful.cachedReady hbeads⟩

/-- Work that waits for other work, named in its own fields, and a write to it. -/
def waitingWork : List (Go.Time × Request) :=
  [(.zero, .create { title := "first" }), (.zero, .create { title := "second", needs := ["gc-1"] }),
    (.zero, .setMetadata "gc-2" (.other "note") "seen")]

theorem ready_never_blocked_waitingWork : Permitted (primedOver (.empty "" false) .zero) waitingWork ∧
      ∀ beads, ((ready .zero).run (serve asKept)
        ((primedOver (.empty "" false) .zero).afterAll asKept waitingWork)).1 = (true, beads) →
        ∀ b ∈ beads, ¬Blocked ((primedOver (.empty "" false) .zero).afterAll asKept waitingWork).store b.id := by
  have hpermitted : Permitted (primedOver (.empty "" false) .zero) waitingWork :=
    ⟨⟨by decide, by decide +kernel⟩, ⟨by decide, by decide +kernel⟩,
      show FieldsNameBlockers _ "gc-2" by decide +kernel, trivial⟩
  exact ⟨hpermitted, (ready_never_blocked "" false [] .zero waitingWork .zero
    (fun b hb => absurd hb not_mem_nil) hpermitted).1⟩

/-- The same, with the dependency added afterwards: the write to the bead takes its dependency rows from its fields,
where there are none. -/
def blockedWork : List (Go.Time × Request) :=
  [(.zero, .create { title := "first" }), (.zero, .create { title := "second" }),
    (.zero, .depAdd "gc-2" "gc-1" .blocks), (.zero, .setMetadata "gc-2" (.other "note") "seen")]

/-- The cache serves the second bead as ready, and in the store the first one blocks it. -/
theorem blockedBead_served : ∃ beads, ((ready .zero).run (serve asKept)
        ((primedOver (.empty "" false) .zero).afterAll asKept blockedWork)).1 = (true, beads) ∧
      ∃ b ∈ beads, Blocked ((primedOver (.empty "" false) .zero).afterAll asKept blockedWork).store b.id := by
  refine ⟨_, Prod.ext (by decide +kernel) rfl, ?_⟩
  have hserved : ((ready .zero).run (serve asKept)
      ((primedOver (.empty "" false) .zero).afterAll asKept blockedWork)).1.2.any (·.id = "gc-2") = true := by
    decide +kernel
  obtain ⟨b, hb, hid⟩ := List.any_eq_true.mp hserved
  refine ⟨b, hb, ?_⟩
  rw [decide_eq_true_eq] at hid
  rw [hid]
  refine ⟨⟨"gc-2", "gc-1", .blocks⟩, by decide +kernel, rfl, ?_⟩
  have hfirst : (((primedOver (.empty "" false) .zero).afterAll asKept blockedWork).store.get "gc-1").any
      (·.status ≠ .closed) = true := by decide +kernel
  simpa [Option.any_eq_true] using hfirst

end DeliveryEngine.Caching
