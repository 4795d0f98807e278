import DeliveryEngine.Convergence.Upkeep

/-!
# A wisp that has closed is processed

What `handleWispClosed` does keeps the invariant, if it is called for the wisp that the loop is at, and that wisp has
closed.  `Handling` is what stays true from the start of the call to the write that ends it: the loop is still at the
wisp.  The wisp that was poured on speculation is the one after it (`Next`), so that it can be deleted at any point.
-/

namespace DeliveryEngine.Convergence

open List Option
open Keeps (reads mono)

/-- The loop is at a wisp that has closed. -/
structure Handling (care : Care) (v : View) (x : Wisp) : Prop where
  running : v.Running
  mem : x ∈ v.wisps
  closed : x.status = .closed
  active : v.activeWisp = some x.id
  resuming : care.resumes → v.state = .active

/-- The last wisp is the one after the one that is processed. -/
def Next (v : View) (x : Wisp) (id : WispID) : Prop :=
  ∃ y ∈ v.wisps, y.id = id ∧ y.iteration = x.iteration + 1 ∧ (∀ z ∈ v.wisps, z.iteration ≤ y.iteration) ∧
    v.gateOutcomeWisp ≠ some id

/-- What is left when the speculative wisp is deleted. -/
def Burnt (care : Care) (x : Wisp) (v u : View) : Prop := Handling care u x ∧ ∃ wisps, u = { v with wisps }

/-- What a pour during the processing leaves. -/
structure Poured (care : Care) (x : Wisp) (v u : View) : Prop where
  handling : Handling care u x
  gate : u.gateOutcomeWisp = v.gateOutcomeWisp
  outcome : u.outcome = v.outcome

/-- The gate has let the loop go on from the wisp that is processed, and nothing else holds it. -/
structure GoesOn (cfg : Config) (v : View) (x : Wisp) : Prop where
  gate : v.gateOutcomeWisp = some x.id
  decision : cfg.decision x.iteration v.outcome = .iterate
  trigger : cfg.trigger = false

variable {cfg : Config} {care : Care} {v : View} {x : Wisp} {outcome : Option GateOutcome}

lemma Config.lt_of_iterate {k : ℕ} (h : cfg.decision k outcome = .iterate) :
    k < cfg.maxIterations ∧ outcome ≠ some .pass := by
  rw [Config.decision] at h
  split_ifs at h with _ hpass _ hlt
  exact ⟨Nat.not_le.mp hlt, hpass⟩

lemma Config.decision_pass (k : ℕ) : cfg.decision k (some .pass) = .terminal .approved := by simp [Config.decision]

lemma Config.pass_of_approved {k : ℕ} (h : cfg.decision k outcome = .terminal .approved) : outcome = some .pass := by
  rw [Config.decision] at h
  split_ifs at h with _ hpass
  · exact hpass
  · cases h
  · cases h

variable {y : Wisp}

lemma Sound.next_of_open (h : Sound cfg care v) (hy : y ∈ v.wisps)
    (hiteration : y.iteration = x.iteration + 1) (hopen : y.status ≠ .closed) : Next v x y.id := by
  refine ⟨y, hy, rfl, hiteration, fun z hz => ?_, fun hg => hopen (h.closed_of_gate hy hg)⟩
  have hyc := h.chain.iteration_eq hy hopen
  by_cases hzc : z.status = .closed
  · have := (h.chain.iteration_le hz hzc).2
    omega
  · have := h.chain.iteration_eq hz hzc
    omega

variable {id : WispID}

lemma Next.found (h : Next v x id) : Finds v (x.iteration + 1) (some id) := by
  obtain ⟨y, hy, hid, hiteration, -⟩ := h
  exact ⟨y, hy, hid, hiteration⟩

namespace Handling

variable (hx : Handling care v x)
include hx

lemma note (n : Note) : Handling care { v with history := n :: v.history } x :=
  { hx with }

lemma poured {n : ℕ} {hidden : Bool} {u : View} (hu : Pours v n hidden u) : Poured care x v u := by
  rcases hu with rfl | ⟨-, rfl⟩
  · exact ⟨hx, rfl, rfl⟩
  · exact ⟨{ hx with mem := mem_append_left _ hx.mem }, rfl, rfl⟩

variable (h : Sound cfg care v)
include h

lemma eq_of_active {z : Wisp} (hz : z ∈ v.wisps) (ha : v.activeWisp = some z.id) : z = x :=
  h.chain.eq_of_id hz hx.mem (some.inj (ha.symm.trans hx.active))

lemma processed_lt {z : Wisp} (hz : z ∈ v.wisps)
    (hlast : v.lastProcessedWisp = some z.id) : z.iteration < x.iteration := by
  obtain ⟨x', hx', hid, hlt⟩ := h.ahead hx.running _ hx.active
  obtain rfl := h.chain.eq_of_id hx' hx.mem hid
  exact hlt z hz hlast

lemma not_processed : v.lastProcessedWisp ≠ (lastClosed v.wisps).map Wisp.id := by
  intro heq
  cases hlast : lastClosed v.wisps with
  | none =>
    have hmem : x ∈ closedOf v.wisps := mem_filter.mpr ⟨hx.mem, by simpa using hx.closed⟩
    have hnil : closedOf v.wisps = [] := getLast?_eq_none_iff.mp hlast
    rw [hnil] at hmem
    cases hmem
  | some z =>
    rw [hlast] at heq
    obtain ⟨hz, hzc⟩ := lastClosed_mem hlast
    have hlt := hx.processed_lt h hz heq
    have := (h.chain.lastClosed_iteration hz hzc).mp hlast
    have := (h.chain.iteration_le hx.mem hx.closed).2
    omega

lemma not_approved (hgate : v.gateOutcomeWisp = some x.id → v.outcome ≠ some .pass) (hc : care.resumes) :
    v.terminalReason ≠ some .approved := by
  intro hr
  have hs := hx.resuming hc
  rcases h.approved hc hr with ⟨hs', -⟩ | ⟨-, hpass, a, ha, hg⟩ | ⟨hs', -⟩
  · exact absurd (hs.symm.trans hs') nofun
  · obtain rfl := some.inj (ha.symm.trans hx.active)
    exact hgate hg hpass
  · exact absurd (hs.symm.trans hs') nofun

lemma delete (hnext : Next v x id) : Sound cfg care { v with wisps := v.wisps.filter (·.id ≠ id) } ∧
      Handling care { v with wisps := v.wisps.filter (·.id ≠ id) } x := by
  obtain ⟨y, hy, rfl, hiteration, htop, hgate⟩ := hnext
  have hlt : x.iteration < y.iteration := by omega
  refine ⟨h.delete hx.running hx.mem hx.active hy hlt htop hgate, { hx with mem := mem_filter.mpr ⟨hx.mem, ?_⟩ }⟩
  rw [decide_eq_true_eq]
  intro hid
  obtain rfl := h.chain.eq_of_id hx.mem hy hid
  exact Nat.lt_irrefl _ hlt

lemma next_of_found (hactive : v.state = .active) (hfound : Finds v (x.iteration + 1) (some id)) : Next v x id := by
  obtain ⟨y, hy, rfl, hiteration⟩ := hfound
  refine ⟨y, hy, rfl, hiteration, fun z hz => hiteration ▸ h.near hactive x hx.mem hx.active z hz, fun hg => ?_⟩
  -- The gate has been asked about the later wisp only if it let the loop go on from this one.
  have hclosed := h.closed_of_gate hy hg
  have hgate := (h.shown hactive x hx.mem hx.active y hy (by omega) (.inl hclosed)).1
  have hxy := h.chain.eq_of_id hy hx.mem (some.inj (hg.symm.trans hgate))
  rw [hxy] at hiteration
  omega

lemma state_active (htrigger : cfg.trigger = false) : v.state = .active :=
  hx.running.resolve_right fun hs => absurd (htrigger.symm.trans (h.triggered hs)) nofun

lemma pour_hidden (hnone : ∀ z ∈ v.wisps, z.iteration ≠ x.iteration + 1) :
    Sound cfg care (v.pour (x.iteration + 1) true) := by
  refine h.pour hnone (by omega) (Nat.succ_le_succ (h.chain.iteration_le hx.mem hx.closed).2) true ?_
    fun hc _ => hx.resuming hc
  intro _ z hz ha
  obtain rfl := hx.eq_of_active h hz ha
  exact ⟨rfl, nofun⟩

lemma permits (hon : GoesOn cfg v x) : Permits cfg (x.iteration + 1) v.history := by
  refine ⟨Nat.le_add_left _ _, (Config.lt_of_iterate hon.decision).1, .inr ?_⟩
  obtain ⟨hneeds, hpersisted⟩ := h.onRecord hx.running x hx.mem hx.active hon.gate
  refine ⟨.inr (h.noted x hx.mem hx.closed), _, hpersisted, ?_⟩
  simp [Note.permits, hon.decision, hneeds, hon.trigger]

lemma passedLast (hstate : v.state = .active)
    (hgate : v.gateOutcomeWisp = some x.id) (hpass : v.outcome = some .pass) :
    PassedLast v.wisps v.gateOutcomeWisp v.outcome := by
  have hnone : ∀ y ∈ v.wisps, x.iteration < y.iteration → ¬(y.status = .closed ∨ y.hidden = false) := by
    intro y hy hlt hseen
    have hdecision := (h.shown hstate x hx.mem hx.active y hy hlt hseen).2
    rw [hpass] at hdecision
    cases hdecision
  have hle := (h.chain.iteration_le hx.mem hx.closed).2
  refine ⟨⟨x, (h.chain.lastClosed_iteration hx.mem hx.closed).mpr ?_, hgate⟩, hpass, fun z hz hopen => ?_⟩
  · by_contra hne
    obtain ⟨y, hy, hyc⟩ := h.chain.exists_iteration (n := (closedOf v.wisps).length) (by omega)
      (by have := h.chain.length_eq; omega)
    exact hnone y hy (by omega) (.inl (h.chain.closed_of_iteration hy hyc.le))
  · have hz' := h.chain.iteration_eq hz hopen
    by_contra hhidden
    exact hnone z hz (by omega) (.inr (by simpa using hhidden))

end Handling

variable {inv : View → Prop}

lemma keeps_validPendingNextWisp (h : Sound cfg care v) (n : ℕ) (pending : Option WispID) :
    Keeps (Sound cfg care) (validPendingNextWisp n pending) v fun r u => u = v ∧
      ∀ id, r = some id → ∃ y ∈ v.wisps, y.id = id ∧ y.iteration = n ∧ y.status ≠ .closed := by
  cases pending with
  | none => exact keeps_pure h ⟨rfl, nofun⟩
  | some id =>
    refine reads (keeps_tryGetBead h) fun r hr => ?_
    have hclear : Keeps (Sound cfg care) (do
        let _ ← tryOp (.setMetadata (.pendingNextWisp none))
        return none) v fun (r : Option WispID) u => u = v ∧
        ∀ id, r = some id → ∃ y ∈ v.wisps, y.id = id ∧ y.iteration = n ∧ y.status ≠ .closed := by
      refine Keeps.next (keeps_tryPending h) fun _ _ => ?_
      exact keeps_pure h ⟨rfl, nofun⟩
    cases r with
    | error e => exact hclear
    | ok y =>
      obtain ⟨hy, hid⟩ := hr.1 y rfl
      show Keeps _ (if _ then _ else _) _ _
      split
      case isTrue hvalid =>
        refine keeps_pure h ⟨rfl, ?_⟩
        rintro _ ⟨⟩
        exact ⟨y, hy, hid, hvalid⟩
      case isFalse => exact hclear

lemma keeps_clearVerdict (hv : inv v) (verdictWisp wisp : Option WispID) :
    Keeps inv (clearVerdict verdictWisp wisp) v fun _ u => u = v := by
  refine keeps_when hv (fun _ => ?_) fun _ => rfl
  refine Keeps.next (keeps_set hv hv) fun _ _ => ?_
  exact keeps_set hv hv

lemma keeps_pourOrFind (hv : inv v) {n : ℕ} (hpour : (∀ z ∈ v.wisps, z.iteration ≠ n) → inv (v.pour n false)) :
    Keeps inv (pourOrFind n) v fun r u => Pours v n false u ∧ ∀ id, r = .ok id → Finds u n (some id) := by
  refine (keeps_tryPour hv hpour).bind ?_
  rintro r u hu ⟨hpoured, hfinds⟩
  cases r with
  | ok id => exact keeps_pure hu ⟨hpoured, fun _ heq => by cases heq; exact hfinds id rfl⟩
  | error e =>
    refine reads (keeps_tryFind hu) fun r hfound => ?_
    match r, hfound with
    | .ok (some id), hfound => exact keeps_pure hu ⟨hpoured, fun _ heq => by cases heq; exact hfound _ rfl⟩
    | .ok none, _ => exact keeps_pure hu ⟨hpoured, nofun⟩
    | .error e, _ => exact keeps_pure hu ⟨hpoured, nofun⟩

lemma keeps_lastProcessedIteration (hv : inv v) (root : Meta) :
    Keeps inv (lastProcessedIteration root) v fun _ u => u = v := by
  rw [lastProcessedIteration]
  split
  case h_1 => exact keeps_pure hv rfl
  case h_2 id _ =>
    refine reads (keeps_tryGetBead hv) fun r _ => ?_
    cases r with
    | ok y => exact keeps_pure hv rfl
    | error e => exact keeps_pure hv rfl

variable {context : String}

lemma keeps_deriveIterationCount (hv : inv v) :
    Keeps inv (deriveIterationCount context) v fun n u => u = v ∧ n = (closedOf v.wisps).length := by
  refine reads (keeps_children hv) ?_
  rintro _ rfl
  exact keeps_pure hv ⟨rfl, childStats_closedCount _⟩

variable {p : Processed} {speculative : Option WispID}

/-! ## The wisp after it -/

/-- The wisp that is processed, what its gate said, and the wisp after it. -/
structure Adopting (cfg : Config) (care : Care) (v : View) (x : Wisp) (next : WispID) : Prop extends
    Handling care v x, GoesOn cfg v x where
  found : Finds v (x.iteration + 1) (some next)

namespace Adopting

variable {next : WispID} (ha : Adopting cfg care v x next)
include ha

lemma note (n : Note) : Adopting cfg care { v with history := n :: v.history } x next := { ha with }

variable (h : Sound cfg care v)
include h

lemma iteration_eq (hy : y ∈ v.wisps) (hid : y.id = next) : y.iteration = x.iteration + 1 := by
  obtain ⟨z, hz, hzid, hiteration⟩ := ha.found
  rw [h.chain.eq_of_id hy hz (hid.trans hzid.symm)]
  exact hiteration

lemma activate (hy : y ∈ v.wisps) (hid : y.id = next) :
    Sound cfg care (v.activate y) ∧ Adopting cfg care (v.activate y) x next := by
  have hiteration := ha.iteration_eq h hy hid
  have hstate := ha.state_active h ha.trigger
  have hreveal : Sound cfg care { v with wisps := v.wisps.map (changeAt y.id fun z => { z with hidden := false }) } := by
    refine h.reveal (by rw [hstate]; nofun) (fun _ z hz haz _ => ?_) hy
    obtain rfl := ha.eq_of_active h hz haz
    exact ⟨ha.gate, ha.decision⟩
  refine ⟨hreveal.note rfl nofun (fun _ i hi => ?_) nofun, ?_⟩
  · cases hi
    rw [hiteration]
    exact ha.permits h ha.toGoesOn
  · have hne : x.id ≠ y.id := fun heq => by
      rw [h.chain.eq_of_id ha.mem hy heq] at hiteration
      omega
    have hmem : x ∈ v.wisps.map (changeAt y.id fun z => { z with hidden := false }) := by
      rw [← changeAt_of_ne hne (f := fun z => { z with hidden := false })]
      exact mem_map_of_mem ha.mem
    refine { ha with mem := hmem, found := ⟨_, mem_map_of_mem hy, ?_⟩ }
    rw [changeAt_self]
    exact ⟨hid, hiteration⟩

lemma not_approved (hc : care.resumes) : v.terminalReason ≠ some .approved :=
  ha.toHandling.not_approved h (fun _ => (Config.lt_of_iterate ha.decision).2) hc

lemma setActive (hshows : v.Shows next) : Sound cfg care { v with activeWisp := some next } := by
  obtain ⟨y, hy, rfl, hiteration⟩ := ha.found
  have hstate := ha.state_active h ha.trigger
  refine h.setActive hy ha.running (fun z hz hlast => ?_) (fun hg => ?_) (fun z hz => ?_)
    (fun hc _ => ha.not_approved h hc) fun _ => hshows
  · have := ha.processed_lt h hz hlast
    omega
  · rw [h.chain.eq_of_id hy ha.mem (some.inj (hg.symm.trans ha.gate))] at hiteration
    omega
  · rw [hiteration]
    exact h.near hstate x ha.mem ha.active z hz

end Adopting

lemma keeps_adopt {next : WispID} (h : Sound cfg care v) (ha : Adopting cfg care v x next)
    (hp : p.wisp = x.id) (outcome : Option GateOutcome) :
    Keeps (Sound cfg care) (adopt p outcome next) v := by
  refine Keeps.bind (keeps_activate h fun y hy hid => (ha.activate h hy hid).1) ?_
  rintro _ u hu ⟨y, hy, hid, huv⟩
  have hshows : u.Shows next := hid ▸ h.shows_activated hy huv
  have ha : Adopting cfg care u x next := by
    rcases huv with ⟨-, rfl⟩ | rfl
    · exact ha
    · exact (ha.activate h hy hid).2
  have hemit := hu.emitted (e := .iteration p.iteration p.wisp .iterate outcome (some next) none) nofun
  have hactive := (ha.note _).setActive hemit hshows
  refine Keeps.next (keeps_emit hemit) fun _ _ => ?_
  refine Keeps.bind (keeps_commit hemit ⟨rfl, hactive, trivial⟩ (· = _) (keeps_pure hactive rfl) ?_) ?_
  · rintro _ - rfl _ ⟨⟩
    refine hactive.setProcessed ha.mem ha.closed hp.symm (fun _ z hz haz => ?_) fun _ => nofun
    have := ha.iteration_eq hu hz (some.inj haz.symm)
    omega
  · rintro _ u hu -
    exact Keeps.done (keeps_tryPending hu)

/-- A record of the wisp that is processed. -/
structure Processes (p : Processed) (x : Wisp) : Prop where
  wisp : p.wisp = x.id
  iteration : p.iteration = x.iteration

section
variable (h : Sound cfg care v) (hx : Handling care v x)
include h hx

/-! ## Speculative wisps -/

lemma keeps_burnSpeculativeWisp (hnext : ∀ id, speculative = some id → Next v x id) :
    Keeps (Sound cfg care) (burnSpeculativeWisp context speculative) v fun _ u => Burnt care x v u := by
  cases speculative with
  | none => exact keeps_pure h ⟨hx, v.wisps, rfl⟩
  | some id =>
    obtain ⟨hsound, hhandling⟩ := hx.delete h (hnext id rfl)
    refine Keeps.next (keeps_delete h hsound) fun _ hu => ?_
    refine Keeps.next (keeps_tryPending hu) fun _ hu => ?_
    exact keeps_pure hu ⟨hhandling, _, rfl⟩

lemma keeps_failBurning {α : Type} {post : α → View → Prop} {e : HandlerError}
    (hnext : ∀ id, speculative = some id → Next v x id) :
    Keeps (Sound cfg care) (failBurning e speculative) v post := by
  refine (keeps_attempt (fun _ hu => hu) (keeps_burnSpeculativeWisp h hx hnext)).bind ?_
  rintro r u hu -
  cases r with
  | ok a => exact keeps_throw hu _
  | error e => exact keeps_throw hu _

lemma keeps_rememberPending (hnext : Next v x id) :
    Keeps (Sound cfg care) (rememberPending id) v fun r u => u = v ∧ r = (some id, false) := by
  refine Keeps.next (keeps_tryPending h) fun r hu => ?_
  cases r with
  | ok _ => exact keeps_pure hu ⟨rfl, rfl⟩
  | error e =>
    refine keeps_failBurning hu hx ?_
    rintro _ ⟨⟩
    exact hnext

lemma keeps_pourSpeculative {pending : Option WispID} (hpending : ∀ id, pending = some id → Next v x id) :
    Keeps (Sound cfg care) (pourSpeculative cfg x.iteration pending) v fun r u =>
      Poured care x v u ∧ ∀ id, r.1 = some id → Next u x id := by
  rw [pourSpeculative]
  split
  case isFalse => exact keeps_pure h ⟨⟨hx, rfl, rfl⟩, hpending⟩
  case isTrue hpours =>
    have htrigger : cfg.trigger = false := by
      have := hpours.2.1
      simp only [Bool.not_eq_true', Bool.or_eq_false_iff] at this
      exact this.2
    refine (keeps_tryPour h (hx.pour_hidden h)).bind ?_
    rintro r u hu ⟨hpoured, hfinds⟩
    have hpoured := hx.poured hpoured
    have hx' := hpoured.handling
    have hremember : ∀ id, Finds u (x.iteration + 1) (some id) → Keeps (Sound cfg care) (rememberPending id) u
        fun r u' => Poured care x v u' ∧ ∀ id, r.1 = some id → Next u' x id := by
      intro id hfound
      have hnext := hx'.next_of_found hu (hx'.state_active hu htrigger) hfound
      refine (keeps_rememberPending hu hx' hnext).mono ?_
      rintro _ u' ⟨rfl, rfl⟩
      refine ⟨hpoured, ?_⟩
      rintro _ ⟨⟩
      exact hnext
    cases r with
    | ok id => exact hremember id (hfinds id rfl)
    | error e =>
      refine reads (keeps_tryFind hu) fun r hfound => ?_
      match r, hfound with
      | .ok (some id), hfound => exact hremember id (hfound _ rfl)
      | .ok none, _ => exact keeps_pure hu ⟨hpoured, nofun⟩
      | .error e, _ => exact keeps_pure hu ⟨hpoured, nofun⟩

/-! ## Transitions -/

lemma keeps_transitionToWaitingManual (hp : p.wisp = x.id) (hreason : care.resumes → v.terminalReason ≠ some .approved)
    (reason : WaitingReason) (outcome : Option GateOutcome) :
    Keeps (Sound cfg care) (transitionToWaitingManual p reason outcome) v := by
  have hemit := h.emitted (e := .iteration p.iteration p.wisp .waitingManual outcome none (some reason)) nofun
  have hclear := hemit.clearActive (fun _ _ => hx.not_processed h) fun hc _ => hreason hc
  have hwait := hclear.setStateIdle rfl (s := .waitingManual) ⟨nofun, nofun, nofun⟩ nofun (fun _ => nofun) hreason
  refine Keeps.next (keeps_emit hemit) fun _ _ => ?_
  refine Keeps.bind
    (keeps_commit hemit ⟨rfl, hclear, rfl, hclear, rfl, hwait, trivial⟩ (· = _) (keeps_pure hwait rfl) ?_) ?_
  · rintro _ - rfl _ ⟨⟩
    exact hwait.setProcessedIdle (by rintro (hrun | hrun) <;> cases hrun) ⟨x, hx.mem, hp.symm, hx.closed⟩
  · rintro _ u hu -
    have hlast := hu.emitted (e := .waitingManual p.iteration (some p.wisp) reason) nofun
    exact Keeps.done (keeps_emit hlast)

lemma keeps_transitionToWaitingTrigger (hp : p.wisp = x.id) (hreason : care.resumes → v.terminalReason ≠ some .approved)
    (htrigger : cfg.trigger = true) (outcome : Option GateOutcome) :
    Keeps (Sound cfg care) (transitionToWaitingTrigger p outcome) v := by
  have hemit := h.emitted (e := .iteration p.iteration p.wisp .waitingTrigger outcome none none) nofun
  have hclear := hemit.clearActive (fun _ _ => hx.not_processed h) fun hc _ => hreason hc
  have hwait := hclear.setStateIdle rfl (s := .waitingTrigger) ⟨nofun, nofun, nofun⟩ (fun _ => htrigger) (fun _ => nofun)
    hreason
  refine Keeps.next (keeps_clearVerdict h _ _) fun _ _ => ?_
  refine Keeps.next (keeps_emit hemit) fun _ _ => ?_
  refine Keeps.done (keeps_commit hemit ⟨rfl, hclear, rfl, hwait, trivial⟩ (· = _) (keeps_pure hwait rfl) ?_)
  rintro _ - rfl _ ⟨⟩
  exact hwait.setProcessed hx.mem hx.closed hp.symm (fun _ _ _ => nofun) nofun

lemma keeps_iterate (hon : GoesOn cfg v x) (hp : Processes p x) (hnext : ∀ id, speculative = some id → Next v x id)
    (outcome : Option GateOutcome) :
    Keeps (Sound cfg care) (iterate p outcome speculative) v := by
  refine Keeps.next (keeps_clearVerdict h _ _) fun _ _ => ?_
  cases speculative with
  | some id => exact keeps_adopt h { hx, hon with found := (hnext id rfl).found } hp.wisp outcome
  | none =>
    rw [hp.iteration]
    refine Keeps.bind (keeps_pourOrFind h fun hnone => ?_) ?_
    · refine h.pourShown hnone (by omega) (Nat.succ_le_succ (h.chain.iteration_le hx.mem hx.closed).2)
        (fun _ => hx.permits h hon) (fun _ z hz ha => ?_) fun hc _ => hx.resuming hc
      obtain rfl := hx.eq_of_active h hz ha
      exact ⟨rfl, hon.gate, hon.decision⟩
    · rintro r u hu ⟨hpoured, hfound⟩
      have hpoured := hx.poured hpoured
      have hon' : GoesOn cfg u x := ⟨hpoured.gate.trans hon.gate, hpoured.outcome.symm ▸ hon.decision, hon.trigger⟩
      cases r with
      | ok id => exact keeps_adopt hu { hpoured.handling, hon' with found := hfound id rfl } hp.wisp outcome
      | error e =>
        refine keeps_transitionToWaitingManual hu hpoured.handling hp.wisp (fun hc => ?_) _ _
        exact hpoured.handling.not_approved hu (fun _ => (Config.lt_of_iterate hon'.decision).2) hc

lemma keeps_terminate (hgate : v.gateOutcomeWisp = some x.id) {reason : TerminalReason}
    (hdecision : cfg.decision x.iteration v.outcome = .terminal reason) (hp : p.wisp = x.id)
    (actor : String) (outcome : Option GateOutcome) :
    Keeps (Sound cfg care) (terminate p reason actor outcome) v := by
  have hfirst := h.emitted (e := .iteration p.iteration p.wisp (.ofTerminal reason) outcome none none) nofun
  have hsecond := hfirst.emitted (e := .terminated reason p.globalIteration actor) nofun
  have hx' := (hx.note (.emitted (.iteration p.iteration p.wisp (.ofTerminal reason) outcome none none))).note
    (.emitted (.terminated reason p.globalIteration actor))
  have hquiet := fun hc => hsecond.ended hc hx'.running x hx'.mem hx'.active hgate reason hdecision
  have hreason := hsecond.setReason (r := reason) hquiet fun hc hr => by
    subst hr
    exact .inr (.inl ⟨hx.resuming hc, Config.pass_of_approved hdecision, x.id, hx.active, hgate⟩)
  have hend := hreason.setTerminated hquiet fun hc hr => by
    obtain rfl := some.inj hr
    exact .inr (hx.passedLast h (hx.resuming hc) hgate (Config.pass_of_approved hdecision))
  refine Keeps.next (keeps_emit hfirst) fun _ _ => ?_
  refine Keeps.next (keeps_emit hsecond) fun _ _ => ?_
  refine Keeps.done (keeps_commit hsecond ⟨rfl, hreason, rfl, hreason, rfl, hend, trivial⟩ (· = _)
    (keeps_closeRoot hend) ?_)
  rintro _ - rfl _ ⟨⟩
  exact hend.setProcessedIdle (by rintro (hrun | hrun) <;> cases hrun) ⟨x, hx.mem, hp.symm, hx.closed⟩

end

/-! ## The gate -/

/-- What holds while the result of the gate is being written. -/
structure Persisting (cfg : Config) (care : Care) (x : Wisp) (speculative : Option WispID) (v : View) : Prop where
  sound : Sound cfg care v
  handling : Handling care v x
  next : ∀ id, speculative = some id → Next v x id

lemma keeps_persistGateOutcome (h : Persisting cfg care x speculative v)
    (hgate : v.gateOutcomeWisp ≠ some x.id) (hneeds : cfg.gate.needsManualWithoutGate = false)
    (result : GateResult) :
    Keeps (Persisting cfg care x speculative) (persistGateOutcome x.id result) v fun _ u =>
      u.gateOutcomeWisp = some x.id ∧ u.outcome = result.outcome := by
  have hx := h.handling
  have hout : Persisting cfg care x speculative { v with outcome := result.outcome } :=
    { sound := h.sound.setOutcome hx.running hx.active hgate _
      handling := { hx with }
      next := h.next }
  refine Keeps.next (keeps_setAll h ⟨rfl, hout, rfl, hout, rfl, hout, rfl, hout, rfl, hout, rfl, hout, rfl, hout, trivial⟩) fun _ _ => ?_
  refine mono (keeps_setGate hout hx.mem (fun y hy hid => h.sound.chain.eq_of_id hy hx.mem hid) ?_) ?_
  · refine
      { sound := hout.sound.setGate hx.running hx.mem hx.closed hx.active hgate hneeds
        handling := { hx with }
        next := fun id hid => ?_ }
    obtain ⟨y, hy, rfl, hiteration, htop, -⟩ := h.next id hid
    refine ⟨y, hy, rfl, hiteration, htop, fun heq => ?_⟩
    rw [h.sound.chain.eq_of_id hy hx.mem (some.inj heq.symm)] at hiteration
    omega
  · rintro _ _ rfl
    exact ⟨rfl, rfl⟩

variable {speculative : Option WispID × Bool}

lemma keeps_conclude (h : Persisting cfg care x speculative.1 v) (hgate : v.gateOutcomeWisp = some x.id)
    (hp : Processes p x) :
    Keeps (Sound cfg care) (conclude cfg p v.outcome speculative) v := by
  obtain ⟨hv, hx, hnext⟩ := h
  rw [conclude, hp.iteration]
  have hnot : ∀ {u : View}, Sound cfg care u → Burnt care x v u → cfg.decision x.iteration v.outcome ≠ .terminal .approved →
      care.resumes → u.terminalReason ≠ some .approved := by
    rintro u hu ⟨hx', wisps, rfl⟩ hne
    refine hx'.not_approved hu fun _ hpass => hne ?_
    rw [hpass, Config.decision_pass]
  cases hdecision : cfg.decision x.iteration v.outcome with
  | hold =>
    refine Keeps.bind (keeps_burnSpeculativeWisp hv hx hnext) fun _ u hu hburnt => ?_
    exact keeps_transitionToWaitingManual hu hburnt.1 hp.wisp (hnot hu hburnt (by rw [hdecision]; nofun)) _ _
  | terminal reason =>
    refine Keeps.bind (keeps_burnSpeculativeWisp hv hx hnext) ?_
    rintro _ u hu ⟨hx', wisps, rfl⟩
    exact keeps_terminate hu hx' hgate hdecision hp.wisp _ _
  | iterate =>
    have hreason := hnot hv ⟨hx, v.wisps, rfl⟩ (by rw [hdecision]; nofun)
    show Keeps _ (if _ then _ else if _ then _ else _) _ _
    split
    case isTrue => exact keeps_transitionToWaitingManual hv hx hp.wisp hreason _ _
    case isFalse =>
      split
      case isTrue htrigger => exact keeps_transitionToWaitingTrigger hv hx hp.wisp hreason htrigger _
      case isFalse htrigger =>
        exact keeps_iterate hv hx ⟨hgate, hdecision, by simpa using htrigger⟩ hp hnext _

lemma keeps_evaluate (h : Persisting cfg care x speculative.1 v) (hp : Processes p x)
    (hroot : p.root.gateOutcomeWisp = v.gateOutcomeWisp) (hout : p.root.gate.outcome = v.outcome)
    (gate : GateResult) :
    Keeps (Sound cfg care) (evaluate cfg p gate speculative) v := by
  rw [evaluate, hp.wisp, hroot, hout]
  split
  case isTrue hgate => exact keeps_conclude h hgate hp
  case isFalse hgate =>
    split
    case isTrue =>
      refine Keeps.bind (keeps_burnSpeculativeWisp h.sound h.handling h.next) ?_
      rintro _ u hu ⟨hx', wisps, rfl⟩
      exact keeps_transitionToWaitingManual hu hx' hp.wisp (hx'.not_approved hu fun hg => absurd hg hgate) _ _
    case isFalse hneeds =>
      refine Keeps.bind (keeps_attempt (fun _ hu => hu.sound)
        (keeps_persistGateOutcome h hgate (by simpa using hneeds) gate)) ?_
      rintro r u - ⟨hu, hr⟩
      cases r with
      | error e => exact keeps_failBurning hu.sound hu.handling hu.next
      | ok _ =>
        obtain ⟨hg, ho⟩ := hr _ rfl
        exact ho ▸ keeps_conclude hu hg hp

/-! ## The handler -/

lemma keeps_processWisp (h : Sound cfg care v) (hx : Handling care v x) (hp : Processes p x)
    (hroot : p.root.gateOutcomeWisp = v.gateOutcomeWisp) (hout : p.root.gate.outcome = v.outcome)
    (gate : GateResult) : Keeps (Sound cfg care) (processWisp cfg p gate) v := by
  rw [processWisp, hp.iteration]
  refine reads (keeps_validPendingNextWisp h _ _) fun pending hpending => ?_
  have hnext : ∀ id, pending = some id → Next v x id := by
    intro id hid
    obtain ⟨y, hy, rfl, hiteration, hopen⟩ := hpending id hid
    exact h.next_of_open hy hiteration hopen
  split
  case isTrue => exact keeps_failBurning h hx hnext
  case isFalse =>
    refine Keeps.bind (keeps_pourSpeculative h hx hnext) ?_
    rintro speculative u hu ⟨hpoured, hnext⟩
    exact keeps_evaluate ⟨hu, hpoured.handling, hnext⟩ hp (hroot.trans hpoured.gate.symm)
      (hout.trans hpoured.outcome.symm) gate

lemma keeps_handleWispClosed (h : Sound cfg care v) (hx : Handling care v x) (gate : GateResult) :
    Keeps (Sound cfg care) (handleWispClosed cfg x.id gate) v := by
  refine reads (keeps_getMetadata h) fun root hroot => ?_
  split
  case isTrue hs =>
    rw [hroot.state] at hs
    rcases hx.running with hrun | hrun <;> exact absurd (hs.symm.trans hrun) nofun
  case isFalse =>
    refine reads (keeps_getBead h) fun y ⟨hy, hid⟩ => ?_
    rw [h.chain.eq_of_id hy hx.mem hid]
    refine Keeps.next (keeps_lastProcessedIteration h root) fun last _ => ?_
    split
    case isTrue => exact keeps_pure h trivial
    case isFalse =>
      refine reads (keeps_deriveIterationCount h) fun _ _ => ?_
      refine Keeps.next (keeps_when h (fun _ => keeps_set h h) fun _ => rfl) fun _ _ => ?_
      exact keeps_processWisp h hx ⟨rfl, rfl⟩ hroot.gateOutcomeWisp hroot.outcome gate

end DeliveryEngine.Convergence
