import DeliveryEngine.Convergence.Processing

/-!
# Operators, triggers and recovery

What the other handlers do keeps the invariant.  A loop that goes on after a wait, or after a crash, goes to the wisp
after the last one that closed (`Resuming`); a loop that ends is marked with the reason before its state says so.
-/

namespace DeliveryEngine.Convergence

open Keeps (mono reads)

variable {cfg : Config} {care : Care} {v : View}

/-! ## Going on -/

/-- The iteration after the last one that has ended may begin. -/
structure MayBegin (cfg : Config) (care : Care) (v : View) : Prop where
  granted : care.recovers → Granted cfg (closedOf v.wisps).length v.history ∧ (closedOf v.wisps).length < cfg.maxIterations
  reason : care.resumes → v.terminalReason ≠ some .approved
  idle : v.state = .active → v.activeWisp = none

/-- And its wisp is there. -/
structure Resuming (cfg : Config) (care : Care) (v : View) (next : WispID) : Prop extends MayBegin cfg care v where
  found : Finds v ((closedOf v.wisps).length + 1) (some next)

lemma MayBegin.permits (hb : MayBegin cfg care v) (hc : care.recovers) :
    Permits cfg ((closedOf v.wisps).length + 1) v.history :=
  ⟨Nat.le_add_left _ _, (hb.granted hc).2, .inr (hb.granted hc).1⟩

lemma MayBegin.pour (hb : MayBegin cfg care v) (h : Sound cfg care v)
    (hnone : ∀ x ∈ v.wisps, x.iteration ≠ (closedOf v.wisps).length + 1) :
    Sound cfg care (v.pour ((closedOf v.wisps).length + 1) false) :=
  h.pourShown hnone (Nat.le_add_left _ _) le_rfl hb.permits
    (fun hs _ _ ha => absurd (ha.symm.trans (hb.idle hs)) nofun) fun hc hr => absurd hr (hb.reason hc)

lemma closedOf_pour {n : ℕ} {hidden : Bool} : closedOf (v.pour n hidden).wisps = closedOf v.wisps :=
  closedOf_concat_open nofun

variable {u : View}

/-- The agents see the wisp of the next iteration, if there is one. -/
def View.NextShown (v : View) : Prop := ∀ x ∈ v.wisps, x.iteration = (closedOf v.wisps).length + 1 → x.hidden = false

instance (v : View) : Decidable v.NextShown := inferInstanceAs (Decidable (∀ x ∈ v.wisps, _))

lemma View.NextShown.poured (hv : v.NextShown) (hpours : Pours v ((closedOf v.wisps).length + 1) false u) :
    u.NextShown := by
  rcases hpours with rfl | ⟨-, rfl⟩
  · exact hv
  · intro x hx hiteration
    rw [closedOf_pour] at hiteration
    rcases List.mem_append.mp hx with hx | hx
    · exact hv x hx hiteration
    · rw [List.mem_singleton.mp hx]

lemma MayBegin.poured (hb : MayBegin cfg care v) {next : WispID}
    (hpours : Pours v ((closedOf v.wisps).length + 1) false u)
    (hfound : Finds u ((closedOf v.wisps).length + 1) (some next)) : Resuming cfg care u next := by
  rcases hpours with rfl | ⟨-, rfl⟩
  · exact { hb with found := hfound }
  · refine
      { granted := fun hc => ?_
        reason := hb.reason
        idle := hb.idle
        found := by rw [closedOf_pour]; exact hfound }
    rw [closedOf_pour]
    refine ⟨Granted.cons (n := .activated _) (Granted.cons (n := .poured _) ?_ nofun) nofun, (hb.granted hc).2⟩
    exact (hb.granted hc).1

namespace Resuming

variable {next : WispID}

section
variable (hr : Resuming cfg care v next)
include hr

variable (h : Sound cfg care v)
include h

lemma top : ∃ y ∈ v.wisps, y.id = next ∧
    y.iteration = (closedOf v.wisps).length + 1 ∧ y.status ≠ .closed ∧ ∀ z ∈ v.wisps, z.iteration ≤ y.iteration := by
  obtain ⟨y, hy, hid, hiteration⟩ := hr.found
  refine ⟨y, hy, hid, hiteration, fun hclosed => ?_, fun z hz => ?_⟩
  · have := (h.chain.iteration_le hy hclosed).2
    omega
  · by_cases hzc : z.status = .closed
    · have := (h.chain.iteration_le hz hzc).2
      omega
    · have := h.chain.iteration_eq hz hzc
      omega

lemma gate_ne : v.gateOutcomeWisp ≠ some next := by
  obtain ⟨y, hy, rfl, -, hopen, -⟩ := hr.top h
  exact fun hg => hopen (h.closed_of_gate hy hg)

lemma shows (hv : v.NextShown) : v.Shows next := by
  obtain ⟨y, hy, rfl, hiteration, -⟩ := hr.top h
  rintro x hx hid
  obtain rfl := h.chain.eq_of_id hx hy hid
  exact hv x hx hiteration

lemma setActive (hrun : v.Running) (hshows : care.publishes → v.Shows next) :
    Sound cfg care { v with activeWisp := some next } := by
  have hgate := hr.gate_ne h
  obtain ⟨y, hy, rfl, hiteration, -, htop⟩ := hr.top h
  refine h.setActive hy hrun (fun z hz hlast => ?_) hgate htop (fun hc _ => hr.reason hc) hshows
  obtain ⟨x, hx, hid, hclosed⟩ := h.processed _ hlast
  obtain rfl := h.chain.eq_of_id hx hz hid
  have := (h.chain.iteration_le hx hclosed).2
  omega

lemma activate (hstate : v.state ≠ .terminated) {y : Wisp} (hy : y ∈ v.wisps) (hid : y.id = next) :
    Sound cfg care (v.activate y) ∧ Resuming cfg care (v.activate y) next := by
  obtain ⟨y', hy', hid', hiteration, -⟩ := hr.top h
  obtain rfl := h.chain.eq_of_id hy' hy (hid'.trans hid.symm)
  have hreveal := h.reveal hstate (fun hs _ _ ha => absurd (ha.symm.trans (hr.idle hs)) nofun) hy
  have hstatus := changeAt_field Wisp.status y'.id (fun x => { x with hidden := false }) fun _ => rfl
  have hlength : (closedOf (v.activate y').wisps).length = (closedOf v.wisps).length := by
    have hmap : closedOf (v.activate y').wisps = (closedOf v.wisps).map _ := closedOf_map hstatus
    rw [hmap, List.length_map]
  refine ⟨hreveal.note rfl nofun (fun hc i hi => ?_) nofun, ?_⟩
  · cases hi
    rw [hiteration]
    exact hr.permits hc
  · refine
      { granted := fun hc => ?_
        reason := hr.reason
        idle := hr.idle
        found := ?_ }
    · rw [hlength]
      exact ⟨(hr.granted hc).1.cons nofun, (hr.granted hc).2⟩
    · rw [hlength]
      refine ⟨_, List.mem_map_of_mem hy, ?_⟩
      rw [changeAt_self]
      exact ⟨hid, hiteration⟩

end

end Resuming

/-- The loop has ended, with the wisps that it had. -/
structure Ended (v u : View) : Prop where
  wisps : u.wisps = v.wisps
  state : u.state = .terminated

lemma Ended.setProcessed (he : Ended v u) (hu : Sound cfg care u) {id : WispID}
    (hid : ∃ x ∈ v.wisps, x.id = id ∧ x.status = .closed) : Sound cfg care { u with lastProcessedWisp := some id } := by
  exact hu.setProcessedIdle (fun hrun => hrun.ne_terminated he.state) (he.wisps.symm ▸ hid)

variable {context : String}

lemma keeps_tellEnd (hu : Sound cfg care u) (he : Ended v u) {e e' : Event} {reason : String}
    (hquiet : Note.resumes cfg (.emitted e) ≠ some true ∧ Note.resumes cfg (.emitted e') ≠ some true) :
    Keeps (Sound cfg care) (emit e >>= fun _ => ask context (.closeRoot reason) >>= fun _ => emit e') u
      fun _ u => Ended v u := by
  refine Keeps.next (keeps_emit (hu.emitted hquiet.1)) fun _ hu => ?_
  refine Keeps.next (keeps_closeRoot hu) fun _ hu => ?_
  refine mono (keeps_emit (hu.emitted hquiet.2)) ?_
  rintro _ _ rfl
  exact ⟨he.wisps, he.state⟩

variable {inv : View → Prop}

lemma keeps_backfillTerminalActor (hv : inv v) (root : Meta) :
    Keeps inv (backfillTerminalActor root) v fun _ u => u = v :=
  keeps_when hv (fun _ => keeps_set hv hv) fun _ => rfl

lemma keeps_childrenOrNone (hv : inv v) :
    Keeps inv childrenOrNone v fun children u => u = v ∧ (children = v.wisps ∨ children = []) := by
  refine reads (keeps_tryChildren hv) fun r hchildren => ?_
  cases r with
  | ok children => exact keeps_pure hv ⟨rfl, .inl (hchildren children rfl)⟩
  | error e => exact keeps_pure hv ⟨rfl, .inr rfl⟩

section
variable {root : Meta} (h : Sound cfg care v)
include h

lemma keeps_pourNext (hb : MayBegin cfg care v) :
    Keeps (Sound cfg care) (pourOrFind ((closedOf v.wisps).length + 1)) v fun r u =>
      u.state = v.state ∧ u.activeWisp = v.activeWisp ∧ u.terminalReason = v.terminalReason ∧
        (v.NextShown → u.NextShown) ∧ ∀ next, r = .ok next → Resuming cfg care u next := by
  refine mono (keeps_pourOrFind h (hb.pour h)) ?_
  rintro r u ⟨hpours, hfound⟩
  have hshown : v.NextShown → u.NextShown := fun hv => hv.poured hpours
  have hresuming : ∀ next, r = .ok next → Resuming cfg care u next := fun next hr => hb.poured hpours (hfound next hr)
  rcases hpours with rfl | ⟨-, rfl⟩
  · exact ⟨rfl, rfl, rfl, hshown, hresuming⟩
  · exact ⟨rfl, rfl, rfl, hshown, hresuming⟩

lemma keeps_activateNext {next : WispID} (hr : Resuming cfg care v next) (hnot : v.state ≠ .terminated) :
    Keeps (Sound cfg care) (ask context (.activateWisp next)) v fun _ u =>
      Resuming cfg care u next ∧ u.state = v.state ∧ u.terminalReason = v.terminalReason ∧ u.Shows next := by
  refine mono (keeps_activate h fun y hy hid => (hr.activate h hnot hy hid).1) ?_
  rintro _ u ⟨y, hy, hid, hu⟩
  have hshows : u.Shows next := hid ▸ h.shows_activated hy hu
  rcases hu with ⟨-, rfl⟩ | rfl
  · exact ⟨hr, rfl, rfl, hshows⟩
  · exact ⟨(hr.activate h hnot hy hid).2, rfl, rfl, hshows⟩

/-! ## Triggers -/

section
variable (hstopping : ¬care.stopping) (hreason : care.resumes → v.terminalReason = none)
include hstopping hreason

lemma keeps_advanceFromTrigger (hb : MayBegin cfg care v) (hstate : v.state = .waitingTrigger) (root : Meta) :
    Keeps (Sound cfg care) (advanceFromTrigger root ((closedOf v.wisps).length + 1)) v := by
  refine Keeps.bind (keeps_pourNext h hb) ?_
  rintro r u hu ⟨hs, -, htr, -, hresuming⟩
  cases r with
  | error e => exact keeps_throw hu _
  | ok next =>
    have hr := hresuming next rfl
    have hwait : u.state = .waitingTrigger := hs.trans hstate
    refine Keeps.bind (keeps_activateNext hu hr (by rw [hwait]; nofun)) ?_
    rintro _ u' hu' ⟨hr', hs', htr', hshows⟩
    have hwait' : u'.state = .waitingTrigger := hs'.trans hwait
    have hset := hr'.setActive hu' (.inr hwait') fun _ => hshows
    obtain ⟨z, hz, rfl, -, -, htop⟩ := hr'.top hu'
    have hactive := hset.setStateActive hz rfl hwait' htop hshows
    refine Keeps.next (keeps_set hu' hu') fun _ _ => ?_
    refine Keeps.next (keeps_set hu' hset) fun _ _ => ?_
    refine Keeps.next (keeps_set hset hactive) fun _ _ => ?_
    refine Keeps.done (keeps_emit (hactive.note rfl nofun (fun _ => nofun) fun _ => ⟨hstopping, fun hc => ?_⟩))
    refine ⟨htr'.trans (htr.trans (hreason hc)), nofun, fun a ha => ?_⟩
    obtain rfl := Option.some.inj ha
    exact hr'.gate_ne hu'

lemma keeps_handleTrigger {passes : Bool}
    (hgranted : passes = true → v.state = .waitingTrigger → Granted cfg (closedOf v.wisps).length v.history) :
    Keeps (Sound cfg care) (handleTrigger cfg passes) v := by
  refine reads (keeps_getMetadata h) fun root hroot => ?_
  split
  case isTrue => exact keeps_pure h trivial
  case isFalse hstate =>
    rw [hroot.state, not_not] at hstate
    split
    case isTrue => exact keeps_throw h _
    case isFalse =>
      refine reads (keeps_deriveIterationCount h) ?_
      rintro _ rfl
      split
      case isTrue => exact keeps_throw h _
      case isFalse hle =>
        split
        case isTrue => exact keeps_pure h trivial
        case isFalse hpasses =>
          refine keeps_advanceFromTrigger h hstopping hreason ?_ hstate root
          exact
            { granted := fun _ => ⟨hgranted (by simpa using hpasses) hstate, Nat.lt_of_succ_le (Nat.not_lt.mp hle)⟩
              reason := fun hc hr => absurd ((hreason hc).symm.trans hr) nofun
              idle := fun hs => absurd (hs.symm.trans hstate) nofun }

/-! ## Operators -/

lemma keeps_iterateHandler (username : String)
    (hshown : care.publishes → v.state = .waitingManual → (closedOf v.wisps).length < cfg.maxIterations → v.NextShown)
    (hgranted : v.state = .waitingManual → Granted cfg (closedOf v.wisps).length v.history) :
    Keeps (Sound cfg care) (iterateHandler cfg username) v := by
  refine reads (keeps_getMetadata h) fun root hroot => ?_
  split
  case isTrue => exact keeps_throw h _
  case isFalse hstate =>
    rw [hroot.state, not_not] at hstate
    refine reads (keeps_deriveIterationCount h) ?_
    rintro _ rfl
    split
    case isTrue => exact keeps_throw h _
    case isFalse hlt =>
      have hb : MayBegin cfg care _ :=
        { granted := fun _ => ⟨hgranted hstate, Nat.not_le.mp hlt⟩
          reason := fun hc hr => absurd ((hreason hc).symm.trans hr) nofun
          idle := fun hs => absurd (hs.symm.trans hstate) nofun }
      refine Keeps.bind (keeps_pourNext h hb) ?_
      rintro r u hu ⟨hs, ha, htr, hnext, hresuming⟩
      cases r with
      | error e => exact keeps_throw hu _
      | ok next =>
        have hr := hresuming next rfl
        have hidle : u.activeWisp = none := ha.trans (h.held hstate)
        have hactive := hu.setStateIdle hidle (s := .active) ⟨nofun, nofun, nofun⟩ nofun (fun hc _ => hr.granted hc)
          hr.reason
        have hr' : Resuming cfg care { u with state := .active } next := { hr with idle := fun _ => hidle }
        have hset := hr'.setActive hactive (.inl rfl) fun hc =>
          hr.shows hu (hnext (hshown hc hstate (Nat.not_le.mp hlt)))
        refine Keeps.next (keeps_clearVerdict hu _ _) fun _ _ => ?_
        refine Keeps.next (keeps_set hu hu) fun _ _ => ?_
        refine Keeps.next (keeps_set hu hactive) fun _ _ => ?_
        refine Keeps.next (keeps_set hactive hset) fun _ _ => ?_
        refine Keeps.done (keeps_emit (hset.note rfl nofun (fun _ => nofun) fun _ => ⟨hstopping, fun hc => ?_⟩))
        refine ⟨htr.trans (hreason hc), nofun, fun a ha => ?_⟩
        obtain rfl := Option.some.inj ha
        exact hr'.gate_ne hactive

end

lemma keeps_approveHandler (username : String) (hstopping : care.stopping)
    (happroved : approvedSincePour v.history = true) :
    Keeps (Sound cfg care) (approveHandler username) v := by
  refine reads (keeps_getMetadata h) fun root hroot => ?_
  split
  case isTrue => exact keeps_pure h trivial
  case isFalse =>
    split
    case isTrue => exact keeps_throw h _
    case isFalse hstate =>
      rw [hroot.state, not_not] at hstate
      refine reads (keeps_deriveIterationCount h) ?_
      rintro _ rfl
      have hquiet : care.resumes → resumed cfg v.history = false := fun _ => h.quiet hstopping
      have hreason := h.setReason (r := .approved) hquiet fun _ _ => .inl ⟨hstate, happroved⟩
      have hend := hreason.setTerminated hquiet fun _ _ => .inl happroved
      refine Keeps.done (keeps_commit h ⟨rfl, hreason, rfl, hreason, rfl, hreason, rfl, hend, trivial⟩ (Ended v) ?_ ?_)
      · refine keeps_tellEnd (v := v) hend ⟨rfl, rfl⟩ ?_
        exact ⟨nofun, nofun⟩
      · exact fun u hu he id hid => he.setProcessed hu (h.processed id (hroot.lastProcessedWisp.symm.trans hid))

lemma Sound.running_or_idle (hstate : v.state ≠ .terminated) : v.Running ∨ v.activeWisp = none := by
  cases hs : v.state with
  | missing => exact absurd hs h.made.1
  | creating => exact absurd hs h.made.2
  | active => exact .inl (.inl hs)
  | waitingManual => exact .inr (h.held hs)
  | waitingTrigger => exact .inl (.inr hs)
  | terminated => exact absurd hs hstate

lemma keeps_resolveActiveWisp (hstate : v.Running ∨ v.activeWisp = none) (hroot : root.activeWisp = v.activeWisp) :
    Keeps (Sound cfg care) (resolveActiveWisp context root) v fun r u => u = v ∧
      match r with
      | none => v.activeWisp = none
      | some (x, recovered) => recovered = false ∧ v.Running ∧ x ∈ v.wisps ∧ v.activeWisp = some x.id := by
  rw [resolveActiveWisp, hroot]
  cases ha : v.activeWisp with
  | none => exact keeps_pure h ⟨rfl, rfl⟩
  | some id =>
    have hrun : v.Running := hstate.resolve_right (by rw [ha]; nofun)
    refine reads (keeps_tryGetBead h) fun r ⟨hfound, hmissing⟩ => ?_
    match r, hfound, hmissing with
    | .ok x, hfound, _ =>
      obtain ⟨hx, hid⟩ := hfound x rfl
      exact keeps_pure h ⟨rfl, rfl, hrun, hx, congrArg some hid.symm⟩
    | .error .notFound, _, hmissing =>
      obtain ⟨x, hx, hid, -⟩ := h.ahead hrun id ha
      exact absurd hid (hmissing rfl x hx)
    | .error (.fault e), _, _ => exact keeps_throw h _

section
variable (hstopping : care.stopping)
include hstopping

lemma keeps_finishStop (root : Meta) (actor : String) (active : Option Wisp) (forced : Bool)
    (hmarker : ∀ id, (if forced then active.map Wisp.id else root.lastProcessedWisp) = some id →
      ∃ x ∈ v.wisps, x.id = id ∧ x.status = .closed) :
    Keeps (Sound cfg care) (finishStop root actor active forced) v := by
  have hquiet : care.resumes → resumed cfg v.history = false := fun _ => h.quiet hstopping
  have hreason := h.setReason (r := .stopped) hquiet fun _ => nofun
  have hend := hreason.setTerminated hquiet fun _ => nofun
  refine reads (keeps_deriveIterationCount h) ?_
  rintro _ rfl
  refine Keeps.next (keeps_set h h) fun _ _ => ?_
  refine Keeps.next (keeps_set h h) fun _ _ => ?_
  refine Keeps.done (keeps_commit h ⟨rfl, hreason, rfl, hreason, rfl, hreason, rfl, hend, trivial⟩ (Ended v) ?_ ?_)
  · cases active with
    | none =>
      refine keeps_tellEnd (v := v) hend ⟨rfl, rfl⟩ ?_
      exact ⟨nofun, nofun⟩
    | some x =>
      have hforced : Keeps (Sound cfg care)
          (Runs.Fallible.when forced (emit (.iteration (closedOf v.wisps).length x.id .stopped none none none)))
          { v with terminalReason := some .stopped, state := .terminated } fun _ u => Ended v u := by
        refine keeps_when hend (fun _ => ?_) fun _ => ⟨rfl, rfl⟩
        refine mono (keeps_emit (hend.emitted nofun)) ?_
        rintro _ _ rfl
        exact ⟨rfl, rfl⟩
      refine Keeps.bind hforced fun _ u hu he => keeps_tellEnd hu he ?_
      exact ⟨nofun, nofun⟩
  · exact fun u hu he id hid => he.setProcessed hu (hmarker id hid)

lemma keeps_forceClose (hstate : v.Running ∨ v.activeWisp = none) (hactive : root.activeWisp = v.activeWisp)
    (hlast : root.lastProcessedWisp = v.lastProcessedWisp) (actor : String) :
    Keeps (Sound cfg care) (forceClose root actor) v := by
  have hmarker : ∀ id, root.lastProcessedWisp = some id → ∃ x ∈ v.wisps, x.id = id ∧ x.status = .closed :=
    fun id hid => h.processed id (hlast.symm.trans hid)
  refine reads (keeps_resolveActiveWisp h hstate hactive) ?_
  rintro (_ | ⟨x, recovered⟩) hfound
  · exact keeps_finishStop h hstopping root actor none false hmarker
  · obtain ⟨-, hrun, hx, ha⟩ := hfound
    show Keeps _ (if _ then _ else _) _ _
    split
    case isTrue => exact keeps_finishStop h hstopping root actor (some x) false hmarker
    case isFalse hopen =>
      refine Keeps.bind (keeps_close h fun y hy hid hopen => h.close hy hopen (.inr ⟨hrun, hid.symm ▸ ha⟩)) ?_
      rintro _ u hu hclosed
      refine keeps_finishStop hu hstopping root actor (some x) true ?_
      rintro _ ⟨⟩
      exact hclosed

lemma keeps_stopHandler (username : String) (gate : GateResult)
    (hdrain : care.resumes → v.state = .waitingTrigger → v.activeWisp = none) :
    Keeps (Sound cfg care) (stopHandler cfg username gate) v := by
  refine reads (keeps_getMetadata h) fun root hroot => ?_
  split
  case isTrue => exact keeps_pure h trivial
  case isFalse =>
    split
    case isTrue => exact keeps_throw h _
    case isFalse hstate =>
      have hstate : v.Running ∨ v.activeWisp = none := by
        refine h.running_or_idle fun hs => hstate ?_
        rw [hroot.state, hs]
        exact ⟨nofun, nofun, nofun⟩
      refine reads (keeps_resolveActiveWisp h hstate hroot.activeWisp) ?_
      rintro (_ | ⟨x, recovered⟩) hfound
      · refine keeps_forceClose h hstopping hstate ?_ ?_ _
        · exact hfound.symm
        · exact hroot.lastProcessedWisp
      · obtain ⟨-, hrun, hx, ha⟩ := hfound
        show Keeps _ (if _ then _ else _) _ _
        split
        case isFalse =>
          refine keeps_forceClose h hstopping hstate ?_ ?_ _
          · exact ha.symm
          · exact hroot.lastProcessedWisp
        case isTrue hclosed =>
          have hhandling : Handling care v x :=
            { running := hrun
              mem := hx
              closed := hclosed
              active := ha
              resuming := fun hc => hrun.resolve_right fun hs => absurd (ha.symm.trans (hdrain hc hs)) nofun }
          refine Keeps.bind (keeps_mapError (keeps_handleWispClosed h hhandling gate)) ?_
          rintro _ u hu -
          refine reads (keeps_getMetadata hu) fun root' hroot' => ?_
          split
          case isTrue => exact keeps_pure hu trivial
          case isFalse hnot =>
            refine keeps_forceClose hu hstopping (hu.running_or_idle ?_) hroot'.activeWisp hroot'.lastProcessedWisp _
            rw [← hroot'.state]
            exact hnot

end

/-! ## Recovery -/

lemma Sound.closed_of_highest {children : List Wisp} {x : Wisp} (hchildren : children = v.wisps ∨ children = [])
    (hx : (childStats children).highestClosed = some x) :
    ∃ y ∈ v.wisps, y.id = x.id ∧ y.status = .closed := by
  rcases hchildren with rfl | rfl
  · rw [h.chain.highestClosed] at hx
    exact ⟨x, (lastClosed_mem hx).1, rfl, (lastClosed_mem hx).2⟩
  · cases hx

variable {reason : TerminalReason}

lemma Sound.complete (hstate : v.state ≠ .terminated) (hreason : v.terminalReason = some reason) :
    Sound cfg care { v with state := .terminated } := by
  refine h.setTerminated (fun hc => ?_) fun hc hr => ?_
  · by_contra hresumed
    exact absurd (hreason.symm.trans (h.resumes hc (by simpa using hresumed)).1) nofun
  · rcases h.approved hc hr with ⟨-, ha⟩ | ⟨hs, hpass, a, ha, hg⟩ | ⟨hs, -⟩
    · exact .inl ha
    · obtain ⟨x, hx, rfl, hclosed⟩ := h.gated a hg
      have hhandling : Handling care v x :=
        { running := .inl hs, mem := hx, closed := hclosed, active := ha, resuming := fun _ => hs }
      exact .inr (hhandling.passedLast h hs hg hpass)
    · exact absurd hs hstate

lemma keeps_completeTerminalTransition (hstate : v.state ≠ .terminated) (hroot : Reads root v)
    (hreason : v.terminalReason = some reason) :
    Keeps (Sound cfg care) (completeTerminalTransition root reason) v := by
  refine Keeps.next (keeps_backfillTerminalActor h root) fun _ _ => ?_
  refine reads (keeps_childrenOrNone h) fun children hchildren => ?_
  have hemit := h.emitted (e := .terminated reason (childStats children).closedCount
    (if root.terminalActor = "" then "recovery" else root.terminalActor)) nofun
  have hend := hemit.complete hstate hreason
  refine Keeps.next (keeps_emit hemit) fun _ _ => ?_
  refine Keeps.bind (keeps_when hemit (fun _ => keeps_set hemit hend) fun hs => ?_) ?_
  · rw [hroot.state] at hs
    exact absurd (of_decide_eq_false hs) (not_not.mpr hstate)
  · rintro _ _ - rfl
    refine Keeps.next (keeps_closeRoot hend) fun _ _ => ?_
    split
    case h_2 => exact keeps_pure hend trivial
    case h_1 x hx =>
      have hlast := hend.setProcessedIdle (fun hrun => hrun.ne_terminated rfl) (h.closed_of_highest hchildren hx)
      exact Keeps.done (keeps_trySet hend hlast)

lemma keeps_reconcileTerminatedNotClosed (root : Meta) :
    Keeps (Sound cfg care) (reconcileTerminatedNotClosed root) v := by
  refine Keeps.next (keeps_getRoot h) fun closed _ => ?_
  split
  case isTrue => exact keeps_pure h trivial
  case isFalse =>
    refine Keeps.next (keeps_backfillTerminalActor h root) fun _ _ => ?_
    refine reads (keeps_childrenOrNone h) fun children _ => ?_
    refine Keeps.next (keeps_emit (h.emitted nofun)) fun _ hu => ?_
    exact Keeps.done (keeps_closeRoot hu)

lemma keeps_reconcileWaitingManual (hstate : v.state = .waitingManual) (hroot : Reads root v) :
    Keeps (Sound cfg care) (reconcileWaitingManual root) v := by
  have hidle : ¬v.Running := fun hrun => hrun.ne_waitingManual hstate
  rw [reconcileWaitingManual]
  split
  case h_1 reason _ hreason =>
    exact keeps_completeTerminalTransition h (by rw [hstate]; nofun) hroot (hroot.terminalReason.symm.trans hreason)
  case h_2 waiting _ _ =>
    have hemit := h.emitted (e := .waitingManual root.iteration root.lastProcessedWisp waiting) nofun
    refine reads (keeps_tryChildren h) fun r hchildren => ?_
    cases r with
    | error e =>
      refine Keeps.next (keeps_emit hemit) fun _ hu => ?_
      exact keeps_throw hu _
    | ok children =>
      refine Keeps.next (keeps_emit hemit) fun _ hu => ?_
      split
      case h_2 => exact keeps_pure hu trivial
      case h_1 x hx =>
        split
        case isTrue => exact keeps_pure hu trivial
        case isFalse =>
          have hlast := hu.setProcessedIdle hidle (h.closed_of_highest (.inl (hchildren children rfl)) hx)
          exact Keeps.done (keeps_set hu hlast)
  case h_3 =>
    refine reads (keeps_children h) fun children _ => ?_
    split
    case isFalse => exact keeps_pure h trivial
    case isTrue =>
      exact Keeps.done (keeps_set h h)

lemma keeps_reconcileWaitingTrigger (hstate : v.state = .waitingTrigger) (hroot : Reads root v) :
    Keeps (Sound cfg care) (reconcileWaitingTrigger root) v := by
  rw [reconcileWaitingTrigger]
  split
  case h_1 reason hreason =>
    exact keeps_completeTerminalTransition h (by rw [hstate]; nofun) hroot (hroot.terminalReason.symm.trans hreason)
  case h_2 => exact keeps_pure h trivial

lemma keeps_wispToResume (hb : MayBegin cfg care v) (hstate : v.state = .active) (pending : Option WispID) :
    Keeps (Sound cfg care) (wispToResume ((closedOf v.wisps).length + 1) pending) v fun r u =>
      u.state = .active ∧ Resuming cfg care u r.1 := by
  refine reads (keeps_validPendingNextWisp h _ _) ?_
  rintro (_ | id) hpending
  · refine Keeps.bind (keeps_find h) ?_
    rintro (_ | id) v - ⟨rfl, hfound⟩
    · refine Keeps.bind (keeps_pour h (hb.pour h)) ?_
      rintro id u hu ⟨hpours, hfound⟩
      refine keeps_pure hu ⟨?_, hb.poured hpours hfound⟩
      rcases hpours with rfl | ⟨-, rfl⟩
      · exact hstate
      · exact hstate
    · exact keeps_pure h ⟨hstate, { hb with found := hfound }⟩
  · obtain ⟨y, hy, hid, hiteration, -⟩ := hpending id rfl
    exact keeps_pure h ⟨hstate, { hb with found := ⟨y, hy, hid, hiteration⟩ }⟩

lemma keeps_resumeChain (hb : MayBegin cfg care v) (hstate : v.state = .active) (root : Meta) :
    Keeps (Sound cfg care) (resumeChain root) v := by
  refine reads (keeps_children h) ?_
  rintro _ rfl
  rw [childStats_closedCount]
  refine Keeps.bind (keeps_wispToResume h hb hstate _) ?_
  rintro ⟨next, action⟩ u hu ⟨hs, hr⟩
  refine Keeps.bind (keeps_activateNext hu hr (by rw [hs]; nofun)) ?_
  rintro _ u' hu' ⟨hr', hs', -, hshows⟩
  refine Keeps.next (keeps_set hu' (hr'.setActive hu' (.inl (hs'.trans hs)) fun _ => hshows)) fun _ hu => ?_
  exact Keeps.done (keeps_tryPending hu)

/-- The state in which recovery goes on although nobody has let it: the loop was leaving its active wisp, and has not
marked the last wisp that closed as processed. -/
def View.Leaving (v : View) : Prop :=
  v.state = .active ∧ v.terminalReason = none ∧ v.activeWisp = none ∧
    v.lastProcessedWisp ≠ (lastClosed v.wisps).map Wisp.id

lemma keeps_reconcileActive (hstate : v.state = .active)
    (hleaving : care.recovers → ¬v.Leaving) (hroot : Reads root v) (gate : GateResult) :
    Keeps (Sound cfg care) (reconcileActive cfg root gate) v := by
  rw [reconcileActive]
  split
  case h_1 reason hreason =>
    exact keeps_completeTerminalTransition h (by rw [hstate]; nofun) hroot (hroot.terminalReason.symm.trans hreason)
  case h_2 hreason =>
    have hreason := hroot.terminalReason.symm.trans hreason
    refine reads (keeps_resolveActiveWisp h (.inl (.inl hstate)) hroot.activeWisp) ?_
    rintro (_ | ⟨x, recovered⟩) hfound
    · refine keeps_resumeChain h ?_ hstate root
      exact
        { granted := fun hc => (h.granted hc hstate hfound).resolve_left
            fun hne => hleaving hc ⟨hstate, hreason, hfound, hne⟩
          reason := fun _ hr => absurd (hreason.symm.trans hr) nofun
          idle := fun _ => hfound }
    · obtain ⟨rfl, hrun, hx, ha⟩ := hfound
      refine Keeps.next (keeps_skip h) fun _ _ => ?_
      split
      case h_1 => exact keeps_pure h trivial
      case h_2 => exact keeps_pure h trivial
      case h_4 => exact keeps_throw h _
      case h_3 hclosed =>
        split
        case isTrue => exact keeps_pure h trivial
        case isFalse =>
          have hhandling : Handling care v x :=
            { running := hrun, mem := hx, closed := hclosed, active := ha, resuming := fun _ => hstate }
          exact Keeps.done (keeps_mapError (keeps_handleWispClosed h hhandling gate))

lemma keeps_reconcileBead (hleaving : care.recovers → ¬v.Leaving) (gate : GateResult) :
    Keeps (Sound cfg care) (reconcileBead cfg gate) v := by
  refine reads (keeps_getMetadata h) fun root hroot => ?_
  have hs := hroot.state
  split
  case h_1 hstate => exact absurd (hs.symm.trans hstate) h.made.1
  case h_2 hstate => exact absurd (hs.symm.trans hstate) h.made.2
  case h_3 => exact keeps_reconcileTerminatedNotClosed h root
  case h_4 hstate => exact keeps_reconcileWaitingManual h (hs.symm.trans hstate) hroot
  case h_5 hstate => exact keeps_reconcileWaitingTrigger h (hs.symm.trans hstate) hroot
  case h_6 hstate => exact keeps_reconcileActive h (hs.symm.trans hstate) hleaving hroot gate

end

end DeliveryEngine.Convergence
