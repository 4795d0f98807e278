import DeliveryEngine.Convergence.History

/-!
# The invariant of a convergence loop

`Sound` is what holds of a loop between any two operations of its handlers, whatever has failed before.  Most of it is
about the wisp that the loop is at.  `Care` says which of the three claims about a loop are asked for, and whether a
handler works that ends it.  Every change that a handler makes is a note, a write, or a change of one wisp, and there
is one lemma for each kind.
-/

namespace DeliveryEngine.Convergence

open List Option
open MemStore (Status)

/-- What the invariant looks at. -/
structure View where
  state : LoopState
  activeWisp : Option WispID
  lastProcessedWisp : Option WispID
  gateOutcomeWisp : Option WispID
  outcome : Option GateOutcome
  terminalReason : Option TerminalReason
  wisps : List Wisp
  minted : ℕ
  history : List Note

def World.view (w : World) : View where
  state := w.root.state
  activeWisp := w.root.activeWisp
  lastProcessedWisp := w.root.lastProcessedWisp
  gateOutcomeWisp := w.root.gateOutcomeWisp
  outcome := w.root.gate.outcome
  terminalReason := w.root.terminalReason
  wisps := w.wisps
  minted := w.minted
  history := w.history

structure Care where
  recovers : Prop
  resumes : Prop
  publishes : Prop
  stopping : Prop

/-- The gate has passed the last wisp that ended, and no other can end. -/
structure PassedLast (wisps : List Wisp) (gateOutcomeWisp : Option WispID) (outcome : Option GateOutcome) : Prop where
  gate : ∃ x, lastClosed wisps = some x ∧ gateOutcomeWisp = some x.id
  pass : outcome = some .pass
  unseen : ∀ x ∈ wisps, x.status ≠ .closed → x.hidden = true

namespace View

variable (v : View)

/-- The loop has not ended, and no operator is waited for. -/
def Running : Prop := v.state = .active ∨ v.state = .waitingTrigger

variable {v} in
lemma Running.ne_terminated (h : v.Running) : v.state ≠ .terminated := by rcases h with h | h <;> rw [h] <;> decide

variable {v} in
lemma Running.ne_waitingManual (h : v.Running) : v.state ≠ .waitingManual := by
  rcases h with h | h <;> rw [h] <;> decide

/-- The agents see the wisp. -/
def Shows (id : WispID) : Prop := ∀ x ∈ v.wisps, x.id = id → x.hidden = false

/-- An active loop is at a wisp that the agents see. -/
def Published : Prop := v.state = .active → ∀ x ∈ v.wisps, v.activeWisp = some x.id → x.hidden = false

/-- Where a loop can stand that has been approved. -/
def Approved : Prop :=
  v.state = .waitingManual ∧ approvedSincePour v.history ∨
    v.state = .active ∧ v.outcome = some .pass ∧ (∃ a, v.activeWisp = some a ∧ v.gateOutcomeWisp = some a) ∨
    v.state = .terminated ∧ (approvedSincePour v.history ∨ PassedLast v.wisps v.gateOutcomeWisp v.outcome)

end View

structure Sound (cfg : Config) (care : Care) (v : View) : Prop where
  chain : Chain v.wisps v.minted
  made : v.state ≠ .missing ∧ v.state ≠ .creating
  noted : ∀ x ∈ v.wisps, x.status = .closed → .closed x.iteration ∈ v.history
  processed : ∀ id, v.lastProcessedWisp = some id → ∃ x ∈ v.wisps, x.id = id ∧ x.status = .closed
  gated : ∀ id, v.gateOutcomeWisp = some id → ∃ x ∈ v.wisps, x.id = id ∧ x.status = .closed
  held : v.state = .waitingManual → v.activeWisp = none
  triggered : v.state = .waitingTrigger → cfg.trigger = true
  /-- The active wisp is there, and the last processed one came before it. -/
  ahead : v.Running → ∀ a, v.activeWisp = some a → ∃ x ∈ v.wisps, x.id = a ∧
    ∀ y ∈ v.wisps, v.lastProcessedWisp = some y.id → y.iteration < x.iteration
  onRecord : v.Running → ∀ x ∈ v.wisps, v.activeWisp = some x.id → v.gateOutcomeWisp = some x.id →
    cfg.gate.needsManualWithoutGate = false ∧ .persisted x.iteration v.outcome ∈ since x.iteration v.history
  near : v.state = .active → ∀ x ∈ v.wisps, v.activeWisp = some x.id → ∀ y ∈ v.wisps, y.iteration ≤ x.iteration + 1
  shown : v.state = .active → ∀ x ∈ v.wisps, v.activeWisp = some x.id → ∀ y ∈ v.wisps, x.iteration < y.iteration →
    y.status = .closed ∨ y.hidden = false →
    v.gateOutcomeWisp = some x.id ∧ cfg.decision x.iteration v.outcome = .iterate
  lawful : care.recovers → Lawful cfg v.history
  /-- A loop that has no active wisp has not processed the last one, or may go on. -/
  granted : care.recovers → v.state = .active → v.activeWisp = none →
    v.lastProcessedWisp ≠ (lastClosed v.wisps).map Wisp.id ∨
      Granted cfg (closedOf v.wisps).length v.history ∧ (closedOf v.wisps).length < cfg.maxIterations
  quiet : care.stopping → resumed cfg v.history = false
  resumes : care.resumes → resumed cfg v.history = true → v.terminalReason = none ∧ v.state ≠ .terminated
  ended : care.resumes → v.Running → ∀ x ∈ v.wisps, v.activeWisp = some x.id → v.gateOutcomeWisp = some x.id →
    ∀ r, cfg.decision x.iteration v.outcome = .terminal r → resumed cfg v.history = false
  approved : care.resumes → v.terminalReason = some .approved → v.Approved
  published : care.publishes → v.Published

namespace Sound

variable {cfg : Config} {care : Care} {v : View}

/-! ## Notes -/

variable {x : Wisp}

section
variable (h : Sound cfg care v)
include h

lemma closed_of_gate (hx : x ∈ v.wisps) (hg : v.gateOutcomeWisp = some x.id) : x.status = .closed := by
  obtain ⟨y, hy, hid, hclosed⟩ := h.gated x.id hg
  exact h.chain.eq_of_id hy hx hid ▸ hclosed

lemma note {n : Note} (hpour : n.isPour = false) (hclosed : ∀ k, n = .closed k → (closedOf v.wisps).length < k)
    (hactivated : care.recovers → ∀ i, n = .activated i → Permits cfg i v.history)
    (hresumes : n.resumes cfg = some true → ¬care.stopping ∧ (care.resumes → v.terminalReason = none ∧
      v.state ≠ .terminated ∧ ∀ a, v.activeWisp = some a → v.gateOutcomeWisp ≠ some a)) :
    Sound cfg care { v with history := n :: v.history } :=
  { h with
    noted := fun x hx hxc => mem_cons_of_mem _ (h.noted x hx hxc)
    onRecord := fun hrun x hx ha hg => by
      obtain ⟨hneeds, hpersisted⟩ := h.onRecord hrun x hx ha hg
      refine ⟨hneeds, mem_since_cons (fun hn => ?_) hpersisted⟩
      have := hclosed _ hn
      have := (h.chain.iteration_le hx (h.closed_of_gate hx hg)).2
      omega
    lawful := fun hc => lawful_cons (hactivated hc) (h.lawful hc)
    granted := fun hc hs ha => (h.granted hc hs ha).imp_right fun hg => ⟨hg.1.cons fun hn => Nat.lt_irrefl _ (hclosed _ hn), hg.2⟩
    quiet := fun hc => resumed_cons_false (fun hr => (hresumes hr).1 hc) (h.quiet hc)
    resumes := fun hc hr => by
      cases hn : n.resumes cfg with
      | none => exact h.resumes hc (by rwa [resumed_cons_none hn] at hr)
      | some b =>
        rw [resumed_cons_some hn] at hr
        obtain ⟨-, hgoes⟩ := hresumes (hr ▸ hn)
        exact ⟨(hgoes hc).1, (hgoes hc).2.1⟩
    ended := fun hc hrun x hx ha hg r hr =>
      resumed_cons_false (fun hn => ((hresumes hn).2 hc).2.2 _ ha hg) (h.ended hc hrun x hx ha hg r hr)
    approved := fun hc hr => by
      rcases h.approved hc hr with ⟨hs, ha⟩ | ⟨hs, hrest⟩ | ⟨hs, ha⟩
      · exact .inl ⟨hs, approvedSincePour_cons hpour ha⟩
      · exact .inr (.inl ⟨hs, hrest⟩)
      · exact .inr (.inr ⟨hs, ha.imp_left (approvedSincePour_cons hpour)⟩) }

lemma emitted {e : Event} (he : Note.resumes cfg (.emitted e) ≠ some true) :
    Sound cfg care { v with history := .emitted e :: v.history } :=
  h.note rfl nofun (fun _ => nofun) fun hr => absurd hr he

lemma called (r : Request) (s : LoopState) : Sound cfg care { v with history := .called r s :: v.history } :=
  h.note rfl nofun (fun _ => nofun) fun hr => by cases r <;> cases hr

lemma stopping (hquiet : resumed cfg v.history = false) : Sound cfg { care with stopping := True } v :=
  { h with quiet := fun _ => hquiet }

end

lemma forget (h : Sound cfg { care with stopping := True } v) (hcare : ¬care.stopping) : Sound cfg care v :=
  { h with quiet := fun hc => absurd hc hcare }

/-! ## Writes -/

lemma clearActive (h : Sound cfg care v)
    (hgranted : care.recovers → v.state = .active → v.lastProcessedWisp ≠ (lastClosed v.wisps).map Wisp.id)
    (hreason : care.resumes → v.state = .active → v.terminalReason ≠ some .approved) :
    Sound cfg care { v with activeWisp := none } :=
  { h with
    held := fun _ => rfl
    ahead := nofun
    onRecord := nofun
    near := nofun
    shown := nofun
    granted := fun hc hs _ => .inl (hgranted hc hs)
    ended := nofun
    approved := fun hc hr => by
      rcases h.approved hc hr with ha | ⟨hs, -⟩ | ⟨hs, ha⟩
      · exact .inl ha
      · exact absurd hr (hreason hc hs)
      · exact .inr (.inr ⟨hs, ha⟩)
    published := fun _ _ _ _ => nofun }

variable {y : Wisp} {a : WispID}

section
variable (h : Sound cfg care v)
include h

lemma setActive (hy : y ∈ v.wisps) (hrun : v.Running)
    (hlast : ∀ z ∈ v.wisps, v.lastProcessedWisp = some z.id → z.iteration < y.iteration)
    (hgate : v.gateOutcomeWisp ≠ some y.id) (htop : ∀ z ∈ v.wisps, z.iteration ≤ y.iteration)
    (hreason : care.resumes → v.state = .active → v.terminalReason ≠ some .approved)
    (hshows : care.publishes → v.Shows y.id) : Sound cfg care { v with activeWisp := some y.id } :=
  { h with
    held := fun hs => absurd hs hrun.ne_waitingManual
    ahead := fun _ a ha => ⟨y, hy, some.inj ha, hlast⟩
    onRecord := fun _ x hx ha hg => absurd (hg.trans ha.symm) hgate
    near := fun _ x hx ha z hz => by
      obtain rfl := h.chain.eq_of_id hy hx (some.inj ha)
      exact (htop z hz).trans (Nat.le_succ _)
    shown := fun _ x hx ha z hz hlt => by
      obtain rfl := h.chain.eq_of_id hy hx (some.inj ha)
      exact absurd (htop z hz) (Nat.not_le.mpr hlt)
    granted := nofun
    ended := fun _ _ x hx ha hg => absurd (hg.trans ha.symm) hgate
    approved := fun hc hr => by
      rcases h.approved hc hr with ha | ⟨hs, -⟩ | ⟨hs, ha⟩
      · exact .inl ha
      · exact absurd hr (hreason hc hs)
      · exact .inr (.inr ⟨hs, ha⟩)
    published := fun hc _ x hx ha => hshows hc x hx (some.inj ha).symm }

lemma setStateIdle (hidle : v.activeWisp = none) {s : LoopState}
    (hmade : s ≠ .missing ∧ s ≠ .creating ∧ s ≠ .terminated)
    (htrigger : s = .waitingTrigger → cfg.trigger = true)
    (hgranted : care.recovers → s = .active →
      Granted cfg (closedOf v.wisps).length v.history ∧ (closedOf v.wisps).length < cfg.maxIterations)
    (hreason : care.resumes → v.terminalReason ≠ some .approved) :
    Sound cfg care { v with state := s } :=
  have hnone : ∀ {a}, v.activeWisp ≠ some a := by simp [hidle]
  { h with
    made := ⟨hmade.1, hmade.2.1⟩
    held := fun _ => hidle
    triggered := htrigger
    ahead := fun _ _ ha => absurd ha hnone
    onRecord := fun _ _ _ ha => absurd ha hnone
    near := fun _ _ _ ha => absurd ha hnone
    shown := fun _ _ _ ha => absurd ha hnone
    granted := fun hc hs _ => .inr (hgranted hc hs)
    resumes := fun hc hr => ⟨(h.resumes hc hr).1, hmade.2.2⟩
    ended := fun _ _ _ _ ha => absurd ha hnone
    approved := fun hc hr => absurd hr (hreason hc)
    published := fun _ _ _ _ ha => absurd ha hnone }

lemma setStateActive (hy : y ∈ v.wisps) (hactive : v.activeWisp = some y.id)
    (hstate : v.state = .waitingTrigger) (htop : ∀ z ∈ v.wisps, z.iteration ≤ y.iteration)
    (hshows : v.Shows y.id) : Sound cfg care { v with state := .active } :=
  { h with
    made := ⟨nofun, nofun⟩
    held := nofun
    triggered := nofun
    ahead := fun _ => h.ahead (.inr hstate)
    onRecord := fun _ => h.onRecord (.inr hstate)
    near := fun _ x hx ha z hz => by
      obtain rfl := h.chain.eq_of_id hy hx (some.inj (hactive.symm.trans ha))
      exact (htop z hz).trans (Nat.le_succ _)
    shown := fun _ x hx ha z hz hlt => by
      obtain rfl := h.chain.eq_of_id hy hx (some.inj (hactive.symm.trans ha))
      exact absurd (htop z hz) (Nat.not_le.mpr hlt)
    granted := fun _ _ ha => absurd (hactive.symm.trans ha) nofun
    resumes := fun hc hr => ⟨(h.resumes hc hr).1, nofun⟩
    ended := fun hc _ => h.ended hc (.inr hstate)
    approved := fun hc hr => by
      rcases h.approved hc hr with ⟨hs, -⟩ | ⟨hs, -⟩ | ⟨hs, -⟩ <;> exact absurd (hs.symm.trans hstate) (by decide)
    published := fun _ _ x hx ha => hshows x hx (some.inj (ha.symm.trans hactive)) }

lemma setTerminated (hquiet : care.resumes → resumed cfg v.history = false)
    (happroved : care.resumes → v.terminalReason = some .approved →
      approvedSincePour v.history ∨ PassedLast v.wisps v.gateOutcomeWisp v.outcome) :
    Sound cfg care { v with state := .terminated } :=
  { h with
    made := ⟨nofun, nofun⟩
    held := nofun
    triggered := nofun
    ahead := fun hrun => absurd rfl hrun.ne_terminated
    onRecord := fun hrun => absurd rfl hrun.ne_terminated
    near := nofun
    shown := nofun
    granted := nofun
    resumes := fun hc hr => absurd (hr.symm.trans (hquiet hc)) nofun
    ended := fun _ hrun => absurd rfl hrun.ne_terminated
    approved := fun hc hr => .inr (.inr ⟨rfl, happroved hc hr⟩)
    published := fun _ => nofun }

lemma setProcessed (hx : x ∈ v.wisps) (hclosed : x.status = .closed) {id : WispID} (hid : x.id = id)
    (hahead : v.Running → ∀ y ∈ v.wisps, v.activeWisp = some y.id → x.iteration < y.iteration)
    (hactive : v.state = .active → v.activeWisp ≠ none) :
    Sound cfg care { v with lastProcessedWisp := some id } :=
  { h with
    processed := fun _ hlast => ⟨x, hx, hid.trans (some.inj hlast), hclosed⟩
    ahead := fun hrun a ha => by
      obtain ⟨y, hy, rfl, -⟩ := h.ahead hrun a ha
      refine ⟨y, hy, rfl, fun z hz hlast => ?_⟩
      obtain rfl := h.chain.eq_of_id hx hz (hid.trans (some.inj hlast))
      exact hahead hrun y hy ha
    granted := fun _ hs ha => absurd ha (hactive hs) }

lemma setProcessedIdle (hidle : ¬v.Running) {id : WispID} (hid : ∃ x ∈ v.wisps, x.id = id ∧ x.status = .closed) :
    Sound cfg care { v with lastProcessedWisp := some id } := by
  obtain ⟨x, hx, hid, hclosed⟩ := hid
  exact h.setProcessed hx hclosed hid (fun hrun => absurd hrun hidle) fun hs => absurd (.inl hs) hidle

lemma setReason {r : TerminalReason} (hquiet : care.resumes → resumed cfg v.history = false)
    (happroved : care.resumes → r = .approved → v.Approved) :
    Sound cfg care { v with terminalReason := some r } :=
  { h with
    resumes := fun hc hr => absurd (hr.symm.trans (hquiet hc)) nofun
    approved := fun hc hr => happroved hc (some.inj hr) }

lemma setOutcome (hrun : v.Running) (ha : v.activeWisp = some a)
    (hgate : v.gateOutcomeWisp ≠ some a) (o : Option GateOutcome) :
    Sound cfg care { v with outcome := o } :=
  have hne : ∀ {x : Wisp}, v.activeWisp = some x.id → v.gateOutcomeWisp = some x.id → False :=
    fun hx hg => hgate (hg.trans (hx.symm.trans ha))
  { h with
    onRecord := fun _ x _ hx hg => (hne hx hg).elim
    shown := fun hs x hx hxa y hy hlt hseen => (hne hxa (h.shown hs x hx hxa y hy hlt hseen).1).elim
    ended := fun _ _ x _ hx hg => (hne hx hg).elim
    approved := fun hc hr => by
      rcases h.approved hc hr with ha' | ⟨-, -, b, hb, hg⟩ | ⟨hs, -⟩
      · exact .inl ha'
      · exact absurd (hg.trans (hb.symm.trans ha)) hgate
      · exact absurd hs hrun.ne_terminated }

lemma setGate (hrun : v.Running) (hx : x ∈ v.wisps) (hclosed : x.status = .closed)
    (hactive : v.activeWisp = some x.id) (hgate : v.gateOutcomeWisp ≠ some x.id)
    (hneeds : cfg.gate.needsManualWithoutGate = false) :
    Sound cfg care { v with gateOutcomeWisp := some x.id, history := .persisted x.iteration v.outcome :: v.history } :=
  have hnote := h.note (n := .persisted x.iteration v.outcome) rfl nofun (fun _ => nofun) fun hr => by
    rw [Note.resumes] at hr
    split at hr <;> cases hr
  { hnote with
    gated := fun id hid => ⟨x, hx, some.inj hid, hclosed⟩
    onRecord := fun _ y hy ha _ => by
      obtain rfl := h.chain.eq_of_id hx hy (some.inj (hactive.symm.trans ha))
      exact ⟨hneeds, mem_since_self nofun⟩
    shown := fun hs y hy ha z hz hlt hseen => by
      obtain rfl := h.chain.eq_of_id hx hy (some.inj (hactive.symm.trans ha))
      exact absurd (h.shown hs x hx ha z hz hlt hseen).1 hgate
    ended := fun _ _ y hy ha _ r hr => by
      obtain rfl := h.chain.eq_of_id hx hy (some.inj (hactive.symm.trans ha))
      refine resumed_cons_some ?_
      rw [Note.resumes, hr]
    approved := fun hc hr => by
      rcases h.approved hc hr with ⟨hs, -⟩ | ⟨-, -, b, hb, hg⟩ | ⟨hs, -⟩
      · exact absurd hs hrun.ne_waitingManual
      · exact absurd (hg.trans (hb.symm.trans hactive)) hgate
      · exact absurd hs hrun.ne_terminated }

end

/-! ## Wisps -/

section
variable (h : Sound cfg care v)
include h

lemma activeWisp_lt (hrun : v.Running) (ha : v.activeWisp = some a) : a < v.minted := by
  obtain ⟨x, hx, rfl, -⟩ := h.ahead hrun a ha
  exact h.chain.fresh x hx

lemma gateOutcomeWisp_lt (ha : v.gateOutcomeWisp = some a) : a < v.minted := by
  obtain ⟨x, hx, rfl, -⟩ := h.gated a ha
  exact h.chain.fresh x hx

lemma lastProcessedWisp_lt (ha : v.lastProcessedWisp = some a) : a < v.minted := by
  obtain ⟨x, hx, rfl, -⟩ := h.processed a ha
  exact h.chain.fresh x hx

lemma pour {n : ℕ} (hnone : ∀ x ∈ v.wisps, x.iteration ≠ n) (hpos : 1 ≤ n)
    (hle : n ≤ (closedOf v.wisps).length + 1) (hidden : Bool)
    (hactive : v.state = .active → ∀ x ∈ v.wisps, v.activeWisp = some x.id → n = x.iteration + 1 ∧
      (hidden = false → v.gateOutcomeWisp = some x.id ∧ cfg.decision x.iteration v.outcome = .iterate))
    (hreason : care.resumes → v.terminalReason = some .approved → v.state = .active) :
    Sound cfg care { v with
      wisps := v.wisps ++ [{ id := v.minted, iteration := n, hidden }]
      minted := v.minted + 1
      history := .poured n :: v.history } :=
  have hold : ∀ {x : Wisp}, x ∈ v.wisps ++ [{ id := v.minted, iteration := n, hidden }] → x.id < v.minted →
      x ∈ v.wisps := fun hx hlt => (mem_append.mp hx).resolve_right fun hx => by
    rw [mem_singleton.mp hx] at hlt
    exact Nat.lt_irrefl _ hlt
  have hclosed : closedOf (v.wisps ++ [{ id := v.minted, iteration := n, hidden }]) = closedOf v.wisps :=
    closedOf_concat_open nofun
  have hnew : ∀ k, Note.poured n ≠ .closed k := nofun
  { h with
    chain := h.chain.pour hnone hpos hle hidden
    noted := fun x hx hxc => by
      refine mem_cons_of_mem _ (h.noted x ((mem_append.mp hx).resolve_right fun hx => ?_) hxc)
      rw [mem_singleton.mp hx] at hxc
      cases hxc
    processed := fun id hid => (h.processed id hid).imp fun x hx => ⟨mem_append_left _ hx.1, hx.2⟩
    gated := fun id hid => (h.gated id hid).imp fun x hx => ⟨mem_append_left _ hx.1, hx.2⟩
    ahead := fun hrun a ha => by
      obtain ⟨x, hx, hid, hlast⟩ := h.ahead hrun a ha
      exact ⟨x, mem_append_left _ hx, hid, fun y hy hly => hlast y (hold hy (h.lastProcessedWisp_lt hly)) hly⟩
    onRecord := fun hrun x hx ha hg => by
      obtain ⟨hneeds, hpersisted⟩ := h.onRecord hrun x (hold hx (h.gateOutcomeWisp_lt hg)) ha hg
      exact ⟨hneeds, mem_since_cons (hnew _) hpersisted⟩
    near := fun hs x hx ha y hy => by
      have hx := hold hx (h.activeWisp_lt (.inl hs) ha)
      rcases mem_append.mp hy with hy | hy
      · exact h.near hs x hx ha y hy
      · rw [mem_singleton.mp hy]
        exact (hactive hs x hx ha).1.le
    shown := fun hs x hx ha y hy hlt hseen => by
      have hx := hold hx (h.activeWisp_lt (.inl hs) ha)
      rcases mem_append.mp hy with hy | hy
      · exact h.shown hs x hx ha y hy hlt hseen
      · rw [mem_singleton.mp hy] at hseen
        exact (hactive hs x hx ha).2 (hseen.resolve_left (by simp))
    lawful := fun hc => lawful_cons nofun (h.lawful hc)
    granted := fun hc hs ha => by
      have hgranted := h.granted hc hs ha
      rw [lastClosed, hclosed]
      exact hgranted.imp_right fun hg => ⟨hg.1.cons (hnew _), hg.2⟩
    quiet := fun hc => (resumed_cons_none rfl).trans (h.quiet hc)
    resumes := fun hc hr => h.resumes hc ((resumed_cons_none rfl).symm.trans hr)
    ended := fun hc hrun x hx ha hg r hr =>
      (resumed_cons_none rfl).trans (h.ended hc hrun x (hold hx (h.gateOutcomeWisp_lt hg)) ha hg r hr)
    approved := fun hc hr => by
      have hs := hreason hc hr
      rcases h.approved hc hr with ⟨hs', -⟩ | ha | ⟨hs', -⟩
      · cases hs.symm.trans hs'
      · exact .inr (.inl ha)
      · cases hs.symm.trans hs'
    published := fun hc hs x hx ha => h.published hc hs x (hold hx (h.activeWisp_lt (.inl hs) ha)) ha }

lemma mapWisps {g : Wisp → Wisp} (hid : ∀ x, (g x).id = x.id)
    (hiteration : ∀ x, (g x).iteration = x.iteration) (hhidden : ∀ x, x.hidden = false → (g x).hidden = false)
    (hchain : Chain (v.wisps.map g) v.minted)
    (hclosed : ∀ x ∈ v.wisps, x.status = .closed → (g x).status = .closed)
    (hnoted : ∀ x ∈ v.wisps, (g x).status = .closed → .closed x.iteration ∈ v.history)
    (hshown : v.state = .active → ∀ x ∈ v.wisps, v.activeWisp = some x.id → ∀ y ∈ v.wisps, x.iteration < y.iteration →
      (g y).status = .closed ∨ (g y).hidden = false →
      (y.status = .closed ∨ y.hidden = false) ∨
        v.gateOutcomeWisp = some x.id ∧ cfg.decision x.iteration v.outcome = .iterate)
    (hgranted : care.recovers → v.state = .active → v.activeWisp = none →
      v.lastProcessedWisp ≠ (lastClosed (v.wisps.map g)).map Wisp.id ∨
        (closedOf (v.wisps.map g)).map Wisp.id = (closedOf v.wisps).map Wisp.id)
    (hpassed : v.state = .terminated → PassedLast v.wisps v.gateOutcomeWisp v.outcome →
      PassedLast (v.wisps.map g) v.gateOutcomeWisp v.outcome) :
    Sound cfg care { v with wisps := v.wisps.map g } :=
  { h with
    chain := hchain
    noted := fun z hz hzc => by
      obtain ⟨x, hx, rfl⟩ := mem_map.mp hz
      exact (hiteration x).symm ▸ hnoted x hx hzc
    processed := fun id hlast => by
      obtain ⟨x, hx, rfl, hxc⟩ := h.processed id hlast
      exact ⟨g x, mem_map_of_mem hx, hid x, hclosed x hx hxc⟩
    gated := fun id hg => by
      obtain ⟨x, hx, rfl, hxc⟩ := h.gated id hg
      exact ⟨g x, mem_map_of_mem hx, hid x, hclosed x hx hxc⟩
    ahead := fun hrun a ha => by
      obtain ⟨x, hx, rfl, hlast⟩ := h.ahead hrun a ha
      refine ⟨g x, mem_map_of_mem hx, hid x, fun z hz hlz => ?_⟩
      obtain ⟨y, hy, rfl⟩ := mem_map.mp hz
      rw [hid] at hlz
      rw [hiteration, hiteration]
      exact hlast y hy hlz
    onRecord := fun hrun z hz ha hg => by
      obtain ⟨x, hx, rfl⟩ := mem_map.mp hz
      rw [hid] at ha hg
      rw [hiteration]
      exact h.onRecord hrun x hx ha hg
    near := fun hs z hz ha z' hz' => by
      obtain ⟨x, hx, rfl⟩ := mem_map.mp hz
      obtain ⟨y, hy, rfl⟩ := mem_map.mp hz'
      rw [hid] at ha
      rw [hiteration, hiteration]
      exact h.near hs x hx ha y hy
    shown := fun hs z hz ha z' hz' hlt hseen => by
      obtain ⟨x, hx, rfl⟩ := mem_map.mp hz
      obtain ⟨y, hy, rfl⟩ := mem_map.mp hz'
      rw [hid] at ha
      rw [hiteration, hiteration] at hlt
      rw [hid, hiteration]
      rcases hshown hs x hx ha y hy hlt hseen with hseen | hgate
      · exact h.shown hs x hx ha y hy hlt hseen
      · exact hgate
    granted := fun hc hs ha => by
      rcases hgranted hc hs ha with hne | heq
      · exact .inl hne
      · have hgranted := h.granted hc hs ha
        have hlast : (lastClosed (v.wisps.map g)).map Wisp.id = (lastClosed v.wisps).map Wisp.id := by
          rw [lastClosed, lastClosed, ← getLast?_map, ← getLast?_map, heq]
        have hlength : (closedOf (v.wisps.map g)).length = (closedOf v.wisps).length := by
          rw [← length_map Wisp.id, heq, length_map]
        rw [hlast, hlength]
        exact hgranted
    ended := fun hc hrun z hz ha hg r hr => by
      obtain ⟨x, hx, rfl⟩ := mem_map.mp hz
      rw [hid] at ha hg
      rw [hiteration] at hr
      exact h.ended hc hrun x hx ha hg r hr
    approved := fun hc hr => by
      rcases h.approved hc hr with ha | ha | ⟨hs, ha⟩
      · exact .inl ha
      · exact .inr (.inl ha)
      · exact .inr (.inr ⟨hs, ha.imp_right (hpassed hs)⟩)
    published := fun hc hs z hz ha => by
      obtain ⟨x, hx, rfl⟩ := mem_map.mp hz
      rw [hid] at ha
      exact hhidden x (h.published hc hs x hx ha) }

lemma reveal (hstate : v.state ≠ .terminated)
    (hactive : v.state = .active → ∀ x ∈ v.wisps, v.activeWisp = some x.id → x.iteration < y.iteration →
      v.gateOutcomeWisp = some x.id ∧ cfg.decision x.iteration v.outcome = .iterate)
    (hy : y ∈ v.wisps) :
    Sound cfg care { v with wisps := v.wisps.map (changeAt y.id fun x => { x with hidden := false }) } := by
  have hid := changeAt_field Wisp.id y.id (fun x => { x with hidden := false }) fun _ => rfl
  have hiteration := changeAt_field Wisp.iteration y.id (fun x => { x with hidden := false }) fun _ => rfl
  have hstatus := changeAt_field Wisp.status y.id (fun x => { x with hidden := false }) fun _ => rfl
  have hseen : ∀ x : Wisp, x.hidden = false → (changeAt y.id (fun x => { x with hidden := false }) x).hidden = false := by
    intro x hx
    unfold changeAt
    split <;> simp [hx]
  refine h.mapWisps hid hiteration hseen (Chain.map hstatus h.chain hid hiteration) (fun x _ hx => (hstatus x).trans hx)
    (fun x hx hxc => h.noted x hx ((hstatus x).symm.trans hxc)) ?_ (fun _ _ _ => .inr ?_)
    fun hs => absurd hs hstate
  swap
  · rw [closedOf_map hstatus, List.map_map]
    exact map_congr_left fun x _ => hid x
  intro hs x hx ha z hz hlt hseen
  by_cases hzy : z.id = y.id
  · obtain rfl := h.chain.eq_of_id hz hy hzy
    exact .inr (hactive hs x hx ha hlt)
  · rw [changeAt_of_ne hzy] at hseen
    exact .inl hseen

lemma progress (hy : y ∈ v.wisps) (hopen : y.status ≠ .closed) {status : Status} (hstatus : status ≠ .closed) :
    Sound cfg care { v with wisps := v.wisps.map (changeAt y.id fun x => { x with status }) } := by
  have hid := changeAt_field Wisp.id y.id (fun x => { x with status }) fun _ => rfl
  have hiteration := changeAt_field Wisp.iteration y.id (fun x => { x with status }) fun _ => rfl
  have hhidden := changeAt_field Wisp.hidden y.id (fun x => { x with status }) fun _ => rfl
  have hmap := h.chain.map_open hy hopen fun x => { x with status }
  have hclosed : ∀ x ∈ v.wisps, (changeAt y.id (fun x => { x with status }) x).status = .closed ↔ x.status = .closed := by
    intro x hx
    by_cases hxy : x.id = y.id
    · obtain rfl := h.chain.eq_of_id hx hy hxy
      rw [changeAt_self]
      exact iff_of_false hstatus hopen
    · rw [changeAt_of_ne hxy]
  have hsame : closedOf (v.wisps.map (changeAt y.id fun x => { x with status })) = closedOf v.wisps := by
    rw [hmap, closedOf_concat_open hstatus, closedOf_closed _ fun _ => closedOf_status]
  refine h.mapWisps hid hiteration (fun x => (hhidden x).trans) (hmap ▸ h.chain.setStatus hy hopen status) (fun x hx => (hclosed x hx).mpr)
    (fun x hx hxc => h.noted x hx ((hclosed x hx).mp hxc)) ?_ (fun _ _ _ => .inr (congrArg _ hsame)) fun _ hp => ?_
  · intro _ x _ _ z hz _ hseen
    exact .inl (hseen.imp (hclosed z hz).mp ((hhidden z).symm.trans ·))
  · refine ⟨?_, hp.pass, fun z hz hzo => ?_⟩
    · rw [lastClosed, hsame]
      exact hp.gate
    · obtain ⟨x, hx, rfl⟩ := mem_map.mp hz
      exact (hhidden x).trans (hp.unseen x hx (mt (hclosed x hx).mpr hzo))

lemma close (hy : y ∈ v.wisps) (hopen : y.status ≠ .closed)
    (hseen : y.hidden = false ∨ v.Running ∧ v.activeWisp = some y.id) :
    Sound cfg care { v with
      wisps := v.wisps.map (changeAt y.id fun x => { x with status := .closed })
      history := .closed y.iteration :: v.history } := by
  have hid := changeAt_field Wisp.id y.id (fun x => { x with status := .closed }) fun _ => rfl
  have hiteration := changeAt_field Wisp.iteration y.id (fun x => { x with status := .closed }) fun _ => rfl
  have hhidden := changeAt_field Wisp.hidden y.id (fun x => { x with status := .closed }) fun _ => rfl
  have hmap := h.chain.map_open hy hopen fun x => { x with status := .closed }
  have hclosed : ∀ x ∈ v.wisps, (changeAt y.id (fun x => { x with status := .closed }) x).status = .closed →
      x.status = .closed ∨ x = y := by
    intro x hx hxc
    by_cases hxy : x.id = y.id
    · exact .inr (h.chain.eq_of_id hx hy hxy)
    · rw [changeAt_of_ne hxy] at hxc
      exact .inl hxc
  have hnote : Sound cfg care { v with history := .closed y.iteration :: v.history } := by
    refine h.note rfl (fun k hk => ?_) (by simp) (by simp [Note.resumes])
    cases hk
    have := h.chain.iteration_eq hy hopen
    omega
  refine hnote.mapWisps hid hiteration (fun x => (hhidden x).trans) (hmap ▸ h.chain.setStatus hy hopen .closed) ?_ ?_ ?_ (fun _ _ _ => .inl ?_) ?_
  · intro x hx hxc
    rw [changeAt_of_ne fun hxy => hopen (h.chain.eq_of_id hx hy hxy ▸ hxc)]
    exact hxc
  · intro x hx hxc
    rcases hclosed x hx hxc with hxc | rfl
    · exact hnote.noted x hx hxc
    · exact mem_cons_self
  · intro hs x hx ha z hz hlt hz'
    refine .inl (hz'.elim (fun hzc => ?_) fun hzh => .inr ((hhidden z).symm.trans hzh))
    rcases hclosed z hz hzc with hzc | rfl
    · exact .inl hzc
    · rcases hseen with hvisible | ⟨-, hactive⟩
      · exact .inr hvisible
      · obtain rfl := h.chain.eq_of_id hx hz (some.inj (ha.symm.trans hactive))
        exact absurd hlt (Nat.lt_irrefl _)
  · -- The last processed wisp was closed before.
    have hlast : lastClosed (v.wisps.map (changeAt y.id fun x => { x with status := .closed })) =
        some { y with status := .closed } := by
      rw [lastClosed, hmap, closedOf_closed, getLast?_concat]
      intro x hx
      rcases mem_append.mp hx with hx | hx
      · exact closedOf_status hx
      · rw [mem_singleton.mp hx]
    intro heq
    have heq : v.lastProcessedWisp = some y.id := heq.trans (congrArg _ hlast)
    obtain ⟨x, hx, hxy, hxc⟩ := h.processed _ heq
    exact hopen (h.chain.eq_of_id hx hy hxy ▸ hxc)
  · intro hs hp
    rcases hseen with hvisible | ⟨hrun, -⟩
    · cases (hp.unseen y hy hopen).symm.trans hvisible
    · exact absurd hs hrun.ne_terminated

lemma delete (hrun : v.Running) (hx : x ∈ v.wisps) (hactive : v.activeWisp = some x.id)
    (hy : y ∈ v.wisps) (hlt : x.iteration < y.iteration)
    (htop : ∀ z ∈ v.wisps, z.iteration ≤ y.iteration) (hgate : v.gateOutcomeWisp ≠ some y.id) :
    Sound cfg care { v with wisps := v.wisps.filter (·.id ≠ y.id) } :=
  have hold : ∀ {z : Wisp}, z ∈ v.wisps.filter (·.id ≠ y.id) → z ∈ v.wisps := fun hz => mem_of_mem_filter hz
  have hkept : ∀ {z : Wisp}, z ∈ v.wisps → z.id ≠ y.id → z ∈ v.wisps.filter (·.id ≠ y.id) :=
    fun hz hne => mem_filter.mpr ⟨hz, by simpa using hne⟩
  have hlast : ∀ z ∈ v.wisps, v.lastProcessedWisp = some z.id → z.iteration < x.iteration := fun z hz hlz => by
    obtain ⟨x', hx', hid, hlast⟩ := h.ahead hrun _ hactive
    obtain rfl := h.chain.eq_of_id hx' hx hid
    exact hlast z hz hlz
  { h with
    chain := h.chain.filter_top hy htop
    noted := fun z hz => h.noted z (hold hz)
    processed := fun id hid => by
      obtain ⟨z, hz, rfl, hzc⟩ := h.processed id hid
      refine ⟨z, hkept hz fun hzy => ?_, rfl, hzc⟩
      obtain rfl := h.chain.eq_of_id hz hy hzy
      exact absurd (hlast z hz hid) (Nat.not_lt.mpr hlt.le)
    gated := fun id hid => by
      obtain ⟨z, hz, rfl, hzc⟩ := h.gated id hid
      exact ⟨z, hkept hz fun hzy => hgate (hzy ▸ hid), rfl, hzc⟩
    ahead := fun _ a ha => by
      refine ⟨x, hkept hx fun hxy => ?_, some.inj (hactive.symm.trans ha), fun z hz => hlast z (hold hz)⟩
      obtain rfl := h.chain.eq_of_id hx hy hxy
      exact Nat.lt_irrefl _ hlt
    onRecord := fun _ z hz => h.onRecord hrun z (hold hz)
    near := fun hs z hz ha z' hz' => h.near hs z (hold hz) ha z' (hold hz')
    shown := fun hs z hz ha z' hz' => h.shown hs z (hold hz) ha z' (hold hz')
    granted := fun _ _ ha => absurd (hactive.symm.trans ha) nofun
    ended := fun hc _ z hz => h.ended hc hrun z (hold hz)
    approved := fun hc hr => by
      rcases h.approved hc hr with ha | ha | ⟨hs, -⟩
      · exact .inl ha
      · exact .inr (.inl ha)
      · exact absurd hs hrun.ne_terminated
    published := fun hc hs z hz => h.published hc hs z (hold hz) }

end

end Sound

end DeliveryEngine.Convergence
