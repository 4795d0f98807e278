import DeliveryEngine.Convergence.Steering

/-!
# Runs of a convergence loop

A loop is created, and then calls, agents and crashes take turns.  A wisp becomes active only if somebody has let the
loop go on (`recovery_respects_gate`); this fails when a loop crashes between the two writes that clear its active wisp
and set its state (`recovery_passes_manual_gate`).  Recovery does not end a loop that was resumed
(`resumed_not_ended`); this fails when an approval or a stop was interrupted before it set the state
(`recovery_ends_resumed`).  A loop waits on a wisp that the agents do not see only if an operator asked for an iteration
whose wisp was there and hidden (`published_while_shown`): a speculative wisp that was poured without the handler
knowing (`iterate_adopts_hidden`).
-/

namespace DeliveryEngine.Convergence

open List

/-! ## Moves -/

variable (w : World)

/-- A closed wisp is reported while the loop is active and at that wisp. -/
def Reported (wisp : WispID) : Prop :=
  w.root.state = .active ∧ w.root.activeWisp = some wisp ∧ (w.find wisp).any (·.status = .closed) = true

instance (w : World) (wisp : WispID) : Decidable (Reported w wisp) := inferInstanceAs (Decidable (_ ∧ _ ∧ _))

instance (v : View) : Decidable v.Leaving := inferInstanceAs (Decidable (_ ∧ _ ∧ _ ∧ _))

/-- Where a call may come, if recovery is to respect the gate. -/
def RecoversSafely : Move → Prop
  | .call (.wispClosed wisp _) _ => Reported w wisp
  | .call (.reconcile _) _ => ¬w.view.Leaving
  | _ => True

instance (w : World) : (m : Move) → Decidable (RecoversSafely w m)
  | .call (.wispClosed wisp _) _ => inferInstanceAs (Decidable (Reported w wisp))
  | .call (.reconcile _) _ => inferInstanceAs (Decidable ¬w.view.Leaving)
  | .call (.trigger _) _ | .call (.approve _) _ | .call (.iterate _) _ | .call (.stop _ _) _ | .progress _ _
  | .verdict _ _ => .isTrue trivial

/-- Where a call may come, if a resumed loop is not to be ended. -/
def ResumesSafely : Move → Prop
  | .call (.wispClosed wisp _) _ => Reported w wisp
  | .call (.trigger _) _ | .call (.iterate _) _ => w.root.terminalReason = none
  | .call (.stop _ _) _ => w.root.state = .waitingTrigger → w.root.activeWisp = none
  | _ => True

instance (w : World) : (m : Move) → Decidable (ResumesSafely w m)
  | .call (.wispClosed wisp _) _ => inferInstanceAs (Decidable (Reported w wisp))
  | .call (.trigger _) _ | .call (.iterate _) _ => inferInstanceAs (Decidable (w.root.terminalReason = none))
  | .call (.stop _ _) _ => inferInstanceAs (Decidable (w.root.state = .waitingTrigger → w.root.activeWisp = none))
  | .call (.approve _) _ | .call (.reconcile _) _ | .progress _ _ | .verdict _ _ => .isTrue trivial

/-- If an operator may get another iteration, the agents see its wisp or it has none. -/
def Shown (cfg : Config) : Prop :=
  w.root.state = .waitingManual → (closedOf w.wisps).length < cfg.maxIterations → w.view.NextShown

instance (w : World) (cfg : Config) : Decidable (Shown w cfg) := inferInstanceAs (Decidable (_ → _ → _))

/-- Where a call may come, if the loop is not to wait on a hidden wisp. -/
def PublishesSafely (cfg : Config) : Move → Prop
  | .call (.wispClosed wisp _) _ => Reported w wisp
  | .call (.iterate _) _ => Shown w cfg
  | _ => True

instance (w : World) (cfg : Config) : (m : Move) → Decidable (PublishesSafely w cfg m)
  | .call (.wispClosed wisp _) _ => inferInstanceAs (Decidable (Reported w wisp))
  | .call (.iterate _) _ => inferInstanceAs (Decidable (Shown w cfg))
  | .call (.trigger _) _ | .call (.approve _) _ | .call (.stop _ _) _ | .call (.reconcile _) _ | .progress _ _
  | .verdict _ _ => .isTrue trivial

instance decidableMoves (cfg : Config) (allowed : World → Move → Prop) [∀ w m, Decidable (allowed w m)] :
    (w : World) → (moves : List Move) → Decidable (Moves cfg allowed w moves)
  | _, [] => .isTrue trivial
  | w, m :: moves =>
    have := decidableMoves cfg allowed (w.move cfg m) moves
    inferInstanceAs (Decidable (_ ∧ _))

/-! ## What a move keeps -/

variable {allowed : World → Move → Prop}

section
variable {cfg : Config} {care : Care} {w : World}

/-- What is assumed of a call, for the part of the invariant that is asked for. -/
structure Comes (cfg : Config) (care : Care) (w : World) (m : Move) : Prop where
  recovers : care.recovers → RecoversSafely w m
  resumes : care.resumes → ResumesSafely w m
  reported : ∀ wisp gate fates, m = .call (.wispClosed wisp gate) fates → Reported w wisp
  published : care.publishes → ∀ username fates, m = .call (.iterate username) fates → Shown w cfg

lemma Sound.granted_called {v : View} (h : Sound cfg care v) {r : Request} {s : LoopState}
    (hpermits : ∀ k, (Note.called r s).permits cfg k = true) :
    Granted cfg (closedOf v.wisps).length (.called r s :: v.history) := by
  refine granted_cons ?_ nofun (hpermits _)
  rcases Nat.eq_zero_or_pos (closedOf v.wisps).length with hzero | hpos
  · exact .inl hzero
  · obtain ⟨x, hx, hxc⟩ := h.chain.exists_iteration hpos (by have := h.chain.length_eq; omega)
    exact .inr (hxc ▸ h.noted x hx (h.chain.closed_of_iteration hx hxc.le))

lemma Keeps.follow {α : Type} {inv : View → Prop} {p : Call α} {post : α → View → Prop}
    (hw : inv w.view) (hp : Keeps inv p w.view post) (fates : List Fate) :
    inv (p.discard.follow serve fates w).2.view := by
  have hupholds := Runs.Fallible.upholds_discard (hp w rfl)
  refine Runs.Program.Upholds.follow ?_ hupholds fates
  exact hw

lemma Sound.setStatus (h : Sound cfg care w.view) {id : WispID} {x : Wisp} (hfind : w.find id = some x)
    (hseen : x.hidden = false) (status : MemStore.Status) : Sound cfg care (w.setStatus id status).view := by
  obtain ⟨hx, -⟩ := find_some hfind
  rw [view_setStatus w hfind]
  split
  case isTrue => exact h
  case isFalse hopen =>
    split
    case isTrue => exact h.close hx hopen (.inl hseen)
    case isFalse hstatus => exact h.progress hx hopen hstatus

lemma Reported.handling {wisp : WispID} (hr : Reported w wisp) : ∃ x, x.id = wisp ∧ Handling care w.view x := by
  obtain ⟨hstate, hactive, hclosed⟩ := hr
  cases hfind : w.find wisp with
  | none =>
    rw [hfind] at hclosed
    cases hclosed
  | some x =>
    obtain ⟨hx, rfl⟩ := find_some hfind
    rw [hfind] at hclosed
    exact ⟨x, rfl,
      { running := .inl hstate
        mem := hx
        closed := by simpa using hclosed
        active := hactive
        resuming := fun _ => hstate }⟩

section
variable (hcare : ¬care.stopping)
include hcare

lemma Sound.call (h : Sound cfg care w.view) (r : Request) (fates : List Fate) (hc : Comes cfg care w (.call r fates)) :
    Sound cfg care (w.move cfg (.call r fates)).view := by
  have hnote := h.called r w.root.state
  have hstop : resumed cfg (.called r w.root.state :: w.history) = false → Sound cfg { care with stopping := True }
      (w.note (.called r w.root.state)).view := fun hquiet => hnote.stopping hquiet
  cases r with
  | wispClosed wisp gate =>
    obtain ⟨x, rfl, hx⟩ : ∃ x, x.id = wisp ∧ Handling care w.view x := (hc.reported _ _ _ rfl).handling
    exact Keeps.follow hnote (keeps_handleWispClosed hnote (hx.note _) gate) fates
  | trigger passes =>
    refine Keeps.follow hnote (keeps_handleTrigger hnote hcare hc.resumes fun hpasses hs => ?_) fates
    subst hpasses
    have hs : w.root.state = .waitingTrigger := hs
    rw [hs]
    exact h.granted_called fun _ => rfl
  | approve username =>
    have hsound := hstop (resumed_cons_some rfl)
    refine (Keeps.follow hsound (keeps_approveHandler hsound username trivial ?_) fates).forget hcare
    rfl
  | iterate username =>
    have hshown := fun hp => hc.published hp username fates rfl
    refine Keeps.follow hnote (keeps_iterateHandler hnote hcare hc.resumes username hshown fun hs => ?_) fates
    have hs : w.root.state = .waitingManual := hs
    rw [hs]
    exact h.granted_called fun _ => rfl
  | stop username gate =>
    have hsound := hstop (resumed_cons_some rfl)
    exact (Keeps.follow hsound (keeps_stopHandler hsound trivial username gate hc.resumes) fates).forget hcare
  | reconcile gate => exact Keeps.follow hnote (keeps_reconcileBead hnote hc.recovers gate) fates

lemma Sound.move (h : Sound cfg care w.view) (m : Move) (hc : Comes cfg care w m) :
    Sound cfg care (w.move cfg m).view := by
  cases m with
  | call r fates => exact h.call hcare r fates hc
  | progress id status =>
    rw [World.move]
    split
    case isFalse => exact h
    case isTrue hseen =>
      cases hfind : w.find id with
      | none =>
        rw [hfind] at hseen
        cases hseen
      | some x =>
        rw [hfind] at hseen
        exact h.setStatus hfind (by simpa using hseen) status
  | verdict text wisp => exact h

lemma Sound.moves (hallowed : ∀ w m, allowed w m → Comes cfg care w m)
    {moves : List Move} (hm : Moves cfg allowed w moves) (h : Sound cfg care w.view) :
    Sound cfg care (w.moves cfg moves).view := by
  induction moves generalizing w with
  | nil => exact h
  | cons m moves ih => exact ih hm.2 (h.move hcare m (hallowed w m hm.1))

end

end

/-! ## Runs -/

variable (cfg : Config)

lemma view_created : (created cfg).view =
    if cfg.trigger then ⟨.waitingTrigger, none, none, none, none, none, [], 0, [.emitted (.created none)]⟩
    else ⟨.active, some 0, none, none, none, none, [{ id := 0, iteration := 1 }], 1,
      [.emitted (.created (some 0)), .activated 1, .poured 1]⟩ := by
  rw [created, createHandler]
  cases cfg.trigger <;> rfl

lemma sound_created (care : Care) : Sound cfg care (created cfg).view := by
  rw [view_created]
  split
  case isTrue htrigger =>
    exact
      { chain := ⟨rfl, Nat.zero_le _, rfl, nodup_nil, nofun⟩
        made := ⟨nofun, nofun⟩
        noted := nofun
        processed := nofun
        gated := nofun
        held := nofun
        triggered := fun _ => htrigger
        ahead := nofun
        onRecord := nofun
        near := nofun
        shown := nofun
        lawful := fun _ => trivial
        granted := nofun
        quiet := fun _ => rfl
        resumes := nofun
        ended := nofun
        approved := nofun
        published := fun _ => nofun }
  case isFalse htrigger =>
    have honly : ∀ {x : Wisp}, x ∈ [({ id := 0, iteration := 1 } : Wisp)] → x = { id := 0, iteration := 1 } :=
      mem_singleton.mp
    exact
      { chain := ⟨rfl, le_refl 1, rfl, nodup_singleton _, fun y hy => by rw [honly hy]; exact Nat.zero_lt_one⟩
        made := ⟨nofun, nofun⟩
        noted := fun x hx hc => by
          rw [honly hx] at hc
          cases hc
        processed := nofun
        gated := nofun
        held := nofun
        triggered := nofun
        ahead := fun _ a ha => ⟨_, mem_singleton_self _, Option.some.inj ha, nofun⟩
        onRecord := nofun
        near := fun _ x hx _ y hy => by
          rw [honly hx, honly hy]
          exact Nat.le_succ _
        shown := fun _ x hx _ y hy hlt => by
          rw [honly hx, honly hy] at hlt
          exact absurd hlt (Nat.lt_irrefl _)
        lawful := fun _ => ⟨⟨le_rfl, cfg.positive, .inl ⟨rfl, by simpa using htrigger⟩⟩, trivial⟩
        granted := nofun
        quiet := fun _ => rfl
        resumes := nofun
        ended := nofun
        approved := nofun
        published := fun _ _ x hx _ => by rw [honly hx] }

/-- The wisps that the agents see and that are open. -/
def openActive : List Wisp := w.wisps.filter fun x => x.hidden = false ∧ x.status ≠ .closed

/-- Every wisp of a run became active when it was allowed to, and at most one of them is open: the calls may fail and
crash anywhere. -/
theorem recovery_respects_gate (cfg : Config) (moves : List Move) (h : Moves cfg RecoversSafely (created cfg) moves) :
    Lawful cfg ((created cfg).moves cfg moves).history ∧ (openActive ((created cfg).moves cfg moves)).length ≤ 1 := by
  have hcomes : ∀ w m, RecoversSafely w m → Comes cfg ⟨True, False, False, False⟩ w m := fun w m hm =>
    { recovers := fun _ => hm
      resumes := False.elim
      reported := by
        rintro wisp gate fates rfl
        exact hm
      published := False.elim }
  have hsound := Sound.moves id hcomes h (sound_created cfg _)
  refine ⟨hsound.lawful trivial, le_trans ?_ hsound.chain.one⟩
  refine (monotone_filter_right _ fun x hx => ?_).length_le
  simp only [decide_eq_true_eq] at hx ⊢
  exact hx.2

/-- A loop of at most two iterations whose gate is a condition. -/
def conditional : Config where
  maxIterations := 2
  gate := { mode := .condition, condition := "check.sh" }
  positive := by decide

/-- The gate fails the first wisp; the handler crashes after the next one was activated, and recovery goes on. -/
def crashedIteration : List Move :=
  [.progress 0 .closed, .call (.wispClosed 0 { outcome := some .fail }) (.replicate 15 .clean),
    .call (.reconcile { outcome := some .fail }) (.replicate 60 .clean)]

theorem recovery_respects_gate_crashedIteration :
    Moves conditional RecoversSafely (created conditional) crashedIteration ∧
      Lawful conditional ((created conditional).moves conditional crashedIteration).history ∧
        (openActive ((created conditional).moves conditional crashedIteration)).length ≤ 1 :=
  have h : Moves conditional RecoversSafely (created conditional) crashedIteration := by decide +kernel
  ⟨h, recovery_respects_gate conditional crashedIteration h⟩

/-- A loop of one iteration whose gate is an operator. -/
def manualOnce : Config where
  maxIterations := 1
  positive := by decide

/-- The handler that goes to `waiting_manual` crashes once it has cleared the active wisp, and recovery runs. -/
def crashedHold : List Move :=
  [.progress 0 .closed, .call (.wispClosed 0 {}) (.replicate 5 .clean), .call (.reconcile {}) (.replicate 20 .clean)]

/-- The second wisp is active, although there may be one only and no operator has been asked. -/
theorem recovery_passes_manual_gate :
    ¬Lawful manualOnce ((created manualOnce).moves manualOnce crashedHold).history ∧
      .activated 2 ∈ ((created manualOnce).moves manualOnce crashedHold).history := by decide +kernel

/-- A loop that was resumed and has not been approved or stopped since, nor its gate ended it, has not ended; and a
loop that ended as approved was approved after its last wisp was poured, or the gate has passed its last wisp: the
calls may fail and crash anywhere. -/
theorem resumed_not_ended (cfg : Config) (moves : List Move) (h : Moves cfg ResumesSafely (created cfg) moves) :
    (resumed cfg ((created cfg).moves cfg moves).history = true →
      ((created cfg).moves cfg moves).root.state ≠ .terminated) ∧
    (((created cfg).moves cfg moves).root.state = .terminated →
      ((created cfg).moves cfg moves).root.terminalReason = some .approved →
      approvedSincePour ((created cfg).moves cfg moves).history = true ∨
        ∃ x, lastClosed ((created cfg).moves cfg moves).wisps = some x ∧
          ((created cfg).moves cfg moves).root.gateOutcomeWisp = some x.id ∧
          ((created cfg).moves cfg moves).root.gate.outcome = some .pass) := by
  have hcomes : ∀ w m, ResumesSafely w m → Comes cfg ⟨False, True, False, False⟩ w m := fun w m hm =>
    { recovers := False.elim
      resumes := fun _ => hm
      reported := by
        rintro wisp gate fates rfl
        exact hm
      published := False.elim }
  have hsound := Sound.moves id hcomes h (sound_created cfg _)
  refine ⟨fun hresumed => (hsound.resumes trivial hresumed).2, fun hstate hreason => ?_⟩
  rcases hsound.approved trivial hreason with ⟨hs, -⟩ | ⟨hs, -⟩ | ⟨-, happroved | hpassed⟩
  · exact absurd (hs.symm.trans hstate) nofun
  · exact absurd (hs.symm.trans hstate) nofun
  · exact .inl happroved
  · obtain ⟨x, hx, hgate⟩ := hpassed.gate
    exact .inr ⟨x, hx, hgate, hpassed.pass⟩

/-- A loop of at most three iterations whose gate is an operator. -/
def manualThrice : Config where
  maxIterations := 3
  positive := by decide

/-- The first wisp is held, an operator asks for another, the second one is held and approved; the approval fails and
recovery completes it. -/
def approvedLater : List Move :=
  [.progress 0 .closed, .call (.wispClosed 0 {}) (.replicate 20 .clean), .call (.iterate "ann") (.replicate 20 .clean),
    .call (.reconcile {}) (.replicate 20 .clean), .progress 1 .closed,
    .call (.wispClosed 1 {}) (.replicate 20 .clean), .call (.approve "ann") (.replicate 3 .clean),
    .call (.reconcile {}) (.replicate 20 .clean)]

/-- The loop after so many of the moves. -/
def approvedAfter (n : ℕ) : World := (created manualThrice).moves manualThrice (approvedLater.take n)

theorem resumed_not_ended_approvedLater :
    (resumed manualThrice (approvedAfter 4).history = true ∧ (approvedAfter 4).root.state ≠ .terminated) ∧
    (approvedAfter 8).root.state = .terminated ∧ (approvedAfter 8).root.terminalReason = some .approved ∧
      (approvedSincePour (approvedAfter 8).history = true ∨ ∃ x, lastClosed (approvedAfter 8).wisps = some x ∧
        (approvedAfter 8).root.gateOutcomeWisp = some x.id ∧ (approvedAfter 8).root.gate.outcome = some .pass) :=
  have hsafe : ∀ n ∈ [4, 8], Moves manualThrice ResumesSafely (created manualThrice) (approvedLater.take n) := by
    decide +kernel
  have hresumed : resumed manualThrice (approvedAfter 4).history = true := by decide +kernel
  have hended : (approvedAfter 8).root.state = .terminated ∧ (approvedAfter 8).root.terminalReason = some .approved := by
    decide +kernel
  ⟨⟨hresumed, (resumed_not_ended manualThrice _ (hsafe 4 (by simp))).1 hresumed⟩, hended.1, hended.2,
    (resumed_not_ended manualThrice _ (hsafe 8 (by simp))).2 hended.1 hended.2⟩

/-- An approval fails after it wrote the terminal reason; an operator asks for another iteration instead, and gets it;
then recovery runs. -/
def approvalAbandoned : List Move :=
  [.progress 0 .closed, .call (.wispClosed 0 {}) (.replicate 20 .clean),
    .call (.approve "ann") (.replicate 3 .clean ++ [.refused "unavailable"]),
    .call (.iterate "ann") (.replicate 20 .clean), .call (.reconcile {}) (.replicate 20 .clean)]

/-- The loop has ended as approved, although it was resumed after the approval. -/
theorem recovery_ends_resumed :
    resumed manualThrice ((created manualThrice).moves manualThrice approvalAbandoned).history = true ∧
      ((created manualThrice).moves manualThrice approvalAbandoned).root.state = .terminated ∧
      ((created manualThrice).moves manualThrice approvalAbandoned).root.terminalReason = some .approved ∧
      approvedSincePour ((created manualThrice).moves manualThrice approvalAbandoned).history = false ∧
      ((created manualThrice).moves manualThrice approvalAbandoned).root.gateOutcomeWisp = none := by decide +kernel

/-- Closed wisps are reported as the tick does. -/
def Reports : Move → Prop
  | .call (.wispClosed wisp _) _ => Reported w wisp
  | _ => True

instance (v : View) : Decidable v.Published := inferInstanceAs (Decidable (_ → ∀ x ∈ v.wisps, _))

/-- An active loop is at a wisp that the agents see, if whenever an operator asked for an iteration there was no hidden
wisp of that iteration: the calls may fail and crash anywhere. -/
theorem published_while_shown (cfg : Config) (moves : List Move)
    (h : Moves cfg (PublishesSafely · cfg) (created cfg) moves) : ((created cfg).moves cfg moves).view.Published := by
  have hcomes : ∀ w m, PublishesSafely w cfg m → Comes cfg ⟨False, False, True, False⟩ w m := fun w m hm =>
    { recovers := False.elim
      resumes := False.elim
      reported := by
        rintro wisp gate fates rfl
        exact hm
      published := by
        rintro - username fates rfl
        exact hm }
  exact (Sound.moves id hcomes h (sound_created cfg _)).published trivial

/-- The gate fails the first wisp, and the next one cannot be poured; the loop waits for an operator, who goes on. -/
def refusedPour : List Move :=
  [.progress 0 .closed, .call (.wispClosed 0 { outcome := some .fail })
      (.replicate 3 .clean ++ .refused "timeout" :: .refused "timeout" :: .replicate 30 .clean),
    .call (.iterate "ann") (.replicate 20 .clean)]

theorem published_while_shown_refusedPour :
    Moves conditional (PublishesSafely · conditional) (created conditional) refusedPour ∧
      ((created conditional).moves conditional refusedPour).root.activeWisp = some 1 ∧
      ((created conditional).moves conditional refusedPour).view.Published :=
  have h : Moves conditional (PublishesSafely · conditional) (created conditional) refusedPour := by decide +kernel
  ⟨h, by decide +kernel, published_while_shown conditional refusedPour h⟩

/-- The gate fails the first wisp, and the next one is poured, but no answer comes; the loop waits for an operator, who
goes on. -/
def lostPour : List Move :=
  [.progress 0 .closed, .call (.wispClosed 0 { outcome := some .fail })
      (.replicate 3 .clean ++ .unacknowledged "timeout" :: .refused "timeout" :: .replicate 30 .clean),
    .call (.iterate "ann") (.replicate 20 .clean)]

lemma reports_lostPour : Moves conditional Reports (created conditional) lostPour :=
  ⟨trivial, (by decide +kernel : Reported _ 0), trivial, trivial⟩

/-- The active wisp is the speculative one, which has not been activated. -/
theorem iterate_adopts_hidden : Moves conditional Reports (created conditional) lostPour ∧
    ¬Shown ((created conditional).moves conditional (lostPour.take 2)) conditional ∧
    ¬((created conditional).moves conditional lostPour).view.Published ∧
      ((created conditional).moves conditional lostPour).history.head? =
        some (.emitted (.manualIterate "operator:ann" 2 (some 0) (some 1))) ∧
      .activated 2 ∉ ((created conditional).moves conditional lostPour).history :=
  ⟨reports_lostPour, by decide +kernel, by decide +kernel, by decide +kernel, by decide +kernel⟩

/-- However the calls fail and crash, the wisps of a loop are numbered from one in the order of their pours, and all but
the last are closed, as is what was processed last and what the gate has judged; a held loop has no active wisp.  The
active wisp of a running loop comes after the one processed last.  While the loop is active, at most one wisp is poured
ahead, open and hidden from the agents until the recorded verdict on the active one is to go on. -/
theorem wisps_in_sequence (moves : List Move) (h : Moves cfg Reports (created cfg) moves) :
    let v := ((created cfg).moves cfg moves).view
    v.wisps.map Wisp.iteration = List.range' 1 v.wisps.length ∧
      (∀ x ∈ v.wisps, x.iteration < v.wisps.length → x.status = .closed) ∧
      (∀ id, v.lastProcessedWisp = some id ∨ v.gateOutcomeWisp = some id →
        ∃ x ∈ v.wisps, x.id = id ∧ x.status = .closed) ∧
      (v.state = .waitingManual → v.activeWisp = none) ∧
      ∀ a, v.activeWisp = some a → v.Running → ∃ x ∈ v.wisps, x.id = a ∧
        (∀ y ∈ v.wisps, v.lastProcessedWisp = some y.id → y.iteration < x.iteration) ∧
        (v.state = .active → ∀ y ∈ v.wisps, y.iteration ≤ x.iteration + 1 ∧
          (x.iteration < y.iteration → y.status ≠ .closed ∧ y.hidden = true ∨
            cfg.decision x.iteration v.outcome = .iterate ∧
              .persisted x.iteration v.outcome ∈ since x.iteration v.history)) := by
  intro v
  have hcomes : ∀ w m, Reports w m → Comes cfg ⟨False, False, False, False⟩ w m := fun w m hm =>
    ⟨False.elim, False.elim, by rintro wisp gate fates rfl; exact hm, False.elim⟩
  have hsound : Sound cfg _ v := Sound.moves id hcomes h (sound_created cfg _)
  refine ⟨hsound.chain.numbered, fun x hx hlt => ?_, fun id hid => hid.elim (hsound.processed id) (hsound.gated id),
    hsound.held, fun a ha hrunning => ?_⟩
  · refine hsound.chain.closed_of_iteration hx ?_
    have := hsound.chain.length_eq
    have := hsound.chain.one
    omega
  · obtain ⟨x, hx, rfl, hahead⟩ := hsound.ahead hrunning a ha
    refine ⟨x, hx, rfl, hahead, fun hactive y hy => ⟨hsound.near hactive x hx ha y hy, fun hlt => ?_⟩⟩
    by_cases hshown : y.status = .closed ∨ y.hidden = false
    · obtain ⟨hgate, hgo⟩ := hsound.shown hactive x hx ha y hy hlt hshown
      exact .inr ⟨hgo, (hsound.onRecord hrunning x hx ha hgate).2⟩
    · rw [not_or, Bool.not_eq_false] at hshown
      exact .inl hshown

theorem wisps_in_sequence_lostPour : Moves conditional Reports (created conditional) lostPour ∧
    ((created conditional).moves conditional lostPour).view.wisps.map Wisp.iteration = [1, 2] :=
  ⟨reports_lostPour, (wisps_in_sequence conditional lostPour reports_lostPour).1.trans (by decide +kernel)⟩

end DeliveryEngine.Convergence
