import DeliveryEngine.Convergence.Loop
import DeliveryEngine.Runs.Recovery

/-!
# The handlers of a convergence loop

`handleWispClosed` is called when the wisp of an iteration has closed: it evaluates the gate and ends the loop, lets
it wait, or goes on.  The next wisp is poured before the gate is evaluated, hidden, and deleted if it is not wanted.
The other handlers act on a loop that waits or runs; `reconcileBead` finishes what a crash has interrupted.  The order
of the writes is the source's.  Reads that only feed durations into events are left out.
-/

namespace DeliveryEngine.Convergence

open Runs.Fallible (attempt mapError when)

/-! ## Calls -/

/-- Why a handler refuses what it is asked. -/
inductive Refusal
  | wrongState (verb : String) (state : LoopState)
  | atMaxIterations (count max : ℕ)
  | noConditionPath
  | noTriggerConfigured
  | overLimit (iteration max : ℕ)
  | unexpectedStatus (wisp : WispID)

/-- The errors of a handler, with the context they are wrapped in. -/
inductive HandlerError
  | during (context : String) (cause : StoreError)
  | refused (why : Refusal)
  | within (context : String) (cause : HandlerError)
  /-- A second error, met while the first one was cleaned up. -/
  | also (first : HandlerError) (context : String) (second : HandlerError)

/-- What a handler reports. -/
structure HandlerResult where
  action : HandlerAction
  iteration : ℕ := 0
  gateOutcome : Option GateOutcome := none
  nextWispID : Option WispID := none
  waitingReason : Option WaitingReason := none

/-- A handler: operations on the store and events, and an error that ends it. -/
abbrev Call := Runs.Fallible Query Answer HandlerError

/-- An operation whose error the caller looks at, or ignores. -/
def tryOp (op : Op) : Call (Except StoreError op.Value) := Runs.Fallible.op (Query.store op)

/-- An operation whose error ends the call. -/
def ask (context : String) (op : Op) : Call op.Value := do
  match ← tryOp op with
  | .ok value => pure value
  | .error e => throw (.during context e)

/-- A metadata write whose error ends the call. -/
def set (context : String) (field : Write) : Call Unit := ask context (.setMetadata field)

/-- An event is recorded. -/
def emit (e : Event) : Call Unit := Runs.Fallible.op (Query.emit e)

/-- Writes in order, each with its context. -/
def setAll (writes : List (String × Write)) : Call Unit := writes.forM fun w => set w.1 w.2

/-- Writes, then what has to happen before the marker, then the marker, if there is one. -/
def commit (writes : List (String × Write)) (preMarker : Call Unit) (marker : Option WispID) : Call Unit := do
  setAll writes
  preMarker
  match marker with
  | none => pure ()
  | some id => set "setting last processed wisp" (.lastProcessedWisp (some id))

/-- The count is derived from the closed children, not read from the metadata. -/
def deriveIterationCount (context : String) : Call ℕ := do
  return (childStats (← ask context .children)).closedCount

/-! ## Speculative wisps -/

/-- A pending wisp that is still the next one; other references are cleared. -/
def validPendingNextWisp (nextIteration : ℕ) (pending : Option WispID) : Call (Option WispID) :=
  match pending with
  | none => pure none
  | some id => do
      match ← tryOp (.getBead id) with
      | .ok x =>
        if x.iteration = nextIteration ∧ x.status ≠ .closed then return some id
        else
          let _ ← tryOp (.setMetadata (.pendingNextWisp none))
          return none
      | .error _ =>
        let _ ← tryOp (.setMetadata (.pendingNextWisp none))
        return none

/-- A wisp that was poured in vain is deleted, and forgotten. -/
def burnSpeculativeWisp (context : String) (speculative : Option WispID) : Call Unit :=
  match speculative with
  | none => pure ()
  | some id => do
      ask context (.deleteBead id)
      let _ ← tryOp (.setMetadata (.pendingNextWisp none))

/-- An error, after the speculative wisp has been deleted. -/
def failBurning {α : Type} (e : HandlerError) (speculative : Option WispID) : Call α := do
  match ← attempt (burnSpeculativeWisp "deleting bead" speculative) with
  | .ok _ => throw e
  | .error e' => throw (.also e "additionally burning speculative wisp" e')

/-- The wisp that was poured is remembered. -/
def rememberPending (id : WispID) : Call (Option WispID × Bool) := do
  match ← tryOp (.setMetadata (.pendingNextWisp (some id))) with
  | .ok _ => return (some id, false)
  | .error e => failBurning (.during "setting pending next wisp" e) (some id)

/-- The next wisp, poured before the gate is evaluated, and whether it could not be poured. -/
def pourSpeculative (cfg : Config) (iteration : ℕ) (pending : Option WispID) : Call (Option WispID × Bool) :=
  if iteration < cfg.maxIterations ∧ !(cfg.gate.needsManualWithoutGate || cfg.trigger) ∧ pending = none then do
    match ← tryOp (.pourWisp (iteration + 1) true) with
    | .ok id => rememberPending id
    | .error _ =>
      match ← tryOp (.findByIdempotencyKey (iteration + 1)) with
      | .ok (some id) => rememberPending id
      | _ => return (none, true)
  else return (pending, false)

/-! ## Transitions -/

/-- The wisp that a handler processes. -/
structure Processed where
  root : Meta
  wisp : WispID
  iteration : ℕ
  globalIteration : ℕ

/-- The loop waits for an operator. -/
def transitionToWaitingManual (p : Processed) (reason : WaitingReason) (outcome : Option GateOutcome) :
    Call HandlerResult := do
  emit (.iteration p.iteration p.wisp .waitingManual outcome none (some reason))
  commit [("clearing active wisp", .activeWisp none), ("setting waiting reason", .waitingReason (some reason)),
      ("setting state to waiting_manual", .state .waitingManual)]
    (pure ()) (some p.wisp)
  emit (.waitingManual p.iteration (some p.wisp) reason)
  return { action := .waitingManual, iteration := p.iteration, gateOutcome := outcome, waitingReason := some reason }

/-- The verdict of the agent is cleared if it is about this wisp. -/
def clearVerdict (verdictWisp wisp : Option WispID) : Call Unit :=
  when (wisp ≠ none ∧ verdictWisp = wisp) do
    set "clearing agent verdict" (.agentVerdict "")
    set "clearing agent verdict wisp" (.agentVerdictWisp none)

/-- The loop waits for its outside condition. -/
def transitionToWaitingTrigger (p : Processed) (outcome : Option GateOutcome) : Call HandlerResult := do
  clearVerdict p.root.agentVerdictWisp (some p.wisp)
  emit (.iteration p.iteration p.wisp .waitingTrigger outcome none none)
  commit [("clearing active wisp", .activeWisp none), ("setting state to waiting_trigger", .state .waitingTrigger)]
    (pure ()) (some p.wisp)
  return { action := .waitingTrigger, iteration := p.iteration, gateOutcome := outcome }

/-- The wisp of an iteration, poured if there is none. -/
def pourOrFind (iteration : ℕ) : Call (Except StoreError WispID) := do
  match ← tryOp (.pourWisp iteration false) with
  | .ok id => return .ok id
  | .error e =>
    match ← tryOp (.findByIdempotencyKey iteration) with
    | .ok (some id) => return .ok id
    | _ => return .error e

/-- The next wisp is activated and becomes the active one. -/
def adopt (p : Processed) (outcome : Option GateOutcome) (next : WispID) : Call HandlerResult := do
  ask "activating next wisp" (.activateWisp next)
  emit (.iteration p.iteration p.wisp .iterate outcome (some next) none)
  commit [("setting active wisp", .activeWisp (some next))] (pure ()) (some p.wisp)
  let _ ← tryOp (.setMetadata (.pendingNextWisp none))
  return { action := .iterate, iteration := p.iteration, gateOutcome := outcome, nextWispID := some next }

/-- The loop goes on with the speculative wisp, or with one it pours now. -/
def iterate (p : Processed) (outcome : Option GateOutcome) (speculative : Option WispID) : Call HandlerResult := do
  clearVerdict p.root.agentVerdictWisp (some p.wisp)
  match speculative with
  | some id => adopt p outcome id
  | none =>
    match ← pourOrFind (p.iteration + 1) with
    | .ok id => adopt p outcome id
    | .error _ => transitionToWaitingManual p .slingFailure outcome

/-- What the handler reports when the loop ends. -/
def HandlerAction.ofTerminal : TerminalReason → HandlerAction
  | .approved => .approved
  | .stopped => .stopped
  | .noConvergence | .partialCreation => .noConvergence

/-- The loop ends: both events, the terminal fields, the root closed, and the marker last. -/
def terminate (p : Processed) (reason : TerminalReason) (actor : String) (outcome : Option GateOutcome) :
    Call HandlerResult := do
  emit (.iteration p.iteration p.wisp (.ofTerminal reason) outcome none none)
  emit (.terminated reason p.globalIteration actor)
  commit
    [("setting terminal reason", .terminalReason (some reason)), ("setting terminal actor", .terminalActor actor),
      ("setting state to terminated", .state .terminated)]
    (ask "closing root bead" (.closeRoot "convergence: workflow handler closing root after terminate"))
    (some p.wisp)
  return { action := .ofTerminal reason, iteration := p.iteration, gateOutcome := outcome }

/-! ## A wisp has closed -/

/-- The wisp that the result is about is written last: it says that the rest is complete. -/
def persistGateOutcome (wisp : WispID) (result : GateResult) : Call Unit := do
  setAll
    [("setting gate outcome", .gateOutcome result.outcome), ("setting gate exit code", .gateExitCode result.exitCode),
      ("setting gate retry count", .gateRetryCount result.retryCount), ("setting gate stdout", .gateStdout result.stdout),
      ("setting gate stderr", .gateStderr result.stderr), ("setting gate duration", .gateDurationMs result.durationMs),
      ("setting gate truncated", .gateTruncated result.truncated)]
  set "setting gate outcome wisp" (.gateOutcomeWisp (some wisp))

/-- What follows from the result of the gate. -/
def conclude (cfg : Config) (p : Processed) (outcome : Option GateOutcome) (speculative : Option WispID × Bool) :
    Call HandlerResult :=
  match cfg.decision p.iteration outcome with
  | .hold => do
      burnSpeculativeWisp "burning speculative wisp before waiting_manual" speculative.1
      transitionToWaitingManual p .timeout outcome
  | .iterate =>
    if speculative.2 then transitionToWaitingManual p .slingFailure outcome
    else if cfg.trigger then transitionToWaitingTrigger p outcome
    else iterate p outcome speculative.1
  | .terminal reason => do
      burnSpeculativeWisp "burning speculative wisp before terminal transition" speculative.1
      terminate p reason "controller" outcome

/-- The gate is evaluated once for a wisp; a result that is on record is used again. -/
def evaluate (cfg : Config) (p : Processed) (gate : GateResult) (speculative : Option WispID × Bool) :
    Call HandlerResult :=
  if p.root.gateOutcomeWisp = some p.wisp then conclude cfg p p.root.gate.outcome speculative
  else if cfg.gate.needsManualWithoutGate then do
    burnSpeculativeWisp "burning speculative wisp before waiting_manual" speculative.1
    transitionToWaitingManual p (if cfg.gate.mode = .manual then .manual else .hybridNoCondition) none
  else do
    match ← attempt (persistGateOutcome p.wisp gate) with
    | .error e => failBurning (.within "persisting gate outcome" e) speculative.1
    | .ok _ => conclude cfg p gate.outcome speculative

/-- The iteration of the last processed wisp; zero if it cannot be read. -/
def lastProcessedIteration (root : Meta) : Call ℕ :=
  match root.lastProcessedWisp with
  | none => pure 0
  | some id => do
      match ← tryOp (.getBead id) with
      | .ok x => return x.iteration
      | .error _ => return 0

/-- A gate that is to run a condition and has none. -/
def lacksCondition (cfg : Config) (p : Processed) : Bool :=
  p.root.gateOutcomeWisp ≠ some p.wisp && cfg.gate.mode = .condition && cfg.gate.condition = ""

/-- The steps of `handleWispClosed` once the wisp is known to be new. -/
def processWisp (cfg : Config) (p : Processed) (gate : GateResult) : Call HandlerResult := do
  let pending ← validPendingNextWisp (p.iteration + 1) p.root.pendingNextWisp
  if lacksCondition cfg p then failBurning (.refused .noConditionPath) pending
  else
    let speculative ← pourSpeculative cfg p.iteration pending
    evaluate cfg p gate speculative

/-- A wisp has closed.  A loop that has ended is left, and so is a wisp that was processed before. -/
def handleWispClosed (cfg : Config) (wisp : WispID) (gate : GateResult) : Call HandlerResult := do
  let root ← ask "reading root bead metadata" .getMetadata
  if root.state = .terminated then
    let _ ← tryOp (.closeRoot "convergence: terminated state observed; closing root")
    return { action := .skipped }
  else
    let x ← ask "reading wisp info" (.getBead wisp)
    let last ← lastProcessedIteration root
    if x.iteration ≤ last then return { action := .skipped }
    else
      let globalIteration ← deriveIterationCount "deriving iteration count"
      when (globalIteration ≠ root.iteration) (set "updating iteration count" (.iteration globalIteration))
      processWisp cfg { root, wisp, iteration := x.iteration, globalIteration } gate

/-! ## Waiting for an outside condition -/

/-- The next iteration starts. -/
def advanceFromTrigger (root : Meta) (nextIteration : ℕ) : Call HandlerResult := do
  match ← pourOrFind nextIteration with
  | .error e => throw (.during "pouring wisp" e)
  | .ok next =>
    ask "activating wisp" (.activateWisp next)
    set "setting iteration" (.iteration nextIteration)
    set "setting active wisp" (.activeWisp (some next))
    set "setting state to active" (.state .active)
    emit (.triggerAdvance nextIteration root.lastProcessedWisp (some next))
    return { action := .iterate, iteration := nextIteration, nextWispID := some next }

/-- The outside condition of a loop that waits for it was evaluated. -/
def handleTrigger (cfg : Config) (passes : Bool) : Call HandlerResult := do
  let root ← ask "reading root bead metadata" .getMetadata
  if root.state ≠ .waitingTrigger then return { action := .skipped }
  else if !cfg.trigger then throw (.refused .noTriggerConfigured)
  else
    let closedIterations ← deriveIterationCount "deriving iteration count"
    if cfg.maxIterations < closedIterations + 1 then throw (.refused (.overLimit (closedIterations + 1) cfg.maxIterations))
    else if !passes then return { action := .skipped }
    else advanceFromTrigger root (closedIterations + 1)

/-! ## Operators -/

/-- An operator approves: the loop ends. -/
def approveHandler (username : String) : Call HandlerResult := do
  let root ← ask "reading bead metadata" .getMetadata
  if root.state = .terminated ∧ root.terminalReason = some .approved then return { action := .approved }
  else if root.state ≠ .waitingManual then throw (.refused (.wrongState "approve" root.state))
  else
    let count ← deriveIterationCount "deriving iteration count"
    let actor := "operator:" ++ username
    let wisp := root.activeWisp.or root.lastProcessedWisp
    commit
      [("setting terminal reason", .terminalReason (some .approved)), ("setting terminal actor", .terminalActor actor),
        ("clearing waiting reason", .waitingReason none), ("setting state to terminated", .state .terminated)]
      (do
        emit (.terminated .approved count actor)
        ask "closing bead" (.closeRoot "convergence: iteration closed by manual approve")
        emit (.manualApprove actor count wisp))
      root.lastProcessedWisp
    return { action := .approved, iteration := count }

/-- An operator asks for another iteration. -/
def iterateHandler (cfg : Config) (username : String) : Call HandlerResult := do
  let root ← ask "reading bead metadata" .getMetadata
  if root.state ≠ .waitingManual then throw (.refused (.wrongState "iterate" root.state))
  else
    let count ← deriveIterationCount "deriving iteration count"
    if cfg.maxIterations ≤ count then throw (.refused (.atMaxIterations count cfg.maxIterations))
    else
      match ← pourOrFind (count + 1) with
      | .error e => throw (.during "pouring next wisp" e)
      | .ok next =>
        clearVerdict root.agentVerdictWisp root.lastProcessedWisp
        set "clearing waiting reason" (.waitingReason none)
        set "setting state to active" (.state .active)
        set "setting active wisp" (.activeWisp (some next))
        emit (.manualIterate ("operator:" ++ username) (count + 1) root.lastProcessedWisp (some next))
        return { action := .iterate, iteration := count + 1, nextWispID := some next }

/-- The wisp that a loop is at, when its reference names no bead: the one after the last processed wisp, or the
highest of the children. -/
def recoverCurrentActiveWisp (lastProcessed : Option WispID) : Call (Option Wisp) := do
  let children ← ask "listing children for stale active wisp recovery" .children
  let nextIteration ← (match lastProcessed with
    | none => pure none
    | some id => do
        match ← tryOp (.getBead id) with
        | .ok x => return some (x.iteration + 1)
        | .error .notFound => return none
        | .error e => throw (.during "reading last processed wisp" e))
  match nextIteration with
  | some n =>
    match ← ask "looking up replacement active wisp" (.findByIdempotencyKey n) with
    | none => return none
    | some candidate =>
      match ← tryOp (.getBead candidate) with
      | .ok x => return some x
      | .error .notFound => return none
      | .error e => throw (.during "reading replacement active wisp" e)
  | none => return (childStats children).highestOpen.or (childStats children).highestClosed

/-- The wisp that a reference names, or what it stands for if it names no bead. -/
def resolveActiveWisp (context : String) (root : Meta) : Call (Option (Wisp × Bool)) :=
  match root.activeWisp with
  | none => pure none
  | some id => do
      match ← tryOp (.getBead id) with
      | .ok x => return some (x, false)
      | .error .notFound => return (← recoverCurrentActiveWisp root.lastProcessedWisp).map (·, true)
      | .error e => throw (.during context e)

/-- The end of a stop: `root` as it was last read, and the wisp that is closed by force. -/
def finishStop (root : Meta) (actor : String) (active : Option Wisp) (forced : Bool) : Call HandlerResult := do
  let count ← deriveIterationCount "deriving iteration count"
  set "clearing stale agent verdict" (.agentVerdict "")
  set "clearing stale agent verdict wisp" (.agentVerdictWisp none)
  let wisp := (active.map Wisp.id).or root.lastProcessedWisp
  let marker := if forced then active.map Wisp.id else root.lastProcessedWisp
  commit
    [("setting terminal reason", .terminalReason (some .stopped)), ("setting terminal actor", .terminalActor actor),
      ("clearing waiting reason", .waitingReason none), ("setting state to terminated", .state .terminated)]
    (do
      match active with
      | some x => when forced (emit (.iteration count x.id .stopped none none none))
      | none => pure ()
      emit (.terminated .stopped count actor)
      ask "closing bead" (.closeRoot "convergence: iteration closed by manual stop")
      emit (.manualStop actor root.state count wisp))
    marker
  return { action := .stopped, iteration := count }

/-- The active wisp is closed if it is still open. -/
def forceClose (root : Meta) (actor : String) : Call HandlerResult := do
  match ← resolveActiveWisp "reading active wisp for force-close" root with
  | none => finishStop root actor none false
  | some (x, _) =>
    if x.status = .closed then finishStop root actor (some x) false
    else
      ask "force-closing active wisp" (.closeBead x.id "convergence: active wisp superseded during manual stop")
      finishStop root actor (some x) true

/-- An operator stops the loop. -/
def stopHandler (cfg : Config) (username : String) (gate : GateResult) : Call HandlerResult := do
  let root ← ask "reading bead metadata" .getMetadata
  let actor := "operator:" ++ username
  if root.state = .terminated ∧ root.terminalReason = some .stopped then return { action := .stopped }
  else if root.state ≠ .active ∧ root.state ≠ .waitingManual ∧ root.state ≠ .waitingTrigger then
    throw (.refused (.wrongState "stop" root.state))
  else
    match ← resolveActiveWisp "reading active wisp" root with
    | none => forceClose { root with activeWisp := none } actor
    | some (x, _) =>
      -- An iteration that has been completed is not discarded.
      if x.status = .closed then
        let _ ← mapError (.within "draining completed wisp") (handleWispClosed cfg x.id gate)
        let root ← ask "re-reading metadata after drain" .getMetadata
        if root.state = .terminated then return { action := .stopped } else forceClose root actor
      else forceClose { root with activeWisp := some x.id } actor

/-! ## Recovery -/

/-- What a recovery reports. -/
inductive ReconcileAction
  | noAction
  | completedTerminal
  | adoptedWisp
  | pouredWisp
  | repairedState

/-- A loop that ended under no name gets one. -/
def backfillTerminalActor (root : Meta) : Call Unit :=
  when (root.terminalActor = "") (set "backfilling terminal_actor" (.terminalActor "recovery"))

/-- The children, or none if they cannot be listed. -/
def childrenOrNone : Call (List Wisp) := do
  match ← tryOp .children with
  | .ok children => return children
  | .error _ => return []

/-- An end that was begun is finished. -/
def completeTerminalTransition (root : Meta) (reason : TerminalReason) : Call ReconcileAction := do
  backfillTerminalActor root
  let stats := childStats (← childrenOrNone)
  emit (.terminated reason stats.closedCount (if root.terminalActor = "" then "recovery" else root.terminalActor))
  when (root.state ≠ .terminated) (set "setting state to terminated" (.state .terminated))
  ask "closing bead" (.closeRoot "convergence reconcile: terminated-state bead closed")
  match stats.highestClosed with
  | some x =>
    let _ ← tryOp (.setMetadata (.lastProcessedWisp (some x.id)))
    return .completedTerminal
  | none => return .completedTerminal

variable (cfg : Config) (gate : GateResult)

/-- The loop has a first wisp or gets one. -/
def reconcileMissingState : Call ReconcileAction := do
  match ← ask "looking up iter-1 wisp" (.findByIdempotencyKey 1) with
  | some existing =>
    let x ← ask "reading wisp info" (.getBead existing)
    set "setting active_wisp" (.activeWisp (some existing))
    set "setting iteration" (.iteration (if x.status = .closed then 1 else 0))
    set "setting state" (.state .active)
    if x.status = .closed then
      let _ ← mapError (.within "replaying wisp_closed for adopted wisp") (handleWispClosed cfg existing gate)
      return .adoptedWisp
    else return .adoptedWisp
  | none =>
    let wisp ← ask "pouring first wisp" (.pourWisp 1 false)
    set "setting active_wisp" (.activeWisp (some wisp))
    set "setting iteration" (.iteration 0)
    set "setting state" (.state .active)
    return .pouredWisp

/-- A creation that was interrupted is given up. -/
def reconcileCreating : Call ReconcileAction := do
  set "setting terminal_reason" (.terminalReason (some .partialCreation))
  set "setting terminal_actor" (.terminalActor "recovery")
  set "setting state to terminated" (.state .terminated)
  ask "closing bead" (.closeRoot "convergence reconcile: terminated-state bead closed")
  return .completedTerminal

/-- A loop that has ended is closed. -/
def reconcileTerminatedNotClosed (root : Meta) : Call ReconcileAction := do
  if ← ask "reading bead info" .getRoot then return .noAction
  else
    backfillTerminalActor root
    let stats := childStats (← childrenOrNone)
    emit (.terminated (root.terminalReason.getD .noConvergence) stats.closedCount
      (if root.terminalActor = "" then "recovery" else root.terminalActor))
    ask "closing bead" (.closeRoot "convergence reconcile: terminated-state bead closed")
    return .completedTerminal

/-- A loop that waits for an operator: the marker and the reason are repaired. -/
def reconcileWaitingManual (root : Meta) : Call ReconcileAction := do
  match root.terminalReason, root.waitingReason with
  | some reason, _ => completeTerminalTransition root reason
  | none, some waiting =>
    match ← tryOp .children with
    | .error e =>
      emit (.waitingManual root.iteration root.lastProcessedWisp waiting)
      throw (.during "listing children" e)
    | .ok children =>
      emit (.waitingManual root.iteration root.lastProcessedWisp waiting)
      match (childStats children).highestClosed with
      | some x =>
        if root.lastProcessedWisp = some x.id then return .noAction
        else
          set "repairing last_processed_wisp" (.lastProcessedWisp (some x.id))
          return .repairedState
      | none => return .noAction
  | none, none =>
    let children ← ask "listing children" .children
    if (childStats children).highestClosed.isSome then
      set "setting default waiting_reason" (.waitingReason (some .manual))
      return .repairedState
    else return .noAction

/-- A loop that waits for its condition. -/
def reconcileWaitingTrigger (root : Meta) : Call ReconcileAction :=
  match root.terminalReason with
  | some reason => completeTerminalTransition root reason
  | none => pure .noAction

/-- The wisp of the next iteration: the pending one, another that is there, or a new one. -/
def wispToResume (nextIteration : ℕ) (pending : Option WispID) : Call (WispID × ReconcileAction) := do
  match ← validPendingNextWisp nextIteration pending with
  | some valid => return (valid, .adoptedWisp)
  | none =>
    match ← ask "looking up next wisp" (.findByIdempotencyKey nextIteration) with
    | some existing => return (existing, .adoptedWisp)
    | none =>
      let poured ← ask "pouring wisp" (.pourWisp nextIteration false)
      return (poured, .pouredWisp)

/-- The next wisp of a loop that has no active one. -/
def resumeChain (root : Meta) : Call ReconcileAction := do
  let children ← ask "listing children" .children
  let (next, action) ← wispToResume ((childStats children).closedCount + 1) root.pendingNextWisp
  ask "activating wisp" (.activateWisp next)
  set "setting active_wisp" (.activeWisp (some next))
  let _ ← tryOp (.setMetadata (.pendingNextWisp none))
  return action

/-- A loop that runs: the wisp it is at is found, and its closing replayed if it was missed. -/
def reconcileActive (cfg : Config) (root : Meta) (gate : GateResult) : Call ReconcileAction := do
  match root.terminalReason with
  | some reason => completeTerminalTransition root reason
  | none =>
    match ← resolveActiveWisp "reading active wisp" root with
    | none => resumeChain root
    | some (x, recovered) =>
      when recovered (set "setting recovered active wisp" (.activeWisp (some x.id)))
      match x.status with
      | .opened | .inProgress => return (if recovered then .repairedState else .noAction)
      | .closed =>
        if root.lastProcessedWisp = some x.id then return .noAction
        else
          let _ ← mapError (.within "replaying wisp_closed") (handleWispClosed cfg x.id gate)
          return .repairedState
      | .other _ => throw (.refused (.unexpectedStatus x.id))

/-- The recovery of one loop, by its state. -/
def reconcileBead : Call ReconcileAction := do
  let root ← ask "reading metadata" .getMetadata
  match root.state with
  | .missing => reconcileMissingState cfg gate
  | .creating => reconcileCreating
  | .terminated => reconcileTerminatedNotClosed root
  | .waitingManual => reconcileWaitingManual root
  | .waitingTrigger => reconcileWaitingTrigger root
  | .active => reconcileActive cfg root gate

/-! ## Creation -/

/-- The root bead is there; the metadata that do not change are not written here. -/
def createHandler (cfg : Config) : Call (Option WispID) := do
  set "setting creating state" (.state .creating)
  if cfg.trigger then
    set "setting iteration" (.iteration 0)
    set "setting waiting_trigger state" (.state .waitingTrigger)
    emit (.created none)
    return none
  else
    set "setting active state" (.state .active)
    let first ← ask "pouring first wisp" (.pourWisp 1 false)
    set "setting active wisp" (.activeWisp (some first))
    set "setting iteration" (.iteration 1)
    emit (.created (some first))
    return some first

/-- A loop as a creation leaves it whose calls succeed.  One that fails closes the root bead again, and leaves no loop
to run. -/
def created (cfg : Config) : World := ((createHandler cfg).toProgram.run (serve .clean) {}).2

/-! ## Runs -/

/-- The handler that a request is served by. -/
def Request.program (cfg : Config) : Request → Runs.Program Query Answer Unit
  | .wispClosed wisp gate => (handleWispClosed cfg wisp gate).discard
  | .trigger passes => (handleTrigger cfg passes).discard
  | .approve username => (approveHandler username).discard
  | .iterate username => (iterateHandler cfg username).discard
  | .stop username gate => (stopHandler cfg username gate).discard
  | .reconcile gate => (reconcileBead cfg gate).discard

/-- What can happen to a loop. -/
inductive Move
  /-- A call, with the fates of its operations; with too few of them it crashes. -/
  | call (r : Request) (fates : List Fate)
  /-- An agent gives a wisp that it sees another status. -/
  | progress (wisp : WispID) (status : MemStore.Status)
  /-- An agent gives its verdict. -/
  | verdict (text : String) (wisp : Option WispID)

/-- The loop after a move. -/
def World.move (cfg : Config) (w : World) : Move → World
  | .call r fates => ((r.program cfg).follow serve fates (w.note (.called r w.root.state))).2
  | .progress id status => if (w.find id).any (fun x => !x.hidden) then w.setStatus id status else w
  | .verdict text wisp => (w.write (.agentVerdict text)).write (.agentVerdictWisp wisp)

/-- Every move is allowed where it is made. -/
def Moves (cfg : Config) (allowed : World → Move → Prop) : World → List Move → Prop
  | _, [] => True
  | w, m :: moves => allowed w m ∧ Moves cfg allowed (w.move cfg m) moves

/-- The loop after a run. -/
def World.moves (cfg : Config) (w : World) (moves : List Move) : World := moves.foldl (World.move cfg) w

end DeliveryEngine.Convergence
