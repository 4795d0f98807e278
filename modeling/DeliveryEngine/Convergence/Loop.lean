import DeliveryEngine.Beads.MemStore
import DeliveryEngine.Runs.Faults

/-!
# Convergence loops

A convergence loop is a root bead whose metadata say where the loop stands, and its wisps: child beads, one for each
iteration, in which an agent works.  A wisp that is poured before it is known whether it is wanted is hidden from the
agents until it is activated or deleted.  `World.history` is not in the source: it records what happened, so that
"after" and "since" can be said.
-/

namespace DeliveryEngine.Convergence

open MemStore (Status)

/-! ## Configuration -/

inductive GateMode
  | manual
  | condition
  | hybrid
  deriving DecidableEq

inductive TimeoutAction
  | iterate
  | retry
  | manual
  | terminate
  deriving DecidableEq

/-- `GateConfig`: the condition is a path, empty if there is none. -/
structure GateConfig where
  mode : GateMode := .manual
  condition : String := ""
  timeoutAction : TimeoutAction := .iterate

/-- `HybridNeedsManual`. -/
def hybridNeedsManual (gate : GateConfig) : Bool := gate.condition = ""

/-- The gate cannot decide, so somebody has to. -/
def GateConfig.needsManualWithoutGate (gate : GateConfig) : Bool :=
  gate.mode = .manual || (gate.mode = .hybrid && hybridNeedsManual gate)

/-- What a loop is created with. -/
structure Config where
  maxIterations : ℕ
  gate : GateConfig := {}
  /-- Iterations wait for an outside condition. -/
  trigger : Bool := false
  positive : 0 < maxIterations

/-! ## Gates -/

inductive GateOutcome
  | pass
  | fail
  | timeout
  | error
  deriving DecidableEq

structure GateResult where
  outcome : Option GateOutcome := none
  exitCode : Option ℤ := none
  retryCount : ℕ := 0
  stdout : String := ""
  stderr : String := ""
  durationMs : ℤ := 0
  truncated : Bool := false
  deriving DecidableEq

inductive TerminalReason
  | approved
  | noConvergence
  | stopped
  | partialCreation
  deriving DecidableEq

inductive WaitingReason
  | manual
  | hybridNoCondition
  | timeout
  | slingFailure
  deriving DecidableEq

/-- What is to be done about a gate result. -/
inductive Decision
  | hold
  | terminal (reason : TerminalReason)
  | iterate
  deriving DecidableEq

/-- The decision on the result of the gate for an iteration. -/
def Config.decision (cfg : Config) (iteration : ℕ) (outcome : Option GateOutcome) : Decision :=
  if outcome = some .timeout ∧ cfg.gate.timeoutAction = .manual then .hold
  else if outcome = some .pass then .terminal .approved
  else if outcome = some .timeout ∧ cfg.gate.timeoutAction = .terminate then .terminal .noConvergence
  else if cfg.maxIterations ≤ iteration then .terminal .noConvergence
  else .iterate

/-! ## The root bead -/

inductive LoopState
  | missing
  | creating
  | active
  | waitingManual
  | waitingTrigger
  | terminated
  deriving DecidableEq

/-- The number of a wisp in its store. -/
abbrev WispID := ℕ

/-- The metadata that change; an absent identifier is an empty text. -/
structure Meta where
  state : LoopState := .missing
  iteration : ℕ := 0
  activeWisp : Option WispID := none
  lastProcessedWisp : Option WispID := none
  pendingNextWisp : Option WispID := none
  agentVerdict : String := ""
  agentVerdictWisp : Option WispID := none
  gate : GateResult := {}
  gateOutcomeWisp : Option WispID := none
  terminalReason : Option TerminalReason := none
  terminalActor : String := ""
  waitingReason : Option WaitingReason := none

/-- One `SetMetadata` on the root bead. -/
inductive Write
  | state (v : LoopState)
  | iteration (v : ℕ)
  | activeWisp (v : Option WispID)
  | lastProcessedWisp (v : Option WispID)
  | pendingNextWisp (v : Option WispID)
  | agentVerdict (v : String)
  | agentVerdictWisp (v : Option WispID)
  | gateOutcome (v : Option GateOutcome)
  | gateExitCode (v : Option ℤ)
  | gateRetryCount (v : ℕ)
  | gateStdout (v : String)
  | gateStderr (v : String)
  | gateDurationMs (v : ℤ)
  | gateTruncated (v : Bool)
  | gateOutcomeWisp (v : Option WispID)
  | terminalReason (v : Option TerminalReason)
  | terminalActor (v : String)
  | waitingReason (v : Option WaitingReason)

def Meta.set (m : Meta) : Write → Meta
  | .state v => { m with state := v }
  | .iteration v => { m with iteration := v }
  | .activeWisp v => { m with activeWisp := v }
  | .lastProcessedWisp v => { m with lastProcessedWisp := v }
  | .pendingNextWisp v => { m with pendingNextWisp := v }
  | .agentVerdict v => { m with agentVerdict := v }
  | .agentVerdictWisp v => { m with agentVerdictWisp := v }
  | .gateOutcome v => { m with gate := { m.gate with outcome := v } }
  | .gateExitCode v => { m with gate := { m.gate with exitCode := v } }
  | .gateRetryCount v => { m with gate := { m.gate with retryCount := v } }
  | .gateStdout v => { m with gate := { m.gate with stdout := v } }
  | .gateStderr v => { m with gate := { m.gate with stderr := v } }
  | .gateDurationMs v => { m with gate := { m.gate with durationMs := v } }
  | .gateTruncated v => { m with gate := { m.gate with truncated := v } }
  | .gateOutcomeWisp v => { m with gateOutcomeWisp := v }
  | .terminalReason v => { m with terminalReason := v }
  | .terminalActor v => { m with terminalActor := v }
  | .waitingReason v => { m with waitingReason := v }

/-! ## Wisps -/

structure Wisp where
  id : WispID
  iteration : ℕ
  status : Status := .opened
  /-- Poured on speculation, and not activated. -/
  hidden : Bool := false

/-- What the children of a root bead say about its loop. -/
structure ChildStats where
  closedCount : ℕ := 0
  highestClosed : Option Wisp := none
  highestOpen : Option Wisp := none

/-- The wisp with the higher iteration; of two with one iteration the first. -/
def higher (best : Option Wisp) (w : Wisp) : Option Wisp :=
  match best with
  | none => some w
  | some b => if b.iteration < w.iteration then some w else some b

def childStats (children : List Wisp) : ChildStats :=
  children.foldl (fun stats child =>
    match child.status with
    | .closed =>
      { stats with closedCount := stats.closedCount + 1, highestClosed := higher stats.highestClosed child }
    | .opened | .inProgress => { stats with highestOpen := higher stats.highestOpen child }
    | .other _ => stats) {}

/-! ## History -/

/-- The outcome of a handler. -/
inductive HandlerAction
  | iterate
  | approved
  | noConvergence
  | waitingManual
  | waitingTrigger
  | stopped
  | skipped
  deriving DecidableEq

inductive Event
  | created (firstWisp : Option WispID)
  | iteration (iteration : ℕ) (wisp : WispID) (action : HandlerAction) (outcome : Option GateOutcome)
      (next : Option WispID) (waiting : Option WaitingReason)
  | waitingManual (iteration : ℕ) (wisp : Option WispID) (reason : WaitingReason)
  | terminated (reason : TerminalReason) (totalIterations : ℕ) (actor : String)
  | manualApprove (actor : String) (iteration : ℕ) (wisp : Option WispID)
  | manualIterate (actor : String) (iteration : ℕ) (wisp next : Option WispID)
  | manualStop (actor : String) (prior : LoopState) (iteration : ℕ) (wisp : Option WispID)
  | triggerAdvance (iteration : ℕ) (wisp next : Option WispID)
  deriving DecidableEq

/-- The calls of the controller.  What a gate or a trigger condition would say is decided beforehand. -/
inductive Request
  | wispClosed (wisp : WispID) (gate : GateResult)
  | trigger (passes : Bool)
  | approve (username : String)
  | iterate (username : String)
  | stop (username : String) (gate : GateResult)
  | reconcile (gate : GateResult)
  deriving DecidableEq

inductive Note
  /-- A call, and the state of the loop when it came. -/
  | called (r : Request) (state : LoopState)
  | poured (iteration : ℕ)
  | activated (iteration : ℕ)
  | closed (iteration : ℕ)
  | persisted (iteration : ℕ) (outcome : Option GateOutcome)
  | emitted (e : Event)
  deriving DecidableEq

/-! ## The store -/

structure World where
  root : Meta := {}
  rootClosed : Bool := false
  /-- In the order in which they were poured. -/
  wisps : List Wisp := []
  minted : ℕ := 0
  /-- The newest first. -/
  history : List Note := []

inductive StoreError
  | notFound
  | fault (text : String)

inductive Op
  | getMetadata
  | setMetadata (w : Write)
  | getBead (id : WispID)
  /-- Whether the root bead is closed. -/
  | getRoot
  | closeRoot (reason : String)
  | closeBead (id : WispID) (reason : String)
  /-- The wisp with all below it. -/
  | deleteBead (id : WispID)
  | children
  | pourWisp (iteration : ℕ) (speculative : Bool)
  | activateWisp (id : WispID)
  | findByIdempotencyKey (iteration : ℕ)

@[reducible] def Op.Value : Op → Type
  | .getMetadata => Meta
  | .getBead _ => Wisp
  | .getRoot => Bool
  | .children => List Wisp
  | .pourWisp _ _ => WispID
  | .findByIdempotencyKey _ => Option WispID
  | _ => Unit

namespace World

variable (w : World)

def note (n : Note) : World := { w with history := n :: w.history }

def find (id : WispID) : Option Wisp := w.wisps.find? (·.id = id)

def keyed (iteration : ℕ) : Option Wisp := w.wisps.find? (·.iteration = iteration)

def change (id : WispID) (f : Wisp → Wisp) : World :=
  { w with wisps := w.wisps.map fun x => if x.id = id then f x else x }

/-- The result of the gate is on record once the wisp that it is for is. -/
def write (field : Write) : World :=
  let written := { w with root := w.root.set field }
  match field with
  | .gateOutcomeWisp (some id) =>
    match w.find id with
    | some x => written.note (.persisted x.iteration w.root.gate.outcome)
    | none => written
  | _ => written

/-- A wisp gets a status; a closed one is left alone. -/
def setStatus (id : WispID) (status : Status) : World :=
  match w.find id with
  | some x =>
    if x.status = .closed then w
    else
      let changed := w.change id fun x => { x with status }
      if status = .closed then changed.note (.closed x.iteration) else changed
  | none => w

def pour (iteration : ℕ) (speculative : Bool) : World :=
  let poured := { w with
    wisps := w.wisps ++ [{ id := w.minted, iteration, hidden := speculative }]
    minted := w.minted + 1
    history := .poured iteration :: w.history }
  if speculative then poured else poured.note (.activated iteration)

/-- A hidden wisp is shown to the agents. -/
def activate (x : Wisp) : World :=
  if x.hidden then (w.change x.id fun y => { y with hidden := false }).note (.activated x.iteration) else w

end World

/-- An operation that is served. -/
def Op.exec : (op : Op) → World → Except StoreError op.Value × World
  | .getMetadata, w => (.ok w.root, w)
  | .setMetadata field, w => (.ok (), w.write field)
  | .getBead id, w =>
    match w.find id with
    | some x => (.ok x, w)
    | none => (.error .notFound, w)
  | .getRoot, w => (.ok w.rootClosed, w)
  | .closeRoot _, w => (.ok (), { w with rootClosed := true })
  | .closeBead id _, w =>
    match w.find id with
    | some _ => (.ok (), w.setStatus id .closed)
    | none => (.error .notFound, w)
  | .deleteBead id, w =>
    match w.find id with
    | some _ => (.ok (), { w with wisps := w.wisps.filter (·.id ≠ id) })
    | none => (.error .notFound, w)
  | .children, w => (.ok w.wisps, w)
  | .pourWisp iteration speculative, w =>
    match w.keyed iteration with
    | some x => (.ok x.id, w)
    | none => (.ok w.minted, w.pour iteration speculative)
  | .activateWisp id, w =>
    match w.find id with
    | some x => (.ok (), w.activate x)
    | none => (.error .notFound, w)
  | .findByIdempotencyKey iteration, w => (.ok ((w.keyed iteration).map Wisp.id), w)

inductive Query
  | store (op : Op)
  | emit (e : Event)

def Answer : Query → Type
  | .store op => Except StoreError op.Value
  | .emit _ => Unit

/-- How one operation goes. -/
abbrev Fate := Runs.Fault String

/-- Events are recorded; operations of the store go as fate has it. -/
def serve (fate : Fate) : (q : Query) → World → Answer q × World
  | .emit e, w => ((), w.note (.emitted e))
  | .store op, w =>
    match fate with
    | .clean => op.exec w
    | .refused e => (.error (.fault e), w)
    | .unacknowledged e => (.error (.fault e), (op.exec w).2)

end DeliveryEngine.Convergence
