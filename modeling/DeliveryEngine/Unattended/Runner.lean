import DeliveryEngine.Unattended.Controller
import DeliveryEngine.Unattended.Fence
import DeliveryEngine.Unattended.Journal

/-!
# The runner

The runner takes the task the queue offers, verifies the fence before a mutating one, executes it, and lets the verdict
decide what becomes of it.  `Runner.runOne` is one such step, `Runner.loop` the whole drain and `Runner.run` the run.
What a step reads from outside is its `Surroundings`.  An iteration of the loop is a `Turn`; a run over a list of turns
is `none` when the list ends before the run does.
-/

namespace DeliveryEngine.Unattended

open Go

/-! ## The preflight report, as far as a run reads it -/

/-- The outcomes of a preflight check. -/
inductive OutcomeName
  | pass
  | humanBoundary
  | notReached
  | fail
  deriving DecidableEq

instance : Vocabulary OutcomeName where
  all := [.pass, .humanBoundary, .notReached, .fail]
  text
    | .pass => "pass"
    | .humanBoundary => "human-boundary"
    | .notReached => "not-reached"
    | .fail => "fail"
  mem_all := by rintro ⟨⟩ <;> decide
  nodup := by decide

/-- One preflight check. -/
structure Check where
  id : String
  outcome : Named OutcomeName
  observed : String := ""
  boundary : String := ""

/-- The preflight report. -/
structure Report where
  readiness : String := ""
  checks : List Check

namespace Report

variable (r : Report)

def check (id : String) : Option Check := r.checks.find? (·.id = id)

/-- The human action that clears each boundary check. -/
def boundaries : GoMap String :=
  (r.checks.filter (·.outcome = .known .humanBoundary)).foldl (fun m c => m.set c.id c.boundary) ∅

/-- What preflight read about a tool's version. -/
def observedToolVersion (tool : String) : String :=
  match r.check ("tool." ++ tool) with
  | none => ""
  | some c => if c.outcome = .known .pass then c.observed else ""

end Report

/-! ## The runner's state -/

/-- How a run ended. -/
inductive RunOutcome
  | completed
  | blockedHuman
  | awaitingAuth
  | failed
  deriving DecidableEq

def RunOutcome.text : RunOutcome → String
  | .completed => "completed"
  | .blockedHuman => "blocked-human"
  | .awaitingAuth => "awaiting-auth"
  | .failed => "failed"

/-- A run in progress. -/
structure Runner where
  spec : Spec
  plan : Plan
  report : Report
  fence : Fence
  journal : Journal
  queue : Queue
  evidence : Ledger
  startedAt : Time := Time.zero
  lastMilestone : String := ""
  stopReason : String := ""
  stopClass : FailureClass := FailureClass.unset
  stopOutcome : Option RunOutcome := none
  attempts : ℕ := 0
  resumes : ℕ := 0

/-- What the two writes of a publication reported. -/
structure PublishErrors where
  progress : Option String := none
  delivery : Option String := none

/-- What one step of the run reads from outside. -/
structure Surroundings where
  /-- The reading the fence is checked against. -/
  ground : Ground
  started : Time
  finished : Time
  execution : Execution
  /-- Where a failure's output was written, or why it was not. -/
  capture : Except String String
  observedAt : Time
  /-- The reading an advance is recorded from, and the one its refusal is checked against. -/
  advanceGround : Ground
  recheckGround : Ground
  publishBefore : PublishErrors := {}
  publishAfter : PublishErrors := {}

namespace Surroundings

variable (s : Surroundings)

def elapsed : Duration := s.finished.sub s.started

/-- The attempt as the queue records its success. -/
def success : TaskAttempt :=
  { startedAt := s.started, succeeded := true, duration := Duration.text (s.elapsed.round Duration.millisecond) }

/-- The attempt as the queue records its failure. -/
def failure (v : ControllerVerdict) : TaskAttempt :=
  { startedAt := s.started, succeeded := false, cls := v.cls, reason := v.reason,
    duration := Duration.text (s.elapsed.round Duration.millisecond) }

end Surroundings

namespace Runner

variable (host : Host) (r : Runner)

/-- Write records to the journal. -/
def log (records : List Record) : Runner :=
  { r with journal := r.journal.appendAll records }

/-- Replace the queue by what an operation made of it. -/
def withQueue (q : Queue) : Runner := { r with queue := q }

/-- Note why the run must stop, and how the stop is to be reported. -/
def stopFor (reason : String) (cls : FailureClass) (outcome : Option RunOutcome) : Runner :=
  { r with stopReason := reason, stopClass := cls, stopOutcome := outcome }

/-- The records of a publication whose writes failed. -/
def publishRecords (e : PublishErrors) : List Record :=
  let failed (outcome err : String) : Record :=
    { kind := .known .preflight, outcome := outcome, detail := err }
  (e.progress.map (failed "progress-publication-failed")).toList ++
    (e.delivery.map (failed "delivery-projection-failed")).toList

/-- Publish the heartbeat and the delivery projection.  A failure to publish is recorded and does
not stop the run. -/
def publish (e : PublishErrors) : Runner := r.log (publishRecords e)

/-- The packet's progression eligibility against the evidence recorded so far and the revision in
hand. -/
def qaDecision : ProgressionDecision := evaluateProgression r.spec.qa r.plan.risk r.fence.head r.evidence

/-- Fold a gate task's verdict into the evidence ledger, bound to the fence's position. -/
def recordGateEvidence (t : Task) (result : GateResult) (detail : String) (now : Time) : Runner :=
  if t.qaGate = "" ∨ result.text = "" then r
  else
    let tool := t.argv.headD ""
    let ev : GateEvidence :=
      { gateID := t.qaGate, taskID := t.id, result := result, observedAt := now,
        reproduce := t.argv, detail := detail, tool := tool,
        toolVersion := if t.argv = [] then "" else r.report.observedToolVersion tool,
        targetSHA := r.fence.head, evidencePath := "" }
    { r with evidence := r.evidence.record ev }.log
      [{ kind := .known .gateEvidence, taskID := t.id, outcome := result.text,
         detail := s!"gate {ev.gateID} against {shortSHA ev.targetSHA}", gate := some ev }]

/-- Move the fence to the commit this run just made. -/
def recordAdvance (t : Task) (s : Surroundings) : Runner :=
  let (fence, res, err) := r.fence.recordAuthorisedAdvance
    ("task " ++ t.id ++ " mutated the worktree") s.advanceGround s.recheckGround
  match err with
  | some err =>
    { r with fence := fence }.log
      [{ kind := .known .fenceViolated, taskID := t.id,
         outcome := (res.map (fun (res : FenceResult) => res.status.text)).getD "",
         detail := "an advance after a mutating task was refused: " ++ err }]
  | none =>
    { r with fence := fence }.log [{ kind := .known .fenceAdvanced, taskID := t.id, detail := shortSHA fence.head }]

/-- Keep a failed attempt's output, and say where it went. -/
def captureFailure (taskID : String) (attempt : ℕ) (capture : Except String String) : Runner × String :=
  match capture with
  | .error err =>
    (r.log [{ kind := .known .taskFailed, taskID := taskID, attempt := attempt,
              outcome := "failure-output-not-captured", detail := err }], "not captured")
  | .ok path => (r, path)

/-! ## What becomes of an attempt -/

variable (r : Runner) (i : ℕ) (t : QueuedTask) (s : Surroundings) (v : ControllerVerdict)

/-- The attempt succeeded. -/
def succeed : Runner :=
  let r := r.log
    [{ kind := .known .taskSucceeded, taskID := t.task.id, attempt := t.attemptCount + 1,
       durationMS := s.elapsed.milliseconds, detail := v.reason }]
  let r := r.withQueue (r.queue.recordAttempt i s.success).1
  let r := { r with lastMilestone := t.task.id ++ " succeeded" }
  let r := r.recordGateEvidence t.task v.gateResult "" s.observedAt
  let r := if t.task.mutates then r.recordAdvance t.task s else r
  r.publish s.publishAfter

/-- The task has more to do, or was cut off at its turn cap: offer it again while it has resumes
left, and hold it when it has none. -/
def driveAgain : Runner :=
  let (queue, used, budget, mayResume) := r.queue.recordResume i
  let r := { r.withQueue queue with resumes := r.resumes + 1 }.log
    [{ kind := .known .taskResumed, taskID := t.task.id, attempt := t.attemptCount,
       outcome := v.disposition.text, durationMS := s.elapsed.milliseconds,
       detail := s!"{v.reason} (resume {used} of {budget})" }]
  if mayResume then
    { r with lastMilestone :=
        s!"{t.task.id} {v.disposition.text} (resume {used} of {budget})" }.publish s.publishAfter
  else
    let reason := s!"did not converge within its {budget} resume(s): {v.reason}"
    let r := (r.withQueue (r.queue.hold i reason)).log
      [{ kind := .known .taskHeld, taskID := t.task.id, outcome := TaskState.held.text, detail := reason }]
    (r.recordGateEvidence t.task (.known .error) reason s.observedAt).publish s.publishAfter

/-- The task reached a limit only a person can lift: hold it and end the run. -/
def stopOnHumanBoundary : Runner :=
  let (r, outputPath) := r.captureFailure t.task.id (t.attemptCount + 1) s.capture
  let r := (r.withQueue (r.queue.hold i v.reason)).log
    [{ kind := .known .taskHeld, taskID := t.task.id, attempt := t.attemptCount + 1,
       cls := v.cls, outcome := TaskState.held.text,
       detail := v.reason ++ " | output: " ++ outputPath }]
  let r := r.recordGateEvidence t.task v.gateResult (v.reason ++ " | output: " ++ outputPath) s.observedAt
  let r := r.stopFor s!"{t.task.id} reached a boundary this run may not cross: {v.reason}" v.cls
    (some (if v.cls = .known .auth then .awaitingAuth else .blockedHuman))
  r.publish s.publishAfter

/-- Record a failed attempt, and its gate's verdict once the queue is finished with the task. -/
def recordFailure : Runner :=
  let (r, outputPath) := r.captureFailure t.task.id (t.attemptCount + 1) s.capture
  let detail := v.reason ++ " | " ++ firstLine (host.redact s.execution.text) ++ " | output: " ++ outputPath
  let queue := (r.queue.recordAttempt i (s.failure v)).1
  let state := queue.stateAt i
  let r := (r.withQueue queue).log
    [{ kind := .known .taskFailed, taskID := t.task.id, attempt := t.attemptCount + 1,
       cls := v.cls, outcome := state.text, durationMS := s.elapsed.milliseconds,
       detail := detail }]
  if state = .failed then r.recordGateEvidence t.task v.gateResult detail s.observedAt else r

/-- The attempt failed: record it, and end the run when the class of failure does. -/
def failAttempt : Runner × Bool :=
  let retryIn := (r.queue.recordAttempt i (s.failure v)).2
  let r := r.recordFailure host i t s v
  let policy := policyFor v.cls
  if policy.stopsRun then
    let r := r.stopFor (s!"{t.task.id} failed with a {v.cls.text} failure, " ++
      s!"which ends the run: {policy.why}") v.cls r.stopOutcome
    (r.publish s.publishAfter, true)
  else
    match retryIn with
    | some delay =>
      let r := r.log
        [{ kind := .known .taskRetry, taskID := t.task.id, attempt := t.attemptCount + 1,
           cls := v.cls, detail := "retrying in " ++ Duration.text delay }]
      (r.publish s.publishAfter, false)
    | none => (r.publish s.publishAfter, false)

/-- Journal the start of an attempt, and count it unless it ends resumably. -/
def start (t : QueuedTask) (v : ControllerVerdict) : Runner :=
  let r := r.log
    [{ kind := .known .taskStarted, taskID := t.task.id, attempt := t.attemptCount + 1,
       detail := joinWith t.task.argv " " }]
  if v.disposition.resumable then r else { r with attempts := r.attempts + 1 }

/-- Execute the task and let the verdict decide what becomes of it. -/
def attempt : Runner × Bool :=
  let v := interpretExecution host s.execution r.spec.classification
  let r := r.start t v
  match v.disposition with
  | .succeeded => (r.succeed i t s v, false)
  | .continue => (r.driveAgain i t s v, false)
  | .resume => (r.driveAgain i t s v, false)
  | .humanBlocked => (r.stopOnHumanBoundary i t s v, true)
  | .retry => r.failAttempt host i t s v
  | .failSafe => r.failAttempt host i t s v

/-- The fence was violated: hold the task and end the run. -/
def stopOnViolation (i : ℕ) (t : QueuedTask) (res : FenceResult) : Runner :=
  let r := r.log
    [{ kind := .known .fenceViolated, taskID := t.task.id, outcome := res.status.text,
       detail := s!"expected {quote res.expected}, observed {quote res.observed} — " ++ res.evidence }]
  let r := r.withQueue (r.queue.hold i ("the repository moved outside this run: " ++ res.status.text))
  r.stopFor (res.error.getD "") (.known .concurrentWriter) r.stopOutcome

/-- Attempt a single task.  The second component says whether the run must stop. -/
def runOne : Runner × Bool :=
  let r := r.publish s.publishBefore
  if t.task.mutates then
    let res := r.fence.check s.ground
    if res.intact then
      let r := r.log [{ kind := .known .fenceVerified, taskID := t.task.id, detail := res.expected }]
      r.attempt host i t s
    else (r.stopOnViolation i t res, true)
  else r.attempt host i t s

/-! ## How a run ended -/

/-- The terminal record of a run. -/
structure CompletionEvent where
  runID : String
  projectID : String
  session : String
  outcome : RunOutcome
  reason : String
  startedAt : Time
  finishedAt : Time
  duration : String
  worktree : String
  branch : String
  head : String
  tasks : TaskState → ℕ
  attempts : ℕ
  resumes : ℕ
  humanActions : List String
  failures : List String
  qa : ProgressionDecision

/-- Whether a person clears a boundary by authenticating. -/
def isAuthBoundary (checkID : String) : Bool := hasPrefix checkID "credential." || checkID = "github.auth"

/-- The hold reasons of the held tasks, each said once, under the first task that has it. -/
def humanActions : List String → List QueuedTask → List String
  | _, [] => []
  | seen, t :: ts =>
    if t.state = .held ∧ t.heldReason ≠ "" ∧ t.heldReason ∉ seen then
      (t.task.id ++ ": " ++ t.heldReason) :: humanActions (t.heldReason :: seen) ts
    else humanActions seen ts

/-- The ids of the failed tasks, sorted. -/
def failures : List String :=
  sortStrings ((r.queue.tasks.filter (·.state = .failed)).map (·.task.id))

/-- Whether a held task waits on an authentication. -/
def awaitsAuth : Bool :=
  r.queue.tasks.any (fun t => t.state = .held && t.task.requiresChecks.any (fun id =>
    (r.report.boundaries.get? id).isSome && isAuthBoundary id))

/-- How the run ended, and why. -/
def outcome : RunOutcome × String :=
  let held := r.queue.count .held
  if r.stopReason ≠ "" then (r.stopOutcome.getD .failed, r.stopReason)
  else if r.failures ≠ [] then
    (.failed, s!"{r.failures.length} task(s) exhausted their attempts: " ++ joinWith r.failures ", ")
  else if 0 < held ∧ r.awaitsAuth then
    (.awaitingAuth, s!"{held} task(s) are waiting on an authentication a person must perform")
  else if 0 < held then
    (.blockedHuman, s!"{held} task(s) are held behind a human boundary; " ++
      "everything else the run could do is done")
  else if !r.qaDecision.allowed then
    (.failed, "the packet may not progress: " ++ r.qaDecision.reason)
  else (.completed, "every declared task succeeded")

/-- The terminal record of the run. -/
def finish (now : Time) : CompletionEvent :=
  { runID := r.plan.runID, projectID := r.spec.projectID, session := r.spec.session,
    outcome := r.outcome.1, reason := r.outcome.2,
    startedAt := r.startedAt, finishedAt := now,
    duration := Duration.text ((now.sub r.startedAt).round Duration.second),
    worktree := r.fence.worktree, branch := r.fence.branch, head := r.fence.head,
    tasks := r.queue.count, attempts := r.attempts, resumes := r.resumes,
    humanActions := humanActions [] r.queue.tasks, failures := r.failures,
    qa := r.qaDecision }

/-! ## The run -/

/-- One iteration of the loop: the context was cancelled, or it was not and a task may be taken. -/
inductive Turn
  | cancelled (err : String)
  | taken (s : Surroundings)

def loop : List Turn → Runner → Option Runner
  | [], _ => none
  | .cancelled err :: _, r => some (r.stopFor ("the run was canceled: " ++ err) (.known .environment) r.stopOutcome)
  | .taken s :: turns, r =>
    match r.queue.next with
    | none => some r
    | some (i, t) =>
      let (r, stop) := r.runOne host i t s
      if stop then some r else loop turns r

/-- What a whole run reads from outside. -/
structure RunInput where
  startedAt : Time
  publishStart : PublishErrors := {}
  turns : List Turn
  finishedAt : Time
  /-- The clock when the end of the run is journaled. -/
  closedAt : Time
  completion : Option String := none
  publishEnd : PublishErrors := {}

variable (input : RunInput)

/-- Journal the start of the run. -/
def opened : Runner :=
  let r := { r with startedAt := input.startedAt }.log
    [{ kind := .known .runStarted, runID := r.plan.runID,
       detail := s!"session={r.spec.session} worktree={r.fence.worktree} " ++
         s!"branch={r.fence.branch} head={shortSHA r.fence.head}" }]
  r.publish input.publishStart

/-- Journal how the run ended. -/
def closed (event : CompletionEvent) : Runner :=
  let r := r.log
    [{ kind := .known .runFinished, outcome := event.outcome.text, detail := event.reason,
       durationMS := (input.closedAt.sub r.startedAt).milliseconds }]
  if input.completion.isSome then r else r.publish input.publishEnd

/-- Run the plan and return how it ended, with the runner as it was left. -/
def run : Option (CompletionEvent × Runner) :=
  (loop host input.turns (r.opened input)).map (fun r =>
    let event := r.finish input.finishedAt
    (event, r.closed input event))

end Runner

end DeliveryEngine.Unattended
