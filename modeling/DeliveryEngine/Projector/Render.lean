import DeliveryEngine.Projector.State

/-!
# The projected document

`render` emits the projection in the consumer's document shape: fixed field order, tasks and lists
sorted.  The only verdict formed on the way is whether a deliverable is met (`Deliverable.resolve`).

The document is the same whatever order the map of tasks is visited in (`render_congr`).
-/

namespace DeliveryEngine.Projector

open Go

/-! ## Deliverables -/

/-- Whether a package's row shows it delivered: terminal, with its completion gate met. -/
def isDelivered (tasks : GoMap Task) (pkg : String) : Bool :=
  match tasks.get? pkg with
  | none => false
  | some t => isTerminalStatus t.status && t.completionGateStatus = .known .met

/-- Decide a deliverable's state from the packages that claimed it. -/
def Deliverable.resolve (tasks : GoMap Task) (d : Deliverable) : Deliverable :=
  if d.satisfiedBy = [] ∧ d.remediatedBy = [] then
    -- Nothing claimed it.  Only the acceptance record can say that a person did.
    { d with met := d.acceptedBy ≠ "" }
  else
    { d with
      met :=
        (d.satisfiedBy ++ d.remediatedBy).all (isDelivered tasks) &&
          -- While a finding stands, nothing repairing it is not the same as repaired.
          !(d.invalidated.isSome && d.remediatedBy = []) }

def State.resolveDeliverables (s : State) : State :=
  { s with deliverables := s.deliverables.map (Deliverable.resolve s.tasks) }

/-! ## Scalars and lists -/

/-- The version of the document's shape. -/
def schemaVersion : ℕ := 1

def yamlScalar (v : String) : String :=
  if v = "" then "\"\""
  else "\"" ++ String.ofList (v.toList.flatMap (fun c => if c = '"' then ['\\', '"'] else [c])) ++ "\""

/-- An optional scalar: absence looks like absence. -/
def yamlOpt (v : String) : String := if trimSpace v = "" then "null" else yamlScalar v

/-- An optional timestamp. -/
def yamlOptTime (t : Time) : String := if t.isZero then "null" else "\"" ++ t.rfc3339 ++ "\""

/-- An optional number. -/
def yamlOptInt (v : ℤ) : String := if v = 0 then "null" else toString v

def yamlBool (b : Bool) : String := if b then "true" else "false"

/-- A field of the document on a line of its own. -/
def line (key value : String) : String := key ++ ": " ++ value ++ "\n"

/-- A sorted sequence, or an explicit empty list. -/
def writeList (key : String) (vals : List String) : String :=
  if vals = [] then line ("    " ++ key) "[]"
  else "    " ++ key ++ ":\n" ++ String.join ((sortStrings vals).map (fun v => "      - " ++ yamlScalar v ++ "\n"))

/-- A sequence of blocks under a key, or an explicit empty list. -/
def writeBlocks {α : Type} (key : String) (write : α → String) (items : List α) : String :=
  if items = [] then line key "[]" else key ++ ":\n" ++ String.join (items.map write)

/-! ## The document -/

def writeProject (p : ProjectMeta) : String :=
  "project:\n" ++ line "  projectId" (yamlScalar p.projectID) ++ line "  strategy" (yamlScalar p.strategy) ++
    line "  authoritativeRef" (yamlOpt p.authoritativeRef) ++
    line "  currentPhase" (yamlScalar p.currentPhase) ++
    line "  currentMilestone" (yamlScalar p.currentMilestone) ++
    line "  overallRag" (yamlScalar p.overallRag) ++
    line "  overallRagReason" (yamlScalar p.overallRagReason) ++
    line "  lastUpdateTimestamp" (yamlOptTime p.lastUpdateTimestamp) ++
    line "  latestAcceptedMainSha" (yamlOpt p.latestAcceptedMainSha)

def writeAttempt (a : Attempt) : String :=
  line "      - date" (yamlOptTime a.date) ++ line "        outcome" (yamlScalar a.outcome) ++
    line "        summary" (yamlScalar a.summary) ++ line "        evidence" (yamlOpt a.evidence)

def writeTask (t : Task) : String :=
  line "  - taskId" (yamlScalar t.taskID) ++ line "    title" (yamlScalar t.title) ++
    line "    phase" (yamlScalar t.phase) ++ line "    taskType" (yamlScalar t.taskType) ++
    line "    status" (yamlScalar t.status.text) ++ line "    priority" (yamlScalar t.priority) ++
    line "    ownerType" (yamlScalar t.ownerType) ++ line "    branch" (yamlOpt t.branch) ++
    line "    pullRequest" (yamlOptInt t.pullRequest) ++ writeList "dependencies" t.dependencies ++
    line "    parallelGroup" (yamlOpt t.parallelGroup) ++
    line "    criticalPath" (yamlBool t.criticalPath) ++
    line "    actualStart" (yamlOptTime t.actualStart) ++
    line "    actualFinish" (yamlOptTime t.actualFinish) ++
    line "    implementationSha" (yamlOpt t.implementationSha) ++
    line "    completionGate" (yamlOpt t.completionGate) ++
    line "    completionGateStatus" (yamlScalar t.completionGateStatus.text) ++
    writeList "evidence" t.evidence ++ line "    blocker" (yamlOpt t.blocker) ++
    line "    nextPhysicalAction" (yamlOpt t.nextPhysicalAction) ++
    line "    lastReviewed" (yamlOptTime t.lastReviewed) ++
    writeBlocks "    attempts" writeAttempt t.attempts

def writeInvalidation (inv : DeliverableInvalidation) (remediatedBy : List String) : String :=
  "    invalidated:\n" ++ line "      seq" (toString inv.seq) ++
    line "      by" (yamlScalar inv.raisedBy) ++ line "      reason" (yamlScalar inv.reason) ++
    line "      evidence" (yamlScalar inv.evidence) ++ line "      at" (yamlOpt inv.raisedAt) ++
    line "      previousState" (yamlScalar inv.previousState) ++
    writeList "remediatedBy" remediatedBy

def writeDeliverable (d : Deliverable) : String :=
  line "  - deliverableId" (yamlScalar d.id) ++ line "    statement" (yamlScalar d.statement) ++
    line "    met" (yamlBool d.met) ++
    (if d.acceptedBy = "" then ""
      else line "    acceptedBy" (yamlScalar d.acceptedBy) ++
        (if d.acceptedAt = "" then "" else line "    acceptedAt" (yamlScalar d.acceptedAt))) ++
    writeList "satisfiedBy" d.satisfiedBy ++
    (match d.invalidated with
      | none => ""
      | some inv => writeInvalidation inv d.remediatedBy)

def writeBlocker (b : Blocker) : String :=
  line "  - blockerId" (yamlScalar b.blockerID) ++ line "    summary" (yamlScalar b.summary) ++
    line "    humanBoundary" (yamlBool b.humanBoundary) ++ line "    evidence" (yamlOpt b.evidence)

def writeOutcome (o : CompletedOutcome) : String :=
  line "  - date" (yamlOptTime o.date) ++ line "    summary" (yamlScalar o.summary) ++
    line "    evidence" (yamlOpt o.evidence)

/-- The lines every document starts with. -/
def header : String :=
  "# GENERATED BY THE DELIVERY ENGINE PROJECTOR - DO NOT EDIT.\n" ++
    "# Execution facts: Gas City event bus (starts) and bead store (terminal records).\n" ++
    "# Live PR/CI/merge state is read by the dashboard from GitHub, not from this file.\n" ++
    "# Hand edits are overwritten and are not a source of truth.\n" ++
    line "schemaVersion" (toString schemaVersion)

variable (order : List String) (s : State)

/-- The tasks as the document lists them: by id, the ids collected by a range over the map. -/
def State.listed : List Task := (sortStrings order).filterMap s.tasks.get?

/-- The document.  A status outside the canonical vocabulary is refused. -/
def render : Except String String := do
  let tasks := s.listed order
  tasks.forM (fun t => validateTaskStatus t.status)
  return header ++ writeProject s.project ++ "activeTasks:\n" ++ String.join (tasks.map writeTask) ++
    writeBlocks "deliverables" writeDeliverable s.resolveDeliverables.deliverables ++
    writeBlocks "currentBlockers" writeBlocker s.currentBlockers ++
    line "deferredWork" "[]" ++
    writeBlocks "recentCompletedOutcomes" writeOutcome s.completedOutcomes

/-! ## The document does not depend on the order of the range -/

/-- A state has the same document in whatever order its tasks are visited. -/
theorem render_congr {xs ys : List String} {s : State} (hxs : GoMap.Enumerates xs s.tasks)
    (hys : GoMap.Enumerates ys s.tasks) : render xs s = render ys s := by
  unfold render State.listed
  rw [sortStrings_congr (hxs.perm hys)]

end DeliveryEngine.Projector
