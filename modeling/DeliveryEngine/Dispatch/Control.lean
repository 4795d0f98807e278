import DeliveryEngine.Dispatch.Finalize

/-!
# The control dispatcher: one call

`processControl` is one call of the dispatcher on a control bead.  A control that is not open is skipped.  Before
any kind of control is handled, `closeOrphanedControl` looks at the root of its workflow: a control whose root is
gone is closed as failed, and a control whose root is canceled is closed as canceled.  The finalizer is exempt,
and so is a control that does not say which store its root is in.
-/

namespace DeliveryEngine.Dispatch

open Beads
open Runs (Fallible)

/-- What the dispatcher does for the kinds of controls that have modules of their own. -/
structure Handlers where
  retry : Bead → M ControlResult
  ralph : Bead → M ControlResult
  check : Bead → M ControlResult
  retryEval : Bead → M ControlResult
  fanout : Bead → M ControlResult
  drain : Bead → M ControlResult

/-- `clearControllerSpawnErrorMetadata`: what it sets. -/
def clearedControllerError : Metadata :=
  [(.controllerError, ""), (.controllerErrorClass, ""), (.controllerRetryable, "")]

def controlRootCanceledCloseReason : String := "control closed: workflow root canceled via run cancel"

/-- Whether a workflow root says that its run was canceled. -/
def rootCanceled (root : Bead) : Bool :=
  Go.trimSpace (root.meta .outcome) = "canceled" || Go.trimSpace (root.meta .cancelRequested) ≠ ""

def closeCanceledControl (bead : Bead) : M ControlResult := do
  within (bead.id ++ ": closing canceled control") (updateMetadataAndClose bead.id
    ([(.outcome, "canceled"), (.closeReason, controlRootCanceledCloseReason)] ++ clearedControllerError))
  pure { processed := true, action := "canceled-workflow" }

def closeControlOfMissingRoot (bead : Bead) (rootID : String) : M ControlResult := do
  within (bead.id ++ ": closing orphaned control") (updateMetadataAndClose bead.id
    ([(.outcome, "fail"), (.failureClass, "hard"), (.failureReason, "missing_workflow_root"),
      (.finalDisposition, "orphaned_workflow"), (.missingRootBeadID, rootID)] ++ clearedControllerError))
  pure { processed := true, action := "orphaned-workflow" }

/-- Whether a control is held against the root of its workflow before it is handled. -/
def isGated (bead : Bead) : Bool :=
  let rootID := Go.trimSpace (bead.meta .rootBeadID)
  bead.meta .kind ≠ "workflow-finalize" && rootID ≠ "" && Go.trimSpace (bead.meta .rootStoreRef) ≠ "" &&
    rootID ≠ bead.id

/-- Close a control that has lost its root; `none` when it is to be handled. -/
def closeOrphanedControl (bead : Bead) : M (Option ControlResult) :=
  if isGated bead then do
    let rootID := Go.trimSpace (bead.meta .rootBeadID)
    match ← StoreM.get rootID with
    | some root =>
      if rootCanceled root then do
        let result ← closeCanceledControl bead
        pure (some result)
      else pure none
    | none => do
        let result ← closeControlOfMissingRoot bead rootID
        pure (some result)
  else pure none

variable (handlers : Handlers) (scanLimit : ℕ)

def handleControl (bead : Bead) : M ControlResult :=
  match bead.meta .kind with
  | "retry" => handlers.retry bead
  | "ralph" => handlers.ralph bead
  | "check" => handlers.check bead
  | "retry-eval" => handlers.retryEval bead
  | "fanout" => handlers.fanout bead
  | "drain" => handlers.drain bead
  | "scope-check" => processScopeCheck bead
  | "workflow-finalize" => processWorkflowFinalize scanLimit bead
  | kind => throw ⟨.plain, bead.id ++ ": unsupported control bead kind " ++ Go.quote kind⟩

def processControl (bead : Bead) : M ControlResult :=
  if bead.status ≠ .opened then pure {}
  else do
    match ← closeOrphanedControl bead with
    | some result => pure result
    | none => handleControl handlers scanLimit bead

/-- A call of the dispatcher, from the reading of the control on. -/
def runControlDispatcher (beadID : String) : M ControlResult := do
  let bead ← getBead beadID
  processControl handlers scanLimit bead

end DeliveryEngine.Dispatch
