import DeliveryEngine.Dispatch.Scope
import Mathlib.Data.Prod.Lex

/-!
# The control dispatcher: finalizing a workflow

The finalizer blocks on the sinks of a workflow.  Once they are all closed, `processWorkflowFinalize` decides the
outcome of the workflow from them and from the members that abort their scope, closes the root with it, closes
what is left of the workflow, and after a pass closes the beads the workflow was made for, the *source chain*.

The dispatcher is the one without a resolver for other stores: a source in another store ends the chain.
-/

namespace DeliveryEngine.Dispatch

open Beads
open Runs (Fallible)

/-! ## The outcome -/

/-- The outcome of what a bead blocks on. -/
def resolveBlockedOutcome (id : String) : M String := do
  let deps ← StoreM.depList id .down
  (deps.filter (·.type = .blocks)).foldlM (fun outcome dep => do
    let blocker ← getBead dep.dependsOnID
    Fallible.orElse (blocker.status = .closed)
      ⟨.finalizePending, "workflow finalize pending: blocker " ++ blocker.id ++ " is still open"⟩
    pure (if beadOutcomeFailed blocker then "fail" else outcome)) "pass"

variable (b : Bead)

/-- A failure that ends its workflow, whoever blocks on it. -/
def terminalAbortScopeFailure : Bool :=
  b.status = .closed && Go.trimSpace (b.meta .onFail) = "abort_scope" && beadOutcomeFailed b &&
    Go.trimSpace (b.meta .failureClass) ≠ "transient" && !isRetryAttemptSubject b

def workflowRootHasTerminalAbortScopeFailure (rootID finalizerID : String) : M Bool := do
  let all ← listByWorkflowRoot rootID
  pure (all.any fun b => b.id ≠ finalizerID && terminalAbortScopeFailure b)

def resolveFinalizeOutcome (finalizer : Bead) : M String := do
  let outcome ← resolveBlockedOutcome finalizer.id
  let rootID := Go.trimSpace (finalizer.meta .rootBeadID)
  if outcome = "pass" ∧ rootID ≠ "" then do
    let failed ← workflowRootHasTerminalAbortScopeFailure rootID finalizer.id
    pure (if failed then "fail" else outcome)
  else pure outcome

/-! ## The source chain -/

/-- The letters that fold to an ASCII letter. -/
def foldsTo (letter c : Char) : Bool :=
  c = letter || c.toLower = letter || (letter = 'k' && c.toNat = 0x212A) || (letter = 's' && c.toNat = 0x17F)

/-- `strings.EqualFold` with a lower-case ASCII text. -/
def equalFold (s lower : String) : Bool :=
  s.toList.length = lower.toList.length && (lower.toList.zip s.toList).all fun p => foldsTo p.1 p.2

/-- `sourceworkflow.IsWorkflowRoot`. -/
def isWorkflowRoot : Bool :=
  equalFold (Go.trimSpace (b.meta .kind)) "workflow" ||
    equalFold (Go.trimSpace (b.meta (.other "gc.formula_contract"))) "graph.v2"

/-- The workflows and the further sources that were made for a source. -/
def sourceWorkflows (sourceID rootID : String) : M (List Bead × List Bead) := do
  let live ← StoreM.list [(.sourceBeadID, sourceID)] false
  let all ← StoreM.list [(.sourceBeadID, sourceID)] true
  let matched : Bead → Bool := fun b => Go.trimSpace (b.meta .sourceBeadID) = sourceID
  pure (live.filter fun b => isWorkflowRoot b && matched b && b.id ≠ rootID,
    all.filter fun b => b.id ≠ "" && !isWorkflowRoot b && matched b)

/-- Whether a live workflow other than `rootID` was made for a source, or for a bead made for it.  `fuel` bounds
how many sources are looked at. -/
def hasLiveSourceWorkflow (rootID : String) : ℕ → List String → List String → M Bool
  | 0, _, _ => pure false
  | _ + 1, _, [] => pure false
  | fuel + 1, visited, source :: rest =>
    let sourceID := Go.trimSpace source
    if sourceID = "" ∨ sourceID ∈ visited then hasLiveSourceWorkflow rootID fuel visited rest
    else do
      let found ← sourceWorkflows sourceID rootID
      if found.1 ≠ [] then pure true
      else hasLiveSourceWorkflow rootID fuel (sourceID :: visited) (found.2.map (·.id) ++ rest)

/-- Close a source bead, with an outcome if it has none. -/
def closeSourceBeadPreservingOutcome : M Unit :=
  updateBead b.id {
    status := some .closed
    metadata := if Go.trimSpace (b.meta .outcome) = "" then [(.outcome, "pass")] else [] }

/-- One source bead of the chain: whether the walk goes on. -/
def visitSource (rootID : String) (scanLimit : ℕ) (mutate : Bool) (current : Bead) (nextID : String) : M Bool := do
  match ← StoreM.get nextID with
  | none => pure false
  | some loaded => do
      let live ← hasLiveSourceWorkflow rootID scanLimit [] [nextID]
      if live then pure false
      else if mutate then do
        Fallible.when (nonEngine current.metadata ≠ []) (within ("propagating source bead metadata " ++ nextID ++
          " in current store") (setMetadata loaded.id (nonEngine current.metadata)))
        Fallible.when (loaded.status ≠ .closed) (within ("closing source bead " ++ nextID ++ " in current store")
          (closeSourceBeadPreservingOutcome loaded))
        pure true
      else pure true

/-- Walk up from a workflow root; `hops` bounds the chain. -/
def walkSourceBeadChain (rootID : String) (scanLimit : ℕ) (mutate : Bool) : ℕ → List String → String → M Unit
  | 0, _, _ => throw ⟨.plain, "source chain depth limit reached after 32 hops"⟩
  | hops + 1, visited, currentID => do
      match ← StoreM.get currentID with
      | none => pure ()
      | some current => do
          let nextID := Go.trimSpace (current.meta .sourceBeadID)
          if nextID = "" ∨ Go.trimSpace (current.meta .sourceStoreRef) ≠ "" ∨ nextID ∈ visited then pure ()
          else do
            let onwards ← visitSource rootID scanLimit mutate current nextID
            if onwards then walkSourceBeadChain rootID scanLimit mutate hops (nextID :: visited) nextID
            else pure ()

def maxSourceChainHops : ℕ := 32

/-! ## Closing what is left -/

/-- Put blockers before what they block, as far as that can be done; `fuel` is the number of beads. -/
def blockersFirst (blockedBy : List (String × List String)) : ℕ → List String → List String → List String
  | 0, _, emitted => emitted
  | fuel + 1, waiting, emitted =>
    match waiting.find? fun id => ((blockedBy.lookup id).getD []).all (emitted.contains ·) with
    | some id => blockersFirst blockedBy fuel (waiting.erase id) (emitted ++ [id])
    | none => emitted ++ waiting

/-- `closeorder.Order`. -/
def closeOrder (ids : List String) : M (List String) :=
  if ids.length ≤ 1 then pure ids
  else do
    let blockedBy ← ids.foldlM (fun (acc : List (String × List String)) id => do
      let deps ← StoreM.depList id .down
      pure (acc ++ [(id, (deps.filter fun dep => dep.type = .blocks && ids.contains dep.dependsOnID &&
        dep.dependsOnID ≠ id).map (·.dependsOnID))])) []
    pure (blockersFirst blockedBy ids.length ids [])

def closeOrdered (ids : List String) (metadata : Metadata) : M Unit :=
  if ids = [] then pure ()
  else do
    let ordered ← closeOrder ids
    let _ ← StoreM.closeAll ordered metadata
    pure ()

/-- `sourceworkflow.IsGeneratedSpecSidecar`. -/
def isGeneratedSpecSidecar : Bool :=
  equalFold (Go.trimSpace (b.meta .kind)) "spec" || equalFold (Go.trimSpace b.type) "spec"

def workflowSpecSidecarClosedReason : String := "workflow cleanup: generated spec sidecar closed with workflow root"

def workflowSkippedCloseReason : String := "workflow cleanup: subtree bead force-closed via skip directive"

def closeSpecSidecarsForRoot (rootID : String) : M Unit := do
  let rootID := Go.trimSpace rootID
  if rootID = "" then pure ()
  else do
    let found ← StoreM.list [(.rootBeadID, rootID)] true
    let specs := found.filter fun b => b.id ≠ "" && b.status ≠ .closed && isGeneratedSpecSidecar b
    closeOrdered (Go.sortStrings (specs.map (·.id)))
      [(.outcome, "pass"), (.closeReason, workflowSpecSidecarClosedReason)]

/-- The children of beads, and their children; `fuel` bounds how many beads are looked at. -/
def listDescendants : ℕ → List Bead → List String → M (List Bead)
  | 0, out, _ => pure out
  | _ + 1, out, [] => pure out
  | fuel + 1, out, parentID :: queue => do
      let children ← StoreM.children parentID
      let fresh := children.filter fun b => b.id ≠ "" && !out.any (·.id = b.id)
      listDescendants fuel (out ++ fresh) (queue ++ fresh.map (·.id))

variable (scanLimit : ℕ)

/-- `molecule.ListSubtree`. -/
def listSubtree (rootID : String) : M (List Bead) := do
  let rootID := Go.trimSpace rootID
  if rootID = "" then pure []
  else do
    let root ← getBead rootID
    let members ← StoreM.list [(.rootBeadID, rootID)] true
    let found := root :: members.filter fun b => b.id ≠ "" && b.id ≠ root.id
    listDescendants scanLimit found (found.map (·.id))

/-- How deep a bead is under the beads around it, and the memo.  A bead that is being visited is marked with `-1` and
counts as zero; a call deeper visits another bead, so `fuel` is enough with one more than there are beads. -/
def depthAmong (all : List Bead) : ℕ → String → List (String × ℤ) → ℤ × List (String × ℤ)
  | 0, _, memo => (0, memo)
  | fuel + 1, id, memo =>
    match memo.lookup id, all.find? (·.id = id) with
    | some d, _ => (if d = -1 then 0 else d, memo)
    | none, none => (0, memo)
    | none, some b =>
      let parentID := Go.trimSpace b.parentID
      if parentID = "" ∨ parentID = id ∨ !all.any (·.id = parentID) then (0, (id, 0) :: memo)
      else
        let (d, memo) := depthAmong all fuel parentID ((id, -1) :: memo)
        (d + 1, (id, d + 1) :: memo)

variable (all : List Bead) (asked : List String) (id : String)

/-- The depth of a bead once others have been asked for; where parents form a cycle, it depends on which. -/
def depthAfter : ℤ :=
  let fuel := all.length + 1
  (depthAmong all fuel id (asked.foldl (fun memo id => (depthAmong all fuel id memo).2) [])).1

/-- The deeper bead is closed first, and of two as deep the one with the lesser identifier. -/
def closeKey : ℤ ×ₗ String := toLex (-depthAfter all asked id, id)

/-- The beads that are not closed, the deepest first; `asked` is the order in which the sort asks for depths. -/
def openDeepestFirst (matched : List Bead) (asked : List String := []) : List String :=
  let sorted := matched.insertionSort fun a b => closeKey matched asked a.id ≤ closeKey matched asked b.id
  (sorted.filter fun b => b.id ≠ "" && b.status ≠ .closed).map (·.id)

/-- `molecule.CloseSubtreeWithMetadata`. -/
def closeSubtreeWithMetadata (rootID : String) (metadata : Metadata) : M Unit := do
  let matched ← listSubtree scanLimit rootID
  closeOrdered (openDeepestFirst matched) metadata

/-! ## The finalizer -/

/-- What remains of a text when its UTF-8 form is cut to a limit, without a broken character. -/
def truncateBytes : ℕ → List Char → List Char
  | _, [] => []
  | limit, c :: cs => if c.utf8Size ≤ limit then c :: truncateBytes (limit - c.utf8Size) cs else []

variable {α : Type} (finalizerID : String)

/-- Record on the finalizer why finalizing failed. -/
def recordWorkflowFinalizeError (e : Failure) : M α := do
  let reason := String.ofList (truncateBytes 512 (Go.trimSpace e.text).toList)
  match ← Fallible.attempt (setMetadata finalizerID [(.lastFinalizeError, reason)]) with
  | .ok () => throw e
  | .error e' => throw { e with
      text := e.text ++ "\n" ++ "recording workflow finalize error on " ++ finalizerID ++ ": " ++ e'.text }

/-- Run a part of finalizing; its error is recorded. -/
def recording (context : String) (p : M α) : M α := do
  match ← Fallible.attempt p with
  | .ok a => pure a
  | .error (e : Failure) => recordWorkflowFinalizeError finalizerID (e.within context)

variable (bead : Bead) (rootID : String)

/-- What follows the closing of the root. -/
def finishFinalize (outcome : String) : M ControlResult := do
  recording bead.id (rootID ++ ": closing workflow spec sidecars") (closeSpecSidecarsForRoot rootID)
  recording bead.id (rootID ++ ": closing terminal workflow members") (closeSubtreeWithMetadata scanLimit rootID
      [(.outcome, "skipped"), (.closeReason, workflowSkippedCloseReason)])
  Fallible.when (outcome = "pass") (recording bead.id (rootID ++ ": closing source bead chain")
    (walkSourceBeadChain rootID scanLimit true maxSourceChainHops [] rootID))
  recording bead.id (bead.id ++ ": completing workflow finalizer") (setOutcomeAndClose bead.id "pass")
  pure { processed := true, action := "workflow-" ++ outcome }

/-- A finalizer whose root is gone is closed. -/
def finalizeMissingRoot : M ControlResult := do
  recording bead.id (bead.id ++ ": closing orphaned finalizer (root " ++ rootID ++ " missing)")
    (setOutcomeAndClose bead.id "missing_root")
  pure { processed := true, action := "workflow-missing_root" }

/-- Close the root, and what is left of the workflow. -/
def finalizeWith (outcome : String) : M ControlResult := do
  Fallible.when (outcome = "pass") (recording bead.id (rootID ++ ": preflighting source bead chain")
    (walkSourceBeadChain rootID scanLimit false maxSourceChainHops [] rootID))
  match ← Fallible.attempt (setOutcomeAndClose rootID outcome) with
  | .ok () => finishFinalize scanLimit bead rootID outcome
  | .error (e : Failure) =>
    if e.cause = .notFound then finalizeMissingRoot bead rootID
    else recordWorkflowFinalizeError bead.id (e.within (rootID ++ ": completing workflow head"))

/-- An error of `resolveFinalizeOutcome` as the finalizer reports it. -/
def finalizeOutcomeError (id : String) (e : Failure) : Failure :=
  if e.cause = .finalizePending then .controlPending else e.within (id ++ ": resolving workflow outcome")

def processWorkflowFinalize (bead : Bead) : M ControlResult := do
  let rootID := bead.meta .rootBeadID
  Fallible.orElse (rootID ≠ "") ⟨.plain, bead.id ++ ": missing gc.root_bead_id"⟩
  let outcome ← Fallible.mapError (finalizeOutcomeError bead.id) (resolveFinalizeOutcome bead)
  finalizeWith scanLimit bead rootID outcome

end DeliveryEngine.Dispatch
