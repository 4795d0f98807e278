import DeliveryEngine.Molecule.Instantiate

/-!
# Attaching a sub-DAG

`attach` grafts a recipe onto a bead that then blocks on the new sub-DAG's root.  The root carries an idempotency key,
which a call first looks for, and the attach bead a control epoch: the call that moves it from the expected epoch to
the next one is the winner.  Until then the root carries a fence marker, which moves from `true` to `activating` and on
to empty, or from `true` to `failed`.  A call that finds only candidates under the marker `true` cannot tell which of
them won, and settles on the first by identifier.
-/

namespace DeliveryEngine.Molecule

open Beads Formulas
open Runs (Fallible)

/-- What the store offers, and the city wants, of conditional writes. -/
inductive ConditionalWrites
  /-- The store has none. -/
  | absent
  /-- The store has them, and they are switched off. -/
  | disabled
  /-- The store has them, and they are used. -/
  | active
  /-- They are required of a store that has none. -/
  | refused

/-- What `attach` takes from its surroundings. -/
structure Host where
  check : BeadCheck := fun _ _ => none
  /-- The refusal of `ValidateRecipeRuntimeVars`, if any. -/
  varsProblem : Recipe → String → List (String × String) → Option String := fun _ _ _ => none
  conditionalWrites : ConditionalWrites := .active

/-- `beads.ResolveConditionalWriter`: whether there is a writer to use. -/
def Host.resolveConditionalWriter (host : Host) : M Bool :=
  match host.conditionalWrites with
  | .active => pure true
  | .absent | .disabled => pure false
  | .refused => throw (.failed "conditional writes required")

/-- `beads.ConditionalWriterFor`: whether the store can compare and set at all. -/
def Host.conditionalWriterFor (host : Host) : Bool :=
  match host.conditionalWrites with
  | .active | .disabled => true
  | .absent | .refused => false

structure AttachOptions where
  title : String := ""
  vars : List (String × String) := []
  idempotencyKey : String := ""
  expectedEpoch : ℤ := 0

structure AttachResult where
  rootID : String
  workflowRootID : String
  created : ℕ := 0
  idMapping : IDMapping := []
  duplicate : Bool := false

/-- `beadmeta.ResolveRunID`: the root of the run a bead belongs to, or the bead itself. -/
def resolveRunID (m : Metadata) (selfID : String) : String :=
  (([Key.workflowID, .moleculeID, .rootBeadID].map fun k => Go.trimSpace (m.get k)).find? (· ≠ "")).getD
    (Go.trimSpace selfID)

/-! ## The fence marker -/

def attachFencePendingUnclaimed : String := "true"
def attachFencePendingActivating : String := "activating"
def attachFencePendingFailed : String := "failed"

/-- `b.Metadata[gc.attach_fence_pending]`. -/
def marker (b : Bead) : String := b.meta .attachFencePending

def notFound (id : String) : Failure := .failed ("bead " ++ Go.quote id ++ " not found")

/-- Read a bead that should exist. -/
def getBead (id : String) : M Bead := do
  match ← StoreM.get id with
  | none => throw (notFound id)
  | some b => pure b

/-- Set metadata of a bead that should exist. -/
def setMetadata (id : String) (kvs : Metadata) : M Unit := do
  let found ← StoreM.setMetadataBatch id kvs
  Fallible.orElse found (notFound id)

/-- Compare and set on a bead that should exist. -/
def compareAndSet (id : String) (key : Key) (expected next : String) : M Bool := do
  match ← StoreM.compareAndSetMetadataKey id key expected next with
  | none => throw (notFound id)
  | some won => pure won

/-- Move the marker of a candidate, if it is where it should be; whether this call moved it. -/
def claimAttachCandidate (host : Host) (rootID source target : String) : M Bool :=
  if host.conditionalWriterFor then compareAndSet rootID .attachFencePending source target
  else do
    let b ← getBead rootID
    if marker b = source then do
      setMetadata rootID [(.attachFencePending, target)]
      pure true
    else pure false

/-- Restore the deferred beads of a candidate, one after the other. -/
def activateAll (ids : List String) : M Unit :=
  forM ids fun id => do
    let found ← activateFencedGraphWorkflowBead id
    Fallible.orElse found (notFound id)

/-- Take a candidate from `true` to `activating`, or find that another did. `false`: it is live already. -/
def claimForActivation (host : Host) (rootID : String) : M Bool := do
  let won ← claimAttachCandidate host rootID attachFencePendingUnclaimed attachFencePendingActivating
  if won then pure true
  else do
    let b ← getBead rootID
    if marker b = "" then pure false
    else if marker b = attachFencePendingActivating then pure true
    else throw (.epochConflict ("attach candidate " ++ rootID ++ " was neutralized before activation"))

/-- Clear the marker of a candidate that is activating. -/
def clearMarker (host : Host) (rootID : String) : M Unit := do
  let won ← claimAttachCandidate host rootID attachFencePendingActivating ""
  if won then pure ()
  else do
    let b ← getBead rootID
    Fallible.orElse (marker b = "") (.epochConflict ("attach candidate " ++ rootID ++ " marker moved to " ++
      Go.quote (marker b) ++ " during activation"))

/-- Make a candidate live: claim it, restore its beads, clear its marker. -/
def activateAttachCandidate (host : Host) (rootID : String) (idMapping : IDMapping) : M Unit := do
  let claimed ← claimForActivation host rootID
  if claimed then do
    activateAll (Go.sortStrings ((idMapping.map Prod.snd).filter (· ≠ "")))
    clearMarker host rootID
  else pure ()

/-! ## The beads of an existing sub-DAG -/

/-- The references a step may be known by. -/
def attachStepRefs (step : RecipeStep) : List String :=
  let ref := Go.trimSpace (step.meta .stepRef)
  let id := Go.trimSpace step.id
  (if ref = "" then [] else [ref]) ++ if id = "" ∨ id = ref then [] else [id]

def beadRef (b : Bead) : String :=
  let ref := Go.trimSpace (b.meta .stepRef)
  if ref = "" then Go.trimSpace b.ref else ref

def innerSteps (recipe : Recipe) : List RecipeStep := recipe.steps.drop 1 |>.filter (!·.isRoot)

def rootSteps (recipe : Recipe) : List RecipeStep := recipe.steps.take 1 ++ (recipe.steps.drop 1).filter (·.isRoot)

/-- Give the steps that wait for a reference its bead, unless they have one. -/
def adoptBead (recipe : Recipe) (m : IDMapping) (b : Bead) : IDMapping :=
  if b.meta .moleculeFailed = "true" ∨ beadRef b = "" then m
  else (innerSteps recipe).foldl (fun m step =>
    if beadRef b ∈ attachStepRefs step ∧ m.get step.id = "" then m.set step.id b.id else m) m

/-- Which bead each step of the recipe is in a sub-DAG that exists. -/
def existingAttachIDMapping (recipe : Recipe) (rootBeadID : String) (root : Bead) : M IDMapping := do
  let base : IDMapping := (rootSteps recipe).foldl (fun m step => m.set step.id root.id) []
  if (innerSteps recipe).flatMap attachStepRefs = [] then pure base
  else
    let all ← StoreM.list [(.rootBeadID, rootBeadID)] false
    pure (all.foldl (adoptBead recipe) base)

/-! ## The control epoch -/

def controlEpoch (b : Bead) : ℤ := Go.atoiValue (Go.trimSpace (b.meta .controlEpoch))

/-- Move the epoch on, if it is the expected one; whether this call moved it. -/
def compareAndSetEpoch (attachBeadID : String) (expectedEpoch : ℤ) : M Bool :=
  compareAndSet attachBeadID .controlEpoch (Go.itoa expectedEpoch) (Go.itoa (expectedEpoch + 1))

/-- Move the epoch on, and try once more while it is still the expected one. -/
def advanceAttachEpoch (attachBeadID : String) (expectedEpoch : ℤ) : M Unit := do
  let won ← compareAndSetEpoch attachBeadID expectedEpoch
  if won then pure ()
  else do
    let b ← getBead attachBeadID
    if controlEpoch b = expectedEpoch then do
      let _ ← compareAndSetEpoch attachBeadID expectedEpoch
      pure ()
    else pure ()

/-- Move the epoch of the attach bead on for a sub-DAG that was found, unless that has been done. -/
def advanceAttachEpochIfNeeded (host : Host) (attachBeadID : String) (expectedEpoch : ℤ) : M Unit :=
  if 0 < expectedEpoch then do
    let b ← getBead attachBeadID
    if controlEpoch b = expectedEpoch then do
      let writer ← host.resolveConditionalWriter
      if writer then advanceAttachEpoch attachBeadID expectedEpoch
      else setMetadata attachBeadID [(.controlEpoch, Go.itoa (expectedEpoch + 1))]
    else pure ()
  else pure ()

/-- Mark beads `molecule_failed`; the first of them that does not exist, if any. -/
def markFailedReporting (ids : List String) : M (Option String) :=
  ids.foldlM (fun missing id => do
    let found ← StoreM.setMetadataBatch id [(.moleculeFailed, "true"), (.instantiating, "")]
    pure (if found then missing else missing <|> some id)) none

/-- Take the sub-DAG of a call that lost the epoch out of the way. -/
def neutralize (attachBeadID : String) (result : Result) : M Unit := do
  let missing ← markFailedReporting (result.idMapping.map Prod.snd)
  Fallible.refuse (missing.map fun id => .epochConflict ("epoch conflict on " ++ attachBeadID ++
    " (neutralizing losing sub-DAG " ++ result.rootID ++ " failed: marking " ++ id ++ " molecule_failed)"))
  StoreM.depRemove attachBeadID result.rootID

/-- Move the epoch of the attach bead on for a new sub-DAG; a call that comes too late neutralizes what it
created. -/
def advanceAttachEpochFence (host : Host) (writer : Bool) (attachBeadID : String) (expectedEpoch : ℤ)
    (result : Result) : M Unit :=
  if writer then do
    let won ← compareAndSetEpoch attachBeadID expectedEpoch
    if won then pure ()
    else do
      let claimed ← claimAttachCandidate host result.rootID attachFencePendingUnclaimed attachFencePendingFailed
      Fallible.when claimed (neutralize attachBeadID result)
      throw (.epochConflict ("epoch conflict on " ++ attachBeadID))
  else setMetadata attachBeadID [(.controlEpoch, Go.itoa (expectedEpoch + 1))]

/-! ## The idempotency check -/

/-- How a root that carries the key stands. -/
inductive Standing
  | failed
  | pending
  | activating
  | live
  deriving DecidableEq

def standing (b : Bead) : Standing :=
  if b.meta .moleculeFailed = "true" ∨ marker b = attachFencePendingFailed then .failed
  else if marker b = attachFencePendingUnclaimed then .pending
  else if marker b = attachFencePendingActivating then .activating
  else .live

/-- The beads of a standing, by identifier. -/
def sortedByID (all : List Bead) (st : Standing) : List Bead :=
  (all.filter (standing · = st)).insertionSort (fun a b => a.id ≤ b.id)

variable (host : Host) (recipe : Recipe) (rootBeadID attachBeadID : String)

/-- Return an existing sub-DAG as the duplicate: wire it, and move the epoch on if that is still due. -/
def adoptExistingAttach (expectedEpoch : ℤ) (b : Bead) : M AttachResult := do
  let deps ← StoreM.depList attachBeadID .down
  Fallible.when (!deps.any fun d => d.dependsOnID = b.id ∧ d.type = .blocks)
    (StoreM.depAdd attachBeadID b.id .blocks)
  advanceAttachEpochIfNeeded host attachBeadID expectedEpoch
  let idMapping ← existingAttachIDMapping recipe rootBeadID b
  pure { rootID := b.id, workflowRootID := rootBeadID, idMapping, duplicate := true }

/-- Claim a stale candidate as failed, mark it and detach it. -/
def dropStaleCandidate (host : Host) (attachBeadID : String) (loser : Bead) : M Unit := do
  let won ← claimAttachCandidate host loser.id attachFencePendingUnclaimed attachFencePendingFailed
  Fallible.orElse won
    (.epochConflict ("attach recovery lost the claim on " ++ loser.id ++ " (settled concurrently)"))
  let missing ← markFailedReporting [loser.id]
  Fallible.refuse (missing.map fun id => .failed ("neutralizing stale attach candidate " ++ id))
  StoreM.depRemove attachBeadID loser.id

/-- Activate a candidate that was found, and adopt it. -/
def recover (expectedEpoch : ℤ) (winner : Bead) : M AttachResult := do
  let idMapping ← existingAttachIDMapping recipe rootBeadID winner
  activateAttachCandidate host winner.id idMapping
  adoptExistingAttach host recipe rootBeadID attachBeadID expectedEpoch winner

/-- The roots under a workflow root that carry a key. -/
def keyFilters (key rootBeadID : String) : Metadata := [(.idempotencyKey, key), (.rootBeadID, rootBeadID)]

variable (key : String) (expectedEpoch : ℤ)

/-- Settle on one of the roots that carry the key: a live one, else one that is activating, else the first
pending one, the others being dropped. -/
def settle (all : List Bead) : M (Option AttachResult) :=
  match all.find? (standing · = .live) with
  | some b => do
      let result ← adoptExistingAttach host recipe rootBeadID attachBeadID expectedEpoch b
      pure (some result)
  | none =>
    match sortedByID all .activating with
    | survivor :: _ => do
        let result ← recover host recipe rootBeadID attachBeadID expectedEpoch survivor
        pure (some result)
    | [] =>
      match sortedByID all .pending with
      | winner :: losers => do
          forM losers (dropStaleCandidate host attachBeadID)
          let result ← recover host recipe rootBeadID attachBeadID expectedEpoch winner
          pure (some result)
      | [] =>
        match all with
        | [] => pure none
        | b :: _ => throw (.failed ("existing attach root " ++ b.id ++ " for idempotency key " ++
            Go.quote key ++ " is marked molecule_failed"))

/-- Look for a root that carries the key, and settle on one. -/
def findExistingAttach : M (Option AttachResult) := do
  let all ← StoreM.list (keyFilters key rootBeadID) false
  settle host recipe rootBeadID attachBeadID key expectedEpoch all

/-! ## Attach -/

/-- The steps stamped with the workflow they are grafted into, and the root with the key and the marker. -/
def stampRecipe (recipe : Recipe) (rootBeadID rootStoreRef key : String) (fenced : Bool) : Recipe :=
  let stamp : RecipeStep → RecipeStep := fun step =>
    let m := step.metadata.set .rootBeadID rootBeadID
    { step with metadata := if rootStoreRef = "" then m else m.set .rootStoreRef rootStoreRef }
  let stampRoot : RecipeStep → RecipeStep := fun step =>
    let m := if key = "" then step.metadata else step.metadata.set .idempotencyKey key
    { step with metadata := if fenced then m.set .attachFencePending attachFencePendingUnclaimed else m }
  { recipe with steps :=
      match recipe.steps.map stamp with
      | [] => []
      | root :: steps => stampRoot root :: steps }

/-- Whether a new sub-DAG is fenced; a call that expects an epoch fails when it has passed. -/
def fenceWriter (host : Host) (parent : Bead) (opts : AttachOptions) : M Bool :=
  let epoch := if parent.meta .controlEpoch = "" then 0 else Go.atoiValue (parent.meta .controlEpoch)
  if 0 < opts.expectedEpoch then
    if epoch = opts.expectedEpoch then host.resolveConditionalWriter
    else throw (.epochConflict "epoch conflict")
  else pure false

/-- Let the epoch decide about a new sub-DAG. -/
def fence (host : Host) (writer : Bool) (attachBeadID : String) (expectedEpoch : ℤ) (result : Result) : M Unit := do
  advanceAttachEpochFence host writer attachBeadID expectedEpoch result
  Fallible.when writer (activateAttachCandidate host result.rootID result.idMapping)

/-- Create the sub-DAG, wire it, and let the epoch decide. -/
def attachNew (host : Host) (recipe : Recipe) (attachBeadID rootBeadID : String) (parent : Bead)
    (opts : AttachOptions) : M AttachResult := do
  let writer ← fenceWriter host parent opts
  Fallible.refuse ((host.varsProblem recipe opts.title opts.vars).map .failed)
  let stamped := stampRecipe recipe rootBeadID (parent.meta .rootStoreRef) opts.idempotencyKey writer
  let result ← instantiate host.check stamped
    { title := opts.title, vars := opts.vars, preserveRootType := true, deferAssignees := writer }
  StoreM.depAdd attachBeadID result.rootID .blocks
  Fallible.when (0 < opts.expectedEpoch) (fence host writer attachBeadID opts.expectedEpoch result)
  pure {
    rootID := result.rootID
    workflowRootID := rootBeadID
    created := result.created
    idMapping := result.idMapping }

/-- The sub-DAG that an idempotent call finds. -/
def existingAttach (opts : AttachOptions) : M (Option AttachResult) :=
  if opts.idempotencyKey = "" then pure none
  else findExistingAttach host recipe rootBeadID attachBeadID opts.idempotencyKey opts.expectedEpoch

/-- `molecule.Attach`. -/
def attach (host : Host) (recipe : Recipe) (attachBeadID : String) (opts : AttachOptions) : M AttachResult :=
  if attachBeadID = "" then throw (.failed "attach bead ID is required")
  else do
    let parent ← getBead attachBeadID
    let rootBeadID := resolveRunID parent.metadata attachBeadID
    let existing ← existingAttach host recipe rootBeadID attachBeadID opts
    match existing with
    | some result => pure result
    | none => attachNew host recipe attachBeadID rootBeadID parent opts

end DeliveryEngine.Molecule
