import DeliveryEngine.Beads.Store

/-!
# The control dispatcher: scopes

A scope is a group of beads under a workflow root that share a scope reference; one bead of kind `scope` is its body.
The dispatcher closes the body when the members are done (`closeScopeAsPassed`) or when one of them failed
(`abortScope`).  Completion is decided by `hasOpenScopeMembers`, which counts the members whose status is *open*: a
member in progress is not counted, but its scope check is.
-/

namespace DeliveryEngine.Dispatch

open Beads
open Runs (Fallible)

/-- What an error is to the code that tests for it. -/
inductive Cause
  | plain
  | notFound
  /-- `ErrControlPending`: the control is to be processed again later. -/
  | pending
  /-- `ErrControlGraphMalformed`: waiting will not help. -/
  | malformed
  /-- `errFinalizePending`: a blocker is still open. -/
  | finalizePending
  /-- `errScopeBodyMissing`. -/
  | scopeBodyMissing
  /-- `errTransientControllerBoundary`. -/
  | boundary
  /-- `partialAttemptAttachError`. -/
  | partialAttach
  deriving DecidableEq

structure Failure where
  cause : Cause := .plain
  text : String

/-- `fmt.Errorf("context: %w", err)`. -/
def Failure.within (context : String) (e : Failure) : Failure := { e with text := context ++ ": " ++ e.text }

/-- `ErrControlPending`. -/
def Failure.controlPending : Failure := ⟨.pending, "workflow control pending"⟩

/-- `fmt.Errorf("%w: %w", ErrControlGraphMalformed, err)`. -/
def Failure.graphMalformed (e : Failure) : Failure := ⟨.malformed, "workflow control graph malformed: " ++ e.text⟩

abbrev M := StoreM Failure

/-- Put an error into its context. -/
def within {α : Type} (context : String) (p : M α) : M α := Fallible.mapError (Failure.within context) p

structure ControlResult where
  processed : Bool := false
  action : String := ""
  created : ℕ := 0
  skipped : ℕ := 0

/-! ## The store as the dispatcher uses it -/

def notFound (verb id : String) : Failure := ⟨.notFound, verb ++ " bead " ++ Go.quote id ++ ": bead not found"⟩

variable (id : String)

/-- `store.Get`. -/
def getBead : M Bead := do
  match ← StoreM.get id with
  | none => throw (notFound "getting" id)
  | some b => pure b

/-- `store.Update`. -/
def updateBead (opts : UpdateOpts) : M Unit := do
  let found ← StoreM.update id opts
  Fallible.orElse found (notFound "updating" id)

/-- `store.SetMetadataBatch`. -/
def setMetadata (kvs : Metadata) : M Unit := do
  let found ← StoreM.setMetadataBatch id kvs
  Fallible.orElse found (notFound "setting metadata on" id)

/-- `store.Close`. -/
def closeBead : M Unit := do
  let found ← StoreM.close id
  Fallible.orElse found (notFound "closing" id)

/-- Close a bead with metadata, and make sure that it is closed. -/
def updateMetadataAndClose (metadata : Metadata) : M Unit := do
  updateBead id { status := some .closed, metadata }
  let b ← within ("verifying close of " ++ id) (getBead id)
  Fallible.when (b.status ≠ .closed) (closeBead id)

def setOutcomeAndClose (outcome : String) : M Unit := updateMetadataAndClose id [(.outcome, outcome)]

/-- The beads of a workflow: the root, if it is there, and those that name it as their root. -/
def listByWorkflowRoot (rootID : String) : M (List Bead) := do
  let all ← StoreM.list [(.rootBeadID, rootID)] true
  let root ← StoreM.get rootID
  pure (root.toList ++ all.filter fun b => root = none ∨ b.id ≠ rootID)

/-- The bead a control blocks on: its first blocking dependency. -/
def resolveBlockingSubjectID : M String := do
  let deps ← StoreM.depList id .down
  match deps.find? (·.type = .blocks) with
  | some dep => pure dep.dependsOnID
  | none => throw ⟨.plain, "no blocking dependency"⟩

/-! ## Outcomes -/

variable (b : Bead)

/-- An attempt of a loop, whose failures are the loop's to judge. -/
def isRetryAttemptSubject : Bool :=
  b.meta .logicalBeadID ≠ "" && (b.meta .kind = "retry-run" || b.meta .kind = "retry-eval" || b.meta .attempt ≠ "")

/-- Whether a closed bead counts as failed.  With `abort_scope` a missing or unknown outcome does. -/
def beadOutcomeFailed : Bool :=
  let outcome := Go.trimSpace (b.meta .outcome)
  if outcome = "fail" then true
  else if Go.trimSpace (b.meta .onFail) ≠ "abort_scope" ∨ isRetryAttemptSubject b then false
  else !(outcome = "pass" || outcome = "skipped" || outcome = "canceled")

/-! ## Scope bodies -/

/-- Whether a bead goes by a scope reference. -/
def matchesScopeRef (scopeRef : String) : Bool :=
  scopeRef ≠ "" && (b.meta .scopeRef = scopeRef || b.meta .stepRef = scopeRef ||
    Go.hasSuffix (b.meta .stepRef) ("." ++ scopeRef))

variable (rootID scopeRef : String) (includeClosed : Bool)

def resolveScopeBodyByRole : M (Option Bead) := do
  let found ← StoreM.list [(.rootBeadID, rootID), (.kind, "scope"), (.scopeRole, "body")] includeClosed
  pure (found.find? (matchesScopeRef · scopeRef))

def findScopeBody (all : List Bead) (rootID scopeRef : String) : Option Bead :=
  all.find? fun b => b.meta .rootBeadID = rootID && b.meta .kind = "scope" && matchesScopeRef b scopeRef

/-- The body of last resort: any scope bead of the workflow. -/
def resolveScopeBodyAmongAll : M Bead := do
  let all ← listByWorkflowRoot rootID
  match findScopeBody all rootID scopeRef with
  | some b => pure b
  | none => throw ⟨.scopeBodyMissing, "scope body missing: scope " ++ Go.quote scopeRef ++
      " not found under root " ++ rootID⟩

/-- The body of a scope: an open one first, then a closed one. -/
def resolveScopeBodyOnce : M Bead := do
  match ← resolveScopeBodyByRole rootID scopeRef false with
  | some b => pure b
  | none => do
      match ← resolveScopeBodyByRole rootID scopeRef true with
      | some b => pure b
      | none => resolveScopeBodyAmongAll rootID scopeRef

/-- Look for the body again, `retries` times, while it is missing. -/
def resolveScopeBodyRetrying (rootID scopeRef : String) : ℕ → M Bead
  | 0 => resolveScopeBodyOnce rootID scopeRef
  | retries + 1 => do
      match ← Fallible.attempt (resolveScopeBodyOnce rootID scopeRef) with
      | .ok b => pure b
      | .error e =>
        if e.cause = .scopeBodyMissing then resolveScopeBodyRetrying rootID scopeRef retries else throw e

/-- Five attempts in all. -/
def resolveScopeBody : M Bead := resolveScopeBodyRetrying rootID scopeRef 4

/-- The body of the scope that a control or member is in; a scope without a body is malformed. -/
def scopeBodyOf (rootID scopeRef : String) : M Bead :=
  Fallible.mapError (fun e =>
    if e.cause = .scopeBodyMissing then e.graphMalformed
    else e.within (id ++ ": loading scope body for " ++ scopeRef)) (resolveScopeBody rootID scopeRef)

/-! ## Members -/

structure ScopeSnapshot where
  rootID : String
  scopeRef : String
  members : List Bead
  body : Bead

def listByWorkflowRootAndScope : M (List Bead) :=
  StoreM.list [(.rootBeadID, rootID), (.scopeRef, scopeRef)] includeClosed

def loadScopeSnapshotWithBody (body : Bead) : M ScopeSnapshot := do
  let members ← listByWorkflowRootAndScope rootID scopeRef true
  pure { rootID, scopeRef, members, body }

/-- Whether a role is none that completion waits for. -/
def isPassiveRole (role : String) : Bool := role = "body" || role = "teardown"

variable (ignored : List String)

/-- Whether an open member holds up its scope. -/
def holdsUp (b : Bead) : Bool :=
  b.status = .opened && !(b.id ≠ "" && ignored.contains b.id) && b.meta .kind ≠ "spec" &&
    !isPassiveRole (b.meta .scopeRole)

def hasOpenScopeMembers : M Bool := do
  let members ← listByWorkflowRootAndScope rootID scopeRef false
  pure (members.any (holdsUp ignored))

/-- Whether a member's metadata counts for its scope. -/
def contributes : Bool := !(isPassiveRole (b.meta .scopeRole) || b.meta .scopeRole = "control")

variable (s : ScopeSnapshot)

/-- What the closed members say outside the engine's namespace; later members overrule earlier ones. -/
def ScopeSnapshot.memberMetadata : Metadata :=
  (s.members.filter fun b => b.status = .closed && contributes b).foldl
    (fun batch b => batch.update (nonEngine b.metadata)) []

def ScopeSnapshot.propagateScopeMemberMetadata (bodyID : String) : M Unit :=
  Fallible.when (s.memberMetadata ≠ []) (setMetadata bodyID s.memberMetadata)

/-- The output of a scope: the subject's, else the one its members agree on. -/
def ScopeSnapshot.resolveScopeOutputJSON (subject : Bead) : String :=
  if subject.meta .outputJSON ≠ "" then subject.meta .outputJSON
  else
    match ((s.members.filter fun b => b.meta .outputJSON ≠ "" && contributes b).map (·.meta .outputJSON)) with
    | [] => ""
    | candidate :: rest => if rest.all (· = candidate) then candidate else ""

/-! ## Skipping what is left of a scope -/

/-- A Go map from identifiers to beads, in the order of insertion. -/
abbrev Pending := List (String × Bead)

/-- `pending[b.ID] = b`. -/
def Pending.put (pending : Pending) (b : Bead) : Pending := pending.filter (·.1 ≠ b.id) ++ [(b.id, b)]

/-- `delete(pending, id)`. -/
def Pending.drop (pending : Pending) (id : String) : Pending := pending.filter (·.1 ≠ id)

def attemptSegments : List String := [".run.", ".eval.", ".check.", ".iteration.", ".attempt."]

/-- The reference of a bead, in the metadata or in the bead itself. -/
def stepRefOf : String :=
  let ref := Go.trimSpace (b.meta .stepRef)
  if ref = "" then Go.trimSpace b.ref else ref

/-- Whether a bead belongs to an attempt of a loop. -/
def isLogicalDescendant (logical candidate : Bead) : Bool :=
  let logicalStepID := Go.trimSpace (logical.meta .stepID)
  logical.id ≠ "" && candidate.id ≠ "" && logical.id ≠ candidate.id && (candidate.meta .logicalBeadID = logical.id ||
      attemptSegments.any (fun seg => Go.hasPrefix candidate.id (logical.id ++ seg)) ||
      (stepRefOf logical ≠ "" &&
        (attemptSegments.any (fun seg => Go.hasPrefix (stepRefOf candidate) (stepRefOf logical ++ seg)) ||
          (logicalStepID ≠ "" && Go.trimSpace (candidate.meta .ralphStepID) = logicalStepID))))

variable (skipControlID : String)

def ScopeSnapshot.openMembers : Pending :=
  (s.members.filter fun b => b.id ≠ skipControlID && b.status = .opened && b.meta .kind ≠ "spec" &&
    !isPassiveRole (b.meta .scopeRole)).foldl Pending.put []

def ScopeSnapshot.loops : List Bead :=
  s.members.filter fun b =>
    (Go.trimSpace (b.meta .kind) = "retry" || Go.trimSpace (b.meta .kind) = "ralph") &&
      !isPassiveRole (b.meta .scopeRole)

/-- What is pending: the open members, and what is open of the attempts of the scope's loops. -/
def ScopeSnapshot.pending (all : List Bead) (skipControlID : String) : Pending :=
  (s.loops.flatMap fun loop => all.filter fun b => b.status = .opened && isLogicalDescendant loop b).foldl
    Pending.put (s.openMembers skipControlID)

/-- The scope check of the subject that drives an abort stays, so that the abort can be replayed. -/
def preserveScopeCheckForSubject (candidate : Bead) (deps : List Dep) (subjectID : String) : Bool :=
  subjectID ≠ "" && candidate.meta .kind = "scope-check" && candidate.meta .scopeRole = "control" &&
    deps.any fun dep => dep.type = .blocks && dep.dependsOnID = subjectID

/-- A bead is skipped once nothing that it blocks on is pending. -/
def canSkipScopeMemberWithDeps (deps : List Dep) (pending : Pending) : Bool :=
  deps.all fun dep => !(dep.type = .blocks && (pending.lookup dep.dependsOnID).isSome)

/-- One look at every pending bead: what stays pending, and what is skipped now. -/
def skipRound (depsByID : List (String × List Dep)) (skipControlID : String) (pending : Pending)
    (ids : List String) : Pending × List String :=
  ids.foldl (fun (pending, skippable) id =>
    let deps := (depsByID.lookup id).getD []
    match pending.lookup id with
    | none => (pending, skippable)
    | some b =>
      if preserveScopeCheckForSubject b deps skipControlID then (pending.drop id, skippable)
      else if canSkipScopeMemberWithDeps deps pending then (pending, skippable ++ [id])
      else (pending, skippable)) (pending, [])

/-- Look up what each bead depends on. -/
def loadDownDepsForScopeSkip (ids : List String) : M (List (String × List Dep)) :=
  ids.foldlM (fun depsByID id => do
    let deps ← StoreM.depList id .down
    pure (depsByID ++ [(id, deps)])) []

/-- Close beads as skipped. -/
def skipScopeMembers (ids : List String) : M Unit :=
  forM ids fun id => within ("closing bead " ++ Go.quote id)
    (updateBead id { status := some .closed, metadata := [(.outcome, "skipped")] })

/-- Skip round by round, blockers before what they block; `fuel` bounds the rounds by what is pending. -/
def skipRounds (skipControlID : String) : ℕ → Pending → ℕ → M ℕ
  | 0, _, skipped => pure skipped
  | fuel + 1, pending, skipped =>
    if pending = [] then pure skipped
    else do
      let ids := Go.sortStrings (pending.map Prod.fst)
      let depsByID ← loadDownDepsForScopeSkip ids
      let round := skipRound depsByID skipControlID pending ids
      if round.2 = [] then
        if round.1 = [] then pure skipped
        else throw ⟨.plain, "unable to skip remaining scope members: [" ++ Go.joinWith ids " " ++ "]"⟩
      else do
        skipScopeMembers round.2
        skipRounds skipControlID fuel (round.1.filter fun entry => entry.1 ∉ round.2) (skipped + round.2.length)

def ScopeSnapshot.skipOpenScopeMembers : M ℕ := do
  let all ← listByWorkflowRoot s.rootID
  let pending := s.pending all skipControlID
  skipRounds skipControlID (pending.length + 1) pending 0

/-! ## Closing a scope -/

variable (snapshot : ScopeSnapshot)

/-- Close the body of a scope whose members are done. -/
def closeScopeAsPassed (subject : Bead) (traceID : String) : M Unit := do
  let bodyID := snapshot.body.id
  within (traceID ++ ": propagating scope metadata") (snapshot.propagateScopeMemberMetadata bodyID)
  let outputJSON := snapshot.resolveScopeOutputJSON subject
  Fallible.when (outputJSON ≠ "")
    (within (bodyID ++ ": propagating scope output") (setMetadata bodyID [(.outputJSON, outputJSON)]))
  let bodyAfter ← within (bodyID ++ ": reloading scope body") (getBead bodyID)
  Fallible.when (bodyAfter.status ≠ .closed)
    (within (bodyID ++ ": completing scope body") (setOutcomeAndClose bodyID "pass"))

/-- Close the body of a scope in which something failed; how many beads were skipped. -/
def abortScope (traceID : String) : M ℕ := do
  let bodyID := snapshot.body.id
  let skipped ← within (traceID ++ ": aborting scope") (snapshot.skipOpenScopeMembers traceID)
  within (traceID ++ ": propagating scope metadata") (snapshot.propagateScopeMemberMetadata bodyID)
  within (bodyID ++ ": completing scope body") (setOutcomeAndClose bodyID "fail")
  pure skipped

/-! ## A scope check -/

variable (bead : Bead)

/-- A scope check whose subject is settled completes the scope if nothing holds it up, and is done. -/
def completeScopeCheck (subject body : Bead) (noun : String) : M ControlResult := do
  let rootID := bead.meta .rootBeadID
  let scopeRef := bead.meta .scopeRef
  let remainingOpen ← within (bead.id ++ ": checking scope completion")
    (hasOpenScopeMembers rootID scopeRef [bead.id])
  if remainingOpen then do
    within (bead.id ++ ": completing " ++ noun) (setOutcomeAndClose bead.id "pass")
    pure { processed := true, action := "continue" }
  else do
    let snapshot ← within (bead.id ++ ": loading scope snapshot for " ++ scopeRef)
      (loadScopeSnapshotWithBody rootID scopeRef body)
    closeScopeAsPassed snapshot subject bead.id
    within (bead.id ++ ": completing " ++ noun) (setOutcomeAndClose bead.id "pass")
    pure { processed := true, action := "scope-pass" }

/-- A scope check whose subject failed aborts the scope, and is done. -/
def failScopeCheck (body : Bead) : M ControlResult := do
  let snapshot ← within (bead.id ++ ": loading scope snapshot for " ++ bead.meta .scopeRef)
    (loadScopeSnapshotWithBody (bead.meta .rootBeadID) (bead.meta .scopeRef) body)
  let skipped ← abortScope snapshot bead.id
  within (bead.id ++ ": completing control bead") (setOutcomeAndClose bead.id "pass")
  pure { processed := true, action := "scope-fail", skipped }

def processScopeCheck : M ControlResult := do
  let subjectID ← within (bead.id ++ ": resolving subject") (resolveBlockingSubjectID bead.id)
  let subject ← within (bead.id ++ ": loading subject " ++ subjectID) (getBead subjectID)
  Fallible.orElse (bead.meta .rootBeadID ≠ "") ⟨.plain, bead.id ++ ": missing gc.root_bead_id"⟩
  Fallible.orElse (bead.meta .scopeRef ≠ "") ⟨.plain, bead.id ++ ": missing gc.scope_ref"⟩
  let body ← scopeBodyOf bead.id (bead.meta .rootBeadID) (bead.meta .scopeRef)
  if subject.status ≠ .closed then throw .controlPending
  else if isRetryAttemptSubject subject then
    completeScopeCheck bead subject body "retry-attempt control bead"
  else if beadOutcomeFailed subject then failScopeCheck bead body
  else completeScopeCheck bead subject body "control bead"

end DeliveryEngine.Dispatch
