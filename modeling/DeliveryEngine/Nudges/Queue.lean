import DeliveryEngine.Go.Text
import DeliveryEngine.Go.Time

/-!
# The queue of deferred nudges

A nudge waits in `pending`, is `inFlight` while a deliverer has it on a lease, and ends in `dead`.  The queue is one
file that every operation rewrites under a lock, so an operation is a function on the whole state.  Every operation
first runs three maintenance passes (`sift`); once the clock is past the operation's deadline a pass keeps the rest of
its bucket as it is.  What an operation finds outside the queue is its `Env`; the answers are arbitrary.
-/

namespace DeliveryEngine.Nudges

open Go

/-! ## Nudges -/

/-- The object a nudge is about. -/
structure Reference where
  kind : String
  id : String
  deriving DecidableEq

structure Item where
  id : String
  beadID : String := ""
  agent : String := ""
  sessionID : String := ""
  continuationEpoch : String := ""
  source : String := ""
  message : String := ""
  reference : Option Reference := none
  createdAt : Time := Time.zero
  deliverAfter : Time := Time.zero
  expiresAt : Time := Time.zero
  attempts : ℤ := 0
  lastAttemptAt : Time := Time.zero
  lastError : String := ""
  claimedAt : Time := Time.zero
  leaseUntil : Time := Time.zero
  deadAt : Time := Time.zero
  deriving DecidableEq

def defaultQueuedNudgeClaimTTL : Duration := 2 * Duration.minute
def defaultQueuedNudgeRetryDelay : Duration := 15 * Duration.second
def defaultQueuedNudgeMaxAttempts : ℤ := 5
def defaultQueuedNudgeDeadRetention : Duration := Duration.hour
def nudgeEnqueueMaintenanceBudget : Duration := 2 * Duration.second

namespace Item

variable (x : Item) (now : Time)

/-- Whether the nudge has an expiry that an instant has reached. -/
def expired : Bool := !x.expiresAt.isZero && !x.expiresAt.after now

/-- The nudge as it is dead-lettered when it has expired. -/
def expire : Item :=
  { x with deadAt := now, lastError := if x.lastError = "" then "expired" else x.lastError }

/-- The nudge as it is dead-lettered when another takes its place. -/
def supersede : Item := { x with deadAt := now, lastError := "superseded" }

/-- The nudge with its claim given up. -/
def unclaim (x : Item) : Item := { x with claimedAt := Time.zero, leaseUntil := Time.zero }

end Item

structure State where
  pending : List Item := []
  inFlight : List Item := []
  dead : List Item := []

namespace State

variable (first second : Item → Time)

/-- Order by two instants and then by id. -/
def comesBefore (x y : Item) : Bool :=
  if first x ≠ first y then (first x).before (first y)
  else if second x ≠ second y then (second x).before (second y)
  else x.id < y.id

def sortBucket (items : List Item) : List Item := items.insertionSort fun x y => !comesBefore first second y x

/-- `SortState`. -/
def sort (s : State) : State where
  pending := sortBucket Item.deliverAfter Item.createdAt s.pending
  inFlight := sortBucket Item.leaseUntil Item.claimedAt s.inFlight
  dead := sortBucket Item.deadAt Item.createdAt s.dead

/-- `queuedNudgeExists`. -/
def exists? (s : State) (id : String) : Bool := (s.pending ++ s.inFlight ++ s.dead).any (·.id = id)

end State

/-! ## What an operation finds outside the queue -/

/-- The loops over a bucket that look at the clock. -/
inductive Pass
  | recover
  | pruneExpired
  | pruneDead
  | supersedePending
  | supersedeInFlight

structure Env where
  /-- The instant the operation is run at. -/
  now : Time
  /-- The instant the deadline of an operation without a budget of its own is counted from. -/
  started : Time
  /-- What the clock reads at the nudge at a position of a pass. -/
  clk : Pass → ℕ → Time
  /-- Whether the bead store could be opened. -/
  hasFront : Bool
  /-- The state of the bead that shadows a nudge, when it is looked up to prune the dead. -/
  find : Item → Except String (Option String)
  /-- The same lookup, made again after the bead was stamped. -/
  findAgain : Item → Except String (Option String)
  /-- The error of stamping the bead of a nudge. -/
  terminalize : Item → Option String

/-- `noMaintenanceDeadline`. -/
def Env.noMaintenanceDeadline (e : Env) : Time := e.started.add (24 * Duration.hour)

def Env.enqueueDeadline (e : Env) : Time := e.now.add nudgeEnqueueMaintenanceBudget

/-! ## Passes over a bucket -/

/-- What a pass does with a nudge. -/
inductive Fate
  | stay
  | toPending (x : Item)
  | toDead (x : Item)
  | gone

/-- What a pass leaves of a bucket, and what it moves elsewhere. -/
structure Sifted where
  kept : List Item := []
  pending : List Item := []
  dead : List Item := []

/-- A pass over a bucket from a position on.  Where it stops, the rest is kept. -/
def sift (stop : ℕ → Bool) (fate : Item → Fate) : ℕ → List Item → Sifted
  | _, [] => {}
  | i, x :: rest =>
    if stop i then { kept := x :: rest }
    else
      let s := sift stop fate (i + 1) rest
      match fate x with
      | .stay => { s with kept := x :: s.kept }
      | .toPending y => { s with pending := y :: s.pending }
      | .toDead y => { s with dead := y :: s.dead }
      | .gone => s

section
variable (e : Env) (deadline : Time)

/-- Whether the clock is past the deadline at a position of a pass. -/
def late (pass : Pass) (i : ℕ) : Bool := (e.clk pass i).after deadline

variable (x : Item)

/-- A lease that has run out sends its nudge back, at the instant of the operation. -/
def recoverFate : Fate :=
  if x.expired e.now then .toDead (x.expire e.now)
  else if x.leaseUntil.isZero || !x.leaseUntil.after e.now then
    .toPending { x.unclaim with deliverAfter := e.now }
  else .stay

variable (s : State)

def recoverExpiredInFlightNudges : State :=
  let r := sift (late e deadline .recover) (recoverFate e) 0 s.inFlight
  State.sort { pending := s.pending ++ r.pending, inFlight := r.kept, dead := s.dead ++ r.dead }

def pruneExpiredFate : Fate := if x.expired e.now then .toDead (x.expire e.now) else .stay

def pruneExpiredQueuedNudges : State :=
  let r := sift (late e deadline .pruneExpired) (pruneExpiredFate e) 0 s.pending
  State.sort { s with pending := r.kept, dead := s.dead ++ r.dead }

/-- `nudgequeue.IsTerminalState`. -/
def isTerminalState (state : String) : Bool :=
  state ∈ ["accepted_for_injection", "injected", "expired", "failed", "superseded"]

/-- Whether a lookup found the bead in a terminal state. -/
def foundTerminal : Except String (Option String) → Bool
  | .ok (some state) => isTerminalState state
  | _ => false

/-- Whether the store confirms that the bead of a dead nudge is terminal.  A bead that is not is stamped, and
looked up again. -/
def confirmedTerminal : Bool :=
  x.beadID ≠ "" && e.hasFront &&
    match e.find x with
    | .error _ => false
    | found => foundTerminal found || ((e.terminalize x).isNone && foundTerminal (e.findAgain x))

/-- Whether a dead nudge is past its retention. -/
def pastRetention : Bool := !x.deadAt.isZero && x.deadAt.before (e.now.add (-defaultQueuedNudgeDeadRetention))

def pruneDeadFate : Fate := if confirmedTerminal e x && pastRetention e x then .gone else .stay

def pruneDeadQueuedNudges : State :=
  { s with dead := (sift (late e deadline .pruneDead) (pruneDeadFate e) 0 s.dead).kept }

/-- The three passes, in their order. -/
def maintain : State :=
  pruneDeadQueuedNudges e deadline (pruneExpiredQueuedNudges e deadline (recoverExpiredInFlightNudges e deadline s))

end

/-! ## The operations -/

/-- `WithState`: the queue is loaded, changed and rewritten under its lock.  It is rewritten only when the change
returns no error.  The errors of the lock and of the file are left out. -/
def withState {α : Type} (change : State → Except String (α × State)) (s : State) : Except String α × State :=
  match change s.sort with
  | .error err => (.error err, s)
  | .ok (a, s') => (.ok a, s')

section
variable (e : Env) (x : Item)

/-- Whether a nudge may be delivered at the instant of the operation. -/
def due : Bool := x.deliverAfter.isZero || !x.deliverAfter.after e.now

/-- The nudge on a lease. -/
def Item.claim : Item :=
  { x with claimedAt := e.now, leaseUntil := e.now.add defaultQueuedNudgeClaimTTL }

/-- `claimDueQueuedNudgesMatching`: the nudges that are due and wanted, each on a lease. -/
def claimDueQueuedNudges (wanted : Item → Bool) : State → Except String (List Item) × State :=
  withState fun s =>
    let s := maintain e e.noMaintenanceDeadline s
    let claimed := (s.pending.filter fun x => wanted x && due e x).map (Item.claim e)
    .ok (claimed, State.sort
      { s with
        pending := s.pending.filter fun x => !(wanted x && due e x)
        inFlight := s.inFlight ++ claimed })

/-- Whether a nudge takes the place of another: they are about one object. -/
def supersedes (existing : Item) : Bool :=
  match x.reference with
  | none => false
  | some r => r.id ≠ "" && existing.agent = x.agent && existing.source = x.source && existing.reference = some r

def supersedeFate (existing : Item) : Fate :=
  if supersedes x existing then .toDead (existing.supersede e.now) else .stay

/-- What supersession leaves of the two buckets, or the error of stamping the bead of a superseded nudge. -/
def supersedeExisting (s : State) : Except String State :=
  let p := sift (late e e.enqueueDeadline .supersedePending) (supersedeFate e x) 0 s.pending
  let f := sift (late e e.enqueueDeadline .supersedeInFlight) (supersedeFate e x) 0 s.inFlight
  match (p.dead ++ f.dead).findSome? e.terminalize with
  | some err => .error err
  | none => .ok { pending := p.kept, inFlight := f.kept, dead := s.dead ++ p.dead ++ f.dead }

def Item.savedAs (beadID : String) : Item := if beadID ≠ "" then { x with beadID := beadID } else x

/-- What an enqueue does under the lock.  The answer says whether the nudge was stored: one whose id the queue has
is not. -/
def storeNudge (s : State) : Except String (Bool × State) :=
  let s := maintain e e.enqueueDeadline s
  if s.exists? x.id then .ok (false, s)
  else
    match supersedeExisting e x s with
    | .error err => .error err
    | .ok s => .ok (true, State.sort { s with pending := s.pending ++ [x] })

/-- `enqueueQueuedNudgeWithStoreAndClock`, given the id of the bead its nudge was saved as. -/
def enqueueQueuedNudge (saved : Except String String) (x : Item) (s : State) : Except String Bool × State :=
  match saved with
  | .error err => (.error err, s)
  | .ok beadID => withState (storeNudge e (x.savedAs beadID)) s

variable (ids : List String) (s : State)

/-- `ackQueuedNudgesWithOutcome`. -/
def ackQueuedNudges : Except String Unit × State :=
  if ids = [] then (.ok (), s)
  else
    withState (fun s =>
      let s := maintain e e.noMaintenanceDeadline s
      match (s.pending.filter (·.id ∈ ids) ++ s.inFlight.filter (·.id ∈ ids)).findSome? e.terminalize with
      | some err => .error err
      | none => .ok ((), { s with
          pending := s.pending.filter (·.id ∉ ids)
          inFlight := s.inFlight.filter (·.id ∉ ids) })) s

/-- `releaseQueuedNudgeClaims`. -/
def releaseQueuedNudgeClaims : Except String Unit × State :=
  if ids = [] then (.ok (), s)
  else
    withState (fun s =>
      let s := maintain e e.noMaintenanceDeadline s
      .ok ((), State.sort { s with
        pending := s.pending ++ (s.inFlight.filter (·.id ∈ ids)).map Item.unclaim
        inFlight := s.inFlight.filter (·.id ∉ ids) })) s

/-- Why a delivery failed. -/
structure Cause where
  text : String
  /-- The session is another than the nudge was meant for. -/
  fenceMismatch : Bool := false

/-- The nudge after a failed delivery, and whether it is dead-lettered. -/
def failedQueuedNudge (cause : Cause) (x : Item) : Item × Bool :=
  let x : Item := { x.unclaim with
    attempts := x.attempts + 1, lastAttemptAt := e.now, lastError := cause.text }
  if cause.fenceMismatch then ({ x with deadAt := e.now }, true)
  else if defaultQueuedNudgeMaxAttempts ≤ x.attempts ∨ x.expired e.now = true then
    ({ x with deadAt := e.now }, true)
  else ({ x with deliverAfter := e.now.add defaultQueuedNudgeRetryDelay }, false)

/-- `recordQueuedNudgeFailureDetailed`: the nudges it dead-lettered. -/
def recordQueuedNudgeFailure (cause : Cause) (ids : List String) (s : State) : Except String (List Item) × State :=
  if ids = [] then (.ok [], s)
  else
    withState (fun s =>
      let s := maintain e e.noMaintenanceDeadline s
      let failed := (s.pending.filter (·.id ∈ ids) ++ s.inFlight.filter (·.id ∈ ids)).map (failedQueuedNudge e cause)
      let dead := (failed.filter (·.2)).map Prod.fst
      .ok (dead, State.sort
        { pending := s.pending.filter (·.id ∉ ids) ++ (failed.filter (!·.2)).map Prod.fst,
          inFlight := s.inFlight.filter (·.id ∉ ids),
          dead := s.dead ++ dead })) s

end

end DeliveryEngine.Nudges
