import DeliveryEngine.Beads.Store

/-!
# The store in memory

The store in memory with all that it keeps of a bead: the revision, which every write moves, the ownership fence, the
dependency fields that a bead carries beside the store's own dependency rows, and the times.  Statuses are free text,
of which three are known.  Every operation is atomic; its clock reading is an argument.
-/

namespace DeliveryEngine.MemStore

open Beads (Metadata Key Dep DepType)

/-- Where a bead stands: one of the three known texts, or another. -/
inductive Status
  | opened
  | inProgress
  | closed
  | other (text : String)
  deriving DecidableEq

/-- A bead as the store keeps it. -/
structure Bead where
  id : String := ""
  title : String := ""
  status : Status := .opened
  type : String := ""
  priority : Option ℤ := none
  createdAt : Go.Time := .zero
  updatedAt : Go.Time := .zero
  assignee : String := ""
  sender : String := ""
  parentID : String := ""
  ref : String := ""
  needs : List String := []
  description : String := ""
  labels : List String := []
  metadata : Metadata := []
  dependencies : List Dep := []
  ephemeral : Bool := false
  noHistory : Bool := false
  deferUntil : Option Go.Time := none
  isBlocked : Option Bool := none
  /-- The optimistic-concurrency token: equal tokens, equal beads.  Unbounded here, 64 bits wide in the source. -/
  revision : ℤ := 0
  /-- Moves on ownership transitions only. -/
  claimFence : ℤ := 0
  deriving DecidableEq

/-- What an update sets; a field that is absent stays as it is. -/
structure UpdateOpts where
  title : Option String := none
  status : Option Status := none
  type : Option String := none
  priority : Option ℤ := none
  description : Option String := none
  parentID : Option String := none
  assignee : Option String := none
  labels : List String := []
  removeLabels : List String := []
  metadata : Metadata := []
  deriving DecidableEq

/-- `isEmptyUpdateOpts`: the update carries no mutation at all. -/
def UpdateOpts.isEmpty (opts : UpdateOpts) : Bool := opts = {}

/-- The errors of the operations. -/
inductive Failure
  | notFound (verb id : String)
  | emptyConditionalUpdate (id : String)
  | conditionalWriteUnsupported
  | preconditionFailed (id : String) (expected current : ℤ)

/-- The store. -/
structure State where
  /-- The last number minted into an identifier; unbounded here, an `int` in the source. -/
  seq : ℕ := 0
  beads : List Bead := []
  deps : List Dep := []
  disableConditionalWrites : Bool := false
  /-- Replaces the prefix `gc` of minted identifiers. -/
  idPrefix : String := ""

/-! ## Beads -/

/-- A dependency type by its text. -/
def depTypeOf (name : String) : DepType :=
  if name = "blocks" then .blocks
  else if name = "parent-child" then .parentChild
  else if name = "waits-for" then .waitsFor
  else .other name

/-- The dependency that an entry of `Needs` stands for: `type:id`, or an identifier that blocks. -/
def needDep (issueID need : String) : Dep :=
  let before := need.toList.takeWhile (· ≠ ':')
  let after := (need.toList.dropWhile (· ≠ ':')).tail
  if before ≠ [] ∧ after ≠ [] then ⟨issueID, String.ofList after, depTypeOf (String.ofList before)⟩
  else ⟨issueID, need, .blocks⟩

/-- The end of every write: the time and the revision move. -/
def Bead.touch (now : Go.Time) (b : Bead) : Bead := { b with updatedAt := now, revision := b.revision + 1 }

/-- Whether an update changes who owns a bead: another assignee, or a closed bead that gets another status. -/
def isOwnershipTransition (oldStatus : Status) (oldAssignee : String) (opts : UpdateOpts) : Bool :=
  opts.assignee.any (· ≠ oldAssignee) ||
    opts.status.any (fun status => status ≠ .other "" ∧ oldStatus = .closed ∧ status ≠ .closed)

/-- A bead after an update. -/
def UpdateOpts.apply (opts : UpdateOpts) (now : Go.Time) (b : Bead) : Bead :=
  { b with
    title := opts.title.getD b.title
    status := opts.status.getD b.status
    description := opts.description.getD b.description
    priority := opts.priority.or b.priority
    parentID := opts.parentID.getD b.parentID
    assignee := opts.assignee.getD b.assignee
    type := opts.type.getD b.type
    metadata := b.metadata.update opts.metadata
    labels := (b.labels ++ opts.labels).filter (· ∉ opts.removeLabels)
    claimFence := if isOwnershipTransition b.status b.assignee opts then b.claimFence + 1 else b.claimFence
    : Bead }.touch now

/-- A bead after its assignee lost it. -/
def Bead.release (now : Go.Time) (b : Bead) : Bead :=
  { b with status := .opened, assignee := "", claimFence := b.claimFence + 1 : Bead }.touch now

/-- A bead after it was closed, with metadata. -/
def Bead.close (now : Go.Time) (metadata : Metadata) (b : Bead) : Bead :=
  { b with status := .closed, metadata := b.metadata.update metadata : Bead }.touch now

/-- Closed to open starts a new ownership generation. -/
def Bead.reopen (now : Go.Time) (b : Bead) : Bead :=
  { b with
    status := .opened
    claimFence := if b.status = .closed then b.claimFence + 1 else b.claimFence : Bead }.touch now

/-- A bead after a metadata write. -/
def Bead.setMetadata (now : Go.Time) (kvs : Metadata) (b : Bead) : Bead :=
  { b with metadata := b.metadata.update kvs : Bead }.touch now

/-- The first bead with an identifier changed. -/
def changeFirst (id : String) (f : Bead → Bead) : List Bead → List Bead
  | [] => []
  | b :: beads => if b.id = id then f b :: beads else b :: changeFirst id f beads

/-! ## Operations -/

variable (s : State)

namespace State

/-- The identifier minted from a number. -/
def mintID (n : ℕ) : String := (if s.idPrefix = "" then "gc" else s.idPrefix) ++ "-" ++ Go.itoa n

variable (id : String)

/-- The bead with an identifier. -/
def get : Option Bead := s.beads.find? (·.id = id)

/-- The bead with an identifier changed. -/
def change (f : Bead → Bead) : State := { s with beads := changeFirst id f s.beads }

/-- The bead with an identifier taken out; its dependency rows stay. -/
def remove : State := { s with beads := s.beads.eraseP (·.id = id) }

variable (now : Go.Time)

/-- The bead that `Create` stores. -/
def newBead (b : Bead) : Bead :=
  { b with
    id := s.mintID (s.seq + 1)
    status := .opened
    type := if b.type = "" then "task" else b.type
    createdAt := now
    updatedAt := now
    revision := 1
    claimFence := 0 }

/-- The store after `Create`; what the bead needs becomes dependency rows. -/
def create (b : Bead) : State :=
  { s with
    seq := s.seq + 1
    beads := s.beads ++ [s.newBead now b]
    deps := s.deps ++ b.needs.map (needDep (s.mintID (s.seq + 1))) }

/-- A write to the bead with an identifier, which must exist. -/
def onBead {α : Type} (s : State) (verb id : String) (f : Bead → Except Failure α × State) :
    Except Failure α × State :=
  match s.get id with
  | none => (.error (.notFound verb id), s)
  | some b => f b

variable (now : Go.Time) (id : String)

/-- `Update` of a bead. -/
def update (opts : UpdateOpts) : Except Failure Unit × State :=
  s.onBead "updating" id fun _ => (.ok (), s.change id (opts.apply now))

/-- An assignment that is not the expected one is left alone, and so is a bead that does not exist. -/
def releaseIfCurrent (expectedAssignee : String) : Except Failure Bool × State :=
  match s.get id with
  | none => (.ok false, s)
  | some b =>
    if b.status ≠ .inProgress ∨ b.assignee ≠ expectedAssignee then (.ok false, s)
    else (.ok true, s.change id (Bead.release now))

/-- A closed bead is left as it is. -/
def close (s : State) (now : Go.Time) (id : String) : Except Failure Unit × State :=
  s.onBead "closing" id fun b =>
    if b.status = .closed then (.ok (), s) else (.ok (), s.change id (Bead.close now []))

/-- An open bead is left as it is. -/
def reopen (s : State) (now : Go.Time) (id : String) : Except Failure Unit × State :=
  s.onBead "reopening" id fun b =>
    if b.status = .opened then (.ok (), s) else (.ok (), s.change id (Bead.reopen now))

/-- Whether `CloseAll` closes a bead. -/
def closesIn (ids : List String) (b : Bead) : Bool := b.id ∈ ids ∧ b.status ≠ .closed

/-- Returns how many beads were closed. -/
def closeAll (ids : List String) (metadata : Metadata) : Except Failure ℕ × State :=
  (.ok (s.beads.filter (closesIn ids)).length,
    { s with beads := s.beads.map fun b => if closesIn ids b then b.close now metadata else b })

/-- One metadata key is set. -/
def setMetadata (s : State) (now : Go.Time) (id : String) (key : Key) (value : String) :
    Except Failure Unit × State :=
  s.onBead "setting metadata on" id fun _ => (.ok (), s.change id (Bead.setMetadata now [(key, value)]))

/-- An empty batch is not even looked up. -/
def setMetadataBatch (kvs : Metadata) : Except Failure Unit × State :=
  if kvs.isEmpty then (.ok (), s)
  else s.onBead "setting metadata batch on" id fun _ => (.ok (), s.change id (Bead.setMetadata now kvs))

/-- A write that is conditional on the revision. -/
def ifMatch (verb id : String) (expected : ℤ) (f : Bead → State) : Except Failure Unit × State :=
  if s.disableConditionalWrites then (.error .conditionalWriteUnsupported, s)
  else s.onBead verb id fun b =>
    if b.revision ≠ expected then (.error (.preconditionFailed id expected b.revision), s) else (.ok (), f b)

variable (expected : ℤ)

/-- An update that sets nothing is refused before the revision is looked at. -/
def updateIfMatch (opts : UpdateOpts) : Except Failure Unit × State :=
  if opts.isEmpty then (.error (.emptyConditionalUpdate id), s)
  else s.ifMatch "updating" id expected fun _ => s.change id (opts.apply now)

/-- A closed bead of the expected revision is left as it is. -/
def closeIfMatch : Except Failure Unit × State :=
  s.ifMatch "closing" id expected fun b =>
    if b.status = .closed then s else s.change id (Bead.close now [])

/-- `DeleteIfMatch`. -/
def deleteIfMatch : Except Failure Unit × State := s.ifMatch "deleting" id expected fun _ => s.remove id

/-- A key is set if it has the expected value; an absent key has the empty one. -/
def compareAndSetMetadataKey (key : Key) (expected next : String) : Except Failure Bool × State :=
  if s.disableConditionalWrites then (.error .conditionalWriteUnsupported, s)
  else s.onBead "compare-and-set metadata on" id fun b =>
    if b.metadata.get key ≠ expected then (.ok false, s)
    else (.ok true, s.change id (Bead.setMetadata now [(key, next)]))

/-- `Delete`. -/
def delete : Except Failure Unit × State := s.onBead "deleting" id fun _ => (.ok (), s.remove id)

variable (issueID dependsOnID : String)

/-- A dependency between the same two beads takes the new type, unless one of the two is a parenthood. -/
def depAdd (type : DepType) : State :=
  let new : Dep := ⟨issueID, dependsOnID, type⟩
  { s with deps := (Beads.Store.absorb new s.deps).getD (s.deps ++ [new]) }

/-- The first dependency between two beads is dropped, whatever its type. -/
def depRemove : State :=
  { s with deps := s.deps.eraseP fun d => d.issueID = issueID ∧ d.dependsOnID = dependsOnID }

/-- What a bead depends on. -/
def depList : List Dep := s.deps.filter (·.issueID = id)

end State

/-! ## Serving operations -/

/-- What can be asked inside a transaction. -/
inductive TxOp
  | create (b : Bead)
  | update (id : String) (opts : UpdateOpts)
  | setMetadataBatch (id : String) (kvs : Metadata)
  | close (id : String)

/-- What an operation inside a transaction returns. -/
@[reducible] def TxOp.Value : TxOp → Type
  | .create _ => Bead
  | .update _ _ => Unit
  | .setMetadataBatch _ _ => Unit
  | .close _ => Unit

/-- How a transaction serves an operation. -/
def TxOp.serve : (op : TxOp) → Go.Time → State → Except Failure op.Value × State
  | .create b, now, s => (.ok (s.newBead now b), s.create now b)
  | .update id opts, now, s => s.update now id opts
  | .setMetadataBatch id kvs, now, s => s.setMetadataBatch now id kvs
  | .close id, now, s => s.close now id

/-- The callback of a transaction: it asks operations, each at its time, and goes on with what they return. -/
abbrev TxBody := Runs.Program (Go.Time × TxOp) (fun q => Except Failure q.2.Value) Unit

/-- The operations that change the store. -/
inductive Op
  | create (b : Bead)
  | update (id : String) (opts : UpdateOpts)
  | releaseIfCurrent (id expectedAssignee : String)
  | close (id : String)
  | reopen (id : String)
  | closeAll (ids : List String) (metadata : Metadata)
  | setMetadata (id : String) (key : Key) (value : String)
  | setMetadataBatch (id : String) (kvs : Metadata)
  | updateIfMatch (id : String) (expected : ℤ) (opts : UpdateOpts)
  | closeIfMatch (id : String) (expected : ℤ)
  | deleteIfMatch (id : String) (expected : ℤ)
  | compareAndSetMetadataKey (id : String) (key : Key) (expected next : String)
  | delete (id : String)
  | depAdd (issueID dependsOnID : String) (type : DepType)
  | depRemove (issueID dependsOnID : String)
  /-- The operations of the callback one after the other, without a rollback. -/
  | tx (body : TxBody)

/-- What an operation returns. -/
@[reducible] def Op.Value : Op → Type
  | .create _ => Bead
  | .releaseIfCurrent _ _ => Bool
  | .closeAll _ _ => ℕ
  | .compareAndSetMetadataKey _ _ _ _ => Bool
  | _ => Unit

/-- How the store serves an operation. -/
def Op.serve : (op : Op) → Go.Time → State → Except Failure op.Value × State
  | .create b, now, s => (.ok (s.newBead now b), s.create now b)
  | .update id opts, now, s => s.update now id opts
  | .releaseIfCurrent id expectedAssignee, now, s => s.releaseIfCurrent now id expectedAssignee
  | .close id, now, s => s.close now id
  | .reopen id, now, s => s.reopen now id
  | .closeAll ids metadata, now, s => s.closeAll now ids metadata
  | .setMetadata id key value, now, s => s.setMetadata now id key value
  | .setMetadataBatch id kvs, now, s => s.setMetadataBatch now id kvs
  | .updateIfMatch id expected opts, now, s => s.updateIfMatch now id expected opts
  | .closeIfMatch id expected, now, s => s.closeIfMatch now id expected
  | .deleteIfMatch id expected, _, s => s.deleteIfMatch id expected
  | .compareAndSetMetadataKey id key expected next, now, s => s.compareAndSetMetadataKey now id key expected next
  | .delete id, _, s => s.delete id
  | .depAdd issueID dependsOnID type, _, s => (.ok (), s.depAdd issueID dependsOnID type)
  | .depRemove issueID dependsOnID, _, s => (.ok (), s.depRemove issueID dependsOnID)
  | .tx body, _, s => (.ok (), (body.run (fun q s => q.2.serve q.1 s) s).2)

/-- The store after a sequence of operations, each at its time. -/
def run (calls : List (Go.Time × Op)) : State := calls.foldl (fun s call => (call.2.serve call.1 s).2) s

end DeliveryEngine.MemStore
