import DeliveryEngine.Caching.Merge
import Mathlib.Data.List.Pairwise

/-!
# The calls of the read cache

A call is a program whose operations are the backing store's and the sections under the cache's lock.  The backing
store is the store in memory, except that `present` says how it shows a bead: the store in memory shows what it keeps,
others fill the dependency fields in from the dependency rows.  It does not fail other than by not finding a bead.
-/

namespace DeliveryEngine.Caching

open Beads (Dep DepType Metadata Key)
open MemStore (Bead Status UpdateOpts Failure TxOp)

/-! ## What a call asks -/

/-- The callback of a transaction; what it returns says whether it succeeds. -/
abbrev TxCallback := Runs.Program (Go.Time × TxOp) (fun q => Except Failure q.2.Value) Bool

/-- What is known of a transaction after it: the beads that it wrote, and those of them that it closed. -/
structure TxRecord where
  touched : List String := []
  closed : List String := []

/-- An operation of a call. -/
inductive Query
  | store (now : Go.Time) (op : MemStore.Op)
  | tx (callback : TxCallback)
  | get (id : String)
  | depList (id : String)
  /-- All beads that are not closed. -/
  | list
  | ready (now : Go.Time)
  /-- A section under the cache's lock. -/
  | locked (f : Cache → Cache)

/-- What each operation is answered with. -/
def Answer : Query → Type
  | .store _ op => Except Failure op.Value
  | .tx _ => Bool × TxRecord
  | .get _ => Option Bead
  | .depList _ => List Dep
  | .list => List Bead
  | .ready _ => List Bead
  | .locked _ => Cache

/-- The beads that an operation of a transaction wrote. -/
def touchedBy : (op : TxOp) → op.Value → List String
  | .create _, created => [created.id]
  | .update id _, _ => [id]
  | .setMetadataBatch id kvs, _ => if kvs.isEmpty then [] else [id]
  | .close id, _ => [id]

/-- The record after an operation that succeeded. -/
def TxRecord.touch (record : TxRecord) (op : TxOp) (value : op.Value) : TxRecord where
  touched := record.touched ++ (touchedBy op value).filter (fun id => id ≠ "" ∧ id ∉ record.touched)
  closed := match op with
    | .close id => record.closed ++ [id]
    | _ => record.closed

/-- How a transaction serves its callback. -/
def serveTx (q : Go.Time × TxOp) (t : MemStore.State × TxRecord) :
    Except Failure q.2.Value × (MemStore.State × TxRecord) :=
  let served := q.2.serve q.1 t.1
  match served.1 with
  | .error e => (.error e, (served.2, t.2))
  | .ok value => (.ok value, (served.2, t.2.touch q.2 value))

/-! ## Readiness -/

/-- `IsReadyExcludedType`. -/
def isReadyExcludedType (type : String) : Bool :=
  type ∈ ["merge-request", "gate", "molecule", "step", "convoy", "message", "session", "agent", "role", "rig"]

/-- `HasReadyExcludedLabel`. -/
def hasReadyExcludedLabel (b : Bead) : Bool :=
  b.labels.any fun label => label ∈ ["gc:session", "gc:order-tracking", "order-tracking"]

/-- `IsReadyCandidate`: an open bead of the main tier that is work, and is not deferred. -/
def isReadyCandidate (b : Bead) (now : Go.Time) : Bool :=
  !b.ephemeral && b.status = .opened && !(isReadyExcludedType b.type || hasReadyExcludedLabel b) &&
    !b.deferUntil.any (now.ns < ·.ns)

/-- The ready beads of the store in memory; a dependency on a bead that does not exist blocks. -/
def storeReady (s : MemStore.State) (now : Go.Time) : List Bead :=
  s.beads.filter fun b => isReadyCandidate b now &&
    !s.deps.any fun d => d.issueID = b.id && isReadyBlockingDependencyType d.type &&
      (s.get d.dependsOnID).all (·.status ≠ .closed)

/-! ## The world that calls share -/

/-- The backing store, and the cache in front of it. -/
structure World where
  store : MemStore.State := {}
  cache : Cache := {}

section

-- How the backing store shows a bead with some dependency rows.
variable (present : List Dep → Bead → Bead)

/-- What the backing store answers when it is asked for a bead. -/
def shown (s : MemStore.State) (id : String) : Option Bead := (s.get id).map (present (s.depList id))

/-- How the operations of a call are served. -/
def serve : (q : Query) → World → Answer q × World
  | .store now op, w => ((op.serve now w.store).1, { w with store := (op.serve now w.store).2 })
  | .tx callback, w =>
    let r := callback.run serveTx (w.store, {})
    ((r.1, r.2.2), { w with store := r.2.1 })
  | .get id, w => (shown present w.store id, w)
  | .depList id, w => (w.store.depList id, w)
  | .list, w => ((w.store.beads.filter (·.status ≠ .closed)).map fun b => present (w.store.depList b.id) b, w)
  | .ready now, w => (storeReady w.store now, w)
  | .locked f, w => (w.cache, { w with cache := f w.cache })

end

/-- The store in memory shows a bead as it keeps it. -/
def asKept : List Dep → Bead → Bead := fun _ b => b

/-- A call of the cache; other calls may run between its operations. -/
abbrev Call := Runs.Program Query Answer

/-- The world after a call that nothing interrupts. -/
def World.after {α : Type} (present : List Dep → Bead → Bead) (w : World) (call : Call α) : World :=
  (call.run (serve present) w).2

variable (now : Go.Time) (op : MemStore.Op)

/-- A write to the backing store. -/
def askStore : Call (Except Failure op.Value) := Runs.Program.op (Query.store now op)

/-- A bead as the backing store shows it. -/
def askGet (id : String) : Call (Option Bead) := Runs.Program.op (Query.get id)

/-- A bead's dependency rows in the backing store. -/
def askDepList (id : String) : Call (List Dep) := Runs.Program.op (Query.depList id)

/-- The active beads of the backing store. -/
def askList : Call (List Bead) := Runs.Program.op Query.list

/-- A section that only reads. -/
def readLocked : Call Cache := Runs.Program.op (Query.locked id)

/-- A section that changes the cache; it returns the cache before the change. -/
def underLock (f : Cache → Cache) : Call Cache := Runs.Program.op (Query.locked f)

/-- Some beads, one after the other. -/
def getAll : List String → Call (List (String × Option Bead))
  | [] => pure []
  | id :: ids => do
      let fresh ← askGet id
      return (id, fresh) :: (← getAll ids)

/-- The dependency rows of some beads, one after the other. -/
def depListAll : List String → Call (List (String × List Dep))
  | [] => pure []
  | id :: ids => do
      let deps ← askDepList id
      return (id, deps) :: (← depListAll ids)

/-! ## What the sections of the writers do -/

/-- A bead already carries the metadata. -/
def metadataMatches (kvs : Metadata) (b : Bead) : Bool := kvs.all fun kv => b.metadata.get kv.1 = kv.2

variable (opts : UpdateOpts) (b : Bead)

/-- A bead is already as an update makes it; labels are compared as sets. -/
def updateMatches : Bool :=
  opts.title.all (· = b.title) && opts.status.all (· = b.status) && opts.type.all (· = b.type) &&
    opts.priority.all (b.priority = some ·) && opts.description.all (· = b.description) &&
    opts.parentID.all (· = b.parentID) && opts.assignee.all (· = b.assignee) && metadataMatches opts.metadata b &&
    opts.labels.all (· ∈ b.labels) && opts.removeLabels.all (· ∉ b.labels)

namespace Cache

variable (c : Cache)

/-- The cache answers reads from its rows. -/
def serving : Bool := c.state = .live || c.state = .activeOnly

variable (id : String)

/-- The cached bead that a write may be compared with. -/
def matchable : Option Bead :=
  if id ≠ "" ∧ c.serving ∧ !(c.row id).dirty then (c.row id).bead else none

/-- The cached bead is closed already. -/
def closeAlreadyMatchesCached : Bool := (c.matchable id).any (·.status = .closed)

/-- The cached bead already carries the metadata. -/
def metadataAlreadyMatchesCached (kvs : Metadata) : Bool := (c.matchable id).any (metadataMatches kvs)

/-- The cached bead is already as the update makes it. -/
def updateMatchesCached (opts : UpdateOpts) : Bool := (c.matchable id).any (updateMatches opts)

variable (now : Go.Time) (id : String)

/-- A write of this process and the bead as it was read after it. -/
def install (b : Bead) (depsMode : DepsMode) : Cache :=
  (c.noteLocalMutation now [id]).absorbFresh id b now { depsMode, seqMode := .keep, clearDirty := true }

/-- A write of this process after which the bead could not be read: the cached copy is changed instead. -/
def patch (f : Bead → Bead) (orElse : Cache → Cache) : Cache :=
  let noted := c.noteLocalMutation now [id]
  match (c.row id).bead with
  | some b => noted.absorbFresh id (f b) now { depsMode := .keepCached, seqMode := .keep, clearDirty := true }
  | none => orElse noted

end Cache

/-- `applyUpdateOptsToBead`: the update once more on the bead as it was read after it. -/
def applyUpdateOptsToBead : Bead :=
  { b with
    title := opts.title.getD b.title
    status := opts.status.getD b.status
    type := opts.type.getD b.type
    priority := opts.priority.or b.priority
    description := opts.description.getD b.description
    parentID := opts.parentID.getD b.parentID
    assignee := opts.assignee.getD b.assignee
    metadata := b.metadata.update opts.metadata
    labels :=
      if opts.labels = [] ∧ opts.removeLabels = [] then b.labels
      else ((b.labels ++ opts.labels).filter (· ∉ opts.removeLabels)).reverse.dedup.reverse }

/-! ## The writers

Most of them have one shape: a write, then the bead read again, then a section that takes it in. -/

/-- A write, and the bead read again and taken in; a write that fails leaves the cache alone. -/
def writeThrough (id : String) (takeIn : Option Bead → Cache → Cache) : Call (Except Failure op.Value) := do
  match ← askStore now op with
  | .error e => return .error e
  | .ok value =>
    let fresh ← askGet id
    let _ ← underLock (takeIn fresh)
    return .ok value

/-- A write that the cache already shows is not made. -/
def unlessMatching (matching : Cache → Bool) (call : Call (Except Failure Unit)) : Call (Except Failure Unit) := do
  let c ← readLocked
  if matching c then return .ok () else call

/-- The bead that was created is cached as it is read again, or as the store returned it. -/
def create (now : Go.Time) (b : Bead) : Call (Except Failure Bead) := do
  match ← askStore now (.create b) with
  | .error e => return .error e
  | .ok created =>
    let fresh ← askGet (show Bead from created).id
    let bead := fresh.getD created
    let _ ← underLock fun c => c.install now bead.id bead .fromFields
    return .ok bead

/-- The section of an update; a bead that is not found after it is gone. -/
def afterUpdate (now : Go.Time) (id : String) (opts : UpdateOpts) (fresh? : Option Bead) (c : Cache) : Cache :=
  match fresh? with
  | none =>
    let noted := c.noteLocalMutation now [id]
    (noted.tombstone id noted.mutationSeq).clearDependentReadyProjections id
  | some fresh =>
    let installed := c.install now id (applyUpdateOptsToBead opts fresh) .fromFields
    if opts.status.isSome then installed.clearDependentReadyProjections id else installed

/-- `Update`, unless the cached bead is already so. -/
def update (now : Go.Time) (id : String) (opts : UpdateOpts) : Call (Except Failure Unit) :=
  unlessMatching (·.updateMatchesCached id opts) (writeThrough now (.update id opts) id (afterUpdate now id opts))

/-- The section of a release. -/
def afterRelease (now : Go.Time) (id : String) (fresh? : Option Bead) (c : Cache) : Cache :=
  let refreshed :=
    match fresh? with
    | some fresh => c.install now id fresh .fromFields
    | none =>
      (c.patch now id (fun b => { b with status := .opened, assignee := "", updatedAt := now }) fun c => c).markDirty id
  refreshed.clearDependentReadyProjections id

/-- `ReleaseIfCurrent`: a bead is taken from its assignee if that is who is expected. -/
def releaseIfCurrent (now : Go.Time) (id expectedAssignee : String) : Call (Except Failure Bool) := do
  match ← askStore now (.releaseIfCurrent id expectedAssignee) with
  | .error e => return .error e
  | .ok false => return .ok false
  | .ok true =>
    let fresh ← askGet id
    let _ ← underLock (afterRelease now id fresh)
    return .ok true

/-- The bead that was read gets the status that was written, whatever it shows. -/
def afterStatus (now : Go.Time) (id : String) (status : Status) (fresh? : Option Bead) (c : Cache) : Cache :=
  let refreshed :=
    match fresh? with
    | some fresh => c.install now id { fresh with status } .keepCached
    | none => c.patch now id (fun b => { b with status }) fun c => c
  refreshed.clearDependentReadyProjections id

/-- `Close`, unless the cached bead is closed. -/
def close (now : Go.Time) (id : String) : Call (Except Failure Unit) :=
  unlessMatching (·.closeAlreadyMatchesCached id) (writeThrough now (.close id) id (afterStatus now id .closed))

/-- `Reopen` has no such test. -/
def reopen (now : Go.Time) (id : String) : Call (Except Failure Unit) :=
  writeThrough now (.reopen id) id (afterStatus now id .opened)

/-- One bead of a `CloseAll`; a closed bead loses its dependency rows. -/
def Cache.absorbClosed (now : Go.Time) (c : Cache) (item : String × Option Bead) : Cache :=
  match item.2 with
  | none => c
  | some b =>
    if b.status = .closed then
      (c.absorbFresh item.1 b now { depsMode := .drop, seqMode := .keep, clearDirty := true
        }).clearDependentReadyProjections item.1
    else c.absorbFresh item.1 b now { depsMode := .keepCached, seqMode := .keep, clearDirty := true }

/-- The section of `CloseAll`; beads that could not be read are marked. -/
def afterCloseAll (now : Go.Time) (ids : List String) (fresh : List (String × Option Bead)) (c : Cache) : Cache :=
  let noted := c.noteLocalMutation now ids
  let marked := ((fresh.filter (·.2.isNone)).map (·.1)).foldl Cache.markDirty noted
  fresh.foldl (Cache.absorbClosed now) marked

/-- Returns how many beads were closed, and those that could not be read afterwards. -/
def closeAll (now : Go.Time) (ids : List String) (metadata : Metadata) : Call (Except Failure (ℕ × List String)) := do
  match ← askStore now (.closeAll ids metadata) with
  | .error e => return .error e
  | .ok n =>
    let fresh ← getAll ids
    let _ ← underLock (afterCloseAll now ids fresh)
    return .ok (n, (fresh.filter (·.2.isNone)).map (·.1))

/-- The section of a metadata write. -/
def afterMetadata (now : Go.Time) (id : String) (kvs : Metadata) (fresh? : Option Bead) (c : Cache) : Cache :=
  match fresh? with
  | some fresh => c.install now id fresh .fromFields
  | none => c.patch now id (fun b => { b with metadata := b.metadata.update kvs }) (·.markDirty id)

/-- `SetMetadata`, unless the cached bead already carries the value. -/
def setMetadata (now : Go.Time) (id : String) (key : Key) (value : String) : Call (Except Failure Unit) :=
  unlessMatching (·.metadataAlreadyMatchesCached id [(key, value)])
    (writeThrough now (.setMetadata id key value) id (afterMetadata now id [(key, value)]))

/-- A batch that fails may have been written in part, so the bead is marked. -/
def setMetadataBatch (now : Go.Time) (id : String) (kvs : Metadata) : Call (Except Failure Unit) :=
  if kvs.isEmpty then pure (.ok ())
  else unlessMatching (·.metadataAlreadyMatchesCached id kvs) do
    match ← writeThrough now (.setMetadataBatch id kvs) id (afterMetadata now id kvs) with
    | .error e =>
      let _ ← underLock fun c => (c.noteMutation [id]).markDirty id
      return .error e
    | .ok value => return .ok value

/-- One bead that a transaction wrote. -/
def Cache.absorbTouched (now : Go.Time) (closed : List String) (c : Cache) (item : String × Option Bead) : Cache :=
  let opts (depsMode : DepsMode) : AbsorbOpts := { depsMode, seqMode := .keep, clearDirty := true }
  match item.2, (c.row item.1).bead with
  | some fresh, previous? =>
    let absorbed := c.absorbFresh item.1 fresh now (opts .fromFields)
    if item.1 ∈ closed ∨ fresh.status = .closed ∨ previous?.any (·.status ≠ fresh.status) then
      absorbed.clearDependentReadyProjections item.1
    else absorbed
  | none, previous? =>
    if item.1 ∈ closed then
      match previous? with
      | some b =>
        (c.absorbFresh item.1 { b with status := .closed } now (opts .keepCached)).clearDependentReadyProjections
          item.1
      | none => c
    else c.markDirty item.1

/-- The beads that a transaction wrote are read again, unless its callback failed. -/
def tx (now : Go.Time) (callback : TxCallback) : Call Bool := do
  let (succeeded, record) ← Runs.Program.op (Query.tx callback)
  if !succeeded then return false
  if record.touched = [] then return true
  let fresh ← getAll record.touched
  let _ ← underLock fun c =>
    fresh.foldl (Cache.absorbTouched now record.closed) (c.noteLocalMutation now record.touched)
  return true

/-- `refreshBeadWithDepsAfterWrite`: the bead with its dependency rows in its fields. -/
def getWithDeps (id : String) : Call (Option (Bead × List Dep)) := do
  match ← askGet id with
  | none => return none
  | some fresh =>
    let deps ← askDepList id
    return some ({ fresh with dependencies := deps, needs := [] }, deps)

/-- The sections of `DepAdd` and `DepRemove`: a bead that could not be read has its cached dependency rows changed,
if they are known. -/
def afterDeps (now : Go.Time) (issueID : String) (fresh? : Option (Bead × List Dep))
    (edit : List Dep → Option (List Dep)) (c : Cache) : Cache :=
  match fresh? with
  | some (fresh, deps) => (c.install now issueID fresh (.explicit deps)).clearReadyProjection issueID
  | none =>
    let noted := c.noteLocalMutation now [issueID]
    if !c.depsComplete && (c.row issueID).deps.isNone then noted.clearStalenessMarks issueID
    else
      match edit ((c.row issueID).deps.getD []) with
      | none => noted
      | some deps =>
        ((noted.setRow issueID { noted.row issueID with deps := some deps, depsSeq := noted.mutationSeq
          }).clearReadyProjection issueID).clearStalenessMarks issueID

/-- The first dependency on a bead gets another type. -/
def retype (dependsOnID : String) (type : DepType) : List Dep → List Dep
  | [] => []
  | d :: deps => if d.dependsOnID = dependsOnID then { d with type } :: deps else d :: retype dependsOnID type deps

/-- A change of dependency rows, and the bead read again with them. -/
def writeDeps (issueID : String) (edit : List Dep → Option (List Dep)) : Call (Except Failure op.Value) := do
  match ← askStore now op with
  | .error e => return .error e
  | .ok value =>
    let fresh ← getWithDeps issueID
    let _ ← underLock (afterDeps now issueID fresh edit)
    return .ok value

/-- `DepAdd`: a dependency that is there gets the type. -/
def depAdd (now : Go.Time) (issueID dependsOnID : String) (type : DepType) : Call (Except Failure Unit) :=
  writeDeps now (.depAdd issueID dependsOnID type) issueID fun deps =>
    if deps.any (·.dependsOnID = dependsOnID) then some (retype dependsOnID type deps)
    else some (deps ++ [⟨issueID, dependsOnID, type⟩])

/-- `DepRemove`. -/
def depRemove (now : Go.Time) (issueID dependsOnID : String) : Call (Except Failure Unit) :=
  writeDeps now (.depRemove issueID dependsOnID) issueID fun deps =>
    if deps.any (·.dependsOnID = dependsOnID) then some (deps.eraseP (·.dependsOnID = dependsOnID)) else none

/-- The section of a delete: a tombstone. -/
def afterDelete (now : Go.Time) (id : String) (c : Cache) : Cache :=
  let noted := c.noteLocalMutation now [id]
  (noted.tombstone id noted.mutationSeq).clearDependentReadyProjections id

/-- The bead is read first, for the event. -/
def delete (now : Go.Time) (id : String) : Call (Except Failure Unit) := do
  let _ ← askGet id
  match ← askStore now (.delete id) with
  | .error e => return .error e
  | .ok _ =>
    let _ ← underLock (afterDelete now id)
    return .ok ()

/-! ## The readers -/

/-- The row of a dirty bead that was read again, unless a mutation after `startSeq` touched it. -/
def afterDirtyGet (now : Go.Time) (id : String) (startSeq : ℕ) (fresh : Bead) (c : Cache) : Cache :=
  if c.serving && !(c.row id).fenced startSeq then
    c.absorbFresh id fresh now { depsMode := .fromFields, seqMode := .clearBeadSeqOnly, clearDirty := true }
  else c

/-- `Get`: from a row that may be trusted, else from the backing store; a dirty row is refreshed. -/
def get (now : Go.Time) (id : String) : Call (Option Bead) := do
  let c ← readLocked
  let row := c.row id
  if row.deletedSeq ≠ 0 then return none
  if row.beadSeq ≠ 0 ∧ !row.dirty ∧ row.bead.isSome then return row.bead
  if !c.serving then askGet id
  else if row.dirty then
    match ← askGet id with
    | none => return none
    | some fresh =>
      let c' ← underLock (afterDirtyGet now id c.mutationSeq fresh)
      let row' := c'.row id
      if !c'.serving then return some fresh
      if c.mutationSeq < row'.deletedSeq then return none
      if c.mutationSeq < row'.beadSeq then
        if row'.dirty then return (← askGet id) else return row'.bead
      return some fresh
  else if row.bead.isSome then return row.bead
  else askGet id

/-- `DepList` downwards: dependency rows that are not cached are read, and cached. -/
def depList (id : String) : Call (List Dep) := do
  let c ← readLocked
  if c.state ≠ .live ∨ !c.depsComplete then askDepList id
  else
    match (c.row id).deps with
    | some deps => return deps
    | none =>
      let deps ← askDepList id
      let _ ← underLock fun c => c.setRow id { c.row id with deps := some deps, depsSeq := 0 }
      return deps

end DeliveryEngine.Caching
