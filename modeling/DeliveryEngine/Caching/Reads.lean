import DeliveryEngine.Caching.Calls

/-!
# The reads that look at the whole cache

`Ready` answers from the cache, after it has read the dirty rows again, if the dependency rows are complete, and
asks the backing store otherwise; `CachedReady` answers from the cache or not at all.  `Prime` fills the cache from a
full scan, and a reconciliation merges another one into it.
-/

namespace DeliveryEngine.Caching

open Beads (Dep DepType Metadata Key)
open MemStore (Bead Status UpdateOpts)

/-! ## Reading ready beads -/

namespace Cache

variable (c : Cache)

def beads : List Bead := c.rows.keys.filterMap fun id => (c.row id).bead

def dirtyIDs : List String := c.rows.keys.filter fun id => (c.row id).dirty

variable (suppressed : List String)

def dirtyToRefresh : List String := c.dirtyIDs.filter (· ∉ suppressed)

/-- The suppressed beads that came back since `startSeq`. -/
def churned (startSeq : ℕ) : List String :=
  suppressed.filter fun id => (c.row id).fenced startSeq || ((c.row id).bead.isSome && !(c.row id).dirty)

/-- `cachedBeadReady`: a projection decides; else a blocking dependency on a bead that is known and not closed. -/
def cachedBeadReady (b : Bead) (statusOf : String → Option Status) (deps : List Dep) : Bool :=
  match b.isBlocked with
  | some blocked => !blocked
  | none => !deps.any fun d => isReadyBlockingDependencyType d.type && (statusOf d.dependsOnID).any (· ≠ .closed)

/-- The status of a cached bead that is not suppressed. -/
def statusOf (id : String) : Option Status :=
  ((c.beads.filter (·.id ∉ suppressed)).find? (·.id = id)).map Bead.status

/-- The ready beads of a cache whose dependency rows are complete. -/
def readyBeads (now : Go.Time) (suppressed : List String) : List Bead :=
  ((c.beads.filter (·.id ∉ suppressed)).filter fun b => isReadyCandidate b now).filter fun b =>
    cachedBeadReady b (c.statusOf suppressed) ((c.row b.id).deps.getD [])

/-- `CachedReady`: nothing if the cache cannot answer alone. -/
def cachedReady (now : Go.Time) : Option (List Bead) :=
  let candidates := c.beads.filter fun b => isReadyCandidate b now
  if c.serving && !c.primePartialErr && c.dirtyIDs.isEmpty &&
      candidates.all fun b => (c.row b.id).deps.isSome || c.depsComplete then
    some (candidates.filter fun b => cachedBeadReady b (c.statusOf []) ((c.row b.id).deps.getD []))
  else none

end Cache

/-- What was read of a dirty bead: the bead, and its dependency rows if its fields have none. -/
structure OverlayFetched where
  id : String
  bead : Bead
  deps : Option (List Dep)

/-- Read dirty beads again; those that are gone are suppressed. -/
def fetchDirtyOverlay : List String → List String → Call (List OverlayFetched × List String)
  | [], suppressed => pure ([], suppressed)
  | id :: todo, suppressed => do
      match ← askGet id with
      | none => fetchDirtyOverlay todo (suppressed ++ [id])
      | some fresh =>
        let deps ← if beadCarriesDependencyFields fresh then pure none else some <$> askDepList id
        let (fetched, suppressed) ← fetchDirtyOverlay todo suppressed
        return (⟨id, fresh, deps⟩ :: fetched, suppressed)

/-- One dirty row, unless a mutation after `startSeq` touched it. -/
def Cache.absorbOverlay (now : Go.Time) (startSeq : ℕ) (c : Cache) (f : OverlayFetched) : Cache :=
  if (c.row f.id).fenced startSeq then c
  else c.absorbFresh f.id f.bead now
    { depsMode := match f.deps with
        | some deps => .explicit deps
        | none => .fromFields
      seqMode := .clearBeadSeqOnly, clearDirty := true }

/-- How a pass of a cached read ends. -/
inductive PassOutcome
  | served (c : Cache) (suppressed : List String)
  | retry (suppressed : List String)
  | fallback

variable (c : Cache)

/-- The end of a pass, under the lock: the cache can be read if no row is left to refresh. -/
def passEnd (startSeq : ℕ) (suppressed : List String) : PassOutcome :=
  if c.dirtyToRefresh suppressed ≠ [] then .retry suppressed
  else if c.churned suppressed startSeq ≠ [] then .retry (suppressed.filter (· ∉ c.churned suppressed startSeq))
  else .served c suppressed

/-- The most dirty rows that a read refreshes. -/
def dirtyOverlayMaxGets : ℕ := 8

variable (gate : Cache → Bool) (now : Go.Time)

def overlayPass (suppressed : List String) : Call PassOutcome := do
  let c ← readLocked
  if !gate c then return .fallback
  let todo := c.dirtyToRefresh suppressed
  if todo = [] then return passEnd c c.mutationSeq suppressed
  if dirtyOverlayMaxGets < c.dirtyIDs.length then return .fallback
  let (fetched, suppressed) ← fetchDirtyOverlay todo suppressed
  let c' ← underLock fun c' =>
    if gate c' then fetched.foldl (Cache.absorbOverlay now c.mutationSeq) c' else c'
  if !gate c' then return .fallback
  return passEnd (fetched.foldl (Cache.absorbOverlay now c.mutationSeq) c') c.mutationSeq suppressed

/-- A cached read after at most two passes over the dirty rows. -/
def readCacheWithOverlay : Call (Option (Cache × List String)) := do
  match ← overlayPass gate now [] with
  | .served c suppressed => return some (c, suppressed)
  | .fallback => return none
  | .retry suppressed =>
    match ← overlayPass gate now suppressed with
    | .served c suppressed => return some (c, suppressed)
    | .fallback => return none
    | .retry _ => return none

/-- Whether `Ready` may answer from the cache. -/
def readyGate : Bool := c.state = .live && c.depsComplete && !c.primePartialErr

/-- The ready beads, and whether they come from the cache. -/
def ready (now : Go.Time) : Call (Bool × List Bead) := do
  match ← readCacheWithOverlay readyGate now with
  | some (c, suppressed) => return (true, c.readyBeads now suppressed)
  | none => return (false, ← Runs.Program.op (Query.ready now))

def cachedReady (now : Go.Time) : Call (Option (List Bead)) := do
  let c ← readLocked
  return c.cachedReady now

/-! ## Full scans -/

/-- The snapshot of a scan: of beads with one identifier the last one counts. -/
def Snapshot.ofScan (fresh : List Bead) (closed : List Bead) (deps : List (String × List Dep)) : Snapshot where
  beads := fresh.pwFilter fun a b => a.id ≠ b.id
  nodup := List.pairwise_map.mpr (List.pairwise_pwFilter fresh)
  confirmedClosed id := closed.find? (·.id = id)
  confirmed_id id b h := by simpa using List.find?_some h
  depMap id := (deps.lookup id).getD []

/-- A row after a scan that nothing overtook: what the scan found, or a local write of the last seconds. -/
def Cache.primedRow (snap : Snapshot) (now : Go.Time) (id : String) : Row :=
  let row := c.row id
  match snap.find? id, row.bead with
  | some fresh, current? =>
    if recentLocalMutation row.localBeadAt now && current?.any (beadChanged · fresh true) then
      { row with
        deps := row.deps.or (some (snap.depMap id))
        deletedSeq := 0
        depsSeq := if row.deps.isSome then row.depsSeq else 0 }
    else { bead := some fresh, deps := some (snap.depMap id) }
  | none, some current =>
    if current.status ≠ .closed ∧ recentLocalMutation row.localBeadAt now then { row with deletedSeq := 0 } else {}
  | none, none => {}

variable (startSeq : ℕ) (snap : Snapshot) (now : Go.Time) (c : Cache)

/-- A scan that a mutation overtook only adds the beads that the cache does not have. -/
def Cache.primeMissing (b : Bead) : Cache :=
  if startSeq < (c.row b.id).deletedSeq ∨ (c.row b.id).bead.isSome then c
  else c.absorbFresh b.id b now
    { depsMode := .explicit (snap.depMap b.id), seqMode := .clearBeadSeqOnly, clearDirty := false }

def afterPrime : Cache :=
  if c.mutationSeq = startSeq then
    { c with
      rows := Go.Table.empty.visit (fun id _ => c.primedRow snap now id) (snap.ids ++ c.rows.keys).dedup
      depsComplete := true, state := .live, primePartialErr := false }
  else
    { snap.beads.foldl (Cache.primeMissing startSeq snap now) c with
      depsComplete := false, state := .live, primePartialErr := false }

def prime (now : Go.Time) : Call Unit := do
  let c ← readLocked
  let fresh ← askList
  let deps ← depListAll (fresh.map Bead.id)
  let _ ← underLock (afterPrime c.mutationSeq (.ofScan fresh [] deps) now)

/-- The cached beads that should have been listed and were not. -/
def Cache.missingFromList (fresh : List Bead) : List String :=
  c.rows.keys.filter fun id => (c.row id).bead.any (·.status ≠ .closed) && id ∉ fresh.map Bead.id

/-- Of the beads that were read again because the listing did not have them: those that are closed, and the others. -/
def recovered (missing : List (String × Option Bead)) : List Bead × List Bead :=
  (missing.filterMap (·.2)).partition (·.status = .closed)

def runReconciliation (now : Go.Time) : Call (List Notification) := do
  let start ← readLocked
  let listed ← askList
  let c ← readLocked
  let missing ← getAll (c.missingFromList listed)
  let (closed, alive) := recovered missing
  let fresh := listed ++ alive
  let deps ← depListAll (fresh.map Bead.id)
  let snap := Snapshot.ofScan fresh closed deps
  let before ← underLock fun c => (mergeSnapshot false snap start.mutationSeq now c).1
  return (mergeSnapshot false snap start.mutationSeq now before).2

/-! ## Calls by name -/

inductive Request
  | create (b : Bead)
  | update (id : String) (opts : UpdateOpts)
  | releaseIfCurrent (id expectedAssignee : String)
  | close (id : String)
  | reopen (id : String)
  | closeAll (ids : List String) (metadata : Metadata)
  | setMetadata (id : String) (key : Key) (value : String)
  | setMetadataBatch (id : String) (kvs : Metadata)
  | tx (callback : TxCallback)
  | depAdd (issueID dependsOnID : String) (type : DepType)
  | depRemove (issueID dependsOnID : String)
  | delete (id : String)
  | get (id : String)
  | depList (id : String)
  | ready
  | cachedReady
  | runReconciliation

/-- A call whose result nobody looks at. -/
def discard {α : Type} (call : Call α) : Call Unit := call >>= fun _ => pure ()

def Request.call (now : Go.Time) : Request → Call Unit
  | .create b => discard (Caching.create now b)
  | .update id opts => discard (Caching.update now id opts)
  | .releaseIfCurrent id expectedAssignee => discard (Caching.releaseIfCurrent now id expectedAssignee)
  | .close id => discard (Caching.close now id)
  | .reopen id => discard (Caching.reopen now id)
  | .closeAll ids metadata => discard (Caching.closeAll now ids metadata)
  | .setMetadata id key value => discard (Caching.setMetadata now id key value)
  | .setMetadataBatch id kvs => discard (Caching.setMetadataBatch now id kvs)
  | .tx callback => discard (Caching.tx now callback)
  | .depAdd issueID dependsOnID type => discard (Caching.depAdd now issueID dependsOnID type)
  | .depRemove issueID dependsOnID => discard (Caching.depRemove now issueID dependsOnID)
  | .delete id => discard (Caching.delete now id)
  | .get id => discard (Caching.get now id)
  | .depList id => discard (Caching.depList id)
  | .ready => discard (Caching.ready now)
  | .cachedReady => discard (Caching.cachedReady now)
  | .runReconciliation => discard (Caching.runReconciliation now)

/-- The world after calls that are made one after the other, each at its time. -/
def World.afterAll (present : List Dep → Bead → Bead) (w : World) (requests : List (Go.Time × Request)) : World :=
  requests.foldl (fun w request => w.after present (request.2.call request.1)) w

end DeliveryEngine.Caching
