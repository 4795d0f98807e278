import DeliveryEngine.Beads.MemStore
import DeliveryEngine.Go.Table
import Mathlib.Data.List.Dedup

/-!
# The rows of the read cache

The cache keeps, by identifier, a copy of the bead, a copy of its dependency rows, and the marks that say how far they
can be trusted.  In the source these are six maps with the same keys; here they are the fields of one `Row`, with an
absent entry as the zero value (sequence numbers start at one).  `Row.absorb` is the one way in which a fresh copy of a
bead gets into the cache.
-/

namespace DeliveryEngine.Caching

open Beads (Dep DepType Metadata Key)
open MemStore (Bead Status UpdateOpts needDep)

structure Row where
  bead : Option Bead := none
  deps : Option (List Dep) := none
  dirty : Bool := false
  beadSeq : ℕ := 0
  localBeadAt : Option Go.Time := none
  deletedSeq : ℕ := 0
  /-- Not in the source: the number of the mutation that installed the dependency rows, if one did. -/
  depsSeq : ℕ := 0
  deriving Inhabited, DecidableEq

inductive CacheState
  | uninitialized
  | activeOnly
  | live
  | degraded
  deriving DecidableEq

structure Cache where
  rows : Go.Table Row := .empty
  mutationSeq : ℕ := 0
  /-- Whether a row without dependency rows stands for a bead without dependencies. -/
  depsComplete : Bool := false
  state : CacheState := .uninitialized
  primePartialErr : Bool := false

/-! ## Dependencies -/

/-- `isReadyBlockingDependencyType`. -/
def isReadyBlockingDependencyType : DepType → Bool
  | .blocks => true
  | .waitsFor => true
  | .other name => name = "conditional-blocks"
  | .parentChild => false

/-- The dependencies that a bead carries in its own fields: the structured ones, else those of `Needs`. -/
def depsFromBeadFields (b : Bead) : List Dep :=
  if b.dependencies ≠ [] then b.dependencies else b.needs.map (needDep b.id)

def beadCarriesDependencyFields (b : Bead) : Bool := b.dependencies ≠ [] || b.needs ≠ []

/-- Two dependency lists differ as multisets. -/
def depsChanged (old fresh : List Dep) : Bool := !old.isPerm fresh

/-- Whether two copies of a bead differ; times of update and revisions are not compared, and sets are compared
without their order. -/
def beadChanged (old fresh : Bead) (skipLabels : Bool) : Bool :=
  old.id ≠ fresh.id || old.title ≠ fresh.title || old.status ≠ fresh.status || old.type ≠ fresh.type ||
    old.priority ≠ fresh.priority || old.createdAt ≠ fresh.createdAt || old.assignee ≠ fresh.assignee ||
    old.sender ≠ fresh.sender || old.parentID ≠ fresh.parentID || old.ref ≠ fresh.ref ||
    old.description ≠ fresh.description || old.ephemeral ≠ fresh.ephemeral ||
    old.deferUntil ≠ fresh.deferUntil || old.isBlocked ≠ fresh.isBlocked || !old.metadata.isPerm fresh.metadata ||
    (!skipLabels && !old.labels.isPerm fresh.labels) || !old.needs.isPerm fresh.needs ||
    depsChanged old.dependencies fresh.dependencies

/-! ## Absorbing a fresh copy -/

/-- Where the dependency rows of an absorbed bead come from. -/
inductive DepsMode
  | explicit (deps : List Dep)
  | fromFields
  | fromFieldsIfCarried
  | keepCached
  | drop

/-- What absorbing a bead does to its sequence marks. -/
inductive SeqMode
  | keep
  /-- Both marks go, unless a local write is still recent. -/
  | clearGuarded
  | clearBeadSeqOnly
  deriving DecidableEq

structure AbsorbOpts where
  depsMode : DepsMode
  seqMode : SeqMode
  clearDirty : Bool

/-- A local write is recent for five seconds. -/
def recentLocalMutation (mutatedAt : Option Go.Time) (now : Go.Time) : Bool :=
  mutatedAt.any fun t => !t.isZero && now.sub t ≤ 5 * Go.Duration.second

variable (mode : DepsMode) (b : Bead)

/-- The dependency rows after a bead is absorbed. -/
def DepsMode.install (cached : Option (List Dep)) : Option (List Dep) :=
  match mode with
  | .explicit deps => some deps
  | .fromFields => some (depsFromBeadFields b)
  | .fromFieldsIfCarried => if beadCarriesDependencyFields b then some (depsFromBeadFields b) else cached
  | .keepCached => cached
  | .drop => none

/-- Whether absorbing a bead replaces its dependency rows. -/
def DepsMode.installs : Bool :=
  match mode with
  | .fromFieldsIfCarried => beadCarriesDependencyFields b
  | .keepCached => false
  | .explicit _ | .fromFields | .drop => true

/-- Install a fresh copy of a bead in its row; `seq` is the number of the last mutation. -/
def Row.absorb (row : Row) (seq : ℕ) (b : Bead) (now : Go.Time) (opts : AbsorbOpts) : Row where
  bead := some b
  deps := opts.depsMode.install b row.deps
  dirty := !opts.clearDirty && row.dirty
  beadSeq :=
    match opts.seqMode with
    | .keep => row.beadSeq
    | .clearGuarded => if recentLocalMutation row.localBeadAt now then row.beadSeq else 0
    | .clearBeadSeqOnly => 0
  localBeadAt :=
    match opts.seqMode with
    | .clearGuarded => if recentLocalMutation row.localBeadAt now then row.localBeadAt else none
    | .keep | .clearBeadSeqOnly => row.localBeadAt
  deletedSeq := 0
  depsSeq :=
    -- The marks are kept by the callers that have just noted a mutation.
    if opts.depsMode.installs b then (if opts.seqMode = .keep then seq else 0) else row.depsSeq

/-- The `is_blocked` projection of a cached bead forgotten. -/
def Row.clearReadyProjection (row : Row) : Row :=
  { row with bead := row.bead.map fun b => { b with isBlocked := none } }

namespace Cache

variable (c : Cache) (id : String)

def row : Row := c.rows.get id

def setRow (row : Row) : Cache := { c with rows := c.rows.set id row }

def absorbFresh (b : Bead) (now : Go.Time) (opts : AbsorbOpts) : Cache :=
  c.setRow id ((c.row id).absorb c.mutationSeq b now opts)

def tombstone (seq : ℕ) : Cache := c.setRow id { deletedSeq := seq }

def markDirty : Cache := c.setRow id { c.row id with dirty := true }

/-- The dirty flag and the deletion mark go; the copies stay. -/
def clearStalenessMarks : Cache := c.setRow id { c.row id with dirty := false, deletedSeq := 0 }

/-- The next sequence number is given to some identifiers. -/
def noteMutation (ids : List String) : Cache :=
  { c with
    mutationSeq := c.mutationSeq + 1
    rows := c.rows.visit (fun _ row => { row with beadSeq := c.mutationSeq + 1 }) (ids.dedup.filter (· ≠ "")) }

def noteLocalMutation (now : Go.Time) (ids : List String) : Cache :=
  { c with
    mutationSeq := c.mutationSeq + 1
    rows := c.rows.visit (fun _ row => { row with beadSeq := c.mutationSeq + 1, localBeadAt := some now })
      (ids.dedup.filter (· ≠ "")) }

def clearReadyProjection (id : String) : Cache := c.setRow id (c.row id).clearReadyProjection

variable (dependsOnID : String)

/-- Whether a row has an `is_blocked` projection that a change of a bead makes doubtful: one with a blocking
dependency on the bead, or any if the dependency rows are not complete. -/
def projectionDependsOn (row : Row) : Bool :=
  row.bead.any (·.isBlocked.isSome) && (!c.depsComplete ||
      row.deps.any (·.any fun d => d.dependsOnID = dependsOnID && isReadyBlockingDependencyType d.type))

/-- The projections that a change of a bead makes doubtful are forgotten. -/
def clearDependentReadyProjections : Cache :=
  if dependsOnID = "" then c
  else
    let cleared := c.rows.keys.filter fun id => c.projectionDependsOn dependsOnID (c.row id)
    if cleared = [] then c
    else { c with rows := c.rows.visit (fun _ row => row.clearReadyProjection) cleared }.noteMutation cleared

end Cache

/-! ## Reading rows back -/

namespace Cache

variable {c : Cache}

@[simp] lemma row_setRow (id : String) (row : Row) (j : String) :
    (c.setRow id row).row j = if j = id then row else c.row j := Go.Table.get_set _ _ _ _

@[simp] lemma row_absorbFresh (id : String) (b : Bead) (now : Go.Time) (opts : AbsorbOpts) (j : String) :
    (c.absorbFresh id b now opts).row j =
      if j = id then (c.row id).absorb c.mutationSeq b now opts else c.row j := row_setRow _ _ _

lemma mem_keys_of_row {id : String} (h : c.row id ≠ {}) : id ∈ c.rows.keys := Go.Table.mem_keys_of_ne h

end Cache

end DeliveryEngine.Caching
