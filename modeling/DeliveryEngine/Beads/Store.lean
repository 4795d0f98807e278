import DeliveryEngine.Beads.Metadata
import DeliveryEngine.Go.Strconv
import DeliveryEngine.Runs.Program

/-!
# The bead store

A store of beads and of the dependencies between them, with the operations the engine asks of it.  Each operation is
atomic, and its only error is that a bead does not exist.  Listing is by metadata, in the order of creation, with or
without the closed beads.
-/

namespace DeliveryEngine.Beads

open List
open Runs (Fallible)

/-- Where a bead stands. -/
inductive Status
  | opened
  | inProgress
  | closed
  deriving DecidableEq

structure Bead where
  id : String := ""
  title : String := ""
  description : String := ""
  status : Status := .opened
  type : String := ""
  assignee : String := ""
  parentID : String := ""
  ref : String := ""
  labels : List String := []
  metadata : Metadata := []
  deriving DecidableEq

/-- `bead.Metadata[k]`. -/
def Bead.meta (b : Bead) (k : Key) : String := b.metadata.get k

def Bead.setKey (k : Key) (v : String) (b : Bead) : Bead := { b with metadata := b.metadata.set k v }

@[simp] lemma Bead.setKey_id (k : Key) (v : String) (b : Bead) : (b.setKey k v).id = b.id := rfl

@[simp] lemma Bead.meta_setKey (k : Key) (v : String) (b : Bead) (k' : Key) :
    (b.setKey k v).meta k' = if k' = k then v else b.meta k' := by
  rw [setKey, Bead.meta, Metadata.get_set, Bead.meta]

/-- What a dependency means. -/
inductive DepType
  | blocks
  | parentChild
  | waitsFor
  | other (name : String)
  deriving DecidableEq

/-- The bead `issueID` depends on the bead `dependsOnID`. -/
structure Dep where
  issueID : String
  dependsOnID : String
  type : DepType
  deriving DecidableEq

/-- What an update sets; a field that is absent stays as it is. -/
structure UpdateOpts where
  status : Option Status := none
  type : Option String := none
  assignee : Option String := none
  parentID : Option String := none
  metadata : Metadata := []

def UpdateOpts.apply (opts : UpdateOpts) (b : Bead) : Bead :=
  { b with
    status := opts.status.getD b.status
    type := opts.type.getD b.type
    assignee := opts.assignee.getD b.assignee
    parentID := opts.parentID.getD b.parentID
    metadata := b.metadata.update opts.metadata }

structure Store where
  /-- The last number minted into an identifier. -/
  seq : ℕ := 0
  beads : List Bead := []
  deps : List Dep := []

/-- The identifier minted from a number. -/
def mintID (n : ℕ) : String := "gc-" ++ Go.itoa n

inductive Direction
  | down
  | up

/-- An operation on the store. -/
inductive Op
  | create (b : Bead) (needs : List (DepType × String))
  | get (id : String)
  | list (filters : Metadata) (includeClosed : Bool)
  | children (parentID : String)
  | update (id : String) (opts : UpdateOpts)
  | setMetadataBatch (id : String) (kvs : Metadata)
  | compareAndSetMetadataKey (id : String) (key : Key) (expected next : String)
  | close (id : String)
  | closeAll (ids : List String) (metadata : Metadata)
  | depAdd (issueID dependsOnID : String) (type : DepType)
  | depRemove (issueID dependsOnID : String)
  | depList (id : String) (direction : Direction)

/-- What an operation answers: a write to a bead, whether the bead exists. -/
def Op.Answer : Op → Type
  | .create _ _ => Bead
  | .get _ => Option Bead
  | .list _ _ => List Bead
  | .children _ => List Bead
  | .update _ _ => Bool
  | .setMetadataBatch _ _ => Bool
  | .compareAndSetMetadataKey _ _ _ _ => Option Bool
  | .close _ => Bool
  | .closeAll _ _ => ℕ
  | .depAdd _ _ _ => Unit
  | .depRemove _ _ => Unit
  | .depList _ _ => List Dep

namespace Store

def find? (s : Store) (id : String) : Option Bead := s.beads.find? (·.id = id)

variable (s : Store) (id : String)

/-- Change the bead with an identifier. -/
def modify (f : Bead → Bead) : Store :=
  { s with beads := s.beads.map fun b => if b.id = id then f b else b }

/-- The bead that `Create` stores: it gets the next identifier, and is open. -/
def newBead (b : Bead) : Bead :=
  { b with
    id := mintID (s.seq + 1)
    status := .opened
    type := if b.type = "" then "task" else b.type }

def create (b : Bead) (needs : List (DepType × String)) : Store where
  seq := s.seq + 1
  beads := s.beads ++ [s.newBead b]
  deps := s.deps ++ needs.map fun need => ⟨mintID (s.seq + 1), need.2, need.1⟩

variable (filters : Metadata) (includeClosed : Bool)

/-- A listing asks for every filter, and skips the closed beads unless they are wanted. -/
def matching (b : Bead) : Bool := (includeClosed || b.status ≠ .closed) && filters.all fun kv => b.meta kv.1 = kv.2

def list : List Bead := s.beads.filter (matching filters includeClosed)

/-- The dependencies once one of them has taken a new one in: it is the new one, or neither is a
parenthood and its type changes. -/
def absorb (new : Dep) : List Dep → Option (List Dep)
  | [] => none
  | d :: deps =>
    if d = new then some (d :: deps)
    else if d.issueID = new.issueID ∧ d.dependsOnID = new.dependsOnID ∧ d.type ≠ .parentChild ∧
        new.type ≠ .parentChild
    then some (new :: deps)
    else (absorb new deps).map (d :: ·)

variable (issueID dependsOnID : String)

def depAdd (type : DepType) : Store :=
  let new : Dep := ⟨issueID, dependsOnID, type⟩
  { s with deps := (absorb new s.deps).getD (s.deps ++ [new]) }

def depRemove : Store :=
  { s with deps := s.deps.eraseP fun d => d.issueID = issueID ∧ d.dependsOnID = dependsOnID }

def depList : Direction → List Dep
  | .down => s.deps.filter (·.issueID = id)
  | .up => s.deps.filter (·.dependsOnID = id)

def closeWith (metadata : Metadata) (b : Bead) : Bead :=
  if b.status = .closed then b else { b with status := .closed, metadata := b.metadata.update metadata }

variable (metadata : Metadata)

lemma closeWith_id (b : Bead) : (closeWith metadata b).id = b.id := by
  rw [closeWith]
  split_ifs <;> rfl

lemma closeWith_status (b : Bead) : (closeWith metadata b).status = .closed := by
  rw [closeWith]
  split_ifs with h
  · exact h
  · rfl

/-- Set a metadata key of a bead that holds what is expected; whether it did. -/
def compareAndSet (key : Key) (expected next : String) : Option Bool × Store :=
  match s.find? id with
  | none => (none, s)
  | some b =>
    if b.meta key = expected then (some true, s.modify id (Bead.setKey key next)) else (some false, s)

def serve : (op : Op) → Store → op.Answer × Store
  | .create b needs, s => (s.newBead b, s.create b needs)
  | .get id, s => (s.find? id, s)
  | .list filters includeClosed, s => (s.list filters includeClosed, s)
  | .children parentID, s => (s.beads.filter (·.parentID = parentID), s)
  | .update id opts, s => ((s.find? id).isSome, s.modify id opts.apply)
  | .setMetadataBatch id kvs, s =>
    ((s.find? id).isSome, s.modify id fun b => { b with metadata := b.metadata.update kvs })
  | .compareAndSetMetadataKey id key expected next, s => s.compareAndSet id key expected next
  | .close id, s => ((s.find? id).isSome, s.modify id (closeWith []))
  | .closeAll ids metadata, s =>
    ((s.beads.filter fun b => b.id ∈ ids ∧ b.status ≠ .closed).length,
      { s with beads := s.beads.map fun b => if b.id ∈ ids then closeWith metadata b else b })
  | .depAdd issueID dependsOnID type, s => ((), s.depAdd issueID dependsOnID type)
  | .depRemove issueID dependsOnID, s => ((), s.depRemove issueID dependsOnID)
  | .depList id direction, s => (s.depList id direction, s)

/-! ## Identifiers -/

/-- Identifiers are never given twice: no two beads share one, and none is one still to be minted. -/
structure WellFormed (s : Store) : Prop where
  nodup : (s.beads.map Bead.id).Nodup
  unminted : ∀ n, s.seq < n → mintID n ∉ s.beads.map Bead.id

lemma mintID_injective : Function.Injective mintID := Go.itoa_append_injective _

section
variable {s : Store} {id : String} {b : Bead}

lemma mem_of_find? (h : s.find? id = some b) : b ∈ s.beads := mem_of_find?_eq_some h

lemma id_of_find? (h : s.find? id = some b) : b.id = id := by simpa using find?_some h

lemma WellFormed.find? (hs : s.WellFormed) (hb : b ∈ s.beads) : s.find? b.id = some b := by
  obtain ⟨c, hc⟩ : ∃ c, s.find? b.id = some c := Option.isSome_iff_exists.mp (find?_isSome.mpr ⟨b, hb, by simp⟩)
  rw [hc, inj_on_of_nodup_map hs.nodup (mem_of_find? hc) hb (id_of_find? hc)]

lemma WellFormed.fresh (hs : s.WellFormed) : s.find? (mintID (s.seq + 1)) = none := by
  rw [Store.find?, find?_eq_none]
  intro b hb hid
  exact hs.unminted _ s.seq.lt_succ_self (mem_map.mpr ⟨b, hb, by simpa using hid⟩)

lemma compareAndSet_cases (s : Store) (id : String) (key : Key) (expected next : String) :
    (∃ b, s.find? id = some b ∧ b.meta key = expected ∧
      s.compareAndSet id key expected next = (some true, s.modify id (Bead.setKey key next))) ∨
    ∃ won, won ≠ some true ∧ s.compareAndSet id key expected next = (won, s) := by
  rw [compareAndSet]
  cases hb : s.find? id with
  | none => exact .inr ⟨none, nofun, rfl⟩
  | some b =>
    by_cases hk : b.meta key = expected
    · exact .inl ⟨b, rfl, hk, if_pos hk⟩
    · exact .inr ⟨some false, nofun, if_neg hk⟩

/-! ## What each change does to each bead -/

variable {g : Bead → Bead}

lemma find?_map (hg : ∀ b, (g b).id = b.id) (id : String) (seq : ℕ) (deps : List Dep) :
    Store.find? ⟨seq, s.beads.map g, deps⟩ id = (s.find? id).map g := by
  rw [Store.find?, List.find?_map]
  congr 2
  funext b
  simp [hg]

lemma WellFormed.map (hs : s.WellFormed) (hg : ∀ b, (g b).id = b.id)
    (deps : List Dep) : WellFormed ⟨s.seq, s.beads.map g, deps⟩ where
  nodup := by simpa [map_map, Function.comp_def, hg] using hs.nodup
  unminted := by simpa [map_map, Function.comp_def, hg] using hs.unminted

variable {f : Bead → Bead}

lemma find?_modify (hf : ∀ b, (f b).id = b.id) (id j : String) :
    (s.modify id f).find? j = (s.find? j).map fun b => if b.id = id then f b else b :=
  find?_map (fun b => by split_ifs <;> simp [hf]) j s.seq s.deps

variable (hs : s.WellFormed)
include hs

lemma WellFormed.modify (hf : ∀ b, (f b).id = b.id) (id : String) : (s.modify id f).WellFormed :=
  hs.map (fun b => by split_ifs <;> simp [hf]) s.deps

lemma WellFormed.create (b : Bead) (needs : List (DepType × String)) : (s.create b needs).WellFormed where
  nodup := by
    have hfresh := hs.unminted _ s.seq.lt_succ_self
    simpa [Store.create, newBead, nodup_append, hs.nodup] using fun b hb => by
      rintro heq
      exact hfresh (mem_map.mpr ⟨b, hb, heq⟩)
  unminted n hn := by
    have hold := hs.unminted n (by simp only [Store.create] at hn; omega)
    have hne : mintID n ≠ mintID (s.seq + 1) := fun h => by
      have := mintID_injective h
      simp only [Store.create] at hn
      omega
    simp only [Store.create, newBead, map_append, map_cons, map_nil, mem_append, mem_singleton, not_or]
    exact ⟨hold, hne⟩

lemma find?_create (c : Bead) (needs : List (DepType × String)) (id : String) : (s.create c needs).find? id =
      if id = mintID (s.seq + 1) then some (s.newBead c) else s.find? id := by
  rw [Store.create, Store.find?, find?_append]
  by_cases hid : id = mintID (s.seq + 1)
  · subst hid
    have := hs.fresh
    rw [Store.find?] at this
    simp [this, newBead]
  · rw [if_neg hid, find?_cons_of_neg (by simp [newBead, Ne.symm hid])]
    simp [Store.find?]

end

end Store

/-- A program over the bead store that can fail with an `ε`. -/
abbrev StoreM (ε : Type) := Fallible Op Op.Answer ε

namespace StoreM

variable {ε : Type}

def create (b : Bead) (needs : List (DepType × String)) : StoreM ε Bead := Fallible.op (Op.create b needs)

def get (id : String) : StoreM ε (Option Bead) := Fallible.op (Op.get id)

def list (filters : Metadata) (includeClosed : Bool) : StoreM ε (List Bead) :=
  Fallible.op (Op.list filters includeClosed)

/-- The beads whose parent is the given one, closed ones among them. -/
def children (parentID : String) : StoreM ε (List Bead) := Fallible.op (Op.children parentID)

def update (id : String) (opts : UpdateOpts) : StoreM ε Bool := Fallible.op (Op.update id opts)

def setMetadataBatch (id : String) (kvs : Metadata) : StoreM ε Bool := Fallible.op (Op.setMetadataBatch id kvs)

def compareAndSetMetadataKey (id : String) (key : Key) (expected next : String) : StoreM ε (Option Bool) :=
  Fallible.op (Op.compareAndSetMetadataKey id key expected next)

def close (id : String) : StoreM ε Bool := Fallible.op (Op.close id)

def closeAll (ids : List String) (metadata : Metadata) : StoreM ε ℕ := Fallible.op (Op.closeAll ids metadata)

def depAdd (issueID dependsOnID : String) (type : DepType) : StoreM ε Unit :=
  Fallible.op (Op.depAdd issueID dependsOnID type)

def depRemove (issueID dependsOnID : String) : StoreM ε Unit := Fallible.op (Op.depRemove issueID dependsOnID)

def depList (id : String) (direction : Direction) : StoreM ε (List Dep) := Fallible.op (Op.depList id direction)

end StoreM

/-- Whether a key is in the engine's namespace, `gc.`. -/
def Key.isEngine : Key → Bool
  | .moleculeFailed | .moleculeID | .workflowID | .closeReason => false
  | .other name => Go.hasPrefix name "gc."
  | _ => true

/-- The metadata outside the engine's namespace, as `copyNonGCMetadata` copies it. -/
def nonEngine (m : Metadata) : Metadata := m.filter fun kv => !(kv.1.isEngine || kv.1 = .other "")

end DeliveryEngine.Beads
