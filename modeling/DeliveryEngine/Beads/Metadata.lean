import Mathlib.Data.List.Basic
import Mathlib.Tactic.Lemma

/-!
# Metadata of beads and steps

Steps and beads carry string metadata.  The keys the engine itself reads and writes form a fixed
vocabulary; every other key belongs to whoever wrote it.  Reading an absent key gives the empty text, and
the engine treats an absent key and an empty one alike except where it copies a whole map.
-/

namespace DeliveryEngine.Beads

open List

/-- A metadata key: one of the engine's own, or another by its name. -/
inductive Key
  | attempt
  | attemptLog
  | attachFencePending
  | bond
  | bondVars
  | cancelRequested
  | checkMode
  | checkPath
  | checkTimeout
  | continuationGroup
  | controlEpoch
  | controlFor
  | controllerError
  | controllerErrorClass
  | controllerRetryable
  | deferredAssignee
  | deferredExecutionRoutedTo
  | deferredRoutedTo
  | deferredType
  | executionRoutedTo
  | failedAttempt
  | failureClass
  | failureReason
  | fanoutMode
  | fanoutState
  | finalDisposition
  | forEach
  | idempotencyKey
  | instantiating
  | kind
  | lastFinalizeError
  | logicalBeadID
  | maxAttempts
  | missingRootBeadID
  | onExhausted
  | onFail
  | originalKind
  | outcome
  | outputJSON
  | outputJSONRequired
  | partialFragment
  | ralphStepID
  | rootBeadID
  | rootStoreRef
  | routedTo
  | scopeName
  | scopeRef
  | scopeRole
  | sourceBeadID
  | sourceStepSpec
  | sourceStoreRef
  | spawnedCount
  | specFor
  | specForRef
  | stepID
  | stepRef
  | stepTimeout
  | moleculeFailed
  | moleculeID
  | workflowID
  | closeReason
  | other (name : String)
  deriving DecidableEq

/-- String metadata: each key once. -/
abbrev Metadata := List (Key × String)

namespace Metadata

/-- `m[k]`: the empty text when the key is absent. -/
def get (m : Metadata) (k : Key) : String := (m.lookup k).getD ""

/-- `m[k] = v`. -/
def set (m : Metadata) (k : Key) (v : String) : Metadata := (k, v) :: m.filter (·.1 ≠ k)

/-- `delete(m, k)`. -/
def delete (m : Metadata) (k : Key) : Metadata := m.filter (·.1 ≠ k)

/-- `for k, v := range extra { m[k] = v }`. -/
def update (m extra : Metadata) : Metadata := extra.foldr (fun kv m => m.set kv.1 kv.2) m

variable (m : Metadata) (k : Key)

@[simp] lemma get_nil : get [] k = "" := rfl

variable (kv : Key × String)

@[simp] lemma get_cons (m : Metadata) (k : Key) : get (kv :: m) k = if k = kv.1 then kv.2 else get m k := by
  obtain ⟨k', v⟩ := kv
  by_cases h : k = k'
  · subst h
    simp [get]
  · have hbeq : (k == k') = false := beq_eq_false_iff_ne.mpr h
    simp only [get, lookup_cons, hbeq, h, if_false]

lemma get_filter_ne {k k' : Key} (h : k' ≠ k) : get (m.filter (·.1 ≠ k)) k' = get m k' := by
  induction m with
  | nil => rfl
  | cons kv m ih =>
    by_cases hk : kv.1 = k
    · rw [filter_cons_of_neg (by simp [hk]), ih, get_cons, if_neg fun he => h (he.trans hk)]
    · rw [filter_cons_of_pos (by simp [hk]), get_cons, get_cons, ih]

lemma get_filter_self : get (m.filter (·.1 ≠ k)) k = "" := by
  induction m with
  | nil => rfl
  | cons kv m ih =>
    by_cases hk : kv.1 = k
    · rw [filter_cons_of_neg (by simp [hk]), ih]
    · rw [filter_cons_of_pos (by simp [hk]), get_cons, if_neg (Ne.symm hk), ih]

@[simp] lemma get_set (k' : Key) (v : String) : (m.set k v).get k' = if k' = k then v else m.get k' := by
  rw [set, get_cons]
  by_cases h : k' = k
  · rw [if_pos h, if_pos h]
  · rw [if_neg h, if_neg h, get_filter_ne m h]

@[simp] lemma get_delete (k' : Key) : (m.delete k).get k' = if k' = k then "" else m.get k' := by
  rw [delete]
  by_cases h : k' = k
  · rw [if_pos h, h, get_filter_self]
  · rw [if_neg h, get_filter_ne m h]

@[simp] lemma update_nil : m.update [] = m := rfl

@[simp] lemma update_cons (extra : Metadata) : m.update (kv :: extra) = (m.update extra).set kv.1 kv.2 := rfl

variable (m extra : Metadata)

lemma get_update : (m.update extra).get k = if k ∈ extra.map Prod.fst then extra.get k else m.get k := by
  induction extra with
  | nil => simp
  | cons kv extra ih =>
    rw [update_cons, get_set, get_cons, ih]
    by_cases h : k = kv.1
    · rw [if_pos h, if_pos h, if_pos (by simp [h])]
    · rw [if_neg h, if_neg h, map_cons]
      simp only [mem_cons, h, false_or]

variable {extra}

lemma get_update_of_notMem {k : Key} (h : k ∉ extra.map Prod.fst) : (m.update extra).get k = m.get k := by
  rw [get_update, if_neg h]

lemma update_eq_append : m.update extra = update [] extra ++ m.filter (·.1 ∉ extra.map Prod.fst) := by
  induction extra with
  | nil => simp
  | cons kv extra ih =>
    rw [update_cons, update_cons, ih, set, set, filter_append, filter_filter]
    congr 2
    refine filter_congr fun kv' _ => ?_
    rw [← Bool.decide_and, decide_eq_decide, map_cons, mem_cons, not_or]

lemma mem_update_nil {kv : Key × String} (h : kv ∈ update [] extra) : kv.1 ∈ extra.map Prod.fst := by
  induction extra with
  | nil => cases h
  | cons kv' extra ih =>
    rcases mem_cons.mp h with rfl | h
    · simp
    · exact mem_cons_of_mem _ (ih (mem_of_mem_filter h))

@[simp] lemma update_update : (m.update extra).update extra = m.update extra := by
  rw [update_eq_append (m.update extra), update_eq_append m, filter_append]
  have hnew : (update [] extra).filter (·.1 ∉ extra.map Prod.fst) = [] :=
    filter_eq_nil_iff.mpr fun kv hkv => by simpa using mem_update_nil hkv
  rw [hnew]
  simp

end Metadata

end DeliveryEngine.Beads
