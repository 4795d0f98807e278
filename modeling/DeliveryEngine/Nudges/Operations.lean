import DeliveryEngine.Nudges.Moves

/-!
# One operation of the queue

`Op` is an operation with all it is given and all it finds outside the queue, and `Op.run` its answer and the queue
after it.  `Op.does` says what any operation does to the queue: nothing, or maintenance and then its own moves, after
which an enqueue may add its nudge.  Invariants of the queue are shown from this alone.
-/

namespace DeliveryEngine.Nudges

open Go
open Runs

/-! ## Operations -/

inductive Op
  | enqueue (e : Env) (saved : Except String String) (x : Item)
  | claim (e : Env) (wanted : Item → Bool)
  | ack (e : Env) (ids : List String)
  | release (e : Env) (ids : List String)
  | fail (e : Env) (cause : Cause) (ids : List String)

/-- What an operation that does not fail returns. -/
inductive Answer
  /-- An enqueue, and whether it stored its nudge. -/
  | enqueued (stored : Bool)
  | claimed (items : List Item)
  | settled

namespace Op

def env : Op → Env
  | enqueue e _ _ | claim e _ | ack e _ | release e _ | fail e _ _ => e

def run : Op → State → Except String Answer × State
  | enqueue e saved x, s => ((enqueueQueuedNudge e saved x s).1.map .enqueued, (enqueueQueuedNudge e saved x s).2)
  | claim e wanted, s => ((claimDueQueuedNudges e wanted s).1.map .claimed, (claimDueQueuedNudges e wanted s).2)
  | ack e ids, s => ((ackQueuedNudges e ids s).1.map fun _ => .settled, (ackQueuedNudges e ids s).2)
  | release e ids, s =>
    ((releaseQueuedNudgeClaims e ids s).1.map fun _ => .settled, (releaseQueuedNudgeClaims e ids s).2)
  | fail e cause ids, s =>
    ((recordQueuedNudgeFailure e cause ids s).1.map fun _ => .settled, (recordQueuedNudgeFailure e cause ids s).2)

/-- What an operation does to a nudge once its maintenance is done. -/
def Moves : Op → Entry → Entry → Prop
  | enqueue e _ x => fun a b => ∃ beadID, Superseded e (x.savedAs beadID) a b
  | claim e _ => Claimed e
  | ack _ _ => Eq
  | release _ ids => Released ids
  | fail e cause ids => Failed e cause ids

/-- What an operation takes out of the queue once its maintenance is done. -/
def Leaves : Op → Entry → Prop
  | ack _ ids => Acked ids
  | _ => fun _ => False

end Op

/-! ## What an operation does to the queue -/

lemma storeNudge_cases {e : Env} {x : Item} {s s' : State} {stored : Bool}
    (h : storeNudge e x s = .ok (stored, s')) :
    stored = false ∧ s' = maintain e e.enqueueDeadline s ∨
      stored = true ∧ x.id ∉ (maintain e e.enqueueDeadline s).ids ∧
        ∃ t, supersedeExisting e x (maintain e e.enqueueDeadline s) = .ok t ∧
          s' = State.sort { t with pending := t.pending ++ [x] } := by
  unfold storeNudge at h
  dsimp only at h
  split at h
  · cases h
    exact .inl ⟨rfl, rfl⟩
  · next hnew =>
    rw [State.exists?_iff] at hnew
    split at h
    · cases h
    · next t ht =>
      cases h
      exact .inr ⟨rfl, hnew, t, ht, rfl⟩

namespace Op

/-- What an operation does to the queue. -/
inductive Does (op : Op) (s s' : State) : Prop
  /-- It failed, or was given no ids. -/
  | unchanged (same : s' = s)
  | moved (maintained : State)
      (upkeep : Maintains op.env s.entries maintained.entries)
      (own : Flows op.Moves op.Leaves maintained.entries s'.entries)
  /-- It stored a nudge whose id was not there. -/
  | stored (e : Env) (saved : Except String String) (x : Item) (beadID : String) (enqueues : op = enqueue e saved x)
      (maintained rest : State)
      (upkeep : Maintains op.env s.entries maintained.entries)
      (own : Flows op.Moves op.Leaves maintained.entries rest.entries) (fresh : x.id ∉ rest.ids)
      (entries : s'.entries.Perm ((.pending, x.savedAs beadID) :: rest.entries))

lemma savedAs_id (x : Item) (beadID : String) : (x.savedAs beadID).id = x.id := by
  unfold Item.savedAs
  split <;> rfl

lemma flow_maintained (e : Env) (deadline : Time) (s : State) :
    Maintains e s.entries (maintain e deadline s.sort).entries :=
  Upkeep.flow_trans e (.of_perm (fun a _ => .stay a) s.entries_sort.symm) (flow_maintain e deadline s.sort)

lemma does (op : Op) (s : State) : op.Does s (op.run s).2 := by
  cases op with
  | claim e wanted => exact .moved _ (flow_maintained e _ s) (flow_claim e wanted _)
  | release e ids =>
    simp only [run, releaseQueuedNudgeClaims]
    split
    · exact .unchanged rfl
    · exact .moved _ (flow_maintained e _ s) (flow_release ids _)
  | fail e cause ids =>
    simp only [run, recordQueuedNudgeFailure]
    split
    · exact .unchanged rfl
    · exact .moved _ (flow_maintained e _ s) (flow_fail e ids cause _)
  | ack e ids =>
    simp only [run, ackQueuedNudges]
    split
    · exact .unchanged rfl
    · simp only [withState]
      split
      · exact .unchanged rfl
      · next a s' hchange =>
        split at hchange
        · cases hchange
        · cases hchange
          exact .moved _ (flow_maintained e _ s) (flow_ack ids _)
  | enqueue e saved x =>
    simp only [run, enqueueQueuedNudge]
    split
    · exact .unchanged rfl
    · next beadID =>
      simp only [withState]
      split
      · exact .unchanged rfl
      · next stored s' hstore =>
        rcases storeNudge_cases hstore with ⟨-, rfl⟩ | ⟨-, hfresh, t, ht, rfl⟩
        · exact .moved _ (flow_maintained e _ s) (.refl fun a _ => ⟨"", .stay a⟩)
        · have hflow := flow_supersede e ht
          refine .stored e _ x beadID rfl _ t (flow_maintained e _ s)
            (hflow.mono (fun a _ b h => ⟨beadID, h⟩) fun _ _ h => h) ?_ ?_
          · intro hmem
            exact hfresh (savedAs_id x beadID ▸ hflow.keys.subset hmem)
          · refine (State.entries_sort _).trans (Multiset.coe_eq_coe.mp ?_)
            simp only [coe_entries, tagged_append, tagged_cons, tagged_nil, ← Multiset.coe_add,
              ← Multiset.cons_coe, Multiset.coe_nil]
            rw [← Multiset.singleton_add, ← Multiset.singleton_add]
            abel

end Op

end DeliveryEngine.Nudges
