import DeliveryEngine.Convergence.Chain

/-!
# What a loop may do, said of its history

A wisp after the first may become active if the iteration before it has ended and, since then, its gate has let the
loop go on, the trigger condition has passed or an operator has asked for an iteration (`Granted`, `Lawful`).  A loop
has been `resumed` if an operator or the trigger has let it go on and nothing after that was to end it.  The newest
note of a history is its first.
-/

namespace DeliveryEngine.Convergence

open List

/-- The history since the wisp of an iteration closed. -/
def since (k : ℕ) (history : List Note) : List Note := history.takeWhile (· ≠ .closed k)

variable (cfg : Config)

/-- A note that lets a loop go on after iteration `k`. -/
def Note.permits (k : ℕ) : Note → Bool
  | .called (.iterate _) .waitingManual => true
  | .called (.trigger true) .waitingTrigger => true
  | .persisted n outcome =>
    n = k && cfg.decision k outcome = .iterate && !cfg.gate.needsManualWithoutGate && !cfg.trigger
  | _ => false

/-- Iteration `k` has ended, if it was one, and since then the loop may go on. -/
def Granted (k : ℕ) (history : List Note) : Prop :=
  (k = 0 ∨ .closed k ∈ history) ∧ ∃ n ∈ since k history, n.permits cfg k

instance (cfg : Config) (k : ℕ) (history : List Note) : Decidable (Granted cfg k history) :=
  inferInstanceAs (Decidable (_ ∧ _))

/-- The wisp of an iteration may become active.  A loop without a trigger is created with its first one. -/
def Permits (iteration : ℕ) (history : List Note) : Prop :=
  1 ≤ iteration ∧ iteration ≤ cfg.maxIterations ∧
    (iteration = 1 ∧ cfg.trigger = false ∨ Granted cfg (iteration - 1) history)

instance (cfg : Config) (iteration : ℕ) (history : List Note) : Decidable (Permits cfg iteration history) :=
  inferInstanceAs (Decidable (_ ∧ _ ∧ _))

/-- Every wisp that became active was allowed to. -/
def Lawful (cfg : Config) : List Note → Prop
  | [] => True
  | .activated iteration :: earlier => Permits cfg iteration earlier ∧ Lawful cfg earlier
  | _ :: earlier => Lawful cfg earlier

instance decidableLawful (cfg : Config) : (history : List Note) → Decidable (Lawful cfg history)
  | [] => .isTrue trivial
  | .activated _ :: earlier =>
    have := decidableLawful cfg earlier
    inferInstanceAs (Decidable (_ ∧ _))
  | .called _ _ :: earlier | .poured _ :: earlier | .closed _ :: earlier | .persisted _ _ :: earlier
  | .emitted _ :: earlier => decidableLawful cfg earlier

/-- Whether a note says that the loop goes on, or that it is to end. -/
def Note.resumes : Note → Option Bool
  | .emitted (.manualIterate _ _ _ _) => some true
  | .emitted (.triggerAdvance _ _ _) => some true
  | .called (.approve _) _ => some false
  | .called (.stop _ _) _ => some false
  | .persisted k outcome =>
    match cfg.decision k outcome with
    | .terminal _ => some false
    | .hold | .iterate => none
  | _ => none

/-- The loop was resumed, and nothing has happened since that was to end it. -/
def resumed (history : List Note) : Bool := (history.findSome? (·.resumes cfg)).getD false

def Note.isPour : Note → Bool
  | .poured _ => true
  | _ => false

def Note.isApproval : Note → Bool
  | .called (.approve _) _ => true
  | _ => false

/-- An operator has approved the loop after its last wisp was poured. -/
def approvedSincePour (history : List Note) : Bool := (history.takeWhile (!·.isPour)).any (·.isApproval)

/-! ## One more note -/

section
variable {cfg : Config} {history : List Note} {n : Note} {k : ℕ}

section
variable (hn : n ≠ .closed k)
include hn

lemma since_cons : since k (n :: history) = n :: since k history := takeWhile_cons_of_pos (by simpa using hn)

lemma mem_since_cons {m : Note} (hm : m ∈ since k history) : m ∈ since k (n :: history) :=
  since_cons hn ▸ mem_cons_of_mem _ hm

lemma mem_since_self : n ∈ since k (n :: history) := since_cons hn ▸ mem_cons_self

end

lemma Granted.cons (h : Granted cfg k history) (hn : n ≠ .closed k) : Granted cfg k (n :: history) := by
  obtain ⟨hended, m, hm, hpermits⟩ := h
  exact ⟨hended.imp_right (mem_cons_of_mem _), m, mem_since_cons hn hm, hpermits⟩

lemma granted_cons (hended : k = 0 ∨ .closed k ∈ history) (hn : n ≠ .closed k) (hpermits : n.permits cfg k) :
    Granted cfg k (n :: history) :=
  ⟨hended.imp_right (mem_cons_of_mem _), n, mem_since_self hn, hpermits⟩

lemma Permits.cons {i : ℕ} (h : Permits cfg i history) (hn : ∀ k, n ≠ .closed k) : Permits cfg i (n :: history) :=
  ⟨h.1, h.2.1, h.2.2.imp_right fun hg => hg.cons (hn _)⟩

lemma lawful_cons (hn : ∀ i, n = .activated i → Permits cfg i history) (h : Lawful cfg history) :
    Lawful cfg (n :: history) := by
  cases n with
  | activated i => exact ⟨hn i rfl, h⟩
  | called | poured | closed | persisted | emitted => exact h

lemma resumed_cons_none (hn : n.resumes cfg = none) : resumed cfg (n :: history) = resumed cfg history := by
  rw [resumed, findSome?_cons, hn]
  rfl

lemma resumed_cons_some {b : Bool} (hn : n.resumes cfg = some b) : resumed cfg (n :: history) = b := by
  rw [resumed, findSome?_cons, hn]
  rfl

lemma resumed_cons_false (hn : n.resumes cfg ≠ some true) (h : resumed cfg history = false) :
    resumed cfg (n :: history) = false := by
  cases hr : n.resumes cfg with
  | none => rwa [resumed_cons_none hr]
  | some b =>
    rw [resumed_cons_some hr]
    cases b with
    | false => rfl
    | true => exact absurd hr hn

lemma approvedSincePour_cons (hn : n.isPour = false) (h : approvedSincePour history = true) :
    approvedSincePour (n :: history) = true := by
  rw [approvedSincePour, takeWhile_cons_of_pos (by simp [hn]), any_cons]
  rw [approvedSincePour] at h
  rw [h, Bool.or_true]

end

end DeliveryEngine.Convergence
