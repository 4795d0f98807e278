import DeliveryEngine.Unattended.Plan
import Mathlib.Data.List.Basic
import Mathlib.Data.List.Forall2

/-!
# The work queue

The queue holds every task of the plan with what has happened to it, offers the task the run should do next
(`Queue.next`), and folds outcomes back in.  A task whose need has failed or is held can no longer run, and
`propagateHolds` holds it: what it can do to a task is said by `HeldFrom`, and that it stops only at a fixed point by
`settled_propagateHolds`.  The source's index from ids to tasks is `Queue.task?`, the last task with the id.
-/

namespace DeliveryEngine.Unattended

open Go List

/-! ## Queued tasks -/

/-- Where a task has got to. -/
inductive TaskState
  | pending
  | succeeded
  | failed
  | held
  deriving DecidableEq

namespace TaskState

def text : TaskState → String
  | .pending => "pending"
  | .succeeded => "succeeded"
  | .failed => "failed"
  | .held => "held"

/-- Whether the queue is finished with a task. -/
def terminal (s : TaskState) : Bool := s = .succeeded || s = .failed || s = .held

/-- A need in this state can no longer succeed. -/
def lost (s : TaskState) : Bool := s = .failed || s = .held

@[simp] lemma terminal_iff {s : TaskState} : s.terminal = true ↔ s ≠ .pending := by cases s <;> decide

end TaskState

/-- One recorded execution of a task. -/
structure TaskAttempt where
  number : ℕ := 0
  startedAt : Time := Time.zero
  duration : String := ""
  succeeded : Bool
  cls : FailureClass := FailureClass.unset
  reason : String := ""
  deriving DecidableEq

/-- A declared task and everything that has happened to it. -/
structure QueuedTask where
  task : Task
  state : TaskState := .pending
  attempts : List TaskAttempt := []
  heldReason : String := ""
  interrupted : Bool := false
  resumes : ℤ := 0
  deriving DecidableEq

/-- The resume budget of a task that declares none. -/
def defaultMaxResumes : ℤ := 20

namespace QueuedTask

variable (t : QueuedTask)

/-- How many attempts the task has consumed. -/
def attemptCount : ℕ := t.attempts.length

/-- How many resumable outcomes the task may consume. -/
def resumeBudget : ℤ :=
  if 0 < t.task.maxResumes then t.task.maxResumes else defaultMaxResumes

/-- The attempt allowance of a task, from its own override or from the policy of the class of
failure it last hit. -/
def budget (cls : FailureClass) : ℤ :=
  if 0 < t.task.maxAttempts then t.task.maxAttempts else (policyFor cls).maxAttempts

/-- The task held, for a stated reason. -/
def holdFor (reason : String) : QueuedTask :=
  { t with state := .held, heldReason := reason }

end QueuedTask

/-- What a journal says about work already done. -/
structure ResumeState where
  succeeded : GoMap Bool := ∅
  attempts : GoMap ℤ := ∅
  resumes : GoMap ℤ := ∅
  interrupted : GoMap Bool := ∅
  gates : Ledger := ∅
  finished : Bool := false
  finalOutcome : String := ""
  lastSeq : ℤ := 0

/-! ## The queue and its holds -/

/-- The run's work, ordered by band and gated by dependencies. -/
structure Queue where
  tasks : List QueuedTask
  boundaries : GoMap String

namespace Queue

variable (q : Queue)

def task? (id : String) : Option QueuedTask := q.tasks.reverse.find? (·.task.id = id)

/-- Change the task at a position. -/
def modify (q : Queue) (i : ℕ) (f : QueuedTask → QueuedTask) : Queue :=
  { q with tasks := q.tasks.modify i f }

/-- Why a task is held by the boundaries preflight found, if it is. -/
def boundaryHold (boundaries : GoMap String) (t : Task) : Option String :=
  let blocked := t.requiresChecks.filterMap (fun id =>
    (boundaries.get? id).map (fun action => id ++ " (" ++ action ++ ")"))
  if blocked = [] then none
  else some ("requires a capability behind a human boundary: " ++ joinWith blocked "; ")

variable (t : QueuedTask)

/-- The needs of a task that can no longer succeed, as a hold reports them. -/
def blockedBy : List String :=
  t.task.needs.filterMap (fun need =>
    match q.task? need with
    | none => none
    | some dep => if dep.state.lost then some (need ++ " is " ++ dep.state.text) else none)

variable (i : ℕ)

/-- Hold the task at a position if it is pending and one of its needs can no longer succeed. -/
def holdIfBlocked : Queue :=
  match q.tasks[i]? with
  | none => q
  | some t =>
    if t.state = .pending ∧ q.blockedBy t ≠ [] then
      q.modify i (fun t => t.holdFor ("depends on work that did not succeed: " ++ joinWith (q.blockedBy t) "; "))
    else q

/-- One sweep over the tasks, in declaration order.  A hold made earlier in the sweep is seen by
the tasks after it. -/
def sweep : Queue := (List.range q.tasks.length).foldl holdIfBlocked q

/-- Sweep until a sweep changes nothing. -/
def propagate : ℕ → Queue → Queue
  | 0, q => q
  | fuel + 1, q => if q.sweep.tasks = q.tasks then q else propagate fuel q.sweep

/-- Hold every task whose dependency can no longer succeed.  Each sweep but the last holds a task,
so as many sweeps as there are tasks, and one more, reach the fixed point. -/
def propagateHolds : Queue := propagate (q.tasks.length + 1) q

/-- A queue of a plan under the boundaries preflight found. -/
def new (plan : Plan) (boundaries : GoMap String) : Queue :=
  propagateHolds
    { tasks := plan.tasks.map (fun t =>
        match boundaryHold boundaries t with
        | some why => { task := t, state := .held, heldReason := why }
        | none => { task := t }),
      boundaries := boundaries }

/-- What an earlier run of the journal left of one task.  The attempts themselves are gone with
the crashed process; their count is not. -/
def restoreTask (st : ResumeState) (t : QueuedTask) : QueuedTask :=
  let id := t.task.id
  if st.succeeded.getD id false then { t with state := .succeeded }
  else
    let n := st.attempts.getD id 0
    let t₁ : QueuedTask :=
      if 0 < n ∧ t.attempts = [] then
        { t with attempts := (List.range n.toNat).map (fun k =>
          { number := k + 1, succeeded := false, reason := "attempt recorded by an earlier run of this journal" }) }
      else t
    let t₂ : QueuedTask := { t₁ with resumes := max t₁.resumes (st.resumes.getD id 0) }
    if t₂.resumeBudget < t₂.resumes then
      t₂.holdFor (s!"did not converge within its {t₂.resumeBudget} resume(s); " ++
        "the bound is durable and restarting does not renew it")
    else if st.interrupted.getD id false then { t₂ with interrupted := true }
    else t₂

/-- Fold durable journal state back into the queue. -/
def restore (st : ResumeState) : Queue := propagateHolds { q with tasks := q.tasks.map (restoreTask st) }

/-! ## Selection -/

/-- Whether every need of a task that is in the queue has succeeded. -/
def dependenciesSatisfied : Bool :=
  t.task.needs.all (fun need =>
    match q.task? need with
    | none => true
    | some dep => dep.state = .succeeded)

/-- Whether a task can be attempted now. -/
def ready : Bool := t.state = .pending && q.dependenciesSatisfied t

/-- The better of the choice so far and a later candidate: band order, then declaration order. -/
def prefer (best : Option (ℕ × QueuedTask)) (candidate : ℕ × QueuedTask) : Option (ℕ × QueuedTask) :=
  match best with
  | none => some candidate
  | some b => if candidate.2.task.band.rank < b.2.task.band.rank then some candidate else some b

/-- Continue the selection over the tasks from a position on. -/
def select (q : Queue) : ℕ → Option (ℕ × QueuedTask) → List QueuedTask → Option (ℕ × QueuedTask)
  | _, best, [] => best
  | i, best, t :: ts => select q (i + 1) (if q.ready t then prefer best (i, t) else best) ts

/-- The highest-preference task that can be attempted now, with its position. -/
def next : Option (ℕ × QueuedTask) := select q 0 none q.tasks

/-! ## Folding outcomes in -/

/-- Fold one execution result into the queue.  The second component is the retry delay when the
task will be retried. -/
def recordAttempt (attempt : TaskAttempt) : Queue × Option Duration :=
  match q.tasks[i]? with
  | none => (q, none)
  | some t =>
    let attempts := t.attempts ++ [{ attempt with number := t.attempts.length + 1 }]
    if attempt.succeeded then
      ((q.modify i (fun t => { t with attempts := attempts, state := .succeeded })).propagateHolds, none)
    else if (t.budget attempt.cls : ℤ) ≤ attempts.length then
      ((q.modify i (fun t => { t with attempts := attempts, state := .failed })).propagateHolds, none)
    else
      (q.modify i (fun t => { t with attempts := attempts, state := .pending }),
        some ((policyFor attempt.cls).backoff attempts.length))

/-- Fold a resumable outcome into the queue.  The task stays pending; the other components are the
resumes used, the resume budget, and whether the task may be driven again. -/
def recordResume : Queue × ℤ × ℤ × Bool :=
  match q.tasks[i]? with
  | none => (q, 0, 0, false)
  | some t =>
    let used := t.resumes + 1
    (q.modify i (fun t => { t with resumes := used, state := .pending }), used, t.resumeBudget,
      used ≤ t.resumeBudget)

/-- Mark a task un-attemptable for a stated reason. -/
def hold (reason : String) : Queue := (q.modify i (·.holdFor reason)).propagateHolds

def count (s : TaskState) : ℕ := (q.tasks.filter (·.state = s)).length

def stateAt : TaskState := (q.tasks[i]?.map QueuedTask.state).getD .pending

end Queue

/-! ## What propagating holds can do to a task -/

/-- What a sweep can make of a task: the task itself, or a pending task held. -/
inductive HeldFrom : QueuedTask → QueuedTask → Prop
  | refl (t : QueuedTask) : HeldFrom t t
  | hold {t : QueuedTask} (pending : t.state = .pending) (reason : String) : HeldFrom t (t.holdFor reason)

namespace HeldFrom

variable {t u : QueuedTask}

lemma trans {v : QueuedTask} (h₁ : HeldFrom t u) (h₂ : HeldFrom u v) : HeldFrom t v := by
  cases h₁ with
  | refl => exact h₂
  | hold hp reason =>
    cases h₂ with
    | refl => exact .hold hp reason
    | hold hp' _ => cases hp'

lemma antisymm (h₁ : HeldFrom t u) (h₂ : HeldFrom u t) : u = t := by
  cases h₁ with
  | refl => rfl
  | hold hp reason =>
    generalize hu : t.holdFor reason = u at h₂
    cases h₂ with
    | refl => rfl
    | hold hp' _ => cases hp

variable (h : HeldFrom t u)
include h

lemma task_eq : u.task = t.task := by cases h <;> rfl

lemma resumes_eq : u.resumes = t.resumes := by cases h <;> rfl

lemma state_eq : u.state = t.state ∨ t.state = .pending ∧ u.state = .held := by
  cases h with
  | refl => exact .inl rfl
  | hold hp _ => exact .inr ⟨hp, rfl⟩

end HeldFrom

lemma forall₂_heldFrom_trans {l₁ l₂ l₃ : List QueuedTask} (h₁ : List.Forall₂ HeldFrom l₁ l₂)
    (h₂ : List.Forall₂ HeldFrom l₂ l₃) : List.Forall₂ HeldFrom l₁ l₃ := by
  induction h₁ generalizing l₃ with
  | nil => exact h₂
  | cons h _ ih =>
    cases h₂ with
    | cons h' hrest => exact .cons (h.trans h') (ih hrest)

variable {l l' : List QueuedTask}

lemma forall₂_heldFrom_antisymm (h₁ : List.Forall₂ HeldFrom l l') (h₂ : List.Forall₂ HeldFrom l' l) : l' = l := by
  induction h₁ with
  | nil => rfl
  | cons h _ ih =>
    cases h₂ with
    | cons h' hrest => rw [h.antisymm h', ih hrest]

lemma forall₂_heldFrom_modify (l : List QueuedTask) (i : ℕ) (f : QueuedTask → QueuedTask)
    (h : ∀ t, l[i]? = some t → HeldFrom t (f t)) : List.Forall₂ HeldFrom l (l.modify i f) := by
  induction l generalizing i with
  | nil => simp
  | cons t l ih =>
    cases i with
    | zero =>
      exact .cons (h t rfl) (List.forall₂_same.mpr fun u _ => .refl u)
    | succ i =>
      exact .cons (.refl t) (ih i fun u hu => h u (by simpa using hu))

lemma eq_or_pending_lt (h : List.Forall₂ HeldFrom l l') :
    l' = l ∨ (l'.filter fun t => t.state = .pending).length < (l.filter fun t => t.state = .pending).length := by
  induction h with
  | nil => exact .inl rfl
  | @cons t u l l' htu _ ih =>
    cases htu with
    | refl =>
      rcases ih with rfl | hlt
      · exact .inl rfl
      · refine .inr ?_
        by_cases hp : t.state = .pending <;> simp [hp, hlt]
    | hold hp reason =>
      have hle : (l'.filter fun t => t.state = .pending).length ≤ (l.filter fun t => t.state = .pending).length := by
        rcases ih with rfl | hlt
        · exact le_refl _
        · exact hlt.le
      refine .inr ?_
      simp only [filter_cons, hp, QueuedTask.holdFor, decide_true, if_true, length_cons]
      simpa using Nat.lt_succ_of_le hle

namespace Queue

/-- From `q` to `q'` tasks were at most held. -/
structure Extends (q q' : Queue) : Prop where
  boundaries_eq : q'.boundaries = q.boundaries
  tasks : List.Forall₂ HeldFrom q.tasks q'.tasks

namespace Extends

lemma refl (q : Queue) : Extends q q := ⟨rfl, List.forall₂_same.mpr fun t _ => .refl t⟩

lemma trans {q₁ q₂ q₃ : Queue} (h₁ : Extends q₁ q₂) (h₂ : Extends q₂ q₃) : Extends q₁ q₃ :=
  ⟨h₂.boundaries_eq.trans h₁.boundaries_eq, forall₂_heldFrom_trans h₁.tasks h₂.tasks⟩

lemma antisymm {q q' : Queue} (h₁ : Extends q q') (h₂ : List.Forall₂ HeldFrom q'.tasks q.tasks) : q' = q := by
  have htasks := forall₂_heldFrom_antisymm h₁.tasks h₂
  have hbound := h₁.boundaries_eq
  cases q
  cases q'
  simp_all

end Extends

lemma extends_holdIfBlocked (q : Queue) (i : ℕ) : Extends q (q.holdIfBlocked i) := by
  unfold holdIfBlocked
  split
  · exact .refl q
  · next t ht =>
    split
    · next hblocked =>
      refine ⟨rfl, forall₂_heldFrom_modify _ _ _ ?_⟩
      intro u hu
      rw [ht] at hu
      cases hu
      exact .hold hblocked.1 _
    · exact .refl q

lemma extends_foldl (is : List ℕ) (q : Queue) : Extends q (is.foldl holdIfBlocked q) := by
  induction is generalizing q with
  | nil => exact .refl q
  | cons i is ih => exact (extends_holdIfBlocked q i).trans (ih _)

lemma extends_propagate (fuel : ℕ) (q : Queue) : Extends q (propagate fuel q) := by
  induction fuel generalizing q with
  | zero => exact .refl q
  | succ fuel ih =>
    unfold propagate
    split
    · exact .refl q
    · exact (extends_foldl _ q).trans (ih _)

lemma extends_propagateHolds (q : Queue) : Extends q q.propagateHolds := extends_propagate _ q

/-! ## The fixed point -/

variable {q : Queue}

lemma holdIfBlocked_of_foldl_eq (is : List ℕ) (h : (is.foldl holdIfBlocked q).tasks = q.tasks) :
    ∀ i ∈ is, q.holdIfBlocked i = q := by
  induction is with
  | nil => simp
  | cons i is ih =>
    rw [foldl_cons] at h
    have hback : List.Forall₂ HeldFrom (q.holdIfBlocked i).tasks q.tasks :=
      h ▸ (extends_foldl is (q.holdIfBlocked i)).tasks
    have hi := (extends_holdIfBlocked q i).antisymm hback
    rw [hi] at h
    intro j hj
    rcases mem_cons.mp hj with rfl | hj
    · exact hi
    · exact ih h j hj

/-- No pending task has a need that can no longer succeed. -/
def Settled (q : Queue) : Prop := ∀ t ∈ q.tasks, t.state = .pending → q.blockedBy t = []

lemma settled_of_sweep_eq (h : q.sweep.tasks = q.tasks) : q.Settled := by
  intro t ht hpending
  obtain ⟨i, hi, rfl⟩ := mem_iff_getElem.mp ht
  have hsame := holdIfBlocked_of_foldl_eq _ h i (mem_range.mpr hi)
  by_contra hblocked
  -- Holding the task would have changed its state.
  have hget : (q.holdIfBlocked i).tasks[i]? = q.tasks[i]? := by rw [hsame]
  unfold holdIfBlocked at hget
  simp only [hpending, hblocked, ne_eq, not_false_eq_true, and_self, if_true, modify,
    getElem?_modify, getElem?_eq_getElem hi] at hget
  have hstate := congrArg (Option.map QueuedTask.state) hget
  simp [QueuedTask.holdFor, hpending] at hstate

lemma settled_propagate {fuel : ℕ} (h : (q.tasks.filter fun t => t.state = .pending).length < fuel) :
    (propagate fuel q).Settled := by
  induction fuel generalizing q with
  | zero => omega
  | succ fuel ih =>
    unfold propagate
    split
    · next hsame => exact settled_of_sweep_eq hsame
    · next hchanged =>
      refine ih ?_
      rcases eq_or_pending_lt (extends_foldl _ q).tasks with heq | hlt
      · exact absurd heq hchanged
      · unfold sweep
        omega

/-- Propagating holds reaches a fixed point: what it leaves pending is not blocked. -/
theorem settled_propagateHolds (q : Queue) : q.propagateHolds.Settled :=
  settled_propagate (Nat.lt_succ_of_le (length_filter_le _ _))

/-! ## Selection -/

variable {best : Option (ℕ × QueuedTask)} {ts : List QueuedTask}

lemma select_eq_some {i j : ℕ} {t : QueuedTask} (h : select q i best ts = some (j, t)) :
    best = some (j, t) ∨ ∃ k, ts[k]? = some t ∧ j = i + k ∧ q.ready t = true := by
  induction ts generalizing i best with
  | nil => exact .inl h
  | cons u ts ih =>
    rcases ih h with hbest | ⟨k, hk, rfl, hready⟩
    · split at hbest
      · next hu =>
        -- The choice is the candidate or the one before it.
        have hcand : some (i, u) = some (j, t) ∨ best = some (j, t) := by
          unfold prefer at hbest
          split at hbest
          · exact .inl hbest
          · split at hbest
            · exact .inl hbest
            · exact .inr hbest
        rcases hcand with hcand | hcand
        · cases hcand
          exact .inr ⟨0, rfl, rfl, hu⟩
        · exact .inl hcand
      · exact .inl hbest
    · exact .inr ⟨k + 1, by simpa using hk, by omega, hready⟩

lemma select_eq_none {i : ℕ} (h : select q i best ts = none) : best = none ∧ ∀ t ∈ ts, q.ready t = false := by
  induction ts generalizing i best with
  | nil => exact ⟨h, by simp⟩
  | cons u ts ih =>
    obtain ⟨hbest, hrest⟩ := ih h
    split at hbest
    · unfold prefer at hbest
      split at hbest
      · cases hbest
      · split at hbest <;> cases hbest
    · next hu =>
      refine ⟨hbest, ?_⟩
      intro t ht
      rcases mem_cons.mp ht with rfl | ht
      · simpa using hu
      · exact hrest t ht

lemma next_eq_some {i : ℕ} {t : QueuedTask} (h : q.next = some (i, t)) :
    q.tasks[i]? = some t ∧ q.ready t = true := by
  rcases select_eq_some h with hnone | ⟨k, hk, rfl, hready⟩
  · cases hnone
  · exact ⟨by simpa using hk, hready⟩

end Queue

end DeliveryEngine.Unattended
