import DeliveryEngine.Unattended.RunSoundness

/-!
# The replay of a run's journal and its live queue

The queue a run works from and its journal `Agree` when the replay of the journal gives every task the tally the queue
gives it.  `agrees_after_iff` says which steps keep them in agreement: all but those whose execution ends at a human
boundary.  Such a step holds the task without counting an attempt, while the journal already has the attempt's start.
What the journal counts beyond the queue is never made up for (`overcounts_after`).
-/

namespace DeliveryEngine.Unattended

open Go List

/-! ## The two accounts -/

/-- What the live queue says of a task. -/
def QueuedTask.tally (t : QueuedTask) : Tally := ⟨t.state = .succeeded, t.attemptCount, t.resumes⟩

open QueuedTask (tally attemptCount)

lemma tally_eq_iff (st : ResumeState) (t : QueuedTask) : st.tally t.task.id = t.tally ↔
      (st.succeeded.getD t.task.id false = true ↔ t.state = .succeeded) ∧
        st.attempts.getD t.task.id 0 = t.attemptCount ∧
        st.resumes.getD t.task.id 0 = t.resumes := by
  rw [ResumeState.tally, tally]
  cases st.succeeded.getD t.task.id false <;> simp

/-- The replay of the journal gives every task of the queue the tally the queue gives it. -/
def Agrees (r : Runner) : Prop :=
  ∀ t ∈ r.queue.tasks, (replay r.journal.records r.journal.runID).tally t.task.id = t.tally

/-- The first account counts more attempts or resumes than the second. -/
def Tally.Exceeds (j q : Tally) : Prop := q.attempts < j.attempts ∨ q.resumes < j.resumes

/-- The replay of the journal counts more of a task than the queue does. -/
def Overcounts (r : Runner) : Prop :=
  ∃ t ∈ r.queue.tasks, ((replay r.journal.records r.journal.runID).tally t.task.id).Exceeds t.tally

lemma Overcounts.not_agrees {r : Runner} (h : Overcounts r) : ¬ Agrees r := by
  obtain ⟨t, ht, hexceeds⟩ := h
  intro hagrees
  rw [hagrees t ht] at hexceeds
  rcases hexceeds with hlt | hlt <;> exact lt_irrefl _ hlt

variable {t : QueuedTask}

lemma HeldFrom.tally_eq {u : QueuedTask} (h : HeldFrom t u) : u.tally = t.tally := by
  cases h with
  | refl => rfl
  | hold hp reason => simp [tally, QueuedTask.holdFor, attemptCount, hp]

/-! ## A change at one position -/

namespace Queue

variable {q q' : Queue}

lemma Extends.forall_tally (h : Extends q q') (R : Tally → Tally → Prop) (T : String → Tally) :
    (∀ u ∈ q'.tasks, R (T u.task.id) u.tally) ↔ ∀ u ∈ q.tasks, R (T u.task.id) u.tally := by
  obtain ⟨-, htasks⟩ := h
  generalize q.tasks = l at htasks
  generalize q'.tasks = l' at htasks
  induction htasks with
  | nil => simp
  | cons h _ ih => simp only [forall_mem_cons, ih, h.task_eq, h.tally_eq]

variable {i : ℕ}

lemma getElem?_modify (ht : q.tasks[i]? = some t) (f : QueuedTask → QueuedTask) (j : ℕ) :
    (q.modify i f).tasks[j]? = if i = j then some (f t) else q.tasks[j]? := by
  by_cases hij : i = j
  · subst hij
    simp [modify, ht]
  · simp [modify, hij]

/-- The operation changes the task `t` at a position to `t'`, and may then hold others. -/
structure Acts (q q' : Queue) (i : ℕ) (t t' : QueuedTask) : Prop where
  at_eq : q.tasks[i]? = some t
  task_eq : t'.task = t.task
  result : Extends (q.modify i (fun _ => t')) q'

variable {t' : QueuedTask}

lemma Acts.forall_tally (h : Acts q q' i t t') {T T' : String → Tally}
    (hnodup : (q.tasks.map fun u => u.task.id).Nodup) (hT : ∀ id, id ≠ t.task.id → T' id = T id)
    (R : Tally → Tally → Prop) : (∀ u ∈ q'.tasks, R (T' u.task.id) u.tally) ↔
      R (T' t.task.id) t'.tally ∧ ∀ u ∈ q.tasks, u.task.id ≠ t.task.id → R (T u.task.id) u.tally := by
  have hget := getElem?_modify h.at_eq fun _ => t'
  rw [h.result.forall_tally]
  constructor
  · refine fun hall => ⟨?_, fun u hu hne => ?_⟩
    · rw [← h.task_eq]
      exact hall t' (mem_of_getElem? (by rw [hget, if_pos rfl]))
    · obtain ⟨j, hj⟩ := mem_iff_getElem?.mp hu
      rw [← hT _ hne]
      refine hall u (mem_of_getElem? (i := j) ?_)
      rw [hget, if_neg, hj]
      rintro rfl
      rw [h.at_eq] at hj
      cases hj
      exact hne rfl
  · rintro ⟨hown, hothers⟩ u hu
    obtain ⟨j, hj⟩ := mem_iff_getElem?.mp hu
    rw [hget] at hj
    split at hj
    · cases hj
      rw [h.task_eq]
      exact hown
    · next hij =>
      -- Another position has another id, whose account did not change.
      have hne : u.task.id ≠ t.task.id := fun heq => by
        have hj' : (q.tasks.map fun u => u.task.id)[j]? = some t.task.id := by
          rw [getElem?_map, hj, Option.map_some, heq]
        have hi' : (q.tasks.map fun u => u.task.id)[i]? = some t.task.id := by
          rw [getElem?_map, h.at_eq, Option.map_some]
        exact hij ((getElem?_inj (List.getElem?_eq_some_iff.mp hi').1 hnodup).mp (hi'.trans hj'.symm))
      rw [hT _ hne]
      exact hothers u (mem_of_getElem? hj) hne

lemma Acts.propagateHolds (h : Acts q q' i t t') : Acts q q'.propagateHolds i t t' :=
  ⟨h.at_eq, h.task_eq, h.result.trans (extends_propagateHolds q')⟩

section
variable (ht : q.tasks[i]? = some t)
include ht

variable {f : QueuedTask → QueuedTask}

lemma acts_modify (hf : (f t).task = t.task) : Acts q (q.modify i f) i t (f t) := by
  refine ⟨ht, hf, ?_⟩
  have heq : q.modify i (fun _ => f t) = q.modify i f := by
    unfold modify
    congr 1
    refine ext_getElem? fun j => ?_
    exact (getElem?_modify ht _ j).trans (getElem?_modify ht f j).symm
  rw [heq]
  exact .refl _

variable (reason : String)

lemma acts_hold : Acts q (q.hold i reason) i t (t.holdFor reason) := (acts_modify ht rfl).propagateHolds

lemma acts_modify_hold (hf : (f t).task = t.task) (reason : String) :
    Acts q ((q.modify i f).hold i reason) i t ((f t).holdFor reason) := by
  have htwice : (q.modify i f).hold i reason = (q.modify i fun t => (f t).holdFor reason).propagateHolds := by
    simp [hold, modify, modify_modify_eq, Function.comp_def]
  rw [htwice]
  exact (acts_modify (f := fun t => (f t).holdFor reason) ht hf).propagateHolds

/-- Recording an attempt adds it to the task, which has succeeded when the attempt has, and is offered
again only while the budget of the failure's class allows. -/
lemma acts_recordAttempt (a : TaskAttempt) : ∃ t', Acts q (q.recordAttempt i a).1 i t t' ∧
      t'.tally = ⟨a.succeeded, t.attemptCount + 1, t.resumes⟩ ∧
      (t'.state = .pending → (t.attemptCount + 1 : ℤ) < t.budget a.cls) := by
  unfold recordAttempt
  rw [ht]
  dsimp only
  split
  · next hok =>
    refine ⟨_, (acts_modify ht ?_).propagateHolds, ?_, nofun⟩
    · rfl
    · simp [tally, attemptCount, hok]
  · next hok =>
    split
    · refine ⟨_, (acts_modify ht ?_).propagateHolds, ?_, nofun⟩
      · rfl
      · simp [tally, attemptCount, hok]
    · next hbudget =>
      refine ⟨_, acts_modify ht ?_, ?_, fun _ => ?_⟩
      · rfl
      · simp [tally, attemptCount, hok]
      · simpa [attemptCount] using hbudget

/-- Driving a task again counts a resume and no attempt, and the task is offered again only while it
has resumes left. -/
lemma acts_drivenAgain : ∃ t', Acts q (Runner.drivenAgain q i reason) i t t' ∧
      t'.tally = ⟨false, t.attemptCount, t.resumes + 1⟩ ∧
      (t'.state = .pending → t.resumes + 1 ≤ t.resumeBudget) := by
  unfold Runner.drivenAgain recordResume
  rw [ht]
  dsimp only
  split
  · next hmay => exact ⟨_, acts_modify ht rfl, rfl, fun _ => by simpa using hmay⟩
  · exact ⟨_, acts_modify_hold ht rfl reason, rfl, nofun⟩

end

end Queue

/-! ## One call -/

/-- What a step does to its task and to the journal.  The task has succeeded afterwards only when its success
is recorded, and that only when its execution succeeded. -/
lemma Stepped.effect {host : Host} {i : ℕ} {t : QueuedTask} {s : Surroundings} {r r' : Runner} {stop : Bool}
    (h : Stepped host i t s r r' stop) (ht : r.queue.tasks[i]? = some t) :
    ∃ t' kinds, Queue.Acts r.queue r'.queue i t t' ∧ r.journal.Marks r'.journal t.task.id kinds ∧
      (t'.state = .succeeded → .known .taskSucceeded ∈ kinds) ∧
      (.known .taskSucceeded ∈ kinds → Cleared r t s ∧ (s.verdict host r.spec).disposition = .succeeded) := by
  cases h with
  | violated reason why _ _ _ hcore hmarks =>
    rw [show r'.queue = _ from congrArg Core.queue hcore]
    exact ⟨_, _, Queue.acts_hold ht reason, hmarks, nofun, nofun⟩
  | succeeded hcleared hdisposition hcore hmarks =>
    rw [show r'.queue = _ from congrArg Core.queue hcore]
    obtain ⟨t', hacts, -⟩ := Queue.acts_recordAttempt ht s.success
    exact ⟨t', _, hacts, hmarks, fun _ => by simp, fun _ => ⟨hcleared, hdisposition⟩⟩
  | resumed reason _ _ hcore hmarks =>
    rw [show r'.queue = _ from congrArg Core.queue hcore]
    obtain ⟨t', hacts, htally, -⟩ := Queue.acts_drivenAgain ht reason
    refine ⟨t', _, hacts, hmarks, fun hstate => ?_, by simp⟩
    have hsucceeded := congrArg Tally.succeeded htally
    simp [tally, hstate] at hsucceeded
  | blocked why outcome _ _ _ _ hcore hmarks =>
    rw [show r'.queue = _ from congrArg Core.queue hcore]
    exact ⟨_, _, Queue.acts_hold ht _, hmarks, nofun, by simp⟩
  | failed why _ _ _ hcore hmarks =>
    rw [show r'.queue = _ from congrArg Core.queue hcore]
    obtain ⟨t', hacts, htally, -⟩ := Queue.acts_recordAttempt ht _
    refine ⟨t', _, hacts, hmarks, fun hstate => ?_, by simp⟩
    have hsucceeded := congrArg Tally.succeeded htally
    simp [tally, hstate, Surroundings.failure] at hsucceeded

lemma Journal.Marks.tally_of_ne {j j' : Journal} {id : String} {kinds : List RecordKind} (h : j.Marks j' id kinds) :
    ∀ id', id' ≠ id → (replay j'.records j.runID).tally id' = (replay j.records j.runID).tally id' := by
  intro id' hne
  rw [h.tally_eq, if_neg hne]

/-- What a call's records and its queue operation make of the two accounts of its task: equal accounts stay equal
unless the execution ends at a human boundary, and what the journal counts beyond the queue it goes on counting. -/
lemma Call.accounts (host : Host) {c : Call} (hnext : c.before.queue.next = some (c.index, c.task)) :
    ∃ kinds t', c.before.journal.Marks (c.after host).journal c.task.task.id kinds ∧
      Queue.Acts c.before.queue (c.after host).queue c.index c.task t' ∧
      (kinds.foldl Tally.step c.task.tally = t'.tally ↔ ¬ c.Ends host .humanBlocked) ∧
      ∀ j : Tally, j.Exceeds c.task.tally → (kinds.foldl Tally.step j).Exceeds t'.tally := by
  obtain ⟨ht, hpending⟩ := Queue.pending_of_next hnext
  have hfalse : decide (c.task.state = .succeeded) = false := by simp [hpending]
  have hstep := c.stepped host
  generalize c.stops host = stop at hstep
  cases hstep with
  | violated reason why hmut hbroken _ hcore hmarks =>
    have htally := (HeldFrom.hold hpending reason).tally_eq
    rw [show (c.after host).queue = _ from congrArg Core.queue hcore]
    refine ⟨_, _, hmarks, Queue.acts_hold ht reason, iff_of_true htally.symm fun hends => ?_, fun j hj => ?_⟩
    · rw [hends.1 hmut] at hbroken
      cases hbroken
    · rwa [htally]
  | succeeded hclear hd hcore hmarks =>
    obtain ⟨t', hacts, htally, -⟩ := Queue.acts_recordAttempt ht c.surroundings.success
    rw [show (c.after host).queue = _ from congrArg Core.queue hcore]
    refine ⟨_, t', hmarks, hacts, ?_, fun j hj => ?_⟩
    · rw [htally]
      refine iff_of_true rfl fun hends => ?_
      rw [hends.2] at hd
      cases hd
    · rw [htally]
      simp only [Tally.Exceeds, tally, foldl_cons, foldl_nil, Tally.step] at hj ⊢
      omega
  | resumed reason hclear hd hcore hmarks =>
    obtain ⟨t', hacts, htally, -⟩ := Queue.acts_drivenAgain ht reason
    rw [show (c.after host).queue = _ from congrArg Core.queue hcore]
    refine ⟨_, t', hmarks, hacts, ?_, fun j hj => ?_⟩
    · rw [htally]
      refine iff_of_true ?_ fun hends => ?_
      · have hpos : (0 : ℤ) < c.task.attemptCount + 1 := by omega
        simp [Tally.step, tally, hfalse, hpos]
      · rw [hends.2] at hd
        cases hd
    · rw [htally]
      simp only [Tally.Exceeds, tally, foldl_cons, foldl_nil, Tally.step] at hj ⊢
      split <;> omega
  | blocked why outcome hclear hd _ _ hcore hmarks =>
    -- The start stays counted in the journal, and the queue counts no attempt.
    rw [show (c.after host).queue = _ from congrArg Core.queue hcore]
    refine ⟨_, _, hmarks, Queue.acts_hold ht _, iff_of_false ?_ fun hends => hends ⟨hclear, hd⟩, fun j hj => ?_⟩
    · simp [Tally.step, tally, QueuedTask.holdFor, attemptCount]
    · simp only [Tally.Exceeds, tally, foldl_cons, foldl_nil, Tally.step, QueuedTask.holdFor, attemptCount] at hj ⊢
      omega
  | failed why hclear hd _ hcore hmarks =>
    obtain ⟨t', hacts, htally, -⟩ := Queue.acts_recordAttempt ht
      (c.surroundings.failure (c.surroundings.verdict host c.before.spec))
    rw [show (c.after host).queue = _ from congrArg Core.queue hcore]
    refine ⟨_, t', hmarks, hacts, ?_, fun j hj => ?_⟩
    · rw [htally]
      refine iff_of_true ?_ fun hends => ?_
      · simp [Tally.step, tally, hfalse, Surroundings.failure]
      · rw [hends.2] at hd
        rcases hd with hd | hd <;> cases hd
    · rw [htally]
      simp only [Tally.Exceeds, tally, foldl_cons, foldl_nil, Tally.step] at hj ⊢
      omega

section
variable (host : Host) {c : Call} (hnodup : (c.before.queue.tasks.map fun t => t.task.id).Nodup)
  (hnext : c.before.queue.next = some (c.index, c.task))
include hnodup hnext

lemma agrees_after_iff (h : Agrees c.before) : Agrees (c.after host) ↔ ¬ c.Ends host .humanBlocked := by
  obtain ⟨kinds, t', hmarks, hacts, hown, -⟩ := c.accounts host hnext
  have hiff := hacts.forall_tally hnodup hmarks.tally_of_ne (· = ·)
  rw [and_iff_left fun u hu _ => h u hu, hmarks.tally_eq, if_pos rfl,
    h c.task (mem_of_getElem? hacts.at_eq), hown] at hiff
  unfold Agrees
  rw [hmarks.runID_eq]
  exact hiff

lemma overcounts_after (h : Overcounts c.before) : Overcounts (c.after host) := by
  obtain ⟨kinds, t', hmarks, hacts, -, hown⟩ := c.accounts host hnext
  obtain ⟨u, hu, hexceeds⟩ := h
  have hiff := hacts.forall_tally hnodup hmarks.tally_of_ne (¬ Tally.Exceeds · ·)
  by_contra hnone
  obtain ⟨hsame, hothers⟩ := hiff.mp fun v hv hv' => hnone ⟨v, hv, hmarks.runID_eq ▸ hv'⟩
  by_cases hid : u.task.id = c.task.task.id
  · obtain rfl : u = c.task := inj_on_of_nodup_map hnodup hu (mem_of_getElem? hacts.at_eq) hid
    rw [hmarks.tally_eq, if_pos rfl] at hsame
    exact hsame (hown _ hexceeds)
  · exact hothers u hu hid hexceeds

end

/-! ## Whole runs -/

lemma tally_new (plan : Plan) (boundaries : GoMap String) :
    ∀ t ∈ (Queue.new plan boundaries).tasks, ({} : Tally) = t.tally := by
  refine ((Queue.extends_propagateHolds _).forall_tally (· = ·) fun _ => {}).mpr ?_
  intro t ht
  obtain ⟨u, -, rfl⟩ := mem_map.mp ht
  split <;> rfl

section
variable (host : Host) {spec : Spec} {plan : Plan} (hids : plan.ids.Nodup) (ss : List Surroundings) {r : Runner}
  (hrun : Runner.Running spec plan r.core)
include hids hrun

lemma Runner.Running.ids_nodup : (r.queue.tasks.map fun t => t.task.id).Nodup := by
  have htasks : r.queue.tasks.map QueuedTask.task = plan.tasks := hrun.sound.tasks_eq
  rw [Plan.ids, ← htasks, map_map] at hids
  exact hids

lemma agrees_calls_iff (h : Agrees r) :
    (∀ c ∈ calls host ss r, Agrees (c.after host)) ↔ ∀ c ∈ calls host ss r, ¬ c.Ends host .humanBlocked := by
  refine calls_induction host (P := fun r cs => Runner.Running spec plan r.core → Agrees r →
    ((∀ c ∈ cs, Agrees (c.after host)) ↔ ∀ c ∈ cs, ¬ c.Ends host .humanBlocked)) (by simp)
    (fun c cs hnext ih hrun h => ?_) ss r hrun h
  rw [forall_mem_cons, forall_mem_cons]
  refine (and_congr_right fun hagree => ?_).trans
    (and_congr_left' (agrees_after_iff host (hrun.ids_nodup hids) hnext h))
  exact ih (hrun.step hnext (c.stepped host)).1 hagree

lemma overcounts_calls (h : Overcounts r) : ∀ c ∈ calls host ss r, Overcounts (c.after host) := by
  refine calls_induction host (P := fun r cs => Runner.Running spec plan r.core → Overcounts r →
    ∀ c ∈ cs, Overcounts (c.after host)) (by simp) (fun c cs hnext ih hrun h => ?_) ss r hrun h
  have hafter := overcounts_after host (hrun.ids_nodup hids) hnext h
  exact forall_mem_cons.mpr ⟨hafter, ih (hrun.step hnext (c.stepped host)).1 hafter⟩

end

/-- A plan of one task. -/
def lonePlan : Plan :=
  { runID := "run", risk := .known .q0, tasks := [{ id := "a", argv := ["agent"], band := .known .validation }] }

/-- A runner of the one-task plan on an empty journal. -/
def loneRunner : Runner :=
  .ready Runner.gatedSpec lonePlan ⟨"READY", []⟩ ⟨"/tree", "run", 1, "main", "abc", []⟩
    ⟨"run", 0, fun _ => Time.zero, []⟩ none ∅

/-- Surroundings in which the task reports a controller state. -/
def reporting (state : ControllerStateName) : Surroundings :=
  { Runner.calm with
    execution := { exitedZero := true, declaredResult := true, result := some { state := .known state } } }

end DeliveryEngine.Unattended
