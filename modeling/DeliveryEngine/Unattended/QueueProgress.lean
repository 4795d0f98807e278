import DeliveryEngine.Unattended.Queue

/-!
# The queue is never stuck

`Queue.next` reports no task only when the queue is finished with every one (`terminal_of_nothing_next`).  The queue of
an accepted plan stays `Sound`: no pending task has a need that can no longer succeed.  And the needs of an accepted
plan can be followed down to a pending task none of whose needs is pending.
-/

namespace DeliveryEngine.Unattended

open Go List
open QueuedTask (state task)

namespace Queue

/-! ## What the holds depend on -/

/-- The declared tasks and their states, which is all that holds and selection look at. -/
def shape (q : Queue) : List (Task × TaskState) := q.tasks.map (fun t => (t.task, t.state))

lemma task?_shape (q : Queue) (id : String) : (q.task? id).map (fun t => (t.task, t.state)) =
      q.shape.reverse.find? (·.1.id = id) := by
  rw [shape, ← map_reverse, find?_map]
  rfl

variable {q q' : Queue}

lemma state_task?_congr (h : q'.shape = q.shape) (id : String) :
    (q'.task? id).map state = (q.task? id).map state := by
  have hshape : (q'.task? id).map (fun t => (t.task, t.state)) = (q.task? id).map (fun t => (t.task, t.state)) := by
    rw [task?_shape, task?_shape, h]
  simpa [Option.map_map, Function.comp_def] using congrArg (Option.map Prod.snd) hshape

variable {t : QueuedTask}

lemma blockedBy_eq_nil : q.blockedBy t = [] ↔ ∀ need ∈ t.task.needs, ∀ s,
      (q.task? need).map state = some s → s.lost = false := by
  unfold blockedBy
  rw [filterMap_eq_nil_iff]
  refine forall₂_congr fun need _ => ?_
  cases q.task? need with
  | none => simp
  | some dep => cases hs : dep.state <;> simp [TaskState.lost, hs]

lemma Settled.of_shape_eq (h : q.Settled) (hshape : q'.shape = q.shape) : q'.Settled := by
  intro t ht hpending
  have hmem : (t.task, t.state) ∈ q.shape := by
    rw [← hshape]
    exact mem_map_of_mem ht
  obtain ⟨u, hu, hut⟩ := mem_map.mp hmem
  obtain ⟨htask, hstate⟩ := Prod.mk.injEq .. ▸ hut
  rw [blockedBy_eq_nil, ← htask]
  intro need hneed s hs
  rw [state_task?_congr hshape] at hs
  exact blockedBy_eq_nil.mp (h u hu (hstate.trans hpending)) need hneed s hs

variable {i : ℕ} {f : QueuedTask → QueuedTask}

lemma shape_modify (h : ∀ t, q.tasks[i]? = some t → (f t).task = t.task ∧ (f t).state = t.state) :
    (q.modify i f).shape = q.shape := by
  refine ext_getElem? fun j => ?_
  simp only [shape, modify, getElem?_map, getElem?_modify]
  by_cases hij : i = j
  · subst hij
    cases ht : q.tasks[i]? with
    | none => simp
    | some t => simp [h t ht]
  · simp [hij]

/-! ## The tasks stay the plan's -/

lemma map_task_modify (h : ∀ t, (f t).task = t.task) : (q.modify i f).tasks.map task = q.tasks.map task := by
  refine ext_getElem? fun j => ?_
  simp only [modify, getElem?_map, getElem?_modify]
  by_cases hij : i = j <;> cases q.tasks[j]? <;> simp [hij, h]

lemma Extends.map_task (h : Extends q q') : q'.tasks.map task = q.tasks.map task := by
  obtain ⟨-, htasks⟩ := h
  generalize q.tasks = l at htasks
  generalize q'.tasks = l' at htasks
  induction htasks with
  | nil => rfl
  | cons h _ ih => rw [map_cons, map_cons, h.task_eq, ih]

/-- The queue holds the plan's tasks, and nothing that is pending is blocked. -/
structure Sound (plan : Plan) (q : Queue) : Prop where
  tasks_eq : q.tasks.map task = plan.tasks
  settled : q.Settled

variable {plan : Plan}

lemma sound_propagateHolds (h : q.tasks.map task = plan.tasks) : Sound plan q.propagateHolds :=
  ⟨(extends_propagateHolds q).map_task.trans h, settled_propagateHolds q⟩

lemma sound_new (plan : Plan) (boundaries : GoMap String) : Sound plan (new plan boundaries) := by
  refine sound_propagateHolds ?_
  rw [map_map]
  refine (map_congr_left fun t _ => ?_).trans (map_id _)
  simp only [Function.comp_apply]
  split <;> rfl

variable (st : ResumeState)

lemma restoreTask_task (t : QueuedTask) : (restoreTask st t).task = t.task := by
  unfold restoreTask
  dsimp only
  split_ifs <;> rfl

lemma mem_of_task?_eq_some {id : String} (h : q.task? id = some t) : t ∈ q.tasks ∧ t.task.id = id := by
  refine ⟨by simpa using mem_of_find?_eq_some h, ?_⟩
  simpa using find?_some h

lemma pending_of_next (h : q.next = some (i, t)) : q.tasks[i]? = some t ∧ t.state = .pending := by
  obtain ⟨ht, hready⟩ := next_eq_some h
  refine ⟨ht, ?_⟩
  simp only [ready, Bool.and_eq_true, decide_eq_true_eq] at hready
  exact hready.1

section
variable (h : Sound plan q)
include h

lemma Sound.restore : Sound plan (q.restore st) := by
  refine sound_propagateHolds ?_
  rw [map_map, ← h.tasks_eq]
  exact map_congr_left fun t _ => restoreTask_task st t

lemma Sound.modify_propagateHolds (hf : ∀ t, (f t).task = t.task) : Sound plan (q.modify i f).propagateHolds :=
  sound_propagateHolds ((map_task_modify hf).trans h.tasks_eq)

lemma Sound.hold (i : ℕ) (reason : String) : Sound plan (q.hold i reason) := h.modify_propagateHolds fun _ => rfl

lemma Sound.modify (hf : ∀ t, q.tasks[i]? = some t → (f t).task = t.task ∧ (f t).state = t.state) :
    Sound plan (q.modify i f) := by
  have hshape := shape_modify hf
  refine ⟨?_, h.settled.of_shape_eq hshape⟩
  rw [← h.tasks_eq]
  simpa [shape, map_map, Function.comp_def] using congrArg (List.map Prod.fst) hshape

lemma Sound.recordAttempt (ht : q.tasks[i]? = some t) (hpending : t.state = .pending)
    (attempt : TaskAttempt) : Sound plan (q.recordAttempt i attempt).1 := by
  unfold Queue.recordAttempt
  rw [ht]
  dsimp only
  split
  · exact h.modify_propagateHolds fun _ => rfl
  · split
    · exact h.modify_propagateHolds fun _ => rfl
    · -- The task stays pending, so nothing else can have become blocked.
      refine h.modify fun u hu => ⟨rfl, ?_⟩
      rw [ht] at hu
      cases hu
      exact hpending.symm

lemma Sound.recordResume (ht : q.tasks[i]? = some t) (hpending : t.state = .pending) :
    Sound plan (q.recordResume i).1 := by
  unfold Queue.recordResume
  rw [ht]
  refine h.modify fun u hu => ⟨rfl, ?_⟩
  rw [ht] at hu
  cases hu
  exact hpending.symm

/-! ## A pending task whose needs are all met -/

lemma Sound.mem (ht : t ∈ q.tasks) : t.task ∈ plan.tasks := h.tasks_eq ▸ mem_map_of_mem ht

variable (hplan : plan.Valid)
include hplan

lemma Sound.exists_task? (ht : t ∈ q.tasks) : ∃ u ∈ q.task? t.task.id, u.task = t.task := by
  have hsome : (q.task? t.task.id).isSome = true := by
    rw [task?, find?_isSome]
    exact ⟨t, mem_reverse.mpr ht, by simp⟩
  obtain ⟨u, hu⟩ := Option.isSome_iff_exists.mp hsome
  obtain ⟨humem, huid⟩ := mem_of_task?_eq_some hu
  exact ⟨u, hu, inj_on_of_nodup_map hplan.ids_nodup (h.mem humem) (h.mem ht) huid⟩

lemma Sound.exists_ready (hpending : ∃ t ∈ q.tasks, t.state = .pending) : ∃ t ∈ q.tasks, q.ready t = true := by
  obtain ⟨order, hfin, hmem⟩ := hplan.ordered
  -- Follow the needs down to a pending task none of whose needs is pending.
  obtain ⟨x, -, ⟨t, ht, rfl, htp⟩, hlow⟩ := hfin.exists_lowest
    (fun id => ∃ t ∈ q.tasks, t.task.id = id ∧ t.state = .pending) (by
      obtain ⟨t, ht, htp⟩ := hpending
      exact ⟨t.task.id, hmem _ (mem_map_of_mem (h.mem ht)), t, ht, rfl, htp⟩)
  have hneeds := hplan.waits_eq (h.mem ht)
  refine ⟨t, ht, ?_⟩
  rw [ready, htp, dependenciesSatisfied]
  simp only [decide_true, Bool.true_and, all_eq_true]
  intro need hneed
  cases hdep : q.task? need with
  | none => rfl
  | some dep =>
    obtain ⟨hdepmem, rfl⟩ := mem_of_task?_eq_some hdep
    have hnotlost := blockedBy_eq_nil.mp (h.settled t ht htp) _ hneed dep.state (by rw [hdep]; rfl)
    have hnotpending : dep.state ≠ .pending := fun hp => by
      exact hlow dep.task.id (hneeds ▸ hneed) (hplan.known (h.mem hdepmem)) ⟨dep, hdepmem, rfl, hp⟩
    cases hs : dep.state <;> simp_all [TaskState.lost]

lemma Sound.terminal_of_next_eq_none (hnext : q.next = none) : ∀ t ∈ q.tasks, t.state.terminal = true := by
  intro t ht
  rw [TaskState.terminal_iff]
  intro hpending
  obtain ⟨u, hu, hready⟩ := h.exists_ready hplan ⟨t, ht, hpending⟩
  rw [(select_eq_none hnext).2 u hu] at hready
  cases hready

end

/-! ## Runs of the queue -/

/-- What may be done with a task the queue offered. -/
inductive Op
  /-- The task was executed, and its result is recorded. -/
  | attempt (result : TaskAttempt)
  /-- The task ended resumably, and is held for the reason when its resume budget is spent. -/
  | resume (reason : String)
  /-- The task cannot be attempted. -/
  | hold (reason : String)

/-- Do one thing with the task the queue offers. -/
def apply (q : Queue) (op : Op) : Queue :=
  match q.next with
  | none => q
  | some (i, _) =>
    match op with
    | .attempt result => (q.recordAttempt i result).1
    | .resume reason =>
      let (q', _, _, mayResume) := q.recordResume i
      if mayResume then q' else q'.hold i reason
    | .hold reason => q.hold i reason

lemma Sound.apply (h : Sound plan q) (op : Op) : Sound plan (q.apply op) := by
  unfold Queue.apply
  split
  · exact h
  · next i t hnext =>
    obtain ⟨ht, hpending⟩ := pending_of_next hnext
    cases op with
    | attempt result => exact h.recordAttempt ht hpending result
    | resume reason =>
      have hresume := h.recordResume ht hpending
      dsimp only
      split
      · exact hresume
      · exact hresume.hold i reason
    | hold reason => exact h.hold i reason

lemma Sound.foldl_apply (h : Sound plan q) (ops : List Op) : Sound plan (ops.foldl Queue.apply q) := by
  induction ops generalizing q with
  | nil => exact h
  | cons op ops ih => exact ih (h.apply op)

/-- The queue a run starts from: new, or new and restored from a journal. -/
def start (plan : Plan) (boundaries : GoMap String) : Option ResumeState → Queue
  | none => new plan boundaries
  | some st => (new plan boundaries).restore st

lemma sound_start (plan : Plan) (boundaries : GoMap String) (resume : Option ResumeState) :
    Sound plan (start plan boundaries resume) := by
  cases resume with
  | none => exact sound_new plan boundaries
  | some st => exact (sound_new plan boundaries).restore st

/-- The queue of an accepted plan is never stuck.  Whatever boundaries it started under, whatever an
earlier run left behind and whatever was done with the tasks it offered, it reports that there is no
task left only when it is finished with every task. -/
theorem terminal_of_nothing_next (plan : Plan) (hplan : plan.validate = .ok ())
    (boundaries : GoMap String) (resume : Option ResumeState) (ops : List Op)
    (hnext : (ops.foldl Queue.apply (start plan boundaries resume)).next = none) :
    ∀ t ∈ (ops.foldl Queue.apply (start plan boundaries resume)).tasks, t.state.terminal = true :=
  ((sound_start plan boundaries resume).foldl_apply ops).terminal_of_next_eq_none
    (Plan.valid_of_validate hplan) hnext

/-- A task with one attempt, and a task that needs it. -/
def chainPlan : Plan :=
  { runID := "run", risk := .known .q0,
    tasks := [{ id := "a", argv := ["true"], maxAttempts := 1 },
      { id := "b", argv := ["true"], needs := ["a"] }] }

/-- The first task fails its one attempt, and the queue is finished with both. -/
theorem terminal_of_nothing_next_chain : chainPlan.validate = .ok () ∧
      ∀ t ∈ ([Op.attempt { succeeded := false }].foldl Queue.apply (start chainPlan ∅ none)).tasks,
        t.state.terminal = true :=
  ⟨by decide, terminal_of_nothing_next chainPlan (by decide) ∅ none [.attempt { succeeded := false }] (by decide)⟩

end Queue

end DeliveryEngine.Unattended
