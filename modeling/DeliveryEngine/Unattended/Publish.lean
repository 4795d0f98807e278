import DeliveryEngine.Go.Path
import DeliveryEngine.Projector.State
import DeliveryEngine.Unattended.Session

/-!
# The delivery projection of a run

`publishDelivery` renders the declared delivery milestones of a run.  `projectTask` gives a task what its state in the
queue licenses, `State.recomputeBlockers` promotes and demotes by dependency, and `applyProgressionCeiling` has the last
word: a packet that may not progress projects no task as done and no completion gate as met (`projection_ceiling`).
-/

namespace DeliveryEngine.Unattended

open Go Projector List

/-- An attempt in the consumer's shape. -/
def projectAttempt (a : TaskAttempt) : Attempt :=
  let outcome := if a.succeeded then "succeeded" else "failed"
  { date := a.startedAt, outcome := outcome,
    summary :=
      if a.reason = "" then s!"attempt {a.number} {outcome} in {a.duration}" else a.reason }

variable (t : QueuedTask)

/-- When the task finished: the last attempt's start and its duration, where both are known. -/
def projectFinish : Time :=
  if t.state = .succeeded then
    match t.attempts.getLast? with
    | none => Time.zero
    | some last =>
      match Duration.parse last.duration with
      | some d => if last.startedAt.isZero then Time.zero else last.startedAt.add d
      | none => Time.zero
  else Time.zero

/-- A queued task in the consumer's shape.  The declared status is what the task's success would
establish, and a task that has not succeeded does not get it. -/
def projectTask (declared : TaskStatus) (fence : Option Fence) : Projector.Task :=
  { taskID := t.task.id, title := t.task.title, phase := t.task.phase, taskType := "code",
    ownerType := "agent", dependencies := t.task.needs, completionGate := t.task.completionGate,
    branch := (fence.map Fence.branch).getD "",
    implementationSha := (fence.map Fence.head).getD "",
    status :=
      match t.state with
      | .succeeded => declared
      | .held => .known .awaitingHuman
      | .failed => .known .blocked
      | .pending => .known .planned
    completionGateStatus :=
      -- A task with no declared completion gate has nothing to have met.
      if t.task.completionGate = "" then .known .notMet
      else if t.state = .succeeded then .known .met
      else .known .notMet
    blocker :=
      match t.state with
      | .held => t.heldReason
      | .failed => (t.attempts.getLast?.map TaskAttempt.reason).getD ""
      | _ => ""
    nextPhysicalAction := if t.state = .held then t.heldReason else ""
    attempts := t.attempts.map projectAttempt
    actualStart := ((t.attempts.find? (fun a => !a.startedAt.isZero)).map TaskAttempt.startedAt).getD Time.zero
    actualFinish := projectFinish t }

/-- The projection of the tasks that declare a delivery status. -/
def projectTasks (fence : Option Fence) (ts : List QueuedTask) : Except String (GoMap Projector.Task) :=
  ts.foldlM (fun m t =>
    if t.task.deliveryStatus = "" then .ok m
    else
      let status : TaskStatus := Named.ofText t.task.deliveryStatus
      match validateTaskStatus status with
      | .error err => .error ("task " ++ quote t.task.id ++ ": " ++ err)
      | .ok () => .ok (m.set t.task.id (projectTask t status fence))) ∅

/-- The blockers a person must lift: the held tasks, with their reasons. -/
def projectBlockers (spec : Spec) (ts : List QueuedTask) : List Blocker :=
  (ts.filter (fun t => t.state = .held ∧ t.heldReason ≠ "")).map (fun t =>
    { blockerID := t.task.id, summary := t.heldReason, humanBoundary := true,
      evidence := Path.join spec.stateDir journalName })

/-- The statuses the progression ceiling refuses. -/
def terminalDeliveryStatuses : List TaskStatus :=
  [.known .merged, .known .deployedUAT, .known .appliedUAT, .known .verified, .known .complete]

variable (gate : CompletionGateStatus)

/-- The claim a refused packet may make about a completion gate. -/
def lowerGate : CompletionGateStatus :=
  if gate = .known .met then .known .notMet else gate

/-- Lower one task's claims to what a refused packet may claim. -/
def lowerClaims (reason : String) (t : Projector.Task) : Projector.Task :=
  if t.status ∈ terminalDeliveryStatuses then
    { t with completionGateStatus := lowerGate t.completionGateStatus,
             status := .known .blocked, blocker := reason,
             nextPhysicalAction :=
               if t.nextPhysicalAction = "" then reason else t.nextPhysicalAction }
  else { t with completionGateStatus := lowerGate t.completionGateStatus }

variable (order : List String) (qa : ProgressionDecision) (s : State)

/-- Refuse to project completion that the packet's mandatory gates do not license, ranging over the
tasks in an order. -/
def applyProgressionCeiling : State :=
  if qa.allowed then s
  else s.forEach order (fun _ => lowerClaims ("the packet may not progress: " ++ qa.reason))

/-- The projector state that is rendered and published.  The two orders are those in which the two
ranges over the tasks visit them. -/
def publishDelivery (spec : Spec) (q : Queue) (fence : Option Fence) (qa : ProgressionDecision)
    (now : Time) (blockerOrder ceilingOrder : List String) : Except String State := do
  let tasks ← projectTasks fence q.tasks
  let state : State :=
    { project :=
        { projectID := spec.projectID, lastUpdateTimestamp := now,
          authoritativeRef := spec.expectedOrigin,
          latestAcceptedMainSha := (fence.map Fence.head).getD "" }
      tasks := tasks
      currentBlockers := projectBlockers spec q.tasks }
  return applyProgressionCeiling ceilingOrder qa (state.recomputeBlockers blockerOrder)

/-! ## The ceiling -/

/-- What a refused packet may claim of a task. -/
def Lowered (t : Projector.Task) : Prop :=
  t.status ∉ terminalDeliveryStatuses ∧ t.completionGateStatus ≠ .known .met

lemma lowerGate_ne_met : lowerGate gate ≠ .known .met := by
  unfold lowerGate
  split
  · simp
  · next hne => exact hne

lemma lowered_lowerClaims (reason : String) (t : Projector.Task) : Lowered (lowerClaims reason t) := by
  unfold lowerClaims
  split
  · exact ⟨by simp [terminalDeliveryStatuses], lowerGate_ne_met _⟩
  · next hstatus => exact ⟨hstatus, lowerGate_ne_met _⟩

/-- The projection ceiling.  Whatever the queue, the fence and the orders of the two ranges: under a
decision that does not allow progression, no task of the published state has one of the statuses
merged, deployed-uat, applied-uat, verified or complete, and none has its completion gate met.  A
decision that allows progression leaves any state as it is. -/
theorem projection_ceiling (spec : Spec) (q : Queue) (fence : Option Fence)
    (qa : ProgressionDecision) (now : Time) (blockerOrder ceilingOrder : List String) :
    (qa.allowed = false → ∀ state, publishDelivery spec q fence qa now blockerOrder ceilingOrder = .ok state →
        GoMap.Enumerates ceilingOrder state.tasks →
        ∀ id t, state.tasks.get? id = some t →
          t.status ∉ ([.known .merged, .known .deployedUAT, .known .appliedUAT, .known .verified,
            .known .complete] : List TaskStatus) ∧ t.completionGateStatus ≠ .known .met) ∧
      (qa.allowed = true → ∀ order state, applyProgressionCeiling order qa state = state) := by
  refine ⟨?_, fun hallowed order state => if_pos hallowed⟩
  intro hrefused state hpublish henum id t hget
  unfold publishDelivery at hpublish
  cases htasks : projectTasks fence q.tasks with
  | error err =>
    rw [htasks] at hpublish
    cases hpublish
  | ok tasks =>
    rw [htasks] at hpublish
    cases hpublish
    have hmem : id ∈ ceilingOrder := (henum.2 id).mpr (by rw [hget]; rfl)
    rw [applyProgressionCeiling, if_neg (by simp [hrefused])] at hget
    exact State.forEach_visited (fun _ t => lowered_lowerClaims _ t) hmem hget

lemma isSome_get?_ceiling (id : String) :
    ((applyProgressionCeiling order qa s).tasks.get? id).isSome = (s.tasks.get? id).isSome := by
  unfold applyProgressionCeiling
  split
  · rfl
  · exact State.isSome_get?_forEach _ _ _ _

/-- A queue with one task, succeeded, whose success would establish a merge. -/
def mergedQueue : Queue :=
  { tasks := [{ task := { id := "a", argv := ["x"], deliveryStatus := "merged",
                          completionGate := "reviewed" }, state := .succeeded }],
    boundaries := ∅ }

def refusal : ProgressionDecision := evaluateProgression ⟨[gateBuild]⟩ (.known .q0) "abc" ∅

/-- The succeeded task of a refused packet is projected neither as merged nor with its gate met. -/
theorem projection_ceiling_merged : refusal.allowed = false ∧
      ∃ state, publishDelivery Runner.gatedSpec mergedQueue none refusal Time.zero ["a"] ["a"] = .ok state ∧
        ∀ id t, state.tasks.get? id = some t →
          t.status ∉ ([.known .merged, .known .deployedUAT, .known .appliedUAT, .known .verified,
            .known .complete] : List TaskStatus) ∧ t.completionGateStatus ≠ .known .met := by
  have hrefused : refusal.allowed = false := by decide
  refine ⟨hrefused, _, rfl, ?_⟩
  refine (projection_ceiling Runner.gatedSpec mergedQueue none refusal Time.zero ["a"] ["a"]).1
    hrefused _ rfl ⟨by decide, fun k => ?_⟩
  rw [isSome_get?_ceiling, State.recomputeBlockers, State.isSome_get?_forEach, GoMap.get?_set]
  by_cases hk : k = "a" <;> simp [hk]

/-! ## What the projection says of a task -/

/-- The task whose row the projection has under an id. -/
def Queue.declared? (q : Queue) (id : String) : Option QueuedTask :=
  q.tasks.reverse.find? (fun t => t.task.id = id && t.task.deliveryStatus ≠ "")

/-- Whether a task's row shows a terminal status. -/
def QueuedTask.isDone : Bool := t.state = .succeeded && isTerminalStatus (Named.ofText t.task.deliveryStatus)

variable (q : Queue) (t : QueuedTask)

/-- The needs of a task that have no row with a terminal status, sorted. -/
def Queue.outstanding : List String :=
  sortStrings (t.task.needs.filter (fun need => !(q.declared? need).any QueuedTask.isDone))

/-- The reason of a task's last attempt. -/
def QueuedTask.lastReason : String := (t.attempts.getLast?.map TaskAttempt.reason).getD ""

/-- The row says what the queue says of the task. -/
def Says (row : Projector.Task) : Prop :=
  match t.state with
  | .succeeded => row.status = Named.ofText t.task.deliveryStatus ∧ row.waits = false
  | .failed => row.status = .known .blocked ∧ row.blocker = t.lastReason
  | .held => row.status = .known .awaitingHuman ∧ row.blocker = t.heldReason
  | .pending => row.status = .known .planned ∨ row.status = .known .blocked

/-- What makes the derivation of blockers leave a row as the queue has it.  A succeeded task must have
no outstanding need, and a status other than the one that is promoted.  A failed task is promoted
unless a need is outstanding, and then it needs the very reason the derivation writes. -/
def Queue.Undisputed : Prop :=
  match t.state with
  | .succeeded => q.outstanding t = [] ∧ Named.ofText t.task.deliveryStatus ≠ (.known .blocked : TaskStatus)
  | .failed => q.outstanding t ≠ [] ∧ t.lastReason = "waiting on " ++ joinWith (q.outstanding t) ", "
  | .held =>
    if q.outstanding t = [] then hasPrefix t.heldReason "waiting on " = false
    else t.heldReason = "waiting on " ++ joinWith (q.outstanding t) ", "
  | .pending => True

abbrev QueuedTask.declaredRow (fence : Option Fence) : Projector.Task :=
  projectTask t (Named.ofText t.task.deliveryStatus) fence

variable {fence : Option Fence} {q : Queue}

lemma get?_projectTasks {tasks : GoMap Projector.Task} (h : projectTasks fence q.tasks = .ok tasks) (id : String) :
    tasks.get? id = (q.declared? id).map (·.declaredRow fence) := by
  -- The fold keeps what it started from under the ids it does not write.
  refine Eq.trans ?_ Option.or_none
  unfold projectTasks at h
  unfold Queue.declared?
  rw [← GoMap.get?_empty (α := Projector.Task) id]
  generalize (∅ : GoMap Projector.Task) = m₀ at h ⊢
  generalize q.tasks = ts at h ⊢
  induction ts generalizing m₀ with
  | nil =>
    cases h
    rfl
  | cons t ts ih =>
    rw [foldlM_cons] at h
    rw [reverse_cons, find?_append]
    by_cases hdecl : t.task.deliveryStatus = ""
    · rw [if_pos hdecl] at h
      simp [ih m₀ h, hdecl]
    · rw [if_neg hdecl] at h
      dsimp only at h
      cases hvalid : validateTaskStatus (Named.ofText t.task.deliveryStatus) with
      | error err => simp [hvalid, bind, Except.bind] at h
      | ok _ =>
        rw [hvalid] at h
        rw [ih _ h, GoMap.get?_set]
        generalize ts.reverse.find? _ = later
        by_cases hid : t.task.id = id
        · cases later <;> simp [hid, hdecl]
        · cases later <;> simp [hid, Ne.symm hid]

lemma declared?_of_mem (hids : (q.tasks.map fun t => t.task.id).Nodup) {t : QueuedTask}
    (ht : t ∈ q.tasks) (hdecl : t.task.deliveryStatus ≠ "") : q.declared? t.task.id = some t := by
  cases hfind : q.declared? t.task.id with
  | none =>
    have hnone := find?_eq_none.mp hfind t (mem_reverse.mpr ht)
    simp [hdecl] at hnone
  | some u =>
    have hu : u.task.id = t.task.id := by
      have hfound := find?_some hfind
      simp only [Bool.and_eq_true, decide_eq_true_eq] at hfound
      exact hfound.1
    have hmem : u ∈ q.tasks := mem_reverse.mp (mem_of_find?_eq_some hfind)
    rw [inj_on_of_nodup_map hids hmem ht hu]

lemma isTerminalStatus_projectTask (fence : Option Fence) :
    isTerminalStatus (t.declaredRow fence).status = t.isDone := by
  unfold QueuedTask.declaredRow projectTask QueuedTask.isDone
  cases t.state <;> simp [isTerminalStatus]

lemma blockersOf_projectTask {s : State}
    (h : projectTasks fence q.tasks = .ok s.tasks) (t : QueuedTask) (declared : TaskStatus) :
    s.blockersOf (projectTask t declared fence) = q.outstanding t := by
  refine congrArg sortStrings (filter_congr fun need _ => ?_)
  rw [get?_projectTasks h]
  cases q.declared? need with
  | none => rfl
  | some d => exact congrArg not (isTerminalStatus_projectTask d fence)

lemma says_recomputeTask_iff {s : State} {t : QueuedTask}
    (h : s.blockersOf (t.declaredRow fence) = q.outstanding t) :
    Says t (s.recomputeTask (t.declaredRow fence)) ↔ q.Undisputed t := by
  have hwaits := State.waits_recomputeTask s (t.declaredRow fence)
  rw [h] at hwaits
  have hstatus := State.status_recomputeTask s (t.declaredRow fence)
  have hblocker := State.blocker_recomputeTask s (t.declaredRow fence)
  rw [h] at hstatus hblocker
  unfold Says Queue.Undisputed
  rw [hstatus, hblocker]
  cases hstate : t.state with
  | succeeded =>
    have hclear : (s.recomputeTask (t.declaredRow fence)).waits = false ↔ q.outstanding t = [] := by
      rw [Bool.eq_false_iff, Ne, hwaits, not_not]
    rw [hclear, and_comm]
    refine and_congr_right fun hout => ?_
    simp only [hout, projectTask, hstate, ne_eq, not_true_eq_false, if_false, ite_eq_right_iff]
    refine imp_congr_right fun hblocked => ?_
    simp [hblocked]
  | failed =>
    by_cases hout : q.outstanding t = [] <;>
      simp [hout, projectTask, hstate, QueuedTask.lastReason]
    rw [eq_comm]
  | held =>
    by_cases hout : q.outstanding t = []
    · by_cases hwait : hasPrefix t.heldReason "waiting on "
      · have hne : "" ≠ t.heldReason := fun heq => by
          rw [← heq] at hwait
          cases hwait
        simp [hout, projectTask, hstate, hwait, hne]
      · simp [hout, projectTask, hstate, hwait]
    · simp [hout, projectTask, hstate]
      rw [eq_comm]
  | pending => by_cases hout : q.outstanding t = [] <;> simp [hout, projectTask, hstate]

/-- Under a decision that allows progression, the row of a task that declares a delivery status says
what the queue says of the task exactly when the task is undisputed. -/
theorem publishDelivery_says_iff (spec : Spec) (q : Queue)
    (hids : (q.tasks.map (·.task.id)).Nodup) (fence : Option Fence)
    (qa : ProgressionDecision) (hallowed : qa.allowed = true) (now : Time)
    (blockerOrder ceilingOrder : List String) (state : State)
    (hpublish : publishDelivery spec q fence qa now blockerOrder ceilingOrder = .ok state)
    (horder : GoMap.Enumerates blockerOrder state.tasks) (t : QueuedTask) (ht : t ∈ q.tasks)
    (hdecl : t.task.deliveryStatus ≠ "") :
    ∃ row, state.tasks.get? t.task.id = some row ∧ (Says t row ↔ q.Undisputed t) := by
  unfold publishDelivery at hpublish
  cases htasks : projectTasks fence q.tasks with
  | error err =>
    rw [htasks] at hpublish
    cases hpublish
  | ok tasks =>
    rw [htasks] at hpublish
    cases hpublish
    rw [applyProgressionCeiling, if_pos hallowed] at horder ⊢
    rw [State.get?_recomputeBlockers (horder.of_isSome fun k => (State.isSome_get?_forEach _ _ _ k).symm)]
    rw [show GoMap.get? tasks t.task.id = _ from get?_projectTasks htasks t.task.id, declared?_of_mem hids ht hdecl]
    exact ⟨_, rfl, says_recomputeTask_iff (blockersOf_projectTask htasks t _)⟩

/-- The decision of a packet without mandatory gates. -/
def permission : ProgressionDecision := evaluateProgression ⟨[]⟩ (.known .q0) "abc" ∅

/-- The merged task of a packet that may progress is projected as merged. -/
theorem publishDelivery_says_iff_merged :
    ∃ state, publishDelivery Runner.gatedSpec mergedQueue none permission Time.zero ["a"] ["a"] = .ok state ∧
      ∀ t ∈ mergedQueue.tasks, ∃ row, state.tasks.get? t.task.id = some row ∧ Says t row := by
  refine ⟨_, rfl, fun t ht => ?_⟩
  have hdecl : t.task.deliveryStatus ≠ "" ∧ mergedQueue.Undisputed t := by
    obtain rfl := mem_singleton.mp ht
    exact ⟨by decide, by decide, by decide⟩
  obtain ⟨row, hrow, hsays⟩ := publishDelivery_says_iff Runner.gatedSpec mergedQueue (by decide) none
    permission (by decide) Time.zero ["a"] ["a"] _ rfl ⟨by decide, fun k => by
      rw [isSome_get?_ceiling, State.recomputeBlockers, State.isSome_get?_forEach, GoMap.get?_set]
      by_cases hk : k = "a" <;> simp [hk]⟩ t ht hdecl.1
  exact ⟨row, hrow, hsays.mpr hdecl.2⟩

/-- A task merged behind a need that declares no delivery status of its own. -/
def internalNeedQueue : Queue :=
  { tasks := [{ task := { id := "lint", argv := ["x"] }, state := .succeeded },
      { task := { id := "ship", argv := ["x"], needs := ["lint"], deliveryStatus := "merged" },
        state := .succeeded }],
    boundaries := ∅ }

/-- A task that failed, with nothing it needs. -/
def failedQueue : Queue :=
  { tasks := [{ task := { id := "ship", argv := ["x"], deliveryStatus := "merged" }, state := .failed,
                attempts := [{ succeeded := false, reason := "exit status 1" }] }],
    boundaries := ∅ }

/-- The merged task is projected as waiting on its succeeded need, and the failed one as planned. -/
theorem publishDelivery_unsaid : permission.allowed = true ∧
      (∃ state, publishDelivery Runner.gatedSpec internalNeedQueue none permission Time.zero ["ship"]
          ["ship"] = .ok state ∧
        (state.tasks.get? "ship").map Task.blocker = some "waiting on lint") ∧
      ∃ state, publishDelivery Runner.gatedSpec failedQueue none permission Time.zero ["ship"] ["ship"] = .ok state ∧
        (state.tasks.get? "ship").map Task.status = some (.known .planned) :=
  ⟨by decide, ⟨_, rfl, by decide⟩, ⟨_, rfl, by decide⟩⟩

end DeliveryEngine.Unattended
