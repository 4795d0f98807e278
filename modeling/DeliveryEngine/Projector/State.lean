import DeliveryEngine.Go.Map
import DeliveryEngine.Go.Text
import DeliveryEngine.Go.Time
import DeliveryEngine.Go.Vocabulary

/-!
# The projected state

The projector's document is about tasks with a status on a fixed ladder and a completion gate.
`State.recomputeBlockers` derives each task's blocker from its dependencies.  The source ranges over a map and changes
the tasks as it goes; here a range is a fold over the keys in some order, and what holds for every order is proved for
an arbitrary list of visits.
-/

namespace DeliveryEngine.Projector

open Go List

/-! ## The consumer's vocabulary -/

/-- The canonical statuses, in ladder order. -/
inductive StatusName
  | planned
  | active
  | awaitingHuman
  | blocked
  | prOpen
  | checksPassing
  | packagePrepared
  | testsReviewPassed
  | merged
  | deployedUAT
  | appliedUAT
  | verified
  | complete
  deriving DecidableEq

instance : Vocabulary StatusName where
  all := [.planned, .active, .awaitingHuman, .blocked, .prOpen, .checksPassing, .packagePrepared,
    .testsReviewPassed, .merged, .deployedUAT, .appliedUAT, .verified, .complete]
  text
    | .planned => "planned"
    | .active => "active"
    | .awaitingHuman => "awaiting-human-action"
    | .blocked => "blocked"
    | .prOpen => "pr-open"
    | .checksPassing => "checks-passing"
    | .packagePrepared => "package-prepared"
    | .testsReviewPassed => "tests-review-passed"
    | .merged => "merged"
    | .deployedUAT => "deployed-uat"
    | .appliedUAT => "applied-uat"
    | .verified => "verified"
    | .complete => "complete"
  mem_all := by rintro ⟨⟩ <;> decide
  nodup := by decide

abbrev TaskStatus := Named StatusName

/-- The canonical statuses, sorted. -/
def canonicalStatusList : List String := sortStrings ((Vocabulary.all : List StatusName).map Vocabulary.text)

/-- Refuse anything outside the canonical vocabulary. -/
def validateTaskStatus (s : TaskStatus) : Except String Unit :=
  if s.isKnown then .ok ()
  else .error ("projector: status outside the canonical vocabulary: " ++ quote s.text ++
    " (canonical: " ++ joinWith canonicalStatusList ", " ++ ")")

/-- The states of a completion gate. -/
inductive GateStatusName
  | met
  | partiallyMet
  | notMet
  deriving DecidableEq

instance : Vocabulary GateStatusName where
  all := [.met, .partiallyMet, .notMet]
  text
    | .met => "met"
    | .partiallyMet => "partially-met"
    | .notMet => "not-met"
  mem_all := by rintro ⟨⟩ <;> decide
  nodup := by decide

abbrev CompletionGateStatus := Named GateStatusName

/-! ## Tasks and the state -/

/-- One dated execution attempt. -/
structure Attempt where
  date : Time
  outcome : String
  summary : String
  evidence : String := ""

/-- One projected unit of delivery work. -/
structure Task where
  taskID : String
  title : String := ""
  phase : String := ""
  taskType : String := ""
  status : TaskStatus
  priority : String := ""
  ownerType : String := ""
  branch : String := ""
  pullRequest : ℤ := 0
  dependencies : List String := []
  parallelGroup : String := ""
  criticalPath : Bool := false
  actualStart : Time := Time.zero
  actualFinish : Time := Time.zero
  implementationSha : String := ""
  completionGate : String := ""
  completionGateStatus : CompletionGateStatus
  evidence : List String := []
  blocker : String := ""
  nextPhysicalAction : String := ""
  attempts : List Attempt := []
  lastReviewed : Time := Time.zero
  /-- The event sequence that last opened an attempt. -/
  lastStartSeq : ℕ := 0

/-- One top-level blocker record. -/
structure Blocker where
  blockerID : String
  summary : String
  humanBoundary : Bool
  evidence : String

/-- The durable record's finding against a deliverable. -/
structure DeliverableInvalidation where
  seq : ℤ
  raisedBy : String
  reason : String
  evidence : String
  /-- When the finding was recorded, as the record holds it. -/
  raisedAt : String
  previousState : String

/-- One thing the project must deliver, and its state. -/
structure Deliverable where
  id : String
  statement : String := ""
  /-- The work packages that claimed it, in plan order. -/
  satisfiedBy : List String := []
  met : Bool := false
  acceptedBy : String := ""
  acceptedAt : String := ""
  invalidated : Option DeliverableInvalidation := none
  /-- The work packages an authorized remediation added to repair it. -/
  remediatedBy : List String := []

/-- One dated outcome. -/
structure CompletedOutcome where
  date : Time
  summary : String
  evidence : String

/-- The document's project object. -/
structure ProjectMeta where
  projectID : String
  strategy : String := ""
  authoritativeRef : String := ""
  currentPhase : String := ""
  currentMilestone : String := ""
  overallRag : String := ""
  overallRagReason : String := ""
  lastUpdateTimestamp : Time := Time.zero
  latestAcceptedMainSha : String := ""

/-- The whole projection. -/
structure State where
  project : ProjectMeta
  tasks : GoMap Task := ∅
  deliverables : List Deliverable := []
  currentBlockers : List Blocker := []
  completedOutcomes : List CompletedOutcome := []

/-- Whether the consumer reads the status as done. -/
def isTerminalStatus : TaskStatus → Bool
  | .known .merged => true
  | .known .deployedUAT => true
  | .known .appliedUAT => true
  | .known .verified => true
  | .known .complete => true
  | _ => false

/-- Whether the task shows a blocker this projection derived, rather than one set from a real authority. -/
def Task.waits (t : Task) : Bool := hasPrefix t.blocker "waiting on "

namespace State

/-- Range over the tasks in the order of the keys, replacing each task by what the body makes of it.
The body sees the state the iterations before it left. -/
def forEach (order : List String) (body : State → Task → Task) (s : State) : State :=
  order.foldl (fun s id =>
    match s.tasks.get? id with
    | none => s
    | some t => { s with tasks := s.tasks.set id (body s t) }) s

/-- The dependencies that are not yet terminal, sorted. -/
def blockersOf (s : State) (t : Task) : List String :=
  sortStrings (t.dependencies.filter (fun dep =>
    match s.tasks.get? dep with
    | none => true
    | some d => !isTerminalStatus d.status))

/-- Refresh a task's derived blocker.  A blocker set from a real authority is not cleared. -/
def recomputeTask (s : State) (t : Task) : Task :=
  let outstanding := s.blockersOf t
  if outstanding ≠ [] then
    { t with blocker := "waiting on " ++ joinWith outstanding ", ",
             status := if t.status = .known .planned then .known .blocked else t.status }
  else
    { t with blocker := if hasPrefix t.blocker "waiting on " then "" else t.blocker,
             status := if t.status = .known .blocked then .known .planned else t.status }

lemma status_recomputeTask (s : State) (t : Task) : (s.recomputeTask t).status = if s.blockersOf t ≠ [] then
      if t.status = .known .planned then .known .blocked else t.status
      else if t.status = .known .blocked then .known .planned else t.status :=
  apply_ite Task.status ..

lemma blocker_recomputeTask (s : State) (t : Task) : (s.recomputeTask t).blocker = if s.blockersOf t ≠ [] then
      "waiting on " ++ joinWith (s.blockersOf t) ", "
      else if hasPrefix t.blocker "waiting on " then "" else t.blocker :=
  apply_ite Task.blocker ..

/-- Refresh each task's derived blocker, ranging over the tasks in an order. -/
def recomputeBlockers (order : List String) (s : State) : State := s.forEach order recomputeTask

/-! ## What a range does to one task -/

variable (body : State → Task → Task)

lemma forEach_eq (order : List String) (s : State) :
    s.forEach order body = { s with tasks := (s.forEach order body).tasks } := by
  induction order generalizing s with
  | nil => rfl
  | cons k order ih =>
    unfold forEach at ih ⊢
    rw [foldl_cons, ih]
    split <;> rfl

variable {order : List String} {id : String}

lemma get?_forEach_of_notMem (h : id ∉ order)
    (s : State) : (s.forEach order body).tasks.get? id = s.tasks.get? id := by
  induction order generalizing s with
  | nil => rfl
  | cons k order ih =>
    simp only [mem_cons, not_or] at h
    unfold forEach at ih ⊢
    rw [foldl_cons, ih h.2]
    split
    · rfl
    · exact GoMap.get?_set_of_ne _ _ h.1

lemma isSome_get?_forEach (order : List String) (s : State) (id : String) :
    ((s.forEach order body).tasks.get? id).isSome = (s.tasks.get? id).isSome := by
  induction order generalizing s with
  | nil => rfl
  | cons k order ih =>
    unfold forEach at ih ⊢
    rw [foldl_cons, ih]
    split
    · rfl
    · next t ht =>
      by_cases hid : id = k
      · subst hid
        simp [ht]
      · rw [GoMap.get?_set_of_ne _ _ hid]

variable {s : State} {t : Task}

lemma forEach_visited {body : State → Task → Task} {P : Task → Prop} (hbody : ∀ s t, P (body s t))
    (hmem : id ∈ order)
    (hget : (s.forEach order body).tasks.get? id = some t) : P t := by
  induction order generalizing s with
  | nil => cases hmem
  | cons k order ih =>
    by_cases htail : id ∈ order
    · exact ih htail hget
    · -- The last visit of the task is this one.
      obtain rfl : id = k := (mem_cons.mp hmem).resolve_right htail
      have hlast := get?_forEach_of_notMem body htail (match s.tasks.get? id with
          | none => s
          | some t => { s with tasks := s.tasks.set id (body s t) })
      have hrest : (s.forEach (id :: order) body).tasks.get? id = _ := hlast
      rw [hrest] at hget
      split at hget
      · next hnone =>
        rw [hnone] at hget
        cases hget
      · next u hu =>
        rw [GoMap.get?_set_self] at hget
        cases hget
        exact hbody s u

/-! ## Blockers do not depend on the order -/

/-- Two states show the same tasks as done. -/
def SameDone (s s' : State) : Prop :=
  ∀ id, (s.tasks.get? id).map (fun t => isTerminalStatus t.status) =
    (s'.tasks.get? id).map (fun t => isTerminalStatus t.status)

lemma SameDone.blockersOf_eq {s' : State} (h : SameDone s s') (t : Task) : s.blockersOf t = s'.blockersOf t := by
  refine congrArg sortStrings (filter_congr fun dep _ => ?_)
  have hdep := h dep
  cases hs : s.tasks.get? dep with
  | none =>
    rw [hs] at hdep
    have hnone := Option.map_eq_none_iff.mp hdep.symm
    simp [hnone]
  | some d =>
    rw [hs] at hdep
    obtain ⟨d', hd', hsame⟩ := Option.map_eq_some_iff.mp hdep.symm
    simp [hd', hsame]

lemma SameDone.recomputeTask_eq {s' : State} (h : SameDone s s') (t : Task) :
    s.recomputeTask t = s'.recomputeTask t := by
  unfold recomputeTask
  rw [h.blockersOf_eq]

lemma isTerminalStatus_recomputeTask (s : State) (t : Task) :
    isTerminalStatus (s.recomputeTask t).status = isTerminalStatus t.status := by
  have hmove : ∀ a b : TaskStatus, isTerminalStatus a = false → isTerminalStatus b = false →
      isTerminalStatus (if t.status = a then b else t.status) = isTerminalStatus t.status := by
    intro a b ha hb
    split
    · next h => rw [h, ha, hb]
    · rfl
  rw [status_recomputeTask]
  split <;> exact hmove _ _ rfl rfl

lemma sameDone_set (hget : s.tasks.get? id = some t) :
    SameDone s { s with tasks := s.tasks.set id (s.recomputeTask t) } := by
  intro k
  by_cases hk : k = id
  · subst hk
    rw [hget, GoMap.get?_set_self, Option.map_some, Option.map_some, isTerminalStatus_recomputeTask]
  · rw [GoMap.get?_set_of_ne _ _ hk]

lemma get?_recomputeBlockers (horder : GoMap.Enumerates order s.tasks) (id : String) :
    (s.recomputeBlockers order).tasks.get? id = (s.tasks.get? id).map s.recomputeTask := by
  have hvisits := GoMap.get?_foldl_visits (m := State.tasks) (P := SameDone s) (f := fun _ => s.recomputeTask)
    (g := fun s₀ k => match s₀.tasks.get? k with
      | none => s₀
      | some t => { s₀ with tasks := s₀.tasks.set k (s₀.recomputeTask t) })
    (fun s₀ k hsame => by
      cases hget : s₀.tasks.get? k with
      | none =>
        refine ⟨hsame, fun id => ?_⟩
        by_cases hid : id = k <;> simp [hid, hget]
      | some t =>
        refine ⟨fun j => (hsame j).trans (sameDone_set hget j), fun id => ?_⟩
        by_cases hid : id = k
        · subst hid
          simp [hget, hsame.recomputeTask_eq]
        · simp [hid, GoMap.get?_set_of_ne _ _ hid]) horder.1 (fun _ => rfl) id
  refine hvisits.trans ?_
  by_cases hid : id ∈ order
  · simp [hid]
  · have hnone : s.tasks.get? id = none := by simpa [horder.2 id] using hid
    simp [hnone]

lemma recomputeBlockers_congr {xs ys : List String} (hxs : GoMap.Enumerates xs s.tasks)
    (hys : GoMap.Enumerates ys s.tasks) : s.recomputeBlockers xs = s.recomputeBlockers ys := by
  have htasks : (s.recomputeBlockers xs).tasks = (s.recomputeBlockers ys).tasks := by
    refine Finmap.ext_lookup fun id => ?_
    exact (get?_recomputeBlockers hxs id).trans (get?_recomputeBlockers hys id).symm
  calc s.recomputeBlockers xs = { s with tasks := (s.recomputeBlockers xs).tasks } :=
        forEach_eq recomputeTask xs s
    _ = { s with tasks := (s.recomputeBlockers ys).tasks } := by rw [htasks]
    _ = s.recomputeBlockers ys := (forEach_eq recomputeTask ys s).symm

/-! ## Recomputing is stable -/

lemma blockersOf_recomputeTask (s s' : State) (t : Task) : s.blockersOf (s'.recomputeTask t) = s.blockersOf t := by
  unfold recomputeTask
  by_cases h : s'.blockersOf t ≠ []
  · rw [if_pos h]
    rfl
  · rw [if_neg h]
    rfl

lemma waits_recomputeTask (s : State) (t : Task) : (s.recomputeTask t).waits = true ↔ s.blockersOf t ≠ [] := by
  rw [Task.waits, blocker_recomputeTask]
  split
  · next h => simp [hasPrefix, h]
  · next h =>
    refine iff_of_false ?_ h
    split
    · decide
    · next hwaits => exact hwaits

lemma recomputeTask_recomputeTask (s : State) (t : Task) :
    s.recomputeTask (s.recomputeTask t) = s.recomputeTask t := by
  have hwaits := waits_recomputeTask s t
  rw [recomputeTask, blockersOf_recomputeTask]
  by_cases h : s.blockersOf t ≠ []
  · simp only [recomputeTask, if_pos h]
    split <;> simp_all
  · have hclear : hasPrefix (s.recomputeTask t).blocker "waiting on " = false :=
      Bool.eq_false_iff.mpr (mt hwaits.mp h)
    simp only [if_neg h, hclear]
    simp only [recomputeTask, if_neg h]
    split <;> simp_all

lemma blockersOf_ne_nil_iff : s.blockersOf t ≠ [] ↔ ∃ dep ∈ t.dependencies, ∀ d, s.tasks.get? dep = some d →
      isTerminalStatus d.status = false := by
  rw [blockersOf, ne_eq, sortStrings_eq_nil, filter_eq_nil_iff]
  push Not
  refine exists_congr fun dep => and_congr_right fun _ => ?_
  cases s.tasks.get? dep <;> simp

lemma sameDone_recomputeBlockers (horder : GoMap.Enumerates order s.tasks) :
    SameDone s (s.recomputeBlockers order) := by
  intro id
  rw [get?_recomputeBlockers horder, Option.map_map]
  exact congrArg (fun f => (s.tasks.get? id).map f) (funext fun t => (isTerminalStatus_recomputeTask s t).symm)

/-- Recomputing the blockers gives one state whatever the order of the range, and a second time
changes nothing.  Every task stays as terminal as it was, and shows a derived blocker afterwards
exactly when one of its dependencies is missing or not terminal. -/
theorem recomputeBlockers_stable (s : State) (xs : List String) (hxs : GoMap.Enumerates xs s.tasks) :
    (∀ ys, GoMap.Enumerates ys s.tasks → s.recomputeBlockers ys = s.recomputeBlockers xs) ∧
      (∀ ys, GoMap.Enumerates ys (s.recomputeBlockers xs).tasks →
        (s.recomputeBlockers xs).recomputeBlockers ys = s.recomputeBlockers xs) ∧
      ∀ id t', (s.recomputeBlockers xs).tasks.get? id = some t' → (∃ t, s.tasks.get? id = some t ∧
          isTerminalStatus t'.status = isTerminalStatus t.status) ∧
        (t'.waits = true ↔ ∃ dep ∈ t'.dependencies, ∀ d, (s.recomputeBlockers xs).tasks.get? dep = some d →
            isTerminalStatus d.status = false) := by
  have hsame := sameDone_recomputeBlockers hxs
  refine ⟨fun ys hys => recomputeBlockers_congr hys hxs, fun ys hys => ?_, fun id t' ht' => ?_⟩
  · have htasks : ((s.recomputeBlockers xs).recomputeBlockers ys).tasks = (s.recomputeBlockers xs).tasks := by
      refine Finmap.ext_lookup fun id => ?_
      have hagain := get?_recomputeBlockers hys id
      rw [get?_recomputeBlockers hxs, Option.map_map] at hagain
      refine (hagain.trans ?_).trans (get?_recomputeBlockers hxs id).symm
      refine congrArg (fun f => (s.tasks.get? id).map f) (funext fun t => ?_)
      rw [Function.comp_apply, ← hsame.recomputeTask_eq, recomputeTask_recomputeTask]
    rw [recomputeBlockers, forEach_eq, ← recomputeBlockers, htasks]
  · have hget := get?_recomputeBlockers hxs id
    rw [ht'] at hget
    obtain ⟨t, ht, rfl⟩ := Option.map_eq_some_iff.mp hget.symm
    refine ⟨⟨t, ht, isTerminalStatus_recomputeTask s t⟩, ?_⟩
    rw [waits_recomputeTask, ← blockersOf_ne_nil_iff, ← hsame.blockersOf_eq, blockersOf_recomputeTask]

/-- A planned task that waits on one that is at work, and that on one the projection does not have. -/
def waitingState : State :=
  { project := { projectID := "p" }
    tasks := GoMap.set (GoMap.set ∅ "a" { taskID := "a", status := .known .planned, dependencies := ["b"],
                                          completionGateStatus := .known .notMet })
      "b" { taskID := "b", status := .known .active, dependencies := ["c"], completionGateStatus := .known .notMet } }

/-- Both wait, in whatever order and however often the blockers are recomputed. -/
theorem recomputeBlockers_stable_waiting : GoMap.Enumerates ["a", "b"] waitingState.tasks ∧
      waitingState.recomputeBlockers ["b", "a"] = waitingState.recomputeBlockers ["a", "b"] ∧
      ∀ ys, GoMap.Enumerates ys (waitingState.recomputeBlockers ["a", "b"]).tasks →
        (waitingState.recomputeBlockers ["a", "b"]).recomputeBlockers ys = waitingState.recomputeBlockers ["a", "b"] := by
  have hkeys : ∀ k, k = "a" ∨ k = "b" ↔ (waitingState.tasks.get? k).isSome = true := fun k => by
    rw [waitingState, GoMap.get?_set, GoMap.get?_set]
    by_cases hb : k = "b" <;> by_cases ha : k = "a" <;> simp [ha, hb]
  have hstable := recomputeBlockers_stable waitingState ["a", "b"] ⟨by decide, by simpa using hkeys⟩
  exact ⟨⟨by decide, by simpa using hkeys⟩, hstable.1 _ ⟨by decide, by simpa [or_comm] using hkeys⟩, hstable.2.1⟩

end State

end DeliveryEngine.Projector
