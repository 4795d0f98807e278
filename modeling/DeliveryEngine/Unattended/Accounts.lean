import DeliveryEngine.Unattended.Restart

/-!
# The accounts of a run that may be resumed

A run begins with a journal and the queue that is restored from it.  `Queue.restore` brings back what the journal
counts of a task, but not if the task has succeeded: then the queue begins with no attempt and no resume, and stays
behind the journal.  `replay_agrees_iff` says for which runs the replay of the journal agrees with the live queue.
-/

namespace DeliveryEngine.Unattended

open Go List

variable {runID id : String} {records : List Record} {plan : Plan}

lemma Tally.nonneg_follow {t : Tally} (ha : 0 ≤ t.attempts) (hr : 0 ≤ t.resumes) (records : List Record) :
    0 ≤ (follow runID id t records).attempts ∧ 0 ≤ (follow runID id t records).resumes := by
  induction records generalizing t with
  | nil => exact ⟨ha, hr⟩
  | cons rec records ih =>
    have hstep : ∀ k, 0 ≤ (t.step k).attempts ∧ 0 ≤ (t.step k).resumes := by
      intro k
      fun_cases step t k
      case case3 =>
        dsimp only
        split <;> omega
      case case1 => exact ⟨Int.add_nonneg ha Int.one_nonneg, hr⟩
      all_goals exact ⟨ha, hr⟩
    rw [follow, foldl_cons]
    split
    · exact ih (hstep _).1 (hstep _).2
    · exact ih ha hr

/-- What a queue that begins with a journal counts of a task. -/
def restoredTally (records : List Record) (runID id : String) : Tally :=
  match resumption records runID with
  | none => {}
  | some st => if st.succeeded.getD id false then ⟨true, 0, 0⟩ else st.tally id

lemma nonneg_replay (records : List Record) (runID id : String) :
    0 ≤ (replay records runID).attempts.getD id 0 ∧ 0 ≤ (replay records runID).resumes.getD id 0 := by
  have hnonneg : 0 ≤ (Tally.follow runID id {} records).attempts ∧ 0 ≤ (Tally.follow runID id {} records).resumes :=
    Tally.nonneg_follow le_rfl le_rfl records
  rw [← tally_replay] at hnonneg
  exact hnonneg

lemma tally_restoreTask {st : ResumeState} {t : QueuedTask} (hnew : ({} : Tally) = t.tally)
    (ha : 0 ≤ st.attempts.getD t.task.id 0) (hr : 0 ≤ st.resumes.getD t.task.id 0) :
    (if st.succeeded.getD t.task.id false then ⟨true, 0, 0⟩ else st.tally t.task.id) =
      (Queue.restoreTask st t).tally := by
  simp only [QueuedTask.tally, Tally.mk.injEq, Bool.false_eq, decide_eq_false_iff_not] at hnew
  obtain ⟨hstate, hattempts, hresumes⟩ := hnew
  have hempty : t.attempts = [] := by simpa [QueuedTask.attemptCount] using hattempts.symm
  by_cases hsucceeded : st.succeeded.getD t.task.id false = true
  · simp [Queue.restoreTask, hsucceeded, QueuedTask.tally, QueuedTask.attemptCount, hempty, ← hresumes]
  · obtain ⟨hcount, hmax⟩ := Queue.restoreTask_counts hsucceeded
    have hafter : (Queue.restoreTask st t).state ≠ .succeeded := by
      rw [Queue.restoreTask_state, if_neg hsucceeded]
      split
      · decide
      · exact hstate
    rw [if_neg hsucceeded, ResumeState.tally, QueuedTask.tally, hcount]
    simp only [hempty, hafter, hsucceeded, decide_false, Tally.mk.injEq, true_and, and_true]
    split <;> omega

lemma tally_start (plan : Plan) (boundaries : GoMap String) (records : List Record) :
    ∀ t ∈ (Queue.start plan boundaries (resumption records plan.runID)).tasks,
      restoredTally records plan.runID t.task.id = t.tally := by
  have hnew := tally_new plan boundaries
  cases hst : resumption records plan.runID with
  | none =>
    intro t ht
    rw [restoredTally, hst]
    exact hnew t ht
  | some st =>
    refine ((Queue.extends_propagateHolds _).forall_tally (· = ·) (restoredTally records plan.runID)).mpr ?_
    intro t ht
    obtain ⟨u, hu, rfl⟩ := mem_map.mp ht
    rw [restoredTally, hst, Queue.restoreTask_task]
    obtain ⟨rfl, -⟩ := numbered_of_resumption hst
    obtain ⟨ha, hr⟩ := nonneg_replay records plan.runID u.task.id
    exact tally_restoreTask (hnew u hu) ha hr

/-- Whatever the journal counts of a task is brought back when the run begins: if the task has succeeded, or nothing
is restored because the run is not taken for a resumed one, it has no attempt and no resume on record. -/
def BroughtBack (records : List Record) (runID id : String) : Prop :=
  (replay records runID).succeeded.getD id false = true ∨ resumption records runID = none →
    (replay records runID).attempts.getD id 0 = 0 ∧ (replay records runID).resumes.getD id 0 = 0

instance (records : List Record) (runID id : String) : Decidable (BroughtBack records runID id) :=
  inferInstanceAs (Decidable (_ → _))

lemma BroughtBack.tally_eq (h : BroughtBack records runID id) (hnum : ∀ rec ∈ records, 0 < rec.seq) :
    (replay records runID).tally id = restoredTally records runID id := by
  unfold restoredTally
  cases hst : resumption records runID with
  | some st =>
    obtain ⟨rfl, -⟩ := numbered_of_resumption hst
    dsimp only
    split
    · next hsucceeded =>
      obtain ⟨ha, hr⟩ := h (.inl hsucceeded)
      rw [ResumeState.tally, hsucceeded, ha, hr]
    · rfl
  | none =>
    obtain ⟨ha, hr⟩ := h (.inr hst)
    have hsucceeded : (replay records runID).succeeded.getD id false = false := by
      by_contra hsucceeded
      have hrecords : ∃ rec ∈ records, 0 < rec.seq := by
        cases records with
        | nil => exact absurd rfl hsucceeded
        | cons rec _ => exact ⟨rec, mem_cons_self, hnum rec mem_cons_self⟩
      rw [resumption, if_pos ⟨(zero_lt_lastSeq_iff records runID).mpr hrecords,
        .inl (GoMap.nonempty_of_getD_ne hsucceeded)⟩] at hst
      cases hst
    rw [ResumeState.tally, hsucceeded, ha, hr]

lemma exceeds_of_not_broughtBack (h : ¬ BroughtBack records runID id) :
    ((replay records runID).tally id).Exceeds (restoredTally records runID id) := by
  obtain ⟨hlost, hcounts⟩ := Classical.not_imp.mp h
  obtain ⟨ha, hr⟩ := nonneg_replay records runID id
  have hzero : (restoredTally records runID id).attempts = 0 ∧ (restoredTally records runID id).resumes = 0 := by
    unfold restoredTally
    cases hst : resumption records runID with
    | none => exact ⟨rfl, rfl⟩
    | some st =>
      obtain ⟨rfl, -⟩ := numbered_of_resumption hst
      rw [hst] at hlost
      dsimp only
      rw [if_pos (hlost.resolve_right nofun)]
      exact ⟨rfl, rfl⟩
  rw [Tally.Exceeds]
  simp only [ResumeState.tally]
  omega

/-- Replay agrees with the live queue.  In a run of an accepted plan, resumed or not, the replay of the journal and the
live queue give every task the same success, the same number of attempts and the same number of resumes after every
call of `runOne` exactly when no execution of the run ends at a human boundary, and all that the journal counted when
the run began was brought back. -/
theorem replay_agrees_iff (host : Host) (spec : Spec) (plan : Plan) (arrival : Arrival) (records : List Record)
    (truncated : Bool) (pid : ℤ) (ss : List Surroundings) (hplan : plan.validate = .ok ())
    (hnum : ∀ rec ∈ records, 0 < rec.seq) :
    let run := calls host ss (Session.prepare spec plan arrival records truncated pid records).runner
    (∀ c ∈ run, ∀ t ∈ (c.after host).queue.tasks,
          let st := replay (c.after host).journal.records (c.after host).journal.runID
          (st.succeeded.getD t.task.id false = true ↔ t.state = .succeeded) ∧
            st.attempts.getD t.task.id 0 = t.attemptCount ∧
            st.resumes.getD t.task.id 0 = t.resumes) ↔
      (∀ c ∈ run, ¬ c.Ends host .humanBlocked) ∧
        (run ≠ [] → ∀ t ∈ plan.tasks, BroughtBack records plan.runID t.id) := by
  intro run
  set r := (Session.prepare spec plan arrival records truncated pid records).runner
  have hids := (Plan.valid_of_validate hplan).ids_nodup
  have hrun : Runner.Running spec plan r.core := Runner.running_ready ..
  have hjournal : ∀ id, (replay r.journal.records r.journal.runID).tally id = (replay records plan.runID).tally id := by
    have hmarks : (openJournal plan.runID arrival.clock records).Marks r.journal "" [] := marks_openingRecords ..
    intro id
    rw [hmarks.runID_eq, hmarks.tally_eq]
    split
    · next h => rw [h]; rfl
    · rfl
  have hstart : ∀ t ∈ r.queue.tasks, restoredTally records plan.runID t.task.id = t.tally :=
    tally_start plan arrival.report.boundaries records
  have htasks : r.queue.tasks.map QueuedTask.task = plan.tasks := hrun.sound.tasks_eq
  suffices hiff : (∀ c ∈ run, Agrees (c.after host)) ↔ (∀ c ∈ run, ¬ c.Ends host .humanBlocked) ∧
      (run ≠ [] → ∀ t ∈ plan.tasks, BroughtBack records plan.runID t.id) by
    rw [← hiff]
    exact forall₂_congr fun c _ => forall₂_congr fun t _ => (tally_eq_iff _ t).symm
  by_cases hback : ∀ t ∈ plan.tasks, BroughtBack records plan.runID t.id
  · have hagrees : Agrees r := by
      intro t ht
      rw [hjournal, ← hstart t ht]
      exact (hback t.task (htasks ▸ mem_map_of_mem ht)).tally_eq hnum
    rw [agrees_calls_iff host hids ss hrun hagrees]
    exact (and_iff_left fun _ => hback).symm
  · have hovercounts : Overcounts r := by
      push Not at hback
      obtain ⟨task, htask, hlost⟩ := hback
      obtain ⟨t, ht, rfl⟩ := mem_map.mp (htasks ▸ htask)
      refine ⟨t, ht, ?_⟩
      rw [hjournal, ← hstart t ht]
      exact exceeds_of_not_broughtBack hlost
    have hnever := overcounts_calls host hids ss hrun hovercounts
    rcases hempty : run with _ | ⟨c, cs⟩
    · simp
    · refine iff_of_false (fun hall => ?_) fun h => hback (h.2 (cons_ne_nil _ _))
      have hmem : c ∈ run := by rw [hempty]; exact mem_cons_self
      exact (hnever c hmem).not_agrees (hall c mem_cons_self)

/-- The runner of a plan on a journal. -/
def runnerOn (plan : Plan) (records : List Record) : Runner :=
  (Session.prepare Runner.gatedSpec plan (onceCycle true 0).arrival records false 1 records).runner

/-- The journal of a run that has attempted the task `a` once. -/
def attemptedOnce (ending : RecordKindName) : List Record :=
  [{ seq := 1, runID := "run", taskID := "a", kind := .known .taskStarted },
    { seq := 2, runID := "run", taskID := "a", kind := .known ending }]

/-- A task that failed once, asks to be continued when the run is resumed, and then completes keeps the accounts in
agreement. -/
theorem replay_agrees_iff_continued : lonePlan.validate = .ok () ∧
      ∀ c ∈ calls .plain [reporting .continue, reporting .complete] (runnerOn lonePlan (attemptedOnce .taskFailed)),
        ∀ t ∈ (c.after .plain).queue.tasks,
          let st := replay (c.after .plain).journal.records (c.after .plain).journal.runID
          (st.succeeded.getD t.task.id false = true ↔ t.state = .succeeded) ∧
            st.attempts.getD t.task.id 0 = t.attemptCount ∧
            st.resumes.getD t.task.id 0 = t.resumes :=
  ⟨by decide, (replay_agrees_iff .plain Runner.gatedSpec lonePlan (onceCycle true 0).arrival
    (attemptedOnce .taskFailed) false 1 [reporting .continue, reporting .complete] (by decide) (by decide)).mpr
      ⟨by decide, by decide⟩⟩

/-- A plan of two tasks. -/
def pairPlan : Plan :=
  { runID := "run", risk := .known .q0,
    tasks := [{ id := "a", argv := ["agent"] }, { id := "b", argv := ["agent"], band := .known .validation }] }

/-- The attempts of the task `a` that the replay and the queue count after each call. -/
def attemptsOfA (ss : List Surroundings) (r : Runner) : List (ℤ × Option ℕ) :=
  (calls .plain ss r).map fun c => ((replay (c.after .plain).journal.records "run").attempts.getD "a" 0,
    ((c.after .plain).queue.tasks.find? (·.task.id = "a")).map QueuedTask.attemptCount)

/-- A task that reports a human boundary on its first execution, and a task that had succeeded when the run was
resumed: the replay counts an attempt of each, and the queue none. -/
theorem replay_disagrees_at_human_boundary :
    attemptsOfA [reporting .humanBlocked] (runnerOn lonePlan []) = [(1, some 0)] ∧
      attemptsOfA [reporting .complete] (runnerOn pairPlan (attemptedOnce .taskSucceeded)) = [(1, some 0)] ∧
      ∀ c ∈ calls .plain [reporting .complete] (runnerOn pairPlan (attemptedOnce .taskSucceeded)),
        ¬ c.Ends .plain .humanBlocked := by
  decide

end DeliveryEngine.Unattended
