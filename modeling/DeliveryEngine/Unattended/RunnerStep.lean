import DeliveryEngine.Unattended.Runner

/-!
# What one step of a run can do

`Stepped` has one constructor for each way a step ends, with what it does to the runner's state and to the journal, and
every result about runs is a case analysis on it.  The `Core` of a runner is the part its decisions depend on.  Of the
records a step appends only the starts, successes and resumes of its task change any task's tally (`Journal.Marks`).
-/

namespace DeliveryEngine.Unattended

open Go List

/-! ## Journal effects -/

/-- A kind of record that changes no tally. -/
def RecordKind.quiet : RecordKind → Bool
  | .known .taskStarted => false
  | .known .taskSucceeded => false
  | .known .taskResumed => false
  | _ => true

lemma Tally.step_of_quiet {k : RecordKind} (h : k.quiet = true) (t : Tally) : t.step k = t := by
  rcases k with ⟨k⟩ | _
  · cases k <;> first | rfl | cases h
  · rfl

/-- The record is about the task with the id, or about no task. -/
def Record.Concerns (rec : Record) (id : String) : Prop := rec.taskID = id ∨ rec.taskID = ""

variable {rs : List Record}

namespace Journal

/-- From `j` to `j'` records about the task `id` or about none were appended, which change the tally
of `id` by the given kinds and no other tally. -/
structure Marks (j j' : Journal) (id : String) (kinds : List RecordKind) : Prop where
  runID_eq : j'.runID = j.runID
  appended : ∃ recs, j'.records = j.records ++ recs ∧ (∀ rec ∈ recs, rec.Concerns id) ∧
    ∀ id' tally, Tally.follow j.runID id' tally recs =
      if id' = id then kinds.foldl Tally.step tally else tally

namespace Marks

variable (j : Journal)

lemma refl (id : String) : Marks j j id [] := ⟨rfl, [], by simp, by simp, fun id' tally => by simp [Tally.follow]⟩

variable {id : String}

lemma trans {j₁ j₂ j₃ : Journal} {ks ks' : List RecordKind}
    (h₁ : Marks j₁ j₂ id ks) (h₂ : Marks j₂ j₃ id ks') : Marks j₁ j₃ id (ks ++ ks') := by
  obtain ⟨hrun₁, recs₁, hrecs₁, habout₁, hfollow₁⟩ := h₁
  obtain ⟨hrun₂, recs₂, hrecs₂, habout₂, hfollow₂⟩ := h₂
  refine ⟨hrun₂.trans hrun₁, recs₁ ++ recs₂, by rw [hrecs₂, hrecs₁, append_assoc],
    forall_mem_append.mpr ⟨habout₁, habout₂⟩, ?_⟩
  intro id' tally
  rw [hrun₁] at hfollow₂
  rw [Tally.follow_append, hfollow₁, hfollow₂]
  split <;> simp [foldl_append]

lemma append_quiet {r : Record} (habout : r.Concerns id) (h : r.kind.quiet = true) : Marks j (j.append r) id [] := by
  refine ⟨rfl, [j.stamp r], rfl, forall_mem_singleton.mpr habout, fun id' tally => ?_⟩
  simp [Tally.follow, stamp, Tally.step_of_quiet h]

lemma appendAll_quiet (h : ∀ r ∈ rs, r.Concerns id ∧ r.kind.quiet = true) : Marks j (j.appendAll rs) id [] := by
  induction rs generalizing j with
  | nil => exact refl j id
  | cons r rs ih =>
    obtain ⟨habout, hquiet⟩ := h r mem_cons_self
    exact (append_quiet j habout hquiet).trans (ih (j.append r) fun r' hr' => h r' (mem_cons_of_mem _ hr'))

lemma append_own {r : Record} (h : r.runID = "") : Marks j (j.append r) r.taskID [r.kind] := by
  refine ⟨rfl, [j.stamp r], rfl, by simp [Record.Concerns, stamp], fun id' tally => ?_⟩
  have hcomm : r.taskID = id' ↔ id' = r.taskID := eq_comm
  simp [Tally.follow, stamp, h, hcomm]

lemma tally_eq {j j' : Journal} {kinds : List RecordKind} (h : Marks j j' id kinds) (id' : String) :
    (replay j'.records j.runID).tally id' =
      if id' = id then kinds.foldl Tally.step ((replay j.records j.runID).tally id')
      else (replay j.records j.runID).tally id' := by
  obtain ⟨-, recs, hrecs, -, hfollow⟩ := h
  rw [tally_replay, tally_replay, hrecs, Tally.follow_append, hfollow]

end Marks

end Journal

/-! ## The core of a runner -/

/-- The part of a runner that its decisions depend on. -/
structure Core where
  spec : Spec
  plan : Plan
  report : Report
  queue : Queue
  fence : Fence
  stopReason : String
  stopOutcome : Option RunOutcome

namespace Runner

variable (host : Host)

def core (r : Runner) : Core := ⟨r.spec, r.plan, r.report, r.queue, r.fence, r.stopReason, r.stopOutcome⟩

section
variable (r : Runner)

@[simp] lemma core_log (rs : List Record) : (r.log rs).core = r.core := rfl

@[simp] lemma core_publish (e : PublishErrors) : (r.publish e).core = r.core := rfl

variable (input : RunInput)

@[simp] lemma core_opened : (r.opened input).core = r.core := rfl

@[simp] lemma core_closed (event : CompletionEvent) : (r.closed input event).core = r.core := by
  unfold closed
  split <;> rfl

@[simp] lemma core_withQueue (q : Queue) : (r.withQueue q).core = { r.core with queue := q } := rfl

@[simp] lemma core_stopFor (why : String) (cls : FailureClass) (outcome : Option RunOutcome) :
    (r.stopFor why cls outcome).core =
      { r.core with stopReason := why, stopOutcome := outcome } := rfl

@[simp] lemma core_recordGateEvidence (t : Task) (result : GateResult) (detail : String) (now : Time) :
    (r.recordGateEvidence t result detail now).core = r.core := by
  unfold recordGateEvidence
  split <;> rfl

variable (id : String) (n : ℕ) (capture : Except String String)

@[simp] lemma core_captureFailure : (r.captureFailure id n capture).1.core = r.core := by
  cases capture <;> rfl

@[simp] lemma queue_captureFailure : (r.captureFailure id n capture).1.queue = r.queue :=
  congrArg Core.queue (core_captureFailure r id n capture)

lemma core_recordAdvance (t : Task) (s : Surroundings) : (r.recordAdvance t s).core =
      { r.core with fence := (r.core.fence.recordAuthorisedAdvance
          ("task " ++ t.id ++ " mutated the worktree") s.advanceGround s.recheckGround).1 } := by
  unfold recordAdvance
  dsimp only
  split <;> rfl

end

/-! ## What the writes of a step append -/

variable {rec : Record}

lemma of_mem_publishRecords {e : PublishErrors} (h : rec ∈ publishRecords e) :
    rec.kind = .known .preflight ∧ rec.taskID = "" := by
  rcases mem_append.mp h with h | h <;>
    · obtain ⟨_, -, rfl⟩ := Option.mem_map.mp (Option.mem_toList.mp h)
      exact ⟨rfl, rfl⟩

section Writes
variable {j : Journal} {r : Runner} {id : String} {ks : List RecordKind}

section
variable (h : j.Marks r.journal id ks)
include h

lemma marks_log_own {k : RecordKind} (hid : rec.taskID = id) (hkind : rec.kind = k)
    (hrun : rec.runID = "") : j.Marks (r.log [rec]).journal id (ks ++ [k]) := by
  subst hid hkind
  exact h.trans (.append_own r.journal hrun)

lemma marks_appendAll_quiet (hquiet : ∀ rec ∈ rs, rec.Concerns id ∧ rec.kind.quiet = true) :
    j.Marks (r.log rs).journal id ks := by
  have htrans := h.trans (.appendAll_quiet r.journal hquiet)
  rwa [append_nil] at htrans

lemma marks_log_quiet (hid : rec.taskID = id) (hquiet : rec.kind.quiet = true) :
    j.Marks (r.log [rec]).journal id ks :=
  marks_appendAll_quiet h (forall_mem_singleton.mpr ⟨.inl hid, hquiet⟩)

lemma marks_withQueue (q : Queue) : j.Marks (r.withQueue q).journal id ks := h

lemma marks_publish (e : PublishErrors) : j.Marks (r.publish e).journal id ks := by
  refine marks_appendAll_quiet h fun rec hrec => ?_
  obtain ⟨hkind, hid⟩ := of_mem_publishRecords hrec
  exact ⟨.inr hid, by rw [hkind]; rfl⟩

lemma marks_captureFailure (n : ℕ) (capture : Except String String) :
    j.Marks (r.captureFailure id n capture).1.journal id ks := by
  cases capture with
  | error err => exact marks_log_quiet h rfl rfl
  | ok path => exact h

end

lemma marks_recordGateEvidence {t : Task} (h : j.Marks r.journal t.id ks) (result : GateResult)
    (detail : String) (now : Time) :
    j.Marks (r.recordGateEvidence t result detail now).journal t.id ks := by
  unfold recordGateEvidence
  split
  · exact h
  · exact marks_log_quiet h rfl rfl

lemma marks_recordAdvance {t : Task} (h : j.Marks r.journal t.id ks) (s : Surroundings) :
    j.Marks (r.recordAdvance t s).journal t.id ks := by
  unfold recordAdvance
  dsimp only
  split <;> exact marks_log_quiet h rfl rfl

end Writes

/-! ## Each way an attempt can end -/

variable {r : Runner} {j : Journal} {ks : List RecordKind} {t : QueuedTask} (i : ℕ) (s : Surroundings)
  (v : ControllerVerdict)

@[simp] lemma core_start : (r.start t v).core = r.core := by
  unfold start
  split <;> rfl

/-- The fence after the advance a mutating task's success records. -/
def advanced (f : Fence) (t : Task) (s : Surroundings) : Fence :=
  if t.mutates then
    (f.recordAuthorisedAdvance ("task " ++ t.id ++ " mutated the worktree") s.advanceGround s.recheckGround).1
  else f

/-- The queue after a resumable outcome of a task. -/
def drivenAgain (q : Queue) (i : ℕ) (reason : String) : Queue :=
  if (q.recordResume i).2.2.2 then (q.recordResume i).1 else (q.recordResume i).1.hold i reason

lemma core_succeed : (r.succeed i t s v).core =
      { r.core with queue := (r.core.queue.recordAttempt i s.success).1,
                    fence := advanced r.core.fence t.task s } := by
  unfold succeed advanced
  rw [core_publish]
  split
  · rw [core_recordAdvance, core_recordGateEvidence]
    rfl
  · rw [core_recordGateEvidence]
    rfl

lemma core_driveAgain : ∃ reason, (r.driveAgain i t s v).core =
      { r.core with queue := drivenAgain r.core.queue i reason } := by
  refine ⟨s!"did not converge within its {(r.queue.recordResume i).2.2.1} resume(s): {v.reason}", ?_⟩
  rw [show r.core.queue = r.queue from rfl]
  unfold driveAgain drivenAgain
  dsimp only
  split
  · rfl
  · rw [core_publish, core_recordGateEvidence]
    rfl

lemma core_stopOnHumanBoundary : ∃ why outcome, why ≠ "" ∧ outcome ≠ .completed ∧
      (r.stopOnHumanBoundary i t s v).core =
        { r.core with queue := r.core.queue.hold i v.reason, stopReason := why, stopOutcome := some outcome } := by
  refine ⟨s!"{t.task.id} reached a boundary this run may not cross: {v.reason}",
    if v.cls = Named.known FailureName.auth then .awaitingAuth else .blockedHuman,
    by simp [toString], by split <;> decide, ?_⟩
  unfold stopOnHumanBoundary
  simp only [core_publish, core_stopFor, core_recordGateEvidence, core_log, core_withQueue,
    core_captureFailure, queue_captureFailure]
  rfl

lemma core_recordFailure : (r.recordFailure host i t s v).core =
      { r.core with queue := (r.queue.recordAttempt i (s.failure v)).1 } := by
  unfold recordFailure
  dsimp only
  split <;> simp only [core_recordGateEvidence, core_log, core_withQueue, core_captureFailure, queue_captureFailure]

lemma core_failAttempt : ∃ why, why ≠ "" ∧ (r.failAttempt host i t s v).2 = (policyFor v.cls).stopsRun ∧
      (r.failAttempt host i t s v).1.core =
        { r.core with
          queue := (r.core.queue.recordAttempt i (s.failure v)).1,
          stopReason := if (policyFor v.cls).stopsRun then why else r.core.stopReason } := by
  refine ⟨s!"{t.task.id} failed with a {v.cls.text} failure, " ++
    s!"which ends the run: {(policyFor v.cls).why}", by simp [toString], ?_⟩
  have hcore := core_recordFailure host (r := r) (t := t) i s v
  unfold failAttempt
  dsimp only
  split
  · next hstop =>
    have hout : (r.recordFailure host i t s v).stopOutcome = r.stopOutcome := congrArg Core.stopOutcome hcore
    refine ⟨hstop.symm, ?_⟩
    rw [core_publish, core_stopFor, hcore, hout]
    rfl
  · next hstop =>
    split <;> simp only [core_publish, core_log] <;> exact ⟨by simpa using hstop, hcore⟩

variable (h : j.Marks r.journal t.task.id ks)
include h

lemma marks_start : j.Marks (r.start t v).journal t.task.id (ks ++ [.known .taskStarted]) := by
  have hlog : j.Marks (r.log [{ kind := .known .taskStarted, taskID := t.task.id,
                                attempt := t.attemptCount + 1,
                                detail := joinWith t.task.argv " " }]).journal t.task.id
      (ks ++ [.known .taskStarted]) := marks_log_own h rfl rfl rfl
  unfold start
  split <;> exact hlog

lemma marks_succeed : j.Marks (r.succeed i t s v).journal t.task.id (ks ++ [.known .taskSucceeded]) := by
  refine marks_publish ?_ _
  split
  · refine marks_recordAdvance (marks_recordGateEvidence ?_ ..) ..
    exact marks_log_own h rfl rfl rfl
  · refine marks_recordGateEvidence ?_ ..
    exact marks_log_own h rfl rfl rfl

lemma marks_driveAgain : j.Marks (r.driveAgain i t s v).journal t.task.id (ks ++ [.known .taskResumed]) := by
  unfold driveAgain
  dsimp only
  split
  · refine marks_publish ?_ _
    exact marks_log_own h rfl rfl rfl
  · refine marks_publish (marks_recordGateEvidence (marks_log_quiet ?_ ?_ ?_) ..) _
    · exact marks_log_own h rfl rfl rfl
    · rfl
    · rfl

lemma marks_stopOnHumanBoundary : j.Marks (r.stopOnHumanBoundary i t s v).journal t.task.id ks := by
  have hcap := marks_captureFailure h (t.attemptCount + 1) s.capture
  unfold stopOnHumanBoundary
  generalize r.captureFailure t.task.id (t.attemptCount + 1) s.capture = captured at hcap ⊢
  refine marks_publish ?_ _
  refine marks_recordGateEvidence (marks_log_quiet (marks_withQueue hcap _) ?_ ?_) .. <;> rfl

lemma marks_recordFailure : j.Marks (r.recordFailure host i t s v).journal t.task.id ks := by
  have hcap := marks_captureFailure h (t.attemptCount + 1) s.capture
  unfold recordFailure
  generalize r.captureFailure t.task.id (t.attemptCount + 1) s.capture = captured at hcap ⊢
  dsimp only
  split
  · refine marks_recordGateEvidence (marks_log_quiet (marks_withQueue hcap _) ?_ ?_) .. <;> rfl
  · refine marks_log_quiet (marks_withQueue hcap _) ?_ ?_ <;> rfl

lemma marks_failAttempt : j.Marks (r.failAttempt host i t s v).1.journal t.task.id ks := by
  have hrecord := marks_recordFailure host i s v h
  unfold failAttempt
  dsimp only
  split
  · exact marks_publish hrecord _
  · split
    · refine marks_publish (marks_log_quiet hrecord ?_ ?_) _ <;> rfl
    · exact marks_publish hrecord _

end Runner

/-! ## The step -/

/-- The verdict a step reaches on its task's execution. -/
def Surroundings.verdict (s : Surroundings) (host : Host) (spec : Spec) : ControllerVerdict :=
  interpretExecution host s.execution spec.classification

/-- Nothing keeps the task from being executed: it does not mutate, or the fence is intact. -/
def Cleared (r : Runner) (t : QueuedTask) (s : Surroundings) : Prop :=
  t.task.mutates = true → (r.fence.check s.ground).intact = true

instance (r : Runner) (t : QueuedTask) (s : Surroundings) : Decidable (Cleared r t s) :=
  inferInstanceAs (Decidable (_ → _))

/-- What a step on the task `t` at position `i` can make of a runner, and whether it ends the
run. -/
inductive Stepped (host : Host) (i : ℕ) (t : QueuedTask) (s : Surroundings) (r r' : Runner) :
    Bool → Prop
  | violated (reason why : String) (mutates : t.task.mutates = true)
      (broken : (r.fence.check s.ground).intact = false) (why_ne : why ≠ "")
      (core_eq : r'.core = { r.core with queue := r.queue.hold i reason, stopReason := why })
      (marks : r.journal.Marks r'.journal t.task.id []) : Stepped host i t s r r' true
  | succeeded (cleared : Cleared r t s)
      (disposition : (s.verdict host r.spec).disposition = .succeeded)
      (core_eq : r'.core = { r.core with queue := (r.queue.recordAttempt i s.success).1,
                                         fence := Runner.advanced r.fence t.task s })
      (marks : r.journal.Marks r'.journal t.task.id
        [.known .taskStarted, .known .taskSucceeded]) : Stepped host i t s r r' false
  | resumed (reason : String) (cleared : Cleared r t s)
      (disposition : (s.verdict host r.spec).disposition.resumable = true)
      (core_eq : r'.core = { r.core with queue := Runner.drivenAgain r.queue i reason })
      (marks : r.journal.Marks r'.journal t.task.id
        [.known .taskStarted, .known .taskResumed]) : Stepped host i t s r r' false
  | blocked (why : String) (outcome : RunOutcome) (cleared : Cleared r t s)
      (disposition : (s.verdict host r.spec).disposition = .humanBlocked)
      (why_ne : why ≠ "") (outcome_ne : outcome ≠ .completed)
      (core_eq : r'.core = { r.core with queue := r.queue.hold i (s.verdict host r.spec).reason,
                                         stopReason := why, stopOutcome := some outcome })
      (marks : r.journal.Marks r'.journal t.task.id [.known .taskStarted]) :
      Stepped host i t s r r' true
  | failed (why : String) (cleared : Cleared r t s)
      (disposition : (s.verdict host r.spec).disposition = .retry ∨ (s.verdict host r.spec).disposition = .failSafe)
      (why_ne : why ≠ "")
      (core_eq : r'.core =
        { r.core with
          queue := (r.queue.recordAttempt i (s.failure (s.verdict host r.spec))).1,
          stopReason :=
            if (policyFor (s.verdict host r.spec).cls).stopsRun then why else r.stopReason })
      (marks : r.journal.Marks r'.journal t.task.id [.known .taskStarted]) :
      Stepped host i t s r r' (policyFor (s.verdict host r.spec).cls).stopsRun

namespace Runner

variable (host : Host)

lemma attempt_stepped {r r₁ : Runner} {i : ℕ} {t : QueuedTask} {s : Surroundings}
    (hcore : r₁.core = r.core) (hmarks : r.journal.Marks r₁.journal t.task.id [])
    (hclear : Cleared r t s) :
    Stepped host i t s r (r₁.attempt host i t s).1 (r₁.attempt host i t s).2 := by
  have hverdict : interpretExecution host s.execution r₁.spec.classification = s.verdict host r.spec := by
    rw [show r₁.spec = r.spec from congrArg Core.spec hcore]
    rfl
  have hstart : (r₁.start t (s.verdict host r.spec)).core = r.core := by rw [core_start, hcore]
  have hmarks := marks_start (s.verdict host r.spec) hmarks
  unfold attempt
  simp only [hverdict]
  generalize r₁.start t (s.verdict host r.spec) = r₂ at hstart hmarks
  cases hd : (s.verdict host r.spec).disposition with
  | succeeded =>
    refine .succeeded hclear hd ?_ (marks_succeed _ _ _ hmarks)
    rw [core_succeed, hstart]
    rfl
  | «continue» | resume =>
    obtain ⟨reason, hdrive⟩ := core_driveAgain (r := r₂) (t := t) i s (s.verdict host r.spec)
    refine .resumed reason hclear (by rw [hd]; rfl) ?_ (marks_driveAgain _ _ _ hmarks)
    rw [hdrive, hstart]
    rfl
  | humanBlocked =>
    obtain ⟨why, outcome, hwhy, hout, hstop⟩ :=
      core_stopOnHumanBoundary (r := r₂) (t := t) i s (s.verdict host r.spec)
    refine .blocked why outcome hclear hd hwhy hout ?_ (marks_stopOnHumanBoundary _ _ _ hmarks)
    rw [hstop, hstart]
    rfl
  | retry | failSafe =>
    obtain ⟨why, hwhy, hstop, hfail⟩ := core_failAttempt host (r := r₂) (t := t) i s (s.verdict host r.spec)
    rw [hstop]
    refine .failed why hclear (by simp [hd]) hwhy ?_ (marks_failAttempt host _ _ _ hmarks)
    rw [hfail, hstart]
    rfl

theorem runOne_stepped (r : Runner) (i : ℕ) (t : QueuedTask) (s : Surroundings) :
    Stepped host i t s r (r.runOne host i t s).1 (r.runOne host i t s).2 := by
  have hpublish : r.journal.Marks (r.publish s.publishBefore).journal t.task.id [] := marks_publish (.refl _ _) _
  unfold runOne
  dsimp only
  split
  · next hmut =>
    split
    · next hintact =>
      refine attempt_stepped host rfl (marks_log_quiet hpublish ?_ ?_) (fun _ => hintact) <;>
        rfl
    · next hbroken =>
      have hres : (r.fence.check s.ground).intact = false := Bool.not_eq_true _ ▸ hbroken
      refine .violated _ ((r.fence.check s.ground).error.getD "") hmut hres ?_ rfl (marks_log_quiet hpublish ?_ ?_)
      · -- A violation always reads as an error.
        simp [FenceResult.error, hres, toString]
      · rfl
      · rfl
  · next hmut => exact attempt_stepped host rfl hpublish fun h => absurd h hmut

end Runner

/-! ## The calls of a run -/

/-- One call of `Runner.runOne`: the runner it was made on, the task the queue offered and its
position, and the surroundings. -/
structure Call where
  before : Runner
  index : ℕ
  task : QueuedTask
  surroundings : Surroundings

namespace Call

variable (host : Host) (c : Call)

def after : Runner := (c.before.runOne host c.index c.task c.surroundings).1

/-- Whether the call ends the run. -/
def stops : Bool := (c.before.runOne host c.index c.task c.surroundings).2

lemma stepped : Stepped host c.index c.task c.surroundings c.before (c.after host) (c.stops host) :=
  Runner.runOne_stepped host c.before c.index c.task c.surroundings

/-- The execution the call makes, if the fence lets it make one, ends with the disposition. -/
def Ends (d : Disposition) : Prop :=
  Cleared c.before c.task c.surroundings ∧ (c.surroundings.verdict host c.before.spec).disposition = d

instance (c : Call) (d : Disposition) : Decidable (c.Ends host d) := inferInstanceAs (Decidable (_ ∧ _))

end Call

/-- The calls a run makes when its turns have the given surroundings. -/
def calls (host : Host) : List Surroundings → Runner → List Call
  | [], _ => []
  | s :: ss, r =>
    match r.queue.next with
    | none => []
    | some (i, t) =>
      let c : Call := ⟨r, i, t, s⟩
      c :: if c.stops host then [] else calls host ss (c.after host)

lemma calls_induction (host : Host) {P : Runner → List Call → Prop} (hnil : ∀ r, P r [])
    (hcons : ∀ c cs, c.before.queue.next = some (c.index, c.task) → P (c.after host) cs → P c.before (c :: cs))
    (ss : List Surroundings) (r : Runner) : P r (calls host ss r) := by
  induction ss generalizing r with
  | nil => exact hnil r
  | cons s ss ih =>
    rw [calls]
    cases hnext : r.queue.next with
    | none => exact hnil r
    | some offered =>
      refine hcons ⟨r, offered.1, offered.2, s⟩ _ hnext ?_
      split
      · exact hnil _
      · exact ih _

end DeliveryEngine.Unattended
