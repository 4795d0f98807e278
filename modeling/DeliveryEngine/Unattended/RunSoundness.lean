import DeliveryEngine.Unattended.QueueProgress
import DeliveryEngine.Unattended.RunnerStep

/-!
# A completed run has done its work and certified it

A run that ends as completed has every task of its plan succeeded, and for every gate its risk class and policy require
a passing verdict on the very revision the fence stands at.  The loop is left with a reason to stop, which cannot end as
completed, or with a queue that offers nothing, which is then finished with every task.
-/

namespace DeliveryEngine.Unattended

open Go

namespace Runner

variable {host : Host}

/-! ## What every step keeps -/

/-- What holds of a runner's core throughout a run of a plan. -/
structure Running (spec : Spec) (plan : Plan) (c : Core) : Prop where
  spec_eq : c.spec = spec
  plan_eq : c.plan = plan
  sound : c.queue.Sound plan
  not_completed : c.stopOutcome ≠ some .completed

variable {plan : Plan}

lemma sound_drivenAgain {q : Queue} (h : q.Sound plan) {i : ℕ} {t : QueuedTask}
    (ht : q.tasks[i]? = some t) (hpending : t.state = .pending) (reason : String) :
    (drivenAgain q i reason).Sound plan := by
  have hresume := h.recordResume ht hpending
  unfold drivenAgain
  split
  · exact hresume
  · exact hresume.hold i reason

variable {spec : Spec} {r r' : Runner}

lemma Running.step {i : ℕ} {t : QueuedTask}
    {s : Surroundings} {stop : Bool} (h : Running spec plan r.core)
    (hnext : r.queue.next = some (i, t)) (hstep : Stepped host i t s r r' stop) :
    Running spec plan r'.core ∧ (stop = true → r'.core.stopReason ≠ "") := by
  obtain ⟨ht, hpending⟩ := Queue.pending_of_next hnext
  obtain ⟨hspec, hplan, hsound, hout⟩ := h
  cases hstep with
  | violated reason why _ _ hwhy hcore =>
    rw [hcore]
    exact ⟨⟨hspec, hplan, hsound.hold i reason, hout⟩, fun _ => hwhy⟩
  | succeeded _ _ hcore =>
    rw [hcore]
    exact ⟨⟨hspec, hplan, hsound.recordAttempt ht hpending _, hout⟩, by simp⟩
  | resumed reason _ _ hcore =>
    rw [hcore]
    exact ⟨⟨hspec, hplan, sound_drivenAgain hsound ht hpending reason, hout⟩, by simp⟩
  | blocked why outcome _ _ hwhy hne hcore =>
    rw [hcore]
    exact ⟨⟨hspec, hplan, hsound.hold i _, by simpa using hne⟩, fun _ => hwhy⟩
  | failed why _ _ hwhy hcore =>
    rw [hcore]
    refine ⟨⟨hspec, hplan, hsound.recordAttempt ht hpending _, hout⟩, fun hstop => ?_⟩
    simpa [hstop] using hwhy

lemma Running.loop {turns : List Turn} (h : Running spec plan r.core) (hloop : loop host turns r = some r') :
    Running spec plan r'.core ∧ (r'.stopReason ≠ "" ∨ r'.queue.next = none) := by
  induction turns generalizing r with
  | nil => cases hloop
  | cons turn turns ih =>
    cases turn with
    | cancelled err =>
      cases hloop
      exact ⟨⟨h.spec_eq, h.plan_eq, h.sound, h.not_completed⟩, .inl (by simp [stopFor])⟩
    | taken s =>
      rw [Runner.loop] at hloop
      split at hloop
      · next hnone =>
        cases hloop
        exact ⟨h, .inr hnone⟩
      · next i t hnext =>
        obtain ⟨hrun, hreason⟩ := h.step hnext (runOne_stepped host r i t s)
        dsimp only at hloop
        split at hloop
        · next hstop =>
          cases hloop
          exact ⟨hrun, .inl (hreason hstop)⟩
        · exact ih hrun hloop

/-! ## What the outcome takes into account -/

lemma outcome_completed {r : Runner} (hout : r.stopOutcome ≠ some .completed) (h : r.outcome.1 = .completed) :
    r.stopReason = "" ∧ (∀ t ∈ r.queue.tasks, t.state ≠ .failed ∧ t.state ≠ .held) ∧
      r.qaDecision.allowed = true := by
  unfold outcome at h
  dsimp only at h
  split_ifs at h with hreason hfailures hauth hheld hqa
  · cases hso : r.stopOutcome with
    | none =>
      rw [hso] at h
      cases h
    | some o =>
      rw [hso] at h hout
      exact absurd (congrArg some h) hout
  · refine ⟨not_not.mp hreason, fun t ht => ⟨fun hf => ?_, fun hh => ?_⟩, by simpa using hqa⟩
    · have hnil : r.queue.tasks.filter (·.state = .failed) = [] := by
        simpa [failures] using hfailures
      simpa [hf] using List.filter_eq_nil_iff.mp hnil t ht
    · have hnil : r.queue.tasks.filter (·.state = .held) = [] := by
        simpa [Queue.count] using hheld
      simpa [hh] using List.filter_eq_nil_iff.mp hnil t ht

variable (spec : Spec) (plan : Plan) (report : Report) (fence : Fence) (journal : Journal) (resume : Option ResumeState) (evidence : Ledger)

/-- A runner as a session hands it over: a queue of the plan, new or restored, and the evidence
inherited. -/
def ready : Runner :=
  { spec := spec, plan := plan, report := report, fence := fence, journal := journal,
    queue := Queue.start plan report.boundaries resume, evidence := evidence }

lemma running_ready : Running spec plan (ready spec plan report fence journal resume evidence).core :=
  ⟨rfl, rfl, Queue.sound_start plan report.boundaries resume, by simp [ready, core]⟩

lemma evidence_closed (r : Runner) (input : RunInput) (event : CompletionEvent) :
    (r.closed input event).evidence = r.evidence := by
  unfold closed
  split <;> rfl

/-- Run soundness.  Whatever an accepted plan's run inherited and whatever happened during it, when
it ends as completed the queue holds the plan's tasks, all of them succeeded, and every gate the
packet requires has passed against the revision the fence stands at, which is not blank. -/
theorem completed_sound (host : Host) (spec : Spec) (plan : Plan) (report : Report) (fence : Fence)
    (journal : Journal) (resume : Option ResumeState) (evidence : Ledger) (input : RunInput)
    (hplan : plan.validate = .ok ()) (event : CompletionEvent) (r' : Runner)
    (hrun : (ready spec plan report fence journal resume evidence).run host input = some (event, r'))
    (hcompleted : event.outcome = .completed) :
    r'.queue.tasks.map QueuedTask.task = plan.tasks ∧ (∀ t ∈ r'.queue.tasks, t.state = .succeeded) ∧
      ∀ gate ∈ requiredGates spec.qa plan.risk, ∃ ev, r'.evidence.get? gate = some ev ∧
        ev.result = GateResult.pass ∧ ev.targetSHA = r'.fence.head ∧ trimSpace r'.fence.head ≠ "" := by
  obtain ⟨r, hloop, hend⟩ := Option.map_eq_some_iff.mp hrun
  cases hend
  obtain ⟨hrunning, hlast⟩ := Running.loop
    (core_opened _ input ▸ running_ready spec plan report fence journal resume evidence) hloop
  obtain ⟨hreason, hstates, hqa⟩ := outcome_completed hrunning.not_completed hcompleted
  have hnext : r.queue.next = none := hlast.resolve_left fun hne => hne hreason
  have hterminal := hrunning.sound.terminal_of_next_eq_none (Plan.valid_of_validate hplan) hnext
  -- Closing the run leaves queue, fence and evidence as the loop left them.
  have hcore := core_closed r input (r.finish input.finishedAt)
  rw [show (r.closed input (r.finish input.finishedAt)).queue = r.queue from
      congrArg Core.queue hcore,
    show (r.closed input (r.finish input.finishedAt)).fence = r.fence from
      congrArg Core.fence hcore, evidence_closed]
  refine ⟨hrunning.sound.tasks_eq, fun t ht => ?_, fun gate hgate => ?_⟩
  · have hne := TaskState.terminal_iff.mp (hterminal t ht)
    cases hs : t.state <;> simp_all
  · rw [qaDecision, show r.spec = spec from hrunning.spec_eq,
      show r.plan = plan from hrunning.plan_eq] at hqa
    obtain ⟨ev, hget, hcert⟩ := evaluateProgression_allowed_iff.mp hqa gate hgate
    obtain ⟨hpass, hsha, hblank⟩ := GateEvidence.certifies_iff.mp hcert
    exact ⟨ev, hget, hpass, hsha, hblank⟩

/-- A plan of one task that produces the build gate, under a policy that requires it. -/
def gatedPlan : Plan :=
  { runID := "run", risk := .known .q0, tasks := [{ id := "build", argv := ["make"], qaGate := gateBuild }] }

def gatedSpec : Spec :=
  { projectID := "project", session := "session", role := "writer", classification := [],
    qa := ⟨[gateBuild]⟩, stateDir := "/state" }

/-- A runner of the gated plan that starts from an empty journal at revision `abc`. -/
def gatedRunner : Runner :=
  ready gatedSpec gatedPlan ⟨"READY", []⟩ ⟨"/tree", "run", 1, "main", "abc", []⟩
    ⟨"run", 0, fun _ => Time.zero, []⟩ none ∅

/-- Surroundings in which nothing moves and the command exits zero. -/
def calm : Surroundings :=
  let ground : Ground := ⟨.ok (some ⟨"run", 1⟩), .ok { branch := "main", head := "abc" }⟩
  { ground := ground, started := Time.zero, finished := Time.zero,
    execution := { exitedZero := true }, capture := .ok "log", observedAt := Time.zero,
    advanceGround := ground, recheckGround := ground }

def calmRun : RunInput :=
  { startedAt := Time.zero, turns := [.taken calm, .taken calm], finishedAt := Time.zero, closedAt := Time.zero }

/-- The run of the gated plan completes, with its task succeeded and its gate passed. -/
theorem completed_sound_gated : ∃ out, gatedRunner.run .plain calmRun = some out ∧ out.1.outcome = .completed ∧
      (∀ t ∈ out.2.queue.tasks, t.state = .succeeded) ∧
      ∀ gate ∈ requiredGates gatedSpec.qa gatedPlan.risk, ∃ ev,
        out.2.evidence.get? gate = some ev ∧ ev.result = GateResult.pass ∧
          ev.targetSHA = out.2.fence.head ∧ trimSpace out.2.fence.head ≠ "" := by
  have hmap : (gatedRunner.run .plain calmRun).map (·.1.outcome) = some .completed := by decide
  obtain ⟨out, hrun, hcompleted⟩ := Option.map_eq_some_iff.mp hmap
  obtain ⟨-, hsound⟩ := completed_sound .plain gatedSpec gatedPlan _ _ _ none ∅ calmRun
    (by decide) out.1 out.2 hrun hcompleted
  exact ⟨out, hrun, hcompleted, hsound⟩

end Runner

end DeliveryEngine.Unattended
