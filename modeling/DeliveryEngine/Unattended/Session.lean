import DeliveryEngine.Go.Result
import DeliveryEngine.Unattended.RunReplay

/-!
# Beginning a session

`Session.begin` validates what it was given, reads the run's journal, refuses a run that already completed, and only
then takes the worktree and prepares the queue.  It reads an `Arrival` and the journal twice, before the worktree is
claimed and when the journal is opened.  `Session.begin_eq_ok` reads a session back.
-/

namespace DeliveryEngine.Unattended

open Go

/-- The file a run's journal lives in, inside the state directory. -/
def journalName : String := "run-journal.jsonl"

/-- Why a session was refused. -/
inductive Refusal
  | spec (err : String)
  | plan (err : String)
  | classification (err : String)
  | qa (err : String)
  | journal (err : String)
  | alreadyCompleted (runID outcome : String)
  | notReady (blocking : List Check)
  | lock (err : String)
  | openJournal (err : String)

/-- What a session finds when it begins, the journal apart. -/
structure Arrival where
  /-- What the validation of the spec reported (`RunSpec.validate` is what can be reported; the session only asks whether
  anything was). -/
  specProblem : Option String := none
  report : Report
  /-- The worktree's top level, and its state. -/
  root : String
  repo : RepoState
  /-- The process that now holds the lock, or why it could not be taken. -/
  lock : Except String ℤ
  clock : ℤ → Time

/-- Whether a run may begin under the report's verdict. -/
def Report.permitsUnattendedRun (r : Report) : Bool :=
  r.readiness = "READY" || r.readiness = "READY-WITH-KNOWN-HUMAN-BOUNDARY"

/-- The checks that make the run unsafe to start. -/
def Report.blocking (r : Report) : List Check :=
  r.checks.filter (fun c => c.outcome = .known .fail || c.outcome = .known .notReached)

variable (host : Host)

def classificationProblem (i : ℕ) (r : ClassificationRule) : List String :=
  (if host.compiles r.pattern then []
    else [s!"classify[{i}] pattern {quote r.pattern} does not compile"]) ++
  (if r.cls.valid then []
    else [s!"classify[{i}] class {quote r.cls.text} is not a declared failure class"])

/-- Refuse rules that could never be applied. -/
def validateClassificationRules (rules : List ClassificationRule) : Except String Unit :=
  let problems := (rules.zipIdx.map (fun p => classificationProblem host p.2 p.1)).flatten
  if problems = [] then .ok ()
  else .error ("unattended: run spec is invalid: " ++ joinWith problems "; ")

/-- Open a journal for appending.  The sequence resumes from the highest number already durable. -/
def openJournal (runID : String) (clock : ℤ → Time) (existing : List Record) : Journal :=
  { runID := runID, seq := existing.foldl (fun seq r => max seq r.seq) 0, clock := clock, records := existing }

/-- The position a run starts from. -/
def takeFence (root : String) (repo : RepoState) (runID : String) (pid : ℤ) : Fence :=
  { worktree := root, runID := runID, pid := pid, branch := repo.branch, head := repo.head }

/-- What the queue is restored from: the journal, if this run has been here before.  Other runs of
the same journal do not count. -/
def resumption (records : List Record) (runID : String) : Option ResumeState :=
  let st := replay records runID
  if 0 < st.lastSeq ∧ (st.succeeded.nonempty ∨ st.attempts.nonempty) then some st else none

/-- The records a session opens with. -/
def openingRecords (spec : Spec) (report : Report) (fence : Fence) (truncated : Bool) : List Record :=
  [{ kind := .known .lockAcquired,
     detail := s!"role={spec.role} worktree={fence.worktree} pid={fence.pid}" },
   { kind := .known .fenceTaken, detail := fence.position },
   { kind := .known .preflight, outcome := report.readiness,
     detail := s!"{report.checks.length} checks, {report.boundaries.keys.card} boundaries" }] ++
  (if truncated then
    [{ kind := .known .preflight, outcome := "resumed-after-interruption",
       detail := "the previous run died between writing and syncing its last record; " ++
         "that record was never durable and is not replayed" }]
  else [])

/-- A run that has passed preflight and holds the worktree. -/
structure Session where
  resumed : Bool
  truncatedTail : Bool
  runner : Runner

namespace Session

variable (spec : Spec) (plan : Plan) (arrival : Arrival)

/-- Prepare the session of a run that may start, with the lock held by the process `pid` and the
journal holding the records `existing`. -/
def prepare (records : List Record) (truncated : Bool) (pid : ℤ) (existing : List Record) : Session :=
  let fence := takeFence arrival.root arrival.repo plan.runID pid
  let journal := (openJournal plan.runID arrival.clock existing).appendAll
    (openingRecords spec arrival.report fence truncated)
  let resume := resumption records plan.runID
  { resumed := resume.isSome, truncatedTail := truncated,
    runner := .ready spec plan arrival.report fence journal resume
      (replay records plan.runID).gates }

/-- Run preflight, claim the worktree, and prepare the queue. -/
def begin (reading : Except String (List Record × Bool)) (reopening : Except String (List Record)) :
    Except Refusal Session := do
  if let some err := arrival.specProblem then throw (.spec err)
  plan.validate.mapError .plan
  (validateClassificationRules host spec.classification).mapError .classification
  (validateQAPacket spec plan).mapError .qa
  -- The journal is read before anything is claimed: it may say that this run is already over.
  let (records, truncated) ← reading.mapError .journal
  let resume := replay records plan.runID
  if resume.finished ∧ resume.finalOutcome = RunOutcome.completed.text then
    throw (.alreadyCompleted plan.runID resume.finalOutcome)
  if !arrival.report.permitsUnattendedRun then throw (.notReady arrival.report.blocking)
  let pid ← arrival.lock.mapError .lock
  let existing ← reopening.mapError .openJournal
  return prepare spec plan arrival records truncated pid existing

/-- What it takes for a session to begin. -/
theorem begin_eq_ok {host : Host} {spec : Spec} {plan : Plan} {arrival : Arrival}
    {reading : Except String (List Record × Bool)} {reopening : Except String (List Record)}
    {s : Session} (h : begin host spec plan arrival reading reopening = .ok s) :
    plan.validate = .ok () ∧ ∃ records truncated pid existing,
      reading = .ok (records, truncated) ∧ reopening = .ok existing ∧
        s = prepare spec plan arrival records truncated pid existing := by
  unfold begin at h
  cases hspec : arrival.specProblem with
  | some err =>
    rw [hspec] at h
    cases h
  | none =>
    rw [hspec] at h
    obtain ⟨⟨⟩, hplan, h⟩ := mapError_bind_eq_ok h
    obtain ⟨⟨⟩, -, h⟩ := mapError_bind_eq_ok h
    obtain ⟨⟨⟩, -, h⟩ := mapError_bind_eq_ok h
    obtain ⟨⟨records, truncated⟩, hreading, h⟩ := mapError_bind_eq_ok h
    obtain ⟨pid, -, h⟩ := mapError_bind_eq_ok (refusal_bind_eq_ok (refusal_bind_eq_ok h))
    obtain ⟨existing, hreopen, h⟩ := mapError_bind_eq_ok h
    cases h
    exact ⟨hplan, records, truncated, pid, existing, hreading, hreopen, rfl⟩

end Session

end DeliveryEngine.Unattended
