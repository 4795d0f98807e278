import DeliveryEngine.Unattended.Queue

/-!
# The run journal and its replay

The journal is an append-only list of records, and `replay` folds one run's records into the state a resumed run
inherits.  A task's part of that state is its `Tally`.  `tally_replay` says that the tally is the fold of the kinds of
the task's own records, so that reasoning about an append never unfolds the replay.
-/

namespace DeliveryEngine.Unattended

open Go

/-! ## Records -/

/-- What a journal record records. -/
inductive RecordKindName
  | runStarted
  | preflight
  | lockAcquired
  | fenceTaken
  | fenceVerified
  | fenceViolated
  | fenceAdvanced
  | taskStarted
  | taskSucceeded
  | taskFailed
  | taskHeld
  | taskRetry
  | taskResumed
  | gateEvidence
  | runFinished
  deriving DecidableEq

instance : Vocabulary RecordKindName where
  all := [.runStarted, .preflight, .lockAcquired, .fenceTaken, .fenceVerified, .fenceViolated,
    .fenceAdvanced, .taskStarted, .taskSucceeded, .taskFailed, .taskHeld, .taskRetry, .taskResumed,
    .gateEvidence, .runFinished]
  text
    | .runStarted => "run-started"
    | .preflight => "preflight"
    | .lockAcquired => "lock-acquired"
    | .fenceTaken => "fence-taken"
    | .fenceVerified => "fence-verified"
    | .fenceViolated => "fence-violated"
    | .fenceAdvanced => "fence-advanced"
    | .taskStarted => "task-started"
    | .taskSucceeded => "task-succeeded"
    | .taskFailed => "task-failed"
    | .taskHeld => "task-held"
    | .taskRetry => "task-retry-scheduled"
    | .taskResumed => "task-resumed"
    | .gateEvidence => "gate-evidence"
    | .runFinished => "run-finished"
  mem_all := by rintro ⟨⟩ <;> decide
  nodup := by decide

abbrev RecordKind := Named RecordKindName

/-- One durable fact about a run. -/
structure Record where
  seq : ℤ := 0
  time : Time := Time.zero
  kind : RecordKind
  runID : String := ""
  taskID : String := ""
  attempt : ℤ := 0
  cls : FailureClass := FailureClass.unset
  outcome : String := ""
  detail : String := ""
  durationMS : ℤ := 0
  gate : Option GateEvidence := none
  deriving DecidableEq

/-- An append-only run log.  The records are those durable in the file, and the clock is the wall
clock as the appends read it, by sequence number. -/
structure Journal where
  runID : String
  seq : ℤ
  clock : ℤ → Time
  records : List Record

namespace Journal

variable (j : Journal)

/-- A record as an append writes it: numbered, timed, and attributed to the journal's run unless
it names another. -/
def stamp (r : Record) : Record :=
  { r with seq := j.seq + 1,
           time := if r.time.isZero then j.clock (j.seq + 1) else r.time,
           runID := if r.runID = "" then j.runID else r.runID }

/-- Write one record durably. -/
def append (r : Record) : Journal :=
  { j with seq := j.seq + 1, records := j.records ++ [j.stamp r] }

/-- Write records one after another. -/
def appendAll (rs : List Record) : Journal := rs.foldl append j

end Journal

/-! ## Replay -/

/-- Fold one record of the run into its resume state. -/
def replayKind (st : ResumeState) (r : Record) : ResumeState :=
  match r.kind with
  | .known .taskStarted =>
    { st with interrupted := st.interrupted.set r.taskID true,
              attempts := st.attempts.set r.taskID (st.attempts.getD r.taskID 0 + 1) }
  | .known .taskSucceeded =>
    { st with succeeded := st.succeeded.set r.taskID true, interrupted := st.interrupted.delete r.taskID }
  | .known .taskResumed =>
    -- A resume did not spend an attempt, so the start that preceded it is taken back.
    { st with resumes := st.resumes.set r.taskID (st.resumes.getD r.taskID 0 + 1),
              attempts :=
                if 0 < st.attempts.getD r.taskID 0 then
                  st.attempts.set r.taskID (st.attempts.getD r.taskID 0 - 1)
                else st.attempts }
  | .known .taskFailed => { st with interrupted := st.interrupted.delete r.taskID }
  | .known .taskHeld => { st with interrupted := st.interrupted.delete r.taskID }
  | .known .gateEvidence =>
    { st with gates :=
        match r.gate with
        | none => st.gates
        | some ev => if ev.gateID = "" then st.gates else st.gates.record ev }
  | .known .runFinished => { st with finished := true, finalOutcome := r.outcome }
  | _ => st

variable (runID : String)

/-- Fold one record of the journal into the resume state of a run.  Records of other runs count
only for the sequence, which belongs to the file. -/
def replayStep (st : ResumeState) (r : Record) : ResumeState :=
  let st := { st with lastSeq := max st.lastSeq r.seq }
  if r.runID = runID then replayKind st r else st

variable (records : List Record) (runID : String)

/-- Fold one run's records into its resume state. -/
def replay : ResumeState := records.foldl (replayStep runID) {}

/-! ## A task's tally -/

/-- What the journal says of one task. -/
structure Tally where
  succeeded : Bool := false
  attempts : ℤ := 0
  resumes : ℤ := 0

variable (id : String)

namespace Tally

variable (t : Tally)

def step : RecordKind → Tally
  | .known .taskStarted => { t with attempts := t.attempts + 1 }
  | .known .taskSucceeded => { t with succeeded := true }
  | .known .taskResumed =>
    { t with resumes := t.resumes + 1, attempts := if 0 < t.attempts then t.attempts - 1 else t.attempts }
  | _ => t

/-- The tally of a task after more records of its run. -/
def follow (records : List Record) : Tally :=
  records.foldl (fun t r => if r.runID = runID ∧ r.taskID = id then t.step r.kind else t) t

lemma follow_append (rs rs' : List Record) :
    follow runID id t (rs ++ rs') = follow runID id (follow runID id t rs) rs' :=
  List.foldl_append ..

end Tally

/-- The tally a resume state holds for a task. -/
def ResumeState.tally (st : ResumeState) (id : String) : Tally :=
  ⟨st.succeeded.getD id false, st.attempts.getD id 0, st.resumes.getD id 0⟩

lemma tally_replayKind (st : ResumeState) (r : Record) (id : String) : (replayKind st r).tally id =
      if r.taskID = id then (st.tally id).step r.kind else st.tally id := by
  have hcomm : id = r.taskID ↔ r.taskID = id := eq_comm
  rcases hk : r.kind with ⟨k⟩ | _
  · cases k <;>
      simp only [replayKind, hk, ResumeState.tally, Tally.step, GoMap.getD_set, hcomm, ite_self]
    case taskStarted => by_cases hid : r.taskID = id <;> simp [hid]
    case taskSucceeded => by_cases hid : r.taskID = id <;> simp [hid]
    case taskResumed =>
      by_cases hid : r.taskID = id
      · subst hid
        by_cases hpos : 0 < st.attempts.getD r.taskID 0 <;> simp [hpos, GoMap.getD_set]
      · split <;> simp [hid, GoMap.getD_set, hcomm]
  · simp [replayKind, hk, Tally.step]

lemma tally_replayStep (st : ResumeState) (r : Record) : (replayStep runID st r).tally id =
      if r.runID = runID ∧ r.taskID = id then (st.tally id).step r.kind else st.tally id := by
  by_cases hrun : r.runID = runID
  · simp only [replayStep, hrun, if_true, true_and]
    exact tally_replayKind _ r id
  · simp [replayStep, hrun, ResumeState.tally]

lemma tally_replay : (replay records runID).tally id = Tally.follow runID id {} records := by
  have hgen : ∀ st : ResumeState, (records.foldl (replayStep runID) st).tally id =
        Tally.follow runID id (st.tally id) records := by
    induction records with
    | nil => intro st; rfl
    | cons r rs ih =>
      intro st
      rw [List.foldl_cons, ih, tally_replayStep]
      rfl
  exact hgen {}

end DeliveryEngine.Unattended
