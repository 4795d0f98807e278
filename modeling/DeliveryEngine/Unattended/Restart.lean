import DeliveryEngine.Unattended.Session

/-!
# Restarting a run, any number of times

A `Cycle` is one life of a run: it is begun, runs, and ends or is killed, keeping a prefix of the records it appended.
A task has spent its attempts (`AttemptsSpent`) when the journal counts as many as its budget allows.  `Queue.restore`
brings back the count but not the failure it led to, so such a task is executed once more, unless its durable success
or a hold that is worked out again (`HeldBack`) keeps it from coming back pending: `spent_never_executed`.
-/

namespace DeliveryEngine.Unattended

open Go List

/-! ## What the journal says of a task's budget -/

variable (runID : String) (t : Task) (records : List Record)

/-- The journal's own account of a task of a run. -/
def durableTally : Tally := Tally.follow runID t.id {} records

/-- The class of the last failure the journal records of a task. -/
def lastFailure : Option FailureClass :=
  ((records.filter (fun r => r.runID = runID ∧ r.taskID = t.id ∧
    r.kind = .known .taskFailed)).getLast?).map Record.cls

/-- The attempt budget of a task, from its own override or from the policy of the class of failure
it last hit. -/
def attemptBudget : Option ℤ :=
  if 0 < t.maxAttempts then some t.maxAttempts
  else (lastFailure runID t records).map (fun cls => (policyFor cls).maxAttempts)

/-- The journal counts as many attempts of the task as its budget allows. -/
def AttemptsSpent : Prop :=
  ∃ budget ∈ attemptBudget runID t records, budget ≤ (durableTally runID t records).attempts

instance (runID : String) (t : Task) (records : List Record) :
    Decidable (AttemptsSpent runID t records) :=
  inferInstanceAs (Decidable (∃ budget ∈ attemptBudget runID t records, _))

variable {runID id : String} {records : List Record}

lemma Tally.follow_of_other (t : Tally) (h : ∀ rec ∈ records, rec.taskID ≠ id) :
    Tally.follow runID id t records = t := by
  induction records generalizing t with
  | nil => rfl
  | cons rec records ih =>
    unfold Tally.follow at ih ⊢
    rw [foldl_cons, if_neg fun hown => h rec mem_cons_self hown.2]
    exact ih t fun rec' hrec' => h rec' (mem_cons_of_mem _ hrec')

variable {t : Task}

lemma attemptsSpent_append {recs : List Record} (h : ∀ rec ∈ recs, rec.taskID ≠ t.id) :
    AttemptsSpent runID t (records ++ recs) ↔ AttemptsSpent runID t records := by
  have hnone : recs.filter (fun r => r.runID = runID ∧ r.taskID = t.id ∧ r.kind = .known .taskFailed) = [] := by
    rw [filter_eq_nil_iff]
    intro rec hrec
    simp [h rec hrec]
  simp only [AttemptsSpent, attemptBudget, lastFailure, durableTally, Tally.follow_append,
    Tally.follow_of_other _ h, filter_append, hnone, append_nil]

lemma one_le_attempts (h : AttemptsSpent runID t records) : 1 ≤ (durableTally runID t records).attempts := by
  obtain ⟨budget, hmem, hle⟩ := h
  refine le_trans ?_ hle
  unfold attemptBudget at hmem
  split at hmem
  · next hpos =>
    cases hmem
    exact hpos
  · obtain ⟨cls, -, rfl⟩ := Option.map_eq_some_iff.mp hmem
    exact one_le_maxAttempts cls

/-! ## What comes back from a journal -/

/-- The journal durably records the task's success, in a journal numbered as appends number it. -/
def DurablySucceeded (runID : String) (records : List Record) (t : Task) : Prop :=
  (∃ rec ∈ records, 0 < rec.seq) ∧ (durableTally runID t records).succeeded = true

/-- The holds a beginning session works out again: a capability behind a human boundary, a spent
resume budget, or a need that is held itself. -/
inductive HeldBack (plan : Plan) (boundaries : GoMap String) (records : List Record) : Task → Prop
  | boundary {t : Task} (check : String) (mem : check ∈ t.requiresChecks)
      (found : (boundaries.get? check).isSome = true) : HeldBack plan boundaries records t
  | resumes {t : Task} (numbered : ∃ rec ∈ records, 0 < rec.seq)
      (spent : QueuedTask.resumeBudget { task := t } <
        (durableTally plan.runID t records).resumes) : HeldBack plan boundaries records t
  | need {t d : Task} (mem : d ∈ plan.tasks) (needs : d.id ∈ t.needs)
      (open_ : ¬ DurablySucceeded plan.runID records d) (held : HeldBack plan boundaries records d) :
      HeldBack plan boundaries records t

/-- The task comes back done or held. -/
def ComesBackShut (plan : Plan) (boundaries : GoMap String) (records : List Record) (t : Task) : Prop :=
  DurablySucceeded plan.runID records t ∨ HeldBack plan boundaries records t

variable {plan : Plan} {boundaries : GoMap String} {resume : Option ResumeState} {u : QueuedTask}

lemma HeldFrom.ne_pending {t : QueuedTask} (h : HeldFrom t u) (ht : t.state ≠ .pending) : u.state ≠ .pending := by
  rcases h.state_eq with heq | ⟨hp, -⟩
  · rwa [heq]
  · exact absurd hp ht

variable {st : ResumeState} {q : Queue}

namespace Queue

lemma Extends.exists_of_mem {q' : Queue} (h : Extends q q') (hu : u ∈ q'.tasks) : ∃ t ∈ q.tasks, HeldFrom t u := by
  obtain ⟨i, hi, rfl⟩ := mem_iff_getElem.mp hu
  have hlen := h.tasks.length_eq
  exact ⟨q.tasks[i], getElem_mem _, h.tasks.get (by omega) hi⟩

lemma new_entry (hu : u ∈ (new plan boundaries).tasks) : u.resumes = 0 ∧ (u.state = .pending ∨ u.state = .held) ∧
      ((boundaryHold boundaries u.task).isSome = true → u.state ≠ .pending) := by
  obtain ⟨t, ht, hheld⟩ := (extends_propagateHolds _).exists_of_mem hu
  obtain ⟨task, -, rfl⟩ := mem_map.mp ht
  rw [hheld.resumes_eq, hheld.task_eq]
  cases hb : boundaryHold boundaries task with
  | some why =>
    simp only [hb] at hheld ⊢
    have hstate := hheld.state_eq
    simp only [reduceCtorEq, false_and, or_false] at hstate
    simp [hstate]
  | none =>
    simp only [hb] at hheld ⊢
    exact ⟨trivial, hheld.state_eq.imp_right And.right, by simp⟩

lemma restoreTask_state (st : ResumeState) (t : QueuedTask) : (restoreTask st t).state =
      if st.succeeded.getD t.task.id false then .succeeded
      else if t.resumeBudget < max t.resumes (st.resumes.getD t.task.id 0) then .held
      else t.state := by
  unfold restoreTask
  dsimp only
  split
  · rfl
  · split <;> split <;> split <;> simp_all [QueuedTask.resumeBudget, QueuedTask.holdFor]

lemma restoreTask_counts {t : QueuedTask} (h : ¬ st.succeeded.getD t.task.id false = true) :
    (restoreTask st t).attemptCount =
        (if 0 < st.attempts.getD t.task.id 0 ∧ t.attempts = [] then (st.attempts.getD t.task.id 0).toNat
          else t.attemptCount) ∧
      (restoreTask st t).resumes = max t.resumes (st.resumes.getD t.task.id 0) := by
  unfold restoreTask
  dsimp only
  rw [if_neg h]
  split <;> split <;> (try split) <;> simp [QueuedTask.attemptCount, QueuedTask.holdFor]

/-- What is known of a task when its queue is handed over. -/
structure StartEntry (boundaries : GoMap String) (resume : Option ResumeState) (u : QueuedTask) :
    Prop where
  not_failed : u.state ≠ .failed
  of_succeeded : u.state = .succeeded → ∃ st ∈ resume, st.succeeded.getD u.task.id false = true
  of_boundary : (boundaryHold boundaries u.task).isSome = true → u.state ≠ .pending
  of_resume : ∀ st ∈ resume, st.succeeded.getD u.task.id false = true ∨
    u.resumeBudget < st.resumes.getD u.task.id 0 → u.state ≠ .pending

lemma startEntry_restored {t : QueuedTask} (hresumes : t.resumes = 0) (hstate : t.state = .pending ∨ t.state = .held)
    (hboundary : (boundaryHold boundaries t.task).isSome = true → t.state ≠ .pending) :
    StartEntry boundaries (some st) (restoreTask st t) := by
  have hbudget : (restoreTask st t).resumeBudget = t.resumeBudget := by
    rw [QueuedTask.resumeBudget, restoreTask_task]
    rfl
  have hafter := restoreTask_state st t
  rw [hresumes] at hafter
  split_ifs at hafter with hsucc hspent <;> constructor <;>
    simp only [hafter, restoreTask_task, hbudget]
  -- It is restored as done, as held, or as it was.
  on_goal 2 => exact fun _ => ⟨st, rfl, hsucc⟩
  any_goals simp
  · rcases hstate with h | h <;> simp [h]
  · rcases hstate with h | h <;> simp [h]
  · simpa using hboundary
  · exact fun h => absurd (lt_max_of_lt_right (h.resolve_left hsucc)) hspent

lemma StartEntry.of_heldFrom {t : QueuedTask} (h : StartEntry boundaries resume t) (hheld : HeldFrom t u) :
    StartEntry boundaries resume u := by
  have hbudget : u.resumeBudget = t.resumeBudget := by
    rw [QueuedTask.resumeBudget, hheld.task_eq]
    rfl
  refine ⟨?_, ?_, ?_, ?_⟩
  · rcases hheld.state_eq with heq | ⟨-, heq⟩
    · rw [heq]
      exact h.not_failed
    · simp [heq]
  · rw [hheld.task_eq]
    intro hu
    rcases hheld.state_eq with heq | ⟨-, heq⟩
    · exact h.of_succeeded (heq ▸ hu)
    · rw [heq] at hu
      cases hu
  · rw [hheld.task_eq]
    exact fun hb => hheld.ne_pending (h.of_boundary hb)
  · rw [hheld.task_eq, hbudget]
    exact fun st hst hor => hheld.ne_pending (h.of_resume st hst hor)

lemma startEntry_of_mem (hu : u ∈ (start plan boundaries resume).tasks) : StartEntry boundaries resume u := by
  cases resume with
  | none =>
    obtain ⟨-, hstate, hboundary⟩ := new_entry hu
    refine ⟨?_, ?_, hboundary, by simp⟩ <;> rcases hstate with h | h <;> simp [h]
  | some st =>
    obtain ⟨t, ht, hheld⟩ := (extends_propagateHolds _).exists_of_mem hu
    obtain ⟨w, hw, rfl⟩ := mem_map.mp ht
    obtain ⟨hresumes, hstate, hboundary⟩ := new_entry hw
    exact (startEntry_restored hresumes hstate hboundary).of_heldFrom hheld

end Queue

lemma zero_lt_lastSeq_iff (records : List Record) (runID : String) :
    0 < (replay records runID).lastSeq ↔ ∃ rec ∈ records, 0 < rec.seq := by
  have hstep : ∀ (st : ResumeState) (r : Record), (replayStep runID st r).lastSeq = max st.lastSeq r.seq := by
    intro st r
    unfold replayStep replayKind
    split
    · split <;> rfl
    · rfl
  have hgen : ∀ st : ResumeState, 0 < (records.foldl (replayStep runID) st).lastSeq ↔
      0 < st.lastSeq ∨ ∃ rec ∈ records, 0 < rec.seq := by
    induction records with
    | nil => simp
    | cons r rs ih =>
      intro st
      rw [foldl_cons, ih, hstep, lt_max_iff, exists_mem_cons_iff, or_assoc]
  exact (hgen {}).trans (or_iff_right (lt_irrefl _))

lemma numbered_of_resumption (h : st ∈ resumption records runID) :
    st = replay records runID ∧ ∃ rec ∈ records, 0 < rec.seq := by
  unfold resumption at h
  dsimp only at h
  split at h
  · next hcond =>
    cases h
    exact ⟨rfl, (zero_lt_lastSeq_iff records runID).mp hcond.1⟩
  · cases h

lemma resumption_of_spent (hspent : AttemptsSpent runID t records) (hnum : ∃ rec ∈ records, 0 < rec.seq) :
    resumption records runID = some (replay records runID) := by
  have hattempts : (replay records runID).attempts.getD t.id 0 ≠ 0 := by
    have htally := congrArg Tally.attempts (tally_replay records runID t.id)
    have hone := one_le_attempts hspent
    rw [durableTally, ← htally] at hone
    exact fun heq => by simp [ResumeState.tally, heq] at hone
  refine if_pos ⟨(zero_lt_lastSeq_iff records runID).mpr hnum, .inr ?_⟩
  exact GoMap.nonempty_of_getD_ne hattempts

lemma Queue.boundaryHold_isSome {check : String} (hmem : check ∈ t.requiresChecks)
    (hfound : (boundaries.get? check).isSome = true) :
    (boundaryHold boundaries t).isSome = true := by
  obtain ⟨action, haction⟩ := Option.isSome_iff_exists.mp hfound
  unfold boundaryHold
  rw [if_neg fun hnil => ?_, Option.isSome_some]
  have := filterMap_eq_nil_iff.mp hnil check hmem
  simp [haction] at this

lemma Queue.Sound.need_not_lost (h : q.Sound plan) (hplan : plan.Valid)
    (hu : u ∈ q.tasks) (hpending : u.state = .pending) {d : Task} (hd : d ∈ plan.tasks)
    (hneed : d.id ∈ u.task.needs) : ∃ v ∈ q.tasks, v.task = d ∧ v.state.lost = false := by
  rw [← h.tasks_eq] at hd
  obtain ⟨w, hw, rfl⟩ := mem_map.mp hd
  obtain ⟨v, hv, htask⟩ := h.exists_task? hplan hw
  refine ⟨v, (Queue.mem_of_task?_eq_some hv).1, htask, ?_⟩
  exact Queue.blockedBy_eq_nil.mp (h.settled u hu hpending) _ hneed _ (by rw [hv]; rfl)

lemma ne_pending_of_heldBack (hplan : plan.Valid) (hres : (∃ rec ∈ records, 0 < rec.seq) →
      resumption records plan.runID = some (replay records plan.runID))
    (h : HeldBack plan boundaries records t) :
    ∀ u ∈ (Queue.start plan boundaries (resumption records plan.runID)).tasks, u.task = t → u.state ≠ .pending := by
  induction h with
  | boundary check hmem hfound =>
    rintro u hu rfl
    exact (Queue.startEntry_of_mem hu).of_boundary (Queue.boundaryHold_isSome hmem hfound)
  | resumes hnum hspent =>
    rintro u hu rfl
    refine (Queue.startEntry_of_mem hu).of_resume _ (hres hnum) (.inr ?_)
    rw [durableTally, ← tally_replay] at hspent
    exact hspent
  | need hmem hneeds hopen hheld ih =>
    rintro u hu rfl hpending
    obtain ⟨v, hv, rfl, hlost⟩ := (Queue.sound_start plan boundaries _).need_not_lost hplan hu hpending hmem hneeds
    have hentry := Queue.startEntry_of_mem hv
    -- The need is neither pending nor failed, and had it succeeded the journal would say so.
    cases hstate : v.state with
    | pending => exact ih v hv rfl hstate
    | failed => exact hentry.not_failed hstate
    | held => simp [hstate, TaskState.lost] at hlost
    | succeeded =>
      obtain ⟨st, hst, hsucc⟩ := hentry.of_succeeded hstate
      obtain ⟨rfl, hnum⟩ := numbered_of_resumption hst
      refine hopen ⟨hnum, ?_⟩
      rw [durableTally, ← tally_replay]
      exact hsucc

lemma ne_pending_of_comesBackShut (hplan : plan.Valid)
    (hspent : AttemptsSpent plan.runID t records) (h : ComesBackShut plan boundaries records t) :
    ∀ u ∈ (Queue.start plan boundaries (resumption records plan.runID)).tasks, u.task = t → u.state ≠ .pending := by
  rcases h with ⟨hnum, hsucc⟩ | hheld
  · rintro u hu rfl
    refine (Queue.startEntry_of_mem hu).of_resume _ (resumption_of_spent hspent hnum) (.inl ?_)
    rw [durableTally, ← tally_replay] at hsucc
    exact hsucc
  · exact ne_pending_of_heldBack hplan (resumption_of_spent hspent) hheld

/-! ## One life of the run -/

/-- The surroundings of the turns taken before the run is cancelled. -/
def takenTurns : List Runner.Turn → List Surroundings
  | .taken s :: turns => s :: takenTurns turns
  | _ => []

/-- The runner as the run leaves it, or as its last turn does. -/
def Runner.trail (host : Host) (r : Runner) (input : Runner.RunInput) : Runner :=
  match r.run host input with
  | some (_, r') => r'
  | none =>
    ((calls host (takenTurns input.turns) (r.opened input)).getLast?.map (Call.after host)).getD (r.opened input)

/-- No task with the id is pending. -/
def Queue.Shut (q : Queue) (id : String) : Prop := ∀ u ∈ q.tasks, u.task.id = id → u.state ≠ .pending

lemma Queue.Acts.shut {q' : Queue} {i : ℕ} {t t' : QueuedTask} (h : Acts q q' i t t')
    (hne : t.task.id ≠ id) (hshut : q.Shut id) : q'.Shut id := by
  intro u hu hid
  obtain ⟨v, hv, hheld⟩ := h.result.exists_of_mem hu
  refine hheld.ne_pending ?_
  rw [hheld.task_eq] at hid
  obtain ⟨j, hj⟩ := mem_iff_getElem?.mp hv
  rw [getElem?_modify h.at_eq] at hj
  split at hj
  · cases hj
    rw [h.task_eq] at hid
    exact absurd hid hne
  · exact hshut v (mem_of_getElem? hj) hid

variable {r : Runner}

/-- From `j` to `j'` only records about other tasks were appended. -/
def Journal.Passes (j j' : Journal) (id : String) : Prop :=
  ∃ recs, j'.records = j.records ++ recs ∧ ∀ rec ∈ recs, rec.taskID ≠ id

namespace Journal.Passes

variable {j₁ j₂ j₃ : Journal}

lemma trans (h₁ : Passes j₁ j₂ id) (h₂ : Passes j₂ j₃ id) : Passes j₁ j₃ id := by
  obtain ⟨recs₁, heq₁, h₁⟩ := h₁
  obtain ⟨recs₂, heq₂, h₂⟩ := h₂
  exact ⟨recs₁ ++ recs₂, by rw [heq₂, heq₁, append_assoc], forall_mem_append.mpr ⟨h₁, h₂⟩⟩

lemma of_marks {other : String} {kinds : List RecordKind} (h : j₁.Marks j₂ other kinds)
    (hne : other ≠ id) (hid : id ≠ "") : Passes j₁ j₂ id := by
  obtain ⟨-, recs, heq, habout, -⟩ := h
  refine ⟨recs, heq, fun rec hrec hown => ?_⟩
  rcases habout rec hrec with h | h
  · exact hne (h.symm.trans hown)
  · exact hid (hown.symm.trans h)

end Journal.Passes

variable (host : Host)

lemma calls_of_shut (ss : List Surroundings) (hid : id ≠ "") (hshut : r.queue.Shut id) :
    ∀ c ∈ calls host ss r, c.task.task.id ≠ id ∧ r.journal.Passes (c.after host).journal id := by
  refine calls_induction host (P := fun r cs => r.queue.Shut id →
    ∀ c ∈ cs, c.task.task.id ≠ id ∧ r.journal.Passes (c.after host).journal id) (by simp)
    (fun c cs hnext ih hshut => ?_) ss r hshut
  obtain ⟨ht, hpending⟩ := Queue.pending_of_next hnext
  have hne : c.task.task.id ≠ id := fun heq => hshut _ (mem_of_getElem? ht) heq hpending
  obtain ⟨t', kinds, hacts, hmarks, -⟩ := (c.stepped host).effect ht
  have hpass := Journal.Passes.of_marks hmarks hne hid
  refine forall_mem_cons.mpr ⟨⟨hne, hpass⟩, fun d hd => ?_⟩
  obtain ⟨hdne, hdpass⟩ := ih (hacts.shut hne hshut) d hd
  exact ⟨hdne, hpass.trans hdpass⟩

lemma loop_journal (turns : List Runner.Turn) {r' : Runner} (h : r.loop host turns = some r') :
    r'.journal = r.journal ∨ ∃ c ∈ calls host (takenTurns turns) r, r'.journal = (c.after host).journal := by
  induction turns generalizing r with
  | nil => cases h
  | cons turn turns ih =>
    cases turn with
    | cancelled err =>
      cases h
      exact .inl rfl
    | taken s =>
      rw [Runner.loop] at h
      rw [takenTurns, calls]
      cases hnext : r.queue.next with
      | none =>
        rw [hnext] at h
        cases h
        exact .inl rfl
      | some p =>
        obtain ⟨i, t⟩ := p
        rw [hnext] at h
        have hcall : (if Call.stops host ⟨r, i, t, s⟩ then
              some (Call.after host ⟨r, i, t, s⟩)
            else Runner.loop host turns (Call.after host ⟨r, i, t, s⟩)) = some r' := h
        refine .inr ?_
        dsimp only
        split at hcall
        · cases hcall
          exact ⟨_, mem_cons_self, rfl⟩
        · next hstop =>
          rw [if_neg hstop]
          rcases ih hcall with heq | ⟨c, hc, heq⟩
          · exact ⟨_, mem_cons_self, heq⟩
          · exact ⟨c, mem_cons_of_mem _ hc, heq⟩

lemma marks_openingRecords (j : Journal) (spec : Spec) (report : Report) (fence : Fence) (truncated : Bool) :
    j.Marks (j.appendAll (openingRecords spec report fence truncated)) "" [] := by
  refine .appendAll_quiet j fun rec hrec => ?_
  unfold openingRecords at hrec
  cases truncated <;> simp at hrec <;> rcases hrec with rfl | rfl | rfl | rfl <;> exact ⟨.inl rfl, rfl⟩

lemma marks_opened (r : Runner) (input : Runner.RunInput) : r.journal.Marks (r.opened input).journal "" [] := by
  have hstart : r.journal.Marks { r with startedAt := input.startedAt }.journal "" [] := .refl _ _
  exact Runner.marks_publish (Runner.marks_log_quiet hstart rfl rfl) _

lemma marks_closed (r : Runner) (input : Runner.RunInput) (event : Runner.CompletionEvent) :
    r.journal.Marks (r.closed input event).journal "" [] := by
  unfold Runner.closed
  split
  · exact Runner.marks_log_quiet (.refl _ _) rfl rfl
  · exact Runner.marks_publish (Runner.marks_log_quiet (.refl _ _) rfl rfl) _

variable (input : Runner.RunInput)

lemma journal_trail {P : Journal → Prop} (hopened : P (r.opened input).journal)
    (hcalls : ∀ c ∈ calls host (takenTurns input.turns) (r.opened input), P (c.after host).journal)
    (hclosed : ∀ (r' : Runner) event, P r'.journal → P (r'.closed input event).journal) :
    P (r.trail host input).journal := by
  unfold Runner.trail Runner.run
  cases hloop : Runner.loop host input.turns (r.opened input) with
  | some r' =>
    refine hclosed r' _ ?_
    rcases loop_journal host _ hloop with heq | ⟨c, hc, heq⟩
    · exact heq ▸ hopened
    · exact heq ▸ hcalls c hc
  | none =>
    cases hlast : (calls host (takenTurns input.turns) (r.opened input)).getLast? with
    | none => exact hopened
    | some c => exact hcalls c (mem_of_getLast? hlast)

lemma passes_trail (hid : id ≠ "") (hshut : r.queue.Shut id) : r.journal.Passes (r.trail host input).journal id := by
  have hopened : r.journal.Passes (r.opened input).journal id := .of_marks (marks_opened r input) hid.symm hid
  refine journal_trail host input (P := fun j => r.journal.Passes j id) hopened (fun c hc => ?_) fun r' event h =>
    h.trans (.of_marks (marks_closed r' input event) hid.symm hid)
  exact hopened.trans (calls_of_shut host _ (r := r.opened input) hid hshut c hc).2

/-! ## Life after life -/

/-- One life of the run: what it was begun with, what happened, and how many of the records it
appended were durable when it was over. -/
structure Cycle where
  spec : Spec
  arrival : Arrival
  truncated : Bool := false
  input : Runner.RunInput
  kept : ℕ

namespace Cycle

variable (plan : Plan) (c : Cycle) (records : List Record)

/-- The session that begins on a journal. -/
def session : Except Refusal Session :=
  Session.begin host c.spec plan c.arrival (.ok (records, c.truncated)) (.ok records)

/-- The tasks the life attempts. -/
def calls (c : Cycle) (records : List Record) : List Call :=
  match c.session host plan records with
  | .error _ => []
  | .ok s => Unattended.calls host (takenTurns c.input.turns) (s.runner.opened c.input)

/-- The journal the life leaves: what it began on, and what it kept of the records it appended. -/
def durable : List Record :=
  match c.session host plan records with
  | .error _ => records
  | .ok s => (s.runner.trail host c.input).journal.records.take (records.length + c.kept)

end Cycle

/-- The lives of a run, each with the journal it began on. -/
def visits (host : Host) (plan : Plan) : List Record → List Cycle → List (List Record × Cycle)
  | _, [] => []
  | records, c :: cs => (records, c) :: visits host plan (c.durable host plan records) cs

variable {start : List Record}

lemma visits_suffix {host : Host} {cycles : List Cycle}
    {before after : List (List Record × Cycle)} {v : List Record × Cycle}
    (h : visits host plan start cycles = before ++ v :: after) :
    ∃ cs, v :: after = visits host plan v.1 cs := by
  induction before generalizing start cycles with
  | nil =>
    cases cycles with
    | nil => cases h
    | cons c cs =>
      obtain ⟨rfl, rfl⟩ := List.cons.inj h
      exact ⟨c :: cs, rfl⟩
  | cons b before ih =>
    cases cycles with
    | nil => cases h
    | cons c cs => exact ih (List.cons.inj h).2

lemma Cycle.of_shut (ht : t ∈ plan.tasks) {c : Cycle} (hspent : AttemptsSpent plan.runID t records)
    (hshut : (c.session host plan records).isOk = true → ComesBackShut plan c.arrival.report.boundaries records t) :
    (∀ call ∈ c.calls host plan records, call.task.task.id ≠ t.id) ∧
      AttemptsSpent plan.runID t (c.durable host plan records) := by
  unfold Cycle.calls Cycle.durable
  cases hsession : c.session host plan records with
  | error refusal => exact ⟨by simp, hspent⟩
  | ok s =>
    have hshut := hshut (by rw [hsession]; rfl)
    obtain ⟨hvalidate, _, _, pid, _, ⟨rfl, rfl⟩, ⟨rfl⟩, rfl⟩ := Session.begin_eq_ok hsession
    have hplan := Plan.valid_of_validate hvalidate
    have hid : t.id ≠ "" := fun heq => hplan.id_ne t ht (by rw [heq]; decide)
    set r := (Session.prepare c.spec plan c.arrival records c.truncated pid records).runner
    have hqueue : r.queue.Shut t.id := by
      intro u hu huid
      refine ne_pending_of_comesBackShut hplan hspent hshut u hu ?_
      exact inj_on_of_nodup_map hplan.ids_nodup ((Queue.sound_start plan _ _).mem hu) ht huid
    have hjournal : (openJournal plan.runID c.arrival.clock records).Passes r.journal t.id :=
      .of_marks (marks_openingRecords _ _ _ _ _) hid.symm hid
    obtain ⟨recs, hrecs, hother⟩ := hjournal.trans (passes_trail host c.input hid hqueue)
    refine ⟨fun call hcall => (calls_of_shut host _ (r := r.opened c.input) hid hqueue call hcall).1, ?_⟩
    dsimp only
    rw [hrecs, show (openJournal plan.runID c.arrival.clock records).records = records from rfl,
      take_length_add_append]
    exact (attemptsSpent_append fun rec hrec => hother rec (mem_of_mem_take hrec)).mpr hspent

lemma visits_of_spent (ht : t ∈ plan.tasks) (cycles : List Cycle)
    (hshut : ∀ v ∈ visits host plan start cycles, AttemptsSpent plan.runID t v.1 →
      (v.2.session host plan v.1).isOk = true → ComesBackShut plan v.2.arrival.report.boundaries v.1 t)
    (hspent : AttemptsSpent plan.runID t start) :
    ∀ v ∈ visits host plan start cycles, ∀ call ∈ v.2.calls host plan v.1, call.task.task.id ≠ t.id := by
  induction cycles generalizing start with
  | nil => simp [visits]
  | cons c cs ih =>
    rw [visits, forall_mem_cons] at hshut ⊢
    obtain ⟨hcalls, hspent'⟩ := Cycle.of_shut host ht hspent (hshut.1 hspent)
    exact ⟨hcalls, ih hshut.2 hspent'⟩

/-- The attempt budget across restarts.  Whatever the lives of a run were like and wherever they were
cut off, if the task comes back done or held in every session that begins on a journal which says that its
attempts are spent, then from the first such beginning on no life of the run attempts it. -/
theorem spent_never_executed (host : Host) (plan : Plan) (start : List Record)
    (cycles : List Cycle) (t : Task) (ht : t ∈ plan.tasks)
    (hshut : ∀ v ∈ visits host plan start cycles, AttemptsSpent plan.runID t v.1 →
      (v.2.session host plan v.1).isOk = true → ComesBackShut plan v.2.arrival.report.boundaries v.1 t)
    (before after : List (List Record × Cycle)) (v : List Record × Cycle)
    (hv : visits host plan start cycles = before ++ v :: after)
    (hspent : AttemptsSpent plan.runID t v.1) :
    ∀ w ∈ v :: after, ∀ call ∈ w.2.calls host plan w.1, call.task.task.id ≠ t.id := by
  obtain ⟨cs, hcs⟩ := visits_suffix hv
  have hmem : ∀ w ∈ v :: after, w ∈ visits host plan start cycles := by
    rw [hv]
    exact fun w hw => mem_append_right before hw
  rw [hcs] at hmem ⊢
  exact visits_of_spent host ht cs (fun w hw => hshut w (hmem w hw)) hspent

def onceTask : Task := { id := "a", argv := ["agent"], maxAttempts := 1, band := .known .validation }

def oncePlan : Plan := { runID := "run", risk := .known .q0, tasks := [onceTask] }

/-- A life of that plan in which the task's command exits as told, and of which so many records are
kept. -/
def onceCycle (exitedZero : Bool) (kept : ℕ) : Cycle :=
  { spec := { Runner.gatedSpec with qa := ⟨[]⟩ }
    arrival :=
      { report := ⟨"READY", []⟩, root := "/tree", repo := { branch := "main", head := "abc" },
        lock := .ok 1, clock := fun _ => Time.zero }
    input :=
      { Runner.calmRun with
        turns := List.replicate 2
          (.taken { Runner.calm with execution := { exitedZero := exitedZero } }) }
    kept := kept }

/-- A life that is over before its end is journaled, and one after it: the task, done on its one
attempt, is not attempted again. -/
theorem spent_never_executed_done :
    let first := onceCycle true 6
    let second := onceCycle true 6
    AttemptsSpent "run" onceTask (first.durable .plain oncePlan []) ∧
      (second.session .plain oncePlan (first.durable .plain oncePlan [])).isOk = true ∧
      ∀ call ∈ second.calls .plain oncePlan (first.durable .plain oncePlan []), call.task.task.id ≠ "a" := by
  intro first second
  have hspent : AttemptsSpent "run" onceTask (first.durable .plain oncePlan []) := by decide
  refine ⟨hspent, by decide, spent_never_executed .plain oncePlan [] [first, second] onceTask
    (by decide) ?_ [([], first)] [] (first.durable .plain oncePlan [], second) rfl hspent _
    mem_cons_self⟩
  refine forall_mem_cons.mpr ⟨fun hfresh => absurd hfresh (by decide), ?_⟩
  refine forall_mem_singleton.mpr (fun _ _ => .inl ⟨?_, ?_⟩) <;> decide

/-- A task that fails on its one attempt is attempted again by the next life of the run. -/
theorem spent_task_executed_again :
    let first := onceCycle false 100
    let second := onceCycle false 100
    (visits .plain oncePlan [] [first, second]).map (fun v =>
        (decide (AttemptsSpent "run" onceTask v.1),
          (v.2.calls .plain oncePlan v.1).map (·.task.task.id))) =
      [(false, ["a"]), (true, ["a"])] := by
  decide

end DeliveryEngine.Unattended
