import DeliveryEngine.Unattended.Restart

/-!
# Work is done in the order of its needs

An execution of a plan is a sequence of lives, each of which goes on from what the journal kept of those before it.  A
task the queue counts as succeeded has its success in the journal (`Runner.Journaled`), and a success gets into the
journal only when a call has executed the task successfully (`Journal.Adds`); so a task is offered only after each of
its needs has succeeded (`Lives.Makes.needs_succeeded`).
-/

namespace DeliveryEngine.Unattended

open Go List

/-! ## Successes in the journal -/

/-- The record says that a task of a run has succeeded. -/
def Record.IsSuccess (runID id : String) (rec : Record) : Prop :=
  rec.runID = runID ∧ rec.taskID = id ∧ rec.kind = .known .taskSucceeded

lemma Tally.step_succeeded_iff (t : Tally) (k : RecordKind) :
    (t.step k).succeeded = true ↔ t.succeeded = true ∨ k = .known .taskSucceeded := by
  rcases k with ⟨k⟩ | _
  · cases k <;> simp [Tally.step]
  · simp [Tally.step]

lemma Tally.foldl_step_succeeded_iff (kinds : List RecordKind) (t : Tally) :
    (kinds.foldl Tally.step t).succeeded = true ↔ t.succeeded = true ∨ .known .taskSucceeded ∈ kinds := by
  induction kinds generalizing t with
  | nil => simp
  | cons k kinds ih => rw [foldl_cons, ih, Tally.step_succeeded_iff, mem_cons, or_assoc, eq_comm (a := k)]

lemma Tally.follow_succeeded_iff (runID id : String) (records : List Record) (t : Tally) :
    (Tally.follow runID id t records).succeeded = true ↔
      t.succeeded = true ∨ ∃ rec ∈ records, rec.IsSuccess runID id := by
  unfold Tally.follow
  induction records generalizing t with
  | nil => simp
  | cons rec records ih =>
    rw [foldl_cons, ih, exists_mem_cons_iff, ← or_assoc]
    refine or_congr_left ?_
    split_ifs with hown
    · rw [Tally.step_succeeded_iff]
      simp [Record.IsSuccess, hown]
    · have hnot : ¬rec.IsSuccess runID id := fun h => hown ⟨h.1, h.2.1⟩
      simp [hnot]

/-- From `j` to `j'` records were appended, and a success only of tasks with `P`. -/
structure Journal.Adds (j j' : Journal) (P : String → Prop) : Prop where
  runID_eq : j'.runID = j.runID
  appended : ∃ recs, j'.records = j.records ++ recs ∧ ∀ rec ∈ recs, ∀ id, rec.IsSuccess j.runID id → P id

variable {id : String} {rec : Record} {kinds : List RecordKind}

namespace Journal.Adds

variable {j₁ j₂ j₃ : Journal} {P Q : String → Prop}

lemma mono (h : Adds j₁ j₂ P) (hPQ : ∀ id, P id → Q id) : Adds j₁ j₂ Q := by
  obtain ⟨hrun, recs, heq, h⟩ := h
  exact ⟨hrun, recs, heq, fun rec hrec id hid => hPQ id (h rec hrec id hid)⟩

lemma trans (h₁ : Adds j₁ j₂ P) (h₂ : Adds j₂ j₃ P) : Adds j₁ j₃ P := by
  obtain ⟨hrun₁, recs₁, heq₁, h₁⟩ := h₁
  obtain ⟨hrun₂, recs₂, heq₂, h₂⟩ := h₂
  rw [hrun₁] at h₂
  exact ⟨hrun₂.trans hrun₁, recs₁ ++ recs₂, by rw [heq₂, heq₁, append_assoc], forall_mem_append.mpr ⟨h₁, h₂⟩⟩

lemma of_marks (h : j₁.Marks j₂ id kinds) (hP : .known .taskSucceeded ∈ kinds → P id) : Adds j₁ j₂ P := by
  obtain ⟨hrun, recs, heq, -, hfollow⟩ := h
  refine ⟨hrun, recs, heq, fun rec hrec id' hid' => ?_⟩
  have hsucceeded := (Tally.follow_succeeded_iff j₁.runID id' recs {}).mpr (.inr ⟨rec, hrec, hid'⟩)
  rw [hfollow] at hsucceeded
  split_ifs at hsucceeded with hown
  rw [hown]
  exact hP (((Tally.foldl_step_succeeded_iff kinds {}).mp hsucceeded).resolve_left (by decide))

lemma of_mem (h : Adds j₁ j₂ P) (hrec : rec ∈ j₂.records)
    (hid : rec.IsSuccess j₁.runID id) : rec ∈ j₁.records ∨ P id := by
  obtain ⟨-, recs, heq, h⟩ := h
  rw [heq, mem_append] at hrec
  exact hrec.imp_right fun hrec => h rec hrec id hid

lemma mem (h : Adds j₁ j₂ P) (hrec : rec ∈ j₁.records) : rec ∈ j₂.records := by
  obtain ⟨-, recs, heq, -⟩ := h
  rw [heq]
  exact mem_append_left _ hrec

end Journal.Adds

/-! ## One call -/

/-- The call executes the task with the id, and the execution succeeds. -/
def Call.Succeeds (host : Host) (c : Call) (id : String) : Prop := c.task.task.id = id ∧ c.Ends host .succeeded

/-- Every task the queue counts as succeeded has its success in the journal. -/
def Runner.Journaled (r : Runner) : Prop :=
  ∀ u ∈ r.queue.tasks, u.state = .succeeded → ∃ rec ∈ r.journal.records, rec.IsSuccess r.journal.runID u.task.id

variable {need : String}

namespace Queue

lemma Acts.of_succeeded {q q' : Queue} {i : ℕ} {t t' u : QueuedTask} (h : Acts q q' i t t')
    (hu : u ∈ q'.tasks) (hstate : u.state = .succeeded) :
    (∃ v ∈ q.tasks, v.task = u.task ∧ v.state = .succeeded) ∨ u.task = t.task ∧ t'.state = .succeeded := by
  obtain ⟨v, hv, hheld⟩ := h.result.exists_of_mem hu
  have hvstate : v.state = .succeeded := by
    rcases hheld.state_eq with heq | ⟨-, heq⟩
    · exact heq.symm.trans hstate
    · rw [heq] at hstate
      cases hstate
  obtain ⟨j, hj⟩ := mem_iff_getElem?.mp hv
  rw [getElem?_modify h.at_eq] at hj
  split_ifs at hj with hij
  · cases hj
    exact .inr ⟨hheld.task_eq.trans h.task_eq, hvstate⟩
  · exact .inl ⟨v, mem_of_getElem? hj, hheld.task_eq.symm, hvstate⟩

lemma Sound.needs_of_next {plan : Plan} {q : Queue} (h : Sound plan q) (hplan : plan.Valid) {i : ℕ}
    {t : QueuedTask} (hnext : q.next = some (i, t)) (hneed : need ∈ t.task.needs) :
    ∃ u ∈ q.tasks, u.task.id = need ∧ u.state = .succeeded := by
  obtain ⟨ht, hready⟩ := next_eq_some hnext
  simp only [ready, dependenciesSatisfied, Bool.and_eq_true, decide_eq_true_eq, all_eq_true] at hready
  have hsatisfied := hready.2 need hneed
  obtain ⟨-, hin⟩ := hplan.needs_mem t.task (h.mem (mem_of_getElem? ht)) need hneed
  rw [Plan.ids, ← h.tasks_eq, map_map] at hin
  obtain ⟨v, hv, rfl⟩ := mem_map.mp hin
  obtain ⟨dep, hdep, -⟩ := h.exists_task? hplan hv
  obtain ⟨hmem, hid⟩ := mem_of_task?_eq_some hdep
  rw [Function.comp_apply, hdep] at hsatisfied
  exact ⟨dep, hmem, hid, by simpa using hsatisfied⟩

end Queue

variable {host : Host}

lemma Journal.Marks.exists_success {j j' : Journal}
    (h : j.Marks j' id kinds) (hkinds : .known .taskSucceeded ∈ kinds) :
    ∃ rec ∈ j'.records, rec.IsSuccess j'.runID id := by
  obtain ⟨hrun, recs, heq, -, hfollow⟩ := h
  have hsucceeded : (Tally.follow j.runID id {} recs).succeeded = true := by
    rw [hfollow, if_pos rfl]
    exact (Tally.foldl_step_succeeded_iff kinds {}).mpr (.inr hkinds)
  obtain ⟨rec, hrec, hid⟩ := ((Tally.follow_succeeded_iff j.runID id recs {}).mp hsucceeded).resolve_left (by decide)
  exact ⟨rec, heq ▸ mem_append_right _ hrec, hrun ▸ hid⟩

variable {c : Call}

lemma Call.keeps (host : Host) (hnext : c.before.queue.next = some (c.index, c.task)) (h : c.before.Journaled) :
    (c.after host).Journaled ∧ c.before.journal.Adds (c.after host).journal (c.Succeeds host) := by
  obtain ⟨t', kinds, hacts, hmarks, hstate, hends⟩ := (c.stepped host).effect (Queue.next_eq_some hnext).1
  have hadds : c.before.journal.Adds (c.after host).journal (c.Succeeds host) :=
    .of_marks hmarks fun hkinds => ⟨rfl, hends hkinds⟩
  refine ⟨fun u hu husucceeded => ?_, hadds⟩
  rcases hacts.of_succeeded hu husucceeded with ⟨v, hv, htask, hvsucceeded⟩ | ⟨htask, hsucceeded⟩
  · obtain ⟨rec, hrec, hid⟩ := h v hv hvsucceeded
    refine ⟨rec, hadds.mem hrec, ?_⟩
    rwa [hadds.runID_eq, ← htask]
  · rw [htask]
    exact hmarks.exists_success (hstate hsucceeded)

/-! ## One life -/

variable {earlier later : List Call}

lemma calls_invariant (host : Host) {P : List Call → Runner → Prop}
    (hstep : ∀ earlier c, c.before.queue.next = some (c.index, c.task) → P earlier c.before →
      P (earlier ++ [c]) (c.after host))
    (ss : List Surroundings) {r : Runner} {done : List Call} (hstart : P done r)
    (hcalls : calls host ss r = earlier ++ c :: later) :
    c.before.queue.next = some (c.index, c.task) ∧ P (done ++ earlier) c.before ∧
      P (done ++ earlier ++ [c]) (c.after host) := by
  refine calls_induction host (P := fun r cs => ∀ done earlier, P done r → cs = earlier ++ c :: later →
    c.before.queue.next = some (c.index, c.task) ∧ P (done ++ earlier) c.before ∧
      P (done ++ earlier ++ [c]) (c.after host)) (by simp)
    (fun first cs hnext ih done earlier hstart hcalls => ?_) ss r done earlier hstart hcalls
  cases earlier with
  | nil =>
    obtain ⟨rfl, -⟩ := List.cons.inj hcalls
    rw [append_nil]
    exact ⟨hnext, hstart, hstep done _ hnext hstart⟩
  | cons next earlier =>
    obtain ⟨rfl, hrest⟩ := List.cons.inj hcalls
    have hlater := ih _ _ (hstep done _ hnext hstart) hrest
    rwa [append_assoc done] at hlater

/-- One of the calls has executed the task with the id, successfully. -/
def SucceededIn (host : Host) (cs : List Call) (id : String) : Prop := ∃ c ∈ cs, c.Succeeds host id

/-- What holds of a runner of a plan after some calls of its life. -/
structure Continues (host : Host) (spec : Spec) (plan : Plan) (j : Journal) (earlier : List Call) (r : Runner) :
    Prop where
  running : Runner.Running spec plan r.core
  journaled : r.Journaled
  adds : j.Adds r.journal (SucceededIn host earlier)

variable {plan : Plan}

lemma Continues.step {spec : Spec} {j : Journal} {earlier : List Call}
    (hnext : c.before.queue.next = some (c.index, c.task))
    (h : Continues host spec plan j earlier c.before) :
    Continues host spec plan j (earlier ++ [c]) (c.after host) := by
  obtain ⟨hjournaled, hadds⟩ := c.keeps host hnext h.journaled
  refine ⟨(h.running.step hnext (c.stepped host)).1, hjournaled, .trans (h.adds.mono ?_) (hadds.mono ?_)⟩
  · rintro id ⟨c', hc', hid⟩
    exact ⟨c', mem_append_left _ hc', hid⟩
  · intro id hid
    exact ⟨c, mem_append_right _ mem_cons_self, hid⟩

variable {records : List Record} {c : Cycle}

lemma Cycle.begins {s : Session} (h : c.session host plan records = .ok s) :
    plan.Valid ∧ Continues host c.spec plan (openJournal plan.runID c.arrival.clock records) []
      (s.runner.opened c.input) := by
  obtain ⟨hvalidate, _, _, pid, _, ⟨rfl, rfl⟩, ⟨rfl⟩, rfl⟩ := Session.begin_eq_ok h
  set r := (Session.prepare c.spec plan c.arrival records c.truncated pid records).runner
  have hadds : (openJournal plan.runID c.arrival.clock records).Adds (r.opened c.input).journal
      (SucceededIn host []) :=
    .trans (.of_marks (marks_openingRecords _ _ _ _ _) nofun) (.of_marks (marks_opened r c.input) nofun)
  refine ⟨Plan.valid_of_validate hvalidate, ⟨rfl, rfl, Queue.sound_start plan _ _, nofun⟩, ?_, hadds⟩
  intro u hu hstate
  obtain ⟨st, hst, hsucceeded⟩ := (Queue.startEntry_of_mem hu).of_succeeded hstate
  obtain ⟨rfl, -⟩ := numbered_of_resumption hst
  have htally := congrArg Tally.succeeded (tally_replay records plan.runID u.task.id)
  obtain ⟨rec, hrec, hid⟩ := ((Tally.follow_succeeded_iff plan.runID u.task.id records {}).mp
    (htally.symm.trans hsucceeded)).resolve_left (by decide)
  exact ⟨rec, hadds.mem hrec, hadds.runID_eq ▸ hid⟩

lemma Cycle.continues {call : Call} (hcalls : c.calls host plan records = earlier ++ call :: later) :
    plan.Valid ∧ call.before.queue.next = some (call.index, call.task) ∧
      Continues host c.spec plan (openJournal plan.runID c.arrival.clock records) earlier call.before := by
  unfold Cycle.calls at hcalls
  cases hsession : c.session host plan records with
  | error refusal =>
    rw [hsession] at hcalls
    simp at hcalls
  | ok s =>
    rw [hsession] at hcalls
    obtain ⟨hplan, hbegins⟩ := Cycle.begins hsession
    obtain ⟨hnext, hbefore, -⟩ := calls_invariant host (fun _ _ hnext h => h.step hnext) _ hbegins hcalls
    exact ⟨hplan, hnext, hbefore⟩

lemma Cycle.of_mem_durable (hrec : rec ∈ c.durable host plan records) (hid : rec.IsSuccess plan.runID id) :
    rec ∈ records ∨ SucceededIn host (c.calls host plan records) id := by
  unfold Cycle.durable at hrec
  unfold Cycle.calls
  cases hsession : c.session host plan records with
  | error refusal =>
    rw [hsession] at hrec
    exact .inl hrec
  | ok s =>
    rw [hsession] at hrec
    have hbegins := (Cycle.begins hsession).2
    set r := s.runner.opened c.input
    set cs := Unattended.calls host (takenTurns c.input.turns) r
    have hcall : ∀ call ∈ cs, (openJournal plan.runID c.arrival.clock records).Adds
        (call.after host).journal (SucceededIn host cs) := by
      intro call hcall
      obtain ⟨earlier, later, heq⟩ := append_of_mem hcall
      obtain ⟨-, -, hafter⟩ := calls_invariant host (fun _ _ hnext h => h.step hnext) _ hbegins heq
      refine hafter.adds.mono ?_
      rintro name ⟨c', hc', hname⟩
      refine ⟨c', ?_, hname⟩
      rw [heq, append_cons]
      exact mem_append_left _ hc'
    have hstart : (openJournal plan.runID c.arrival.clock records).Adds r.journal (SucceededIn host cs) :=
      hbegins.adds.mono (by rintro name ⟨c', hc', -⟩; cases hc')
    have htrail : (openJournal plan.runID c.arrival.clock records).Adds (s.runner.trail host c.input).journal
        (SucceededIn host cs) :=
      journal_trail host c.input (P := fun j => Journal.Adds _ j _) hstart hcall fun r' event h =>
        h.trans (.of_marks (marks_closed r' c.input event) nofun)
    exact htrail.of_mem (mem_of_mem_take hrec) hid

/-! ## Whole executions -/

/-- An execution of a plan: the lives of its run, the first of which begins on a journal that records no
success of the run. -/
structure Lives (host : Host) (plan : Plan) where
  start : List Record
  fresh : ∀ rec ∈ start, ∀ id, ¬rec.IsSuccess plan.runID id
  cycles : List Cycle

namespace Lives

/-- The execution makes a call after some lives and some calls of the same life. -/
def Makes (x : Lives host plan) (before : List (List Record × Cycle)) (earlier : List Call) (c : Call) : Prop :=
  ∃ v after later, visits host plan x.start x.cycles = before ++ v :: after ∧
    v.2.calls host plan v.1 = earlier ++ c :: later

end Lives

/-- The task with the id has succeeded, in one of the lives or one of the calls after them. -/
def SucceededBefore (host : Host) (plan : Plan) (before : List (List Record × Cycle)) (earlier : List Call)
    (id : String) : Prop :=
  (∃ v ∈ before, SucceededIn host (v.2.calls host plan v.1) id) ∨ SucceededIn host earlier id

lemma visits_success {start : List Record} {cycles : List Cycle}
    {before after : List (List Record × Cycle)} {v : List Record × Cycle}
    (h : visits host plan start cycles = before ++ v :: after) (hrec : rec ∈ v.1)
    (hid : rec.IsSuccess plan.runID id) :
    rec ∈ start ∨ ∃ w ∈ before, SucceededIn host (w.2.calls host plan w.1) id := by
  induction before generalizing start cycles with
  | nil =>
    cases cycles with
    | nil => cases h
    | cons c cs =>
      obtain ⟨rfl, -⟩ := List.cons.inj h
      exact .inl hrec
  | cons b before ih =>
    cases cycles with
    | nil => cases h
    | cons c cs =>
      obtain ⟨rfl, hrest⟩ := List.cons.inj h
      rcases ih hrest with hdurable | ⟨w, hw, hsucceeded⟩
      · refine (Cycle.of_mem_durable hdurable hid).imp_right fun hsucceeded => ?_
        exact ⟨(start, c), mem_cons_self, hsucceeded⟩
      · exact .inr ⟨w, mem_cons_of_mem _ hw, hsucceeded⟩

namespace Lives

variable {x : Lives host plan} {before : List (List Record × Cycle)}
  {earlier : List Call} {c : Call}

variable (h : x.Makes before earlier c)
include h

lemma Makes.mem : c.task.task ∈ plan.tasks := by
  obtain ⟨v, after, later, -, hcalls⟩ := h
  obtain ⟨-, hnext, hcontinues⟩ := Cycle.continues hcalls
  exact hcontinues.running.sound.mem (mem_of_getElem? (Queue.next_eq_some hnext).1)

theorem Makes.needs_succeeded (hneed : need ∈ c.task.task.needs) :
    SucceededBefore host plan before earlier need := by
  obtain ⟨v, after, later, hvisits, hcalls⟩ := h
  obtain ⟨hplan, hnext, hrunning, hjournaled, hadds⟩ := Cycle.continues hcalls
  obtain ⟨u, hu, rfl, hstate⟩ := hrunning.sound.needs_of_next hplan hnext hneed
  obtain ⟨rec, hrec, hid⟩ := hjournaled u hu hstate
  rw [hadds.runID_eq] at hid
  rcases hadds.of_mem hrec hid with hrec | hsucceeded
  · rcases visits_success hvisits hrec hid with hstart | hearlier
    · exact absurd hid (x.fresh rec hstart _)
    · exact .inl hearlier
  · exact .inr hsucceeded

theorem Makes.need_of_succeeded {t : Task} (ht : t ∈ plan.tasks)
    (hsucceeded : SucceededBefore host plan before earlier t.id) (hneed : need ∈ t.needs) :
    SucceededBefore host plan before earlier need := by
  obtain ⟨v, after, later, hvisits, hcalls⟩ := h
  have hplan := (Cycle.continues hcalls).1
  -- The successful call executed this task, and no other of the same id.
  have hsame : ∀ {b e c'}, x.Makes b e c' → c'.task.task.id = t.id → need ∈ c'.task.task.needs :=
    fun hmakes hid => inj_on_of_nodup_map hplan.ids_nodup hmakes.mem ht hid ▸ hneed
  rcases hsucceeded with ⟨w, hw, c', hc', hid, -⟩ | ⟨c', hc', hid, -⟩
  · obtain ⟨before₁, before₂, rfl⟩ := append_of_mem hw
    obtain ⟨earlier', later', hcalls'⟩ := append_of_mem hc'
    have hmakes : x.Makes before₁ earlier' c' :=
      ⟨w, before₂ ++ v :: after, later', by rw [hvisits, append_assoc, cons_append], hcalls'⟩
    rcases hmakes.needs_succeeded (hsame hmakes hid) with ⟨w', hw', hdone⟩ | ⟨c'', hc'', hdone⟩
    · exact .inl ⟨w', mem_append_left _ hw', hdone⟩
    · refine .inl ⟨w, hw, c'', ?_, hdone⟩
      rw [hcalls']
      exact mem_append_left _ hc''
  · obtain ⟨earlier₁, earlier₂, rfl⟩ := append_of_mem hc'
    have hmakes : x.Makes before earlier₁ c' :=
      ⟨v, after, earlier₂ ++ c :: later, hvisits, by rw [hcalls, append_assoc, cons_append]⟩
    rcases hmakes.needs_succeeded (hsame hmakes hid) with hearlier | ⟨c'', hc'', hdone⟩
    · exact .inl hearlier
    · exact .inr ⟨c'', mem_append_left _ hc'', hdone⟩

end Lives

lemma Cycle.not_executed_again {t : Task} (ht : t ∈ plan.tasks) (hdone : DurablySucceeded plan.runID records t) :
    ∀ call ∈ c.calls host plan records, call.task.task.id ≠ t.id := by
  unfold Cycle.calls
  cases hsession : c.session host plan records with
  | error _ => simp
  | ok s =>
    obtain ⟨hvalidate, _, _, pid, _, ⟨rfl, rfl⟩, ⟨rfl⟩, rfl⟩ := Session.begin_eq_ok hsession
    have hplan := Plan.valid_of_validate hvalidate
    have hid : t.id ≠ "" := fun heq => hplan.id_ne t ht (by rw [heq]; decide)
    obtain ⟨hnum, hsucceeded⟩ := hdone
    rw [durableTally, ← tally_replay] at hsucceeded
    have hresume : resumption records plan.runID = some (replay records plan.runID) :=
      if_pos ⟨(zero_lt_lastSeq_iff _ _).mpr hnum,
        .inl (GoMap.nonempty_of_getD_ne (ne_of_eq_of_ne hsucceeded (by decide)))⟩
    refine fun call hcall => (calls_of_shut host _ hid (fun u hu huid => ?_) call hcall).1
    obtain rfl := inj_on_of_nodup_map hplan.ids_nodup ((Queue.sound_start plan _ _).mem hu) ht huid
    exact (Queue.startEntry_of_mem hu).of_resume _ hresume (.inl hsucceeded)

/-- Across all lives of a run, wherever they were cut off: a task is executed only after everything it needs, also
through other tasks, has succeeded; a success that a life finds in the journal is an earlier life's, and the task is not
executed again. -/
theorem Lives.upstream_succeeded (x : Lives host plan) :
    (∀ before earlier c, x.Makes before earlier c → ∀ need ∈ c.task.task.needs, ∀ id,
      Relation.ReflTransGen (fun id need => ∃ t ∈ plan.tasks, t.id = id ∧ need ∈ t.needs) need id →
        SucceededBefore host plan before earlier id) ∧
    ∀ before v after, visits host plan x.start x.cycles = before ++ v :: after →
      (∀ rec ∈ v.1, ∀ id, rec.IsSuccess plan.runID id →
        ∃ w ∈ before, SucceededIn host (w.2.calls host plan w.1) id) ∧
      ∀ t ∈ plan.tasks, DurablySucceeded plan.runID v.1 t →
        ∀ call ∈ v.2.calls host plan v.1, call.task.task.id ≠ t.id := by
  refine ⟨fun before earlier c h need hneed id hid => ?_, fun before v after hvisits =>
    ⟨fun rec hrec id hid => ?_, fun t ht hdone => Cycle.not_executed_again ht hdone⟩⟩
  · induction hid with
    | refl => exact h.needs_succeeded hneed
    | tail _ hstep ih =>
      obtain ⟨t, ht, rfl, hneed'⟩ := hstep
      exact h.need_of_succeeded ht ih hneed'
  · exact (visits_success hvisits hrec hid).resolve_left fun hstart => x.fresh rec hstart id hid

/-- A task, and one that needs it. -/
def handoverPlan : Plan :=
  { oncePlan with tasks := [onceTask, { onceTask with id := "b", needs := ["a"] }] }

/-- The first life is over before the success of its second task is journaled. -/
def twoLives : Lives .plain handoverPlan where
  start := []
  fresh := by simp
  cycles := [onceCycle true 6, onceCycle true 6]

/-- What the second life executes. -/
def secondCalls : List Call :=
  (onceCycle true 6).calls .plain handoverPlan ((onceCycle true 6).durable .plain handoverPlan [])

theorem upstream_succeeded_twoLives :
    secondCalls.map (fun c => (c.task.task.id, c.task.task.needs)) = [("b", ["a"])] ∧
      ∀ c later, secondCalls = c :: later → SucceededBefore .plain handoverPlan [([], onceCycle true 6)] [] "a" := by
  have hcalls : secondCalls.map (fun c => (c.task.task.id, c.task.task.needs)) = [("b", ["a"])] := by decide +kernel
  refine ⟨hcalls, fun c later h => ?_⟩
  have hneed : "a" ∈ c.task.task.needs := by
    rw [h, map_cons] at hcalls
    rw [(Prod.mk.inj (cons.inj hcalls).1).2]
    exact mem_singleton_self "a"
  have hmakes : twoLives.Makes [([], onceCycle true 6)] [] c :=
    ⟨((onceCycle true 6).durable .plain handoverPlan [], onceCycle true 6), [], later, rfl, h⟩
  exact twoLives.upstream_succeeded.1 _ [] c hmakes "a" hneed "a" .refl

end DeliveryEngine.Unattended
