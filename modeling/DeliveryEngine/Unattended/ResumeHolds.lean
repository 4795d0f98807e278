import DeliveryEngine.Unattended.Restart

/-!
# Which holds survive a resume

`Queue.new` holds the tasks behind a human boundary, and through their needs every task behind those.  `Queue.restore`
folds durable successes in but never withdraws a hold.  `BehindBoundary` is what `Queue.new` holds, and `StillBlocked`
what is held for a reason that is still there after the successes are folded in; every hold after a resume has its
reason exactly when no open task is in the first set without being in the second (`restore_holds_justified_iff`).
-/

namespace DeliveryEngine.Unattended

open Go List

/-! ## The two sets of held tasks -/

/-- The task requires a check that is behind a human boundary. -/
def RequiresBoundary (boundaries : GoMap String) (t : Task) : Prop :=
  ∃ check ∈ t.requiresChecks, (boundaries.get? check).isSome = true

instance (boundaries : GoMap String) (t : Task) : Decidable (RequiresBoundary boundaries t) :=
  inferInstanceAs (Decidable (∃ check ∈ t.requiresChecks, _))

variable (st : ResumeState) (t : Task)

/-- The journal records the task's success. -/
def RecordedSuccess : Prop := st.succeeded.getD t.id false = true

instance (st : ResumeState) (t : Task) : Decidable (RecordedSuccess st t) := inferInstanceAs (Decidable (_ = true))

/-- The journal counts more resumes of the task than its budget allows. -/
def ResumesSpent : Prop := QueuedTask.resumeBudget { task := t } < st.resumes.getD t.id 0

/-- The task requires a boundary check, or has a need behind a boundary. -/
inductive BehindBoundary (plan : Plan) (boundaries : GoMap String) : Task → Prop
  | requires {t : Task} (mem : t ∈ plan.tasks) (requires : RequiresBoundary boundaries t) :
      BehindBoundary plan boundaries t
  | need {t d : Task} (mem : t ∈ plan.tasks) (needs : d.id ∈ t.needs)
      (behind : BehindBoundary plan boundaries d) : BehindBoundary plan boundaries t

/-- The task is open, and requires a boundary check, has spent its resumes, or has a need that is
still blocked. -/
inductive StillBlocked (plan : Plan) (boundaries : GoMap String) (st : ResumeState) : Task → Prop
  | requires {t : Task} (mem : t ∈ plan.tasks) (isOpen : ¬ RecordedSuccess st t)
      (requires : RequiresBoundary boundaries t) : StillBlocked plan boundaries st t
  | resumes {t : Task} (mem : t ∈ plan.tasks) (isOpen : ¬ RecordedSuccess st t)
      (spent : ResumesSpent st t) : StillBlocked plan boundaries st t
  | need {t d : Task} (mem : t ∈ plan.tasks) (isOpen : ¬ RecordedSuccess st t)
      (needs : d.id ∈ t.needs) (blocked : StillBlocked plan boundaries st d) :
      StillBlocked plan boundaries st t

variable {plan : Plan} {boundaries : GoMap String} {t : Task}

lemma BehindBoundary.mem (h : BehindBoundary plan boundaries t) : t ∈ plan.tasks := by cases h <;> assumption

variable {st : ResumeState}

lemma StillBlocked.mem (h : StillBlocked plan boundaries st t) : t ∈ plan.tasks := by cases h <;> assumption

namespace Queue

lemma boundaryHold_isSome_iff : (boundaryHold boundaries t).isSome = true ↔ RequiresBoundary boundaries t := by
  constructor
  · intro h
    unfold boundaryHold at h
    dsimp only at h
    split at h
    · cases h
    · next hne =>
      obtain ⟨text, htext⟩ := exists_mem_of_ne_nil _ hne
      obtain ⟨check, hcheck, hfound⟩ := mem_filterMap.mp htext
      obtain ⟨action, haction, -⟩ := Option.map_eq_some_iff.mp hfound
      exact ⟨check, hcheck, by rw [haction]; rfl⟩
  · rintro ⟨check, hmem, hfound⟩
    exact boundaryHold_isSome hmem hfound

/-! ## The holds propagation makes -/

variable {q : Queue} {u : QueuedTask}

lemma mem_modify {i : ℕ} {f : QueuedTask → QueuedTask} (h : u ∈ (q.modify i f).tasks) :
    u ∈ q.tasks ∨ ∃ t, q.tasks[i]? = some t ∧ u = f t := by
  obtain ⟨j, hj⟩ := mem_iff_getElem?.mp h
  rw [modify, List.getElem?_modify] at hj
  obtain ⟨t, ht, rfl⟩ := Option.map_eq_some_iff.mp hj
  by_cases hij : i = j
  · subst hij
    exact .inr ⟨t, ht, by simp⟩
  · exact .inl (by simpa [hij] using mem_of_getElem? ht)

/-- Tasks that are held or failed have the property, and those that may yet be held are eligible. -/
structure HeldWithin (held eligible : Task → Prop) (q : Queue) : Prop where
  lost : ∀ t ∈ q.tasks, t.state.lost = true → held t.task
  pending : ∀ t ∈ q.tasks, t.state = .pending → eligible t.task

section Propagation
variable {held eligible : Task → Prop} (h : HeldWithin held eligible q)
    (hneed : ∀ t d, eligible t → d.id ∈ t.needs → held d → held t)
include h hneed

lemma HeldWithin.holdIfBlocked (i : ℕ) : HeldWithin held eligible (q.holdIfBlocked i) := by
  unfold Queue.holdIfBlocked
  split
  · exact h
  · next t ht =>
    split
    · next hblocked =>
      obtain ⟨hpending, hne⟩ := hblocked
      have htmem : t ∈ q.tasks := mem_of_getElem? ht
      -- Some need of the task can no longer succeed, so it has the property, and so has the task.
      have htask : held t.task := by
        rw [Ne, blockedBy_eq_nil] at hne
        push Not at hne
        obtain ⟨need, hmem, s, hs, hlost⟩ := hne
        obtain ⟨d, hd, rfl⟩ := Option.map_eq_some_iff.mp hs
        obtain ⟨hdmem, rfl⟩ := mem_of_task?_eq_some hd
        exact hneed t.task d.task (h.pending t htmem hpending) hmem (h.lost d hdmem (by simpa using hlost))
      constructor
      · intro u hu hlost
        rcases mem_modify hu with hold | ⟨w, hw, rfl⟩
        · exact h.lost u hold hlost
        · cases ht.symm.trans hw
          exact htask
      · intro u hu hstate
        rcases mem_modify hu with hold | ⟨w, -, rfl⟩
        · exact h.pending u hold hstate
        · cases hstate
    · exact h

lemma HeldWithin.foldl (is : List ℕ) : HeldWithin held eligible (is.foldl Queue.holdIfBlocked q) := by
  induction is generalizing q with
  | nil => exact h
  | cons i is ih => exact ih (h.holdIfBlocked hneed i)

lemma HeldWithin.propagate (fuel : ℕ) : HeldWithin held eligible (Queue.propagate fuel q) := by
  induction fuel generalizing q with
  | zero => exact h
  | succ fuel ih =>
    unfold Queue.propagate
    split
    · exact h
    · exact ih (h.foldl hneed _)

lemma HeldWithin.propagateHolds : HeldWithin held eligible q.propagateHolds := h.propagate hneed _

end Propagation

/-! ## The queue a plan starts with -/

lemma behindBoundary_of_new (hu : u ∈ (new plan boundaries).tasks) (hlost : u.state.lost = true) :
    BehindBoundary plan boundaries u.task := by
  refine (@HeldWithin.propagateHolds _ (BehindBoundary plan boundaries) (fun t => t ∈ plan.tasks)
    ⟨?_, ?_⟩ ?_).lost u hu hlost
  · intro t ht hl
    obtain ⟨task, hmem, rfl⟩ := mem_map.mp ht
    cases hb : boundaryHold boundaries task with
    | none => simp [hb, TaskState.lost] at hl
    | some why => exact .requires hmem (boundaryHold_isSome_iff.mp (by rw [hb]; rfl))
  · intro t ht _
    obtain ⟨task, hmem, rfl⟩ := mem_map.mp ht
    split <;> exact hmem
  · intro t d hmem hneed hd
    exact .need hmem hneed hd

lemma held_new_of_behindBoundary (hplan : plan.Valid) (h : BehindBoundary plan boundaries t) :
    ∀ u ∈ (new plan boundaries).tasks, u.task = t → u.state = .held := by
  suffices hpending : ∀ u ∈ (new plan boundaries).tasks, u.task = t → u.state ≠ .pending by
    intro u hu htask
    exact (new_entry hu).2.1.resolve_left (hpending u hu htask)
  induction h with
  | requires _ hreq =>
    rintro u hu rfl
    exact (new_entry hu).2.2 (boundaryHold_isSome_iff.mpr hreq)
  | @need t d _ hneeds hd ih =>
    rintro u hu rfl hp
    obtain ⟨v, hv, rfl, hlost⟩ := (sound_new plan boundaries).need_not_lost hplan hu hp hd.mem hneeds
    have hheld := (new_entry hv).2.1.resolve_left (ih v hv rfl)
    rw [hheld] at hlost
    cases hlost

/-! ## The queue after a resume -/

lemma resumeBudget_pos (t : QueuedTask) : 0 < t.resumeBudget := by
  unfold QueuedTask.resumeBudget
  split
  · assumption
  · decide

lemma resumesSpent_iff : ResumesSpent st t ↔
      QueuedTask.resumeBudget { task := t } < max 0 (st.resumes.getD t.id 0) := by
  rw [ResumesSpent, lt_max_iff, or_iff_right (resumeBudget_pos _).not_gt]

section
variable (hu : u ∈ ((new plan boundaries).restore st).tasks)
include hu

lemma exists_new_of_restore :
    ∃ w ∈ (new plan boundaries).tasks, w.task = u.task ∧ HeldFrom (restoreTask st w) u := by
  obtain ⟨t, ht, hheld⟩ := (extends_propagateHolds _).exists_of_mem hu
  obtain ⟨w, hw, rfl⟩ := mem_map.mp ht
  exact ⟨w, hw, by rw [hheld.task_eq, restoreTask_task], hheld⟩

lemma startEntry_restore : StartEntry boundaries (some st) u := startEntry_of_mem hu

lemma restore_resumes (hopen : ¬ RecordedSuccess st u.task) :
    u.resumeBudget < u.resumes ↔ ResumesSpent st u.task := by
  obtain ⟨w, hw, htask, hheld⟩ := exists_new_of_restore hu
  rw [← htask] at hopen
  rw [hheld.resumes_eq, (restoreTask_counts hopen).2, (new_entry hw).1, htask, resumesSpent_iff]
  rfl

lemma restore_succeeded_iff : u.state = .succeeded ↔ RecordedSuccess st u.task := by
  constructor
  · intro h
    obtain ⟨st', hst', hsucc⟩ := (startEntry_restore hu).of_succeeded h
    cases hst'
    exact hsucc
  · intro h
    obtain ⟨w, -, htask, hheld⟩ := exists_new_of_restore hu
    have hstate : (restoreTask st w).state = .succeeded := by
      rw [RecordedSuccess] at h
      rw [restoreTask_state, htask, if_pos h]
    rcases hheld.state_eq with heq | ⟨hp, -⟩
    · exact heq.trans hstate
    · rw [hstate] at hp
      cases hp

lemma held_of_open (hopen : ¬ RecordedSuccess st u.task) (hne : u.state ≠ .pending) : u.state = .held := by
  cases hs : u.state with
  | pending => exact absurd hs hne
  | succeeded => exact absurd ((restore_succeeded_iff hu).mp hs) hopen
  | failed => exact absurd hs (startEntry_restore hu).not_failed
  | held => rfl

end

lemma held_restore_of_behindBoundary (hplan : plan.Valid) (hu : u ∈ ((new plan boundaries).restore st).tasks)
    (hbehind : BehindBoundary plan boundaries u.task) (hopen : ¬ RecordedSuccess st u.task) :
    u.state = .held := by
  obtain ⟨w, hw, htask, hheld⟩ := exists_new_of_restore hu
  have hw' := held_new_of_behindBoundary hplan hbehind w hw htask
  refine held_of_open hu hopen (hheld.ne_pending ?_)
  rw [restoreTask_state, hw']
  split
  · simp
  · split <;> simp

lemma held_restore_of_stillBlocked (hplan : plan.Valid) (h : StillBlocked plan boundaries st t) :
    ∀ u ∈ ((new plan boundaries).restore st).tasks, u.task = t → u.state = .held := by
  induction h with
  | requires _ hopen hreq =>
    rintro u hu rfl
    exact held_of_open hu hopen ((startEntry_restore hu).of_boundary (boundaryHold_isSome_iff.mpr hreq))
  | resumes _ hopen hspent =>
    rintro u hu rfl
    exact held_of_open hu hopen ((startEntry_restore hu).of_resume st rfl (.inr hspent))
  | @need t d _ hopen hneeds hd ih =>
    rintro u hu rfl
    refine held_of_open hu hopen fun hp => ?_
    obtain ⟨v, hv, rfl, hlost⟩ := ((sound_new plan boundaries).restore st).need_not_lost hplan hu hp hd.mem hneeds
    rw [ih v hv rfl] at hlost
    cases hlost

/-! ## Holds with a reason -/

/-- The task is held for a reason that can be seen now: it requires a boundary check, it has more
resumes than its budget, or one of its needs has failed or is held. -/
def HoldJustified (boundaries : GoMap String) (q : Queue) (t : QueuedTask) : Prop :=
  RequiresBoundary boundaries t.task ∨ t.resumeBudget < t.resumes ∨
    ∃ need ∈ t.task.needs, ∃ d ∈ q.task? need, d.state = .failed ∨ d.state = .held

instance (boundaries : GoMap String) (q : Queue) (t : QueuedTask) :
    Decidable (HoldJustified boundaries q t) :=
  inferInstanceAs (Decidable (RequiresBoundary boundaries t.task ∨ _ ∨ _))

lemma stillBlocked_of_held (hu : u ∈ ((new plan boundaries).restore st).tasks) (hheld : u.state = .held)
    (hall : ∀ t ∈ plan.tasks, ¬ RecordedSuccess st t → BehindBoundary plan boundaries t →
      StillBlocked plan boundaries st t) : StillBlocked plan boundaries st u.task := by
  refine (@HeldWithin.propagateHolds _ (StillBlocked plan boundaries st)
    (fun t => t ∈ plan.tasks ∧ ¬ RecordedSuccess st t) ⟨?_, ?_⟩ ?_).lost u hu (by rw [hheld]; rfl)
  · intro t ht hlost
    obtain ⟨w, hw, rfl⟩ := mem_map.mp ht
    have hmem := (sound_new plan boundaries).mem hw
    rw [restoreTask_task]
    rw [restoreTask_state] at hlost
    split at hlost
    · cases hlost
    · next hopen =>
      split at hlost
      · next hspent =>
        rw [(new_entry hw).1] at hspent
        exact .resumes hmem hopen (resumesSpent_iff.mpr hspent)
      · exact hall w.task hmem hopen (behindBoundary_of_new hw hlost)
  · intro t ht hpending
    obtain ⟨w, hw, rfl⟩ := mem_map.mp ht
    rw [restoreTask_task]
    refine ⟨(sound_new plan boundaries).mem hw, fun hsucc => ?_⟩
    rw [RecordedSuccess] at hsucc
    rw [restoreTask_state, if_pos hsucc] at hpending
    cases hpending
  · intro t d ht hneed hd
    exact .need ht.1 ht.2 hneed hd

lemma holdJustified_of_stillBlocked (hplan : plan.Valid) (hu : u ∈ ((new plan boundaries).restore st).tasks)
    (h : StillBlocked plan boundaries st u.task) :
    HoldJustified boundaries ((new plan boundaries).restore st) u := by
  generalize ht : u.task = t at h
  cases h with
  | requires _ _ hreq =>
    rw [← ht] at hreq
    exact .inl hreq
  | resumes _ hopen hspent =>
    rw [← ht] at hopen hspent
    exact .inr (.inl ((restore_resumes hu hopen).mpr hspent))
  | @need _ d _ _ hneeds hd =>
    have hsound := (sound_new plan boundaries).restore st
    have hmem := hd.mem
    rw [← hsound.tasks_eq] at hmem
    obtain ⟨w, hw, rfl⟩ := mem_map.mp hmem
    obtain ⟨v, hv, htask⟩ := hsound.exists_task? hplan hw
    refine .inr (.inr ⟨w.task.id, ht ▸ hneeds, v, hv, .inr ?_⟩)
    exact held_restore_of_stillBlocked hplan hd v (mem_of_task?_eq_some hv).1 htask

/-- Where every hold has a reason, every held task is still blocked: following the reasons down the
needs ends at a boundary or at a spent budget. -/
lemma stillBlocked_of_holdJustified (hplan : plan.Valid)
    (h : ∀ u ∈ ((new plan boundaries).restore st).tasks, u.state = .held →
      HoldJustified boundaries ((new plan boundaries).restore st) u) :
    ∀ u ∈ ((new plan boundaries).restore st).tasks, u.state = .held → StillBlocked plan boundaries st u.task := by
  have hsound := (sound_new plan boundaries).restore st
  by_contra hnot
  push Not at hnot
  obtain ⟨u₀, hu₀, hheld₀, hbad₀⟩ := hnot
  obtain ⟨order, hfin, hids⟩ := hplan.ordered
  obtain ⟨x, -, ⟨u, hu, rfl, hheld, hbad⟩, hlow⟩ := hfin.exists_lowest
    (fun id => ∃ u ∈ ((new plan boundaries).restore st).tasks, u.task.id = id ∧ u.state = .held ∧
      ¬ StillBlocked plan boundaries st u.task)
    ⟨u₀.task.id, hids _ (mem_map_of_mem (hsound.mem hu₀)), u₀, hu₀, rfl, hheld₀, hbad₀⟩
  have hopen : ¬ RecordedSuccess st u.task := fun hsucc => by
    rw [(restore_succeeded_iff hu).mpr hsucc] at hheld
    cases hheld
  rcases h u hu hheld with hreq | hspent | ⟨need, hneed, d, hd, hstate⟩
  · exact hbad (.requires (hsound.mem hu) hopen hreq)
  · exact hbad (.resumes (hsound.mem hu) hopen ((restore_resumes hu hopen).mp hspent))
  · obtain ⟨hdmem, rfl⟩ := mem_of_task?_eq_some hd
    have hdheld := hstate.resolve_left (startEntry_restore hdmem).not_failed
    by_cases hblocked : StillBlocked plan boundaries st d.task
    · exact hbad (.need (hsound.mem hu) hopen hneed hblocked)
    · exact hlow d.task.id (hplan.waits_eq (hsound.mem hu) ▸ hneed) (hplan.known (hsound.mem hdmem))
        ⟨d, hdmem, rfl, hdheld, hblocked⟩

end Queue

open Queue

/-- For every valid plan, every boundary map and every resume state: every task held after a resume
is held with a reason exactly when every open task that is behind a boundary through any needs is
behind a boundary or a spent resume budget through open tasks alone. -/
theorem restore_holds_justified_iff {plan : Plan} (hplan : plan.validate = .ok ())
    (boundaries : GoMap String) (st : ResumeState) :
    (∀ u ∈ ((new plan boundaries).restore st).tasks, u.state = .held →
      HoldJustified boundaries ((new plan boundaries).restore st) u) ↔
    ∀ t ∈ plan.tasks, ¬ RecordedSuccess st t → BehindBoundary plan boundaries t →
      StillBlocked plan boundaries st t := by
  have hvalid := Plan.valid_of_validate hplan
  constructor
  · intro h t ht hopen hbehind
    have hsound := (sound_new plan boundaries).restore st
    rw [← hsound.tasks_eq] at ht
    obtain ⟨u, hu, rfl⟩ := mem_map.mp ht
    exact stillBlocked_of_holdJustified hvalid h u hu (held_restore_of_behindBoundary hvalid hu hbehind hopen)
  · intro h u hu hheld
    exact holdJustified_of_stillBlocked hvalid hu (stillBlocked_of_held hu hheld h)

/-- A task that requires the check `deploy-key`, and a task that needs it. -/
def boundaryPlan : Plan :=
  { runID := "run", risk := .known .q0,
    tasks := [{ id := "a", argv := ["true"], requiresChecks := ["deploy-key"] },
      { id := "b", argv := ["true"], needs := ["a"] }] }

/-- The boundary the first task of `boundaryPlan` is behind. -/
def deployKeyBoundary : GoMap String := (∅ : GoMap String).set "deploy-key" "create the key"

/-- With nothing recorded as succeeded, both tasks are held with a reason. -/
theorem restore_holds_justified_fresh : boundaryPlan.validate = .ok () ∧
      ∀ u ∈ ((new boundaryPlan deployKeyBoundary).restore {}).tasks, u.state = .held →
        HoldJustified deployKeyBoundary ((new boundaryPlan deployKeyBoundary).restore {}) u := by
  have hvalid : boundaryPlan.validate = .ok () := by decide
  refine ⟨hvalid, (restore_holds_justified_iff hvalid deployKeyBoundary {}).mpr ?_⟩
  have ha : StillBlocked boundaryPlan deployKeyBoundary {}
      { id := "a", argv := ["true"], requiresChecks := ["deploy-key"] } :=
    .requires mem_cons_self (by decide) (by decide)
  intro t ht hopen _
  rcases mem_cons.mp ht with rfl | ht
  · exact ha
  · cases mem_singleton.mp ht
    exact .need (by decide) hopen (by decide) ha

/-- The journal records that the first task succeeded, once its boundary was cleared.  The second
task is held all the same, and without a reason: it requires no check, has no resumes, and its one
need has succeeded. -/
theorem restore_hold_survives_success : boundaryPlan.validate = .ok () ∧
      ∃ u ∈ ((new boundaryPlan deployKeyBoundary).restore
          { succeeded := (∅ : GoMap Bool).set "a" true }).tasks,
        u.state = .held ∧ ¬ HoldJustified deployKeyBoundary ((new boundaryPlan deployKeyBoundary).restore
            { succeeded := (∅ : GoMap Bool).set "a" true }) u := by
  decide

end DeliveryEngine.Unattended
