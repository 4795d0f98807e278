import DeliveryEngine.Unattended.Restart

/-!
# The run loop ends

A pending task has a credit of executions: `tries` of those that spend an attempt, `drives` of those that end resumably.
Holding a task takes its credit, no step gives a task more, and every execution spends one unit of its kind
(`Call.spends`).  So the sum over the tasks bounds the loop, and the credit of one task bounds its executions.
-/

namespace DeliveryEngine.Unattended

open Go List

/-! ## Credits -/

/-- The largest attempt budget of any policy; an undeclared class has one attempt. -/
def maxPolicyAttempts : ℤ :=
  ((Vocabulary.all : List FailureName).map (fun c => (policies c).maxAttempts)).foldl max 1

lemma maxAttempts_le (cls : FailureClass) : (policyFor cls).maxAttempts ≤ maxPolicyAttempts := by
  rcases cls with ⟨c⟩ | _
  · cases c <;> decide
  · exact (by decide : (1 : ℤ) ≤ maxPolicyAttempts)

namespace QueuedTask

variable (t : QueuedTask)

/-- The executions that spend an attempt a task has left, at most. -/
def tries : ℕ :=
  if t.state = .pending then
    max 1 (max maxPolicyAttempts t.task.maxAttempts - t.attempts.length).toNat
  else 0

/-- The executions that end resumably a task has left, at most. -/
def drives : ℕ :=
  if t.state = .pending then max 1 (t.resumeBudget + 1 - t.resumes).toNat else 0

lemma budget_le (cls : FailureClass) : t.budget cls ≤ max maxPolicyAttempts t.task.maxAttempts := by
  have hpolicy := maxAttempts_le cls
  unfold budget
  split <;> omega

end QueuedTask

open QueuedTask (tries drives resumeBudget)

lemma HeldFrom.credit_le {t u : QueuedTask} (h : HeldFrom t u) :
    u.task = t.task ∧ u.tries ≤ t.tries ∧ u.drives ≤ t.drives := by
  cases h with
  | refl => exact ⟨rfl, le_refl _, le_refl _⟩
  | hold _ reason => simp [QueuedTask.holdFor, tries, drives]

variable {w : QueuedTask → ℕ}

lemma Queue.Acts.sum_le {q q' : Queue} {i : ℕ} {t t' : QueuedTask} (h : Acts q q' i t t')
    (hw : ∀ t u, HeldFrom t u → w u ≤ w t) :
    (q'.tasks.map w).sum + w t ≤ (q.tasks.map w).sum + w t' := by
  have hheld : (q'.tasks.map w).sum ≤ ((q.modify i fun _ => t').tasks.map w).sum := by
    obtain ⟨-, htasks⟩ := h.result
    generalize (q.modify i fun _ => t').tasks = l at htasks ⊢
    generalize q'.tasks = l' at htasks ⊢
    induction htasks with
    | nil => exact le_refl _
    | cons hone _ ih =>
      have hle := hw _ _ hone
      simp only [map_cons, sum_cons]
      omega
  have hset : ∀ (l : List QueuedTask) (i : ℕ), l[i]? = some t →
      ((l.modify i fun _ => t').map w).sum + w t = (l.map w).sum + w t' := by
    intro l
    induction l with
    | nil => simp
    | cons u l ih =>
      rintro (_ | i) hi
      · obtain rfl : u = t := by simpa using hi
        simp only [modify_zero_cons, map_cons, sum_cons]
        omega
      · have hrest := ih i (by simpa using hi)
        simp only [modify_succ_cons, map_cons, sum_cons]
        omega
  have hchange := hset q.tasks i h.at_eq
  unfold Queue.modify at hheld
  dsimp only at hheld
  omega

/-! ## What a call spends -/

namespace Call

variable (host : Host)

/-- The call executes its task, and the execution spends an attempt. -/
def Tries (c : Call) : Prop :=
  Cleared c.before c.task c.surroundings ∧ (c.surroundings.verdict host c.before.spec).disposition.resumable = false

/-- The call executes its task, and the execution ends resumably. -/
def Drives (c : Call) : Prop :=
  Cleared c.before c.task c.surroundings ∧ (c.surroundings.verdict host c.before.spec).disposition.resumable = true

instance (c : Call) : Decidable (c.Tries host) := inferInstanceAs (Decidable (_ ∧ _))

instance (c : Call) : Decidable (c.Drives host) := inferInstanceAs (Decidable (_ ∧ _))

lemma spends {c : Call} (hnext : c.before.queue.next = some (c.index, c.task)) :
    ∃ t', Queue.Acts c.before.queue (c.after host).queue c.index c.task t' ∧
      t'.tries + (if c.Tries host then 1 else 0) ≤ c.task.tries ∧
      t'.drives + (if c.Drives host then 1 else 0) ≤ c.task.drives ∧
      (c.stops host = false → c.Tries host ∨ c.Drives host) := by
  obtain ⟨ht, hpending⟩ := Queue.pending_of_next hnext
  have htries : 1 ≤ c.task.tries := by simp [tries, hpending]
  have hdrives : 1 ≤ c.task.drives := by simp [drives, hpending]
  -- A task that is finished with has no credit left.
  have hdone : ∀ t' : QueuedTask, t'.state ≠ .pending → t'.tries + (if c.Tries host then 1 else 0) ≤ c.task.tries ∧
        t'.drives + (if c.Drives host then 1 else 0) ≤ c.task.drives := by
    intro t' hstate
    rw [tries, drives, if_neg hstate, if_neg hstate]
    constructor <;> split <;> omega
  have hstep := c.stepped host
  generalize c.stops host = stop at hstep
  cases hstep with
  | violated reason why _ _ _ hcore _ =>
    rw [show (c.after host).queue = _ from congrArg Core.queue hcore]
    exact ⟨_, Queue.acts_hold ht reason, and_assoc.mp ⟨hdone _ (by simp [QueuedTask.holdFor]), by simp⟩⟩
  | succeeded hclear hd hcore _ =>
    rw [show (c.after host).queue = _ from congrArg Core.queue hcore]
    obtain ⟨t', hacts, htally, -⟩ := Queue.acts_recordAttempt ht c.surroundings.success
    have hstate : t'.state = .succeeded := of_decide_eq_true (congrArg Tally.succeeded htally)
    exact ⟨t', hacts, and_assoc.mp ⟨hdone t' (by simp [hstate]), fun _ => .inl ⟨hclear, by rw [hd]; rfl⟩⟩⟩
  | resumed reason hclear hd hcore _ =>
    rw [show (c.after host).queue = _ from congrArg Core.queue hcore]
    obtain ⟨t', hacts, htally, hbudget⟩ := Queue.acts_drivenAgain ht reason
    have hdrive : c.Drives host := ⟨hclear, hd⟩
    refine ⟨t', hacts, and_assoc.mp ⟨?_, fun _ => .inr hdrive⟩⟩
    by_cases hstate : t'.state = .pending
    · have hattempts : (t'.attempts.length : ℤ) = c.task.attempts.length :=
        congrArg Tally.attempts htally
      have hresumes : t'.resumes = c.task.resumes + 1 := congrArg Tally.resumes htally
      have hleft := hbudget hstate
      have hnot : ¬ c.Tries host := fun h => by
        rw [h.2] at hd
        cases hd
      simp only [tries, drives, resumeBudget, hstate, hpending,
        hacts.task_eq, if_true, if_neg hnot, if_pos hdrive] at hleft ⊢
      omega
    · exact hdone t' hstate
  | blocked why outcome _ _ _ _ hcore _ =>
    rw [show (c.after host).queue = _ from congrArg Core.queue hcore]
    exact ⟨_, Queue.acts_hold ht _, and_assoc.mp ⟨hdone _ (by simp [QueuedTask.holdFor]), by simp⟩⟩
  | failed why hclear hd _ hcore _ =>
    rw [show (c.after host).queue = _ from congrArg Core.queue hcore]
    obtain ⟨t', hacts, htally, hbudget⟩ := Queue.acts_recordAttempt ht
      (c.surroundings.failure (c.surroundings.verdict host c.before.spec))
    have htry : c.Tries host := ⟨hclear, by rcases hd with hd | hd <;> rw [hd] <;> rfl⟩
    refine ⟨t', hacts, and_assoc.mp ⟨?_, fun _ => .inl htry⟩⟩
    by_cases hstate : t'.state = .pending
    · have hattempts : (t'.attempts.length : ℤ) = c.task.attempts.length + 1 :=
        congrArg Tally.attempts htally
      have hresumes : t'.resumes = c.task.resumes := congrArg Tally.resumes htally
      have hleft := hbudget hstate
      have hcap := c.task.budget_le (c.surroundings.failure (c.surroundings.verdict host c.before.spec)).cls
      have hnot : ¬ c.Drives host := fun h => by
        have hboth := h.2
        rw [htry.2] at hboth
        cases hboth
      simp only [tries, drives, resumeBudget, QueuedTask.attemptCount,
        hstate, hpending, hacts.task_eq, if_true, if_pos htry, if_neg hnot] at hleft ⊢
      omega
    · exact hdone t' hstate

end Call

/-! ## The loop -/

lemma Runner.isSome_loop (host : Host) {turns : List Runner.Turn} {r : Runner}
    (h : (r.queue.tasks.map fun t => t.tries + t.drives).sum < turns.length) :
    (r.loop host turns).isSome = true := by
  induction turns generalizing r with
  | nil => cases h
  | cons turn turns ih =>
    cases turn with
    | cancelled err => rfl
    | taken s =>
      rw [Runner.loop]
      cases hnext : r.queue.next with
      | none => rfl
      | some p =>
        obtain ⟨i, t⟩ := p
        obtain ⟨t', hacts, htries, hdrives, hstops⟩ := Call.spends host (c := ⟨r, i, t, s⟩) hnext
        have hsum := hacts.sum_le (w := fun t => t.tries + t.drives) fun t u h =>
          Nat.add_le_add h.credit_le.2.1 h.credit_le.2.2
        cases hstop : (r.runOne host i t s).2 with
        | true => simp [hstop]
        | false =>
          have hspent := hstops hstop
          simp only [hstop, Bool.false_eq_true, if_false]
          refine ih ?_
          have hone : 1 ≤ (if Call.Tries host ⟨r, i, t, s⟩ then 1 else 0) +
              (if Call.Drives host ⟨r, i, t, s⟩ then 1 else 0) := by
            rcases hspent with hspent | hspent <;> simp [hspent]
          have hafter : (r.runOne host i t s).1.queue = (Call.after host ⟨r, i, t, s⟩).queue := rfl
          rw [hafter]
          simp only [length_cons] at h hsum htries hdrives ⊢
          omega

lemma countP_calls_le (host : Host) (hw : ∀ t u, HeldFrom t u → w u ≤ w t) {p : Call → Bool}
    (hspend : ∀ c t', t'.task = c.task.task → t'.tries + (if c.Tries host then 1 else 0) ≤ c.task.tries →
      t'.drives + (if c.Drives host then 1 else 0) ≤ c.task.drives →
      w t' + (if p c then 1 else 0) ≤ w c.task) (ss : List Surroundings) (r : Runner) :
    (calls host ss r).countP p ≤ (r.queue.tasks.map w).sum := by
  refine calls_induction host (P := fun r cs => cs.countP p ≤ (r.queue.tasks.map w).sum) (by simp)
    (fun c cs hnext ih => ?_) ss r
  obtain ⟨t', hacts, htries, hdrives, -⟩ := Call.spends host hnext
  have hsum := hacts.sum_le hw
  have hone := hspend c t' hacts.task_eq htries hdrives
  rw [countP_cons]
  omega

/-! ## The queue a run starts from -/

namespace Queue

lemma resumes_start {plan : Plan} {boundaries : GoMap String} {resume : Option ResumeState}
    {u : QueuedTask} (hu : u ∈ (start plan boundaries resume).tasks) : 0 ≤ u.resumes := by
  cases resume with
  | none => exact (new_entry hu).1.ge
  | some st =>
    obtain ⟨t, ht, hheld⟩ := (extends_propagateHolds _).exists_of_mem hu
    obtain ⟨w, hw, rfl⟩ := mem_map.mp ht
    have hnew := (new_entry hw).1
    rw [hheld.resumes_eq]
    unfold restoreTask
    dsimp only
    split_ifs <;> simp [QueuedTask.holdFor, hnew]

lemma Sound.sum_weight_le {plan : Plan} {q : Queue} (h : Sound plan q) (hplan : plan.Valid)
    {t : Task} (ht : t ∈ plan.tasks) {n : ℕ} (hw : ∀ u ∈ q.tasks, u.task = t → w u ≤ n) :
    (q.tasks.map fun u => if u.task = t then w u else 0).sum ≤ n := by
  rw [← h.tasks_eq] at ht
  obtain ⟨u, hu, rfl⟩ := mem_map.mp ht
  have hnodup : (q.tasks.map QueuedTask.task).Nodup := h.tasks_eq ▸ hplan.ids_nodup.of_map _
  rw [sum_map_eq_nsmul_single u _ fun v hne hv => if_neg fun heq =>
    hne (inj_on_of_nodup_map hnodup hv hu heq), if_pos rfl,
    count_eq_one_of_mem (hnodup.of_map _) hu, one_nsmul]
  exact hw u hu rfl

end Queue

/-- The run loop ends.  In a run of an accepted plan, under any boundaries and whatever an earlier run
left behind: every infinite sequence of turns has a prefix that ends the loop; and, for as long as the
loop runs, a task is executed at most as often as the largest policy budget or its own attempt bound
says without ending resumably, and at most once more than its resume budget with ending resumably. -/
theorem run_ends (host : Host) (plan : Plan) (hplan : plan.validate = .ok ())
    (boundaries : GoMap String) (resume : Option ResumeState) (r : Runner)
    (hqueue : r.queue = Queue.start plan boundaries resume) :
    (∀ turns : ℕ → Runner.Turn, ∃ n, (r.loop host ((List.range n).map turns)).isSome = true) ∧
      ∀ (ss : List Surroundings), ∀ t ∈ plan.tasks,
        ((calls host ss r).countP (fun c => c.task.task = t ∧ c.Tries host) : ℤ) ≤
            max maxPolicyAttempts t.maxAttempts ∧
          ((calls host ss r).countP (fun c => c.task.task = t ∧ c.Drives host) : ℤ) ≤
            resumeBudget { task := t } + 1 := by
  have hvalid := Plan.valid_of_validate hplan
  have hsound : Queue.Sound plan r.queue := hqueue ▸ Queue.sound_start plan boundaries resume
  refine ⟨fun turns => ⟨(r.queue.tasks.map fun t => t.tries + t.drives).sum + 1,
    Runner.isSome_loop host ?_⟩, fun ss t ht => ⟨?_, ?_⟩⟩
  · rw [length_map, length_range]
    exact Nat.lt_succ_self _
  · have hcount := countP_calls_le host (w := fun u => if u.task = t then u.tries else 0)
      (p := fun c => c.task.task = t ∧ c.Tries host)
      (fun u v h => by simp only [h.credit_le.1]; split <;> simp [h.credit_le.2.1])
      (fun c t' htask htries _ => by
        by_cases h : c.task.task = t <;> by_cases h' : c.Tries host <;> simp_all) ss r
    have hpos : (1 : ℤ) ≤ maxPolicyAttempts := by decide
    have hsum := hsound.sum_weight_le hvalid ht (w := tries)
      (n := (max maxPolicyAttempts t.maxAttempts).toNat) (fun u _ hu => by
        rw [tries, hu]
        split <;> omega)
    omega
  · have hcount := countP_calls_le host (w := fun u => if u.task = t then u.drives else 0)
      (p := fun c => c.task.task = t ∧ c.Drives host)
      (fun u v h => by simp only [h.credit_le.1]; split <;> simp [h.credit_le.2.2])
      (fun c t' htask _ hdrives => by
        by_cases h : c.task.task = t <;> by_cases h' : c.Drives host <;> simp_all) ss r
    have hpos : 0 ≤ resumeBudget { task := t } := by
      unfold resumeBudget defaultMaxResumes
      split <;> omega
    have hsum := hsound.sum_weight_le hvalid ht (w := drives)
      (n := (resumeBudget { task := t } + 1).toNat) (fun u hu heq => by
        have hresumes := Queue.resumes_start (hqueue ▸ hu)
        have hbudget : u.resumeBudget = resumeBudget { task := t } := by
          rw [resumeBudget, heq]
          rfl
        rw [drives]
        split <;> omega)
    omega

/-- A run whose one task asks to continue every time ends all the same. -/
theorem run_ends_continuing : lonePlan.validate = .ok () ∧ ∃ n, (loneRunner.loop .plain
        ((List.range n).map fun _ => .taken (reporting .continue))).isSome = true :=
  ⟨by decide, (run_ends .plain lonePlan (by decide) ∅ none loneRunner rfl).1 _⟩

end DeliveryEngine.Unattended
