import DeliveryEngine.Unattended.RunSoundness

/-!
# The run and its own commits

Nobody else is around: the lock names this run throughout, the worktree stays on the fenced branch, and HEAD moves only
while a mutating task executes (`Undisturbed`).  The fence follows HEAD on the success path only, so a mutating attempt
that commits and then ends in any other way leaves the fence behind (`Call.Strays`), and the next one reports its own
run's commit as a foreign one.  `fence_cleared_iff` says that this is all.
-/

namespace DeliveryEngine.Unattended

open Go List

/-! ## Readings of an undisturbed worktree -/

/-- The HEAD a reading found. -/
def Ground.head (g : Ground) : String :=
  match g.repo with
  | .ok state => state.head
  | .error _ => ""

/-- The reading finds the lock with the fence's run and the worktree on its branch. -/
def Ground.Own (g : Ground) (f : Fence) : Prop :=
  g.owner = .ok (some ⟨f.runID, f.pid⟩) ∧
    match g.repo with
    | .ok state => state.branch = f.branch
    | .error _ => False

instance (g : Ground) (f : Fence) : Decidable (g.Own f) :=
  match hrepo : g.repo with
  | .ok state =>
    decidable_of_iff (g.owner = .ok (some ⟨f.runID, f.pid⟩) ∧ state.branch = f.branch) (by simp [Ground.Own, hrepo])
  | .error _ => .isFalse (by simp [Ground.Own, hrepo])

lemma Ground.Own.check_intact_iff {g : Ground} {f : Fence} (h : g.Own f) :
    (f.check g).intact = true ↔ g.head = f.head := by
  obtain ⟨howner, hbranch⟩ := h
  cases hrepo : g.repo with
  | error err => simp [hrepo] at hbranch
  | ok state =>
    rw [hrepo] at hbranch
    by_cases hhead : state.head = f.head <;>
      simp [Fence.check, howner, Fence.owns, Fence.checkRepo, hrepo, hbranch, hhead, FenceResult.intact, Ground.head]

lemma Ground.Own.advanced_eq {f : Fence} {t : Task} {s : Surroundings}
    (h : s.advanceGround.Own f) (hmut : t.mutates = true) :
    (Runner.advanced f t s).head = s.advanceGround.head ∧
      (Runner.advanced f t s).branch = f.branch ∧ (Runner.advanced f t s).runID = f.runID ∧
      (Runner.advanced f t s).pid = f.pid := by
  obtain ⟨howner, hbranch⟩ := h
  cases hrepo : s.advanceGround.repo with
  | error err => simp [hrepo] at hbranch
  | ok state =>
    rw [hrepo] at hbranch
    by_cases hhead : state.head = f.head <;>
      simp [Runner.advanced, hmut, Fence.recordAuthorisedAdvance, howner, Fence.owns, hrepo,
        hbranch, hhead, Ground.head]

/-- Over a list of calls, starting from a HEAD: the lock and the branch stay the run's, and HEAD
moves only while a mutating task executes. -/
def Undisturbed : String → List Call → Prop
  | _, [] => True
  | head, c :: cs =>
    c.surroundings.ground.Own c.before.fence ∧ c.surroundings.ground.head = head ∧
      c.surroundings.advanceGround.Own c.before.fence ∧
      (c.task.task.mutates = false → c.surroundings.advanceGround.head = head) ∧
      Undisturbed c.surroundings.advanceGround.head cs

def decideUndisturbed : (head : String) → (cs : List Call) → Decidable (Undisturbed head cs)
  | _, [] => .isTrue trivial
  | _, c :: cs =>
    have := decideUndisturbed c.surroundings.advanceGround.head cs
    inferInstanceAs (Decidable (_ ∧ _ ∧ _ ∧ _ ∧ _))

instance (head : String) (cs : List Call) : Decidable (Undisturbed head cs) := decideUndisturbed head cs

variable (host : Host) (c : Call)

/-- The call's mutating task moved HEAD and did not end in success. -/
def Call.Strays : Prop :=
  c.task.task.mutates = true ∧ (c.surroundings.verdict host c.before.spec).disposition ≠ .succeeded ∧
    c.surroundings.advanceGround.head ≠ c.surroundings.ground.head

instance (host : Host) (c : Call) : Decidable (c.Strays host) := inferInstanceAs (Decidable (_ ∧ _ ∧ _))

/-! ## What a call does to the fence -/

lemma Call.fence_after : (c.after host).fence =
      if c.Ends host .succeeded then Runner.advanced c.before.fence c.task.task c.surroundings
      else c.before.fence := by
  have hstep := c.stepped host
  generalize c.stops host = stop at hstep
  cases hstep with
  | violated reason why hmut hbroken _ hcore _ =>
    rw [if_neg fun hends => by rw [hends.1 hmut] at hbroken; cases hbroken]
    exact congrArg Core.fence hcore
  | succeeded hclear hd hcore _ =>
    rw [if_pos ⟨hclear, hd⟩]
    exact congrArg Core.fence hcore
  | resumed reason hclear hd hcore _ =>
    rw [if_neg fun hends => by rw [hends.2] at hd; cases hd]
    exact congrArg Core.fence hcore
  | blocked why outcome hclear hd _ _ hcore _ =>
    rw [if_neg fun hends => by rw [hends.2] at hd; cases hd]
    exact congrArg Core.fence hcore
  | failed why hclear hd _ hcore _ =>
    rw [if_neg fun hends => by rw [hends.2] at hd; rcases hd with hd | hd <;> cases hd]
    exact congrArg Core.fence hcore

/-! ## Whole runs -/

/-- Every fence check among the calls comes back clean. -/
def AllCleared (cs : List Call) : Prop := ∀ c ∈ cs, Cleared c.before c.task c.surroundings

/-- No mutating call comes after one that strays. -/
def NoneAfterStray (host : Host) (cs : List Call) : Prop :=
  cs.Pairwise (fun c d => c.Strays host → d.task.task.mutates = false)

variable {host : Host} {c : Call} {cs : List Call}

lemma noneAfterStray_cons (h : ¬ c.Strays host) : NoneAfterStray host (c :: cs) ↔ NoneAfterStray host cs := by
  unfold NoneAfterStray
  rw [pairwise_cons]
  exact and_iff_right fun d _ hstray => absurd hstray h

lemma noneAfterStray_cons_stray (h : c.Strays host) :
    NoneAfterStray host (c :: cs) ↔ ∀ d ∈ cs, d.task.task.mutates = false := by
  unfold NoneAfterStray
  rw [pairwise_cons]
  constructor
  · exact fun hall d hd => hall.1 d hd h
  · exact fun hall => ⟨fun d hd _ => hall d hd, pairwise_of_forall_mem_list fun _ _ d hd _ => hall d hd⟩

lemma allCleared_cons : AllCleared (c :: cs) ↔ Cleared c.before c.task c.surroundings ∧ AllCleared cs :=
  forall_mem_cons

/-- Where the fence stands after a call that does not stray, or that finds it behind: a fence at HEAD
follows HEAD, and a fence behind a task that does not mutate stays behind. -/
lemma Call.fence_head_after (hadv : c.surroundings.advanceGround.Own c.before.fence) : (c.after host).fence.head =
      if c.task.task.mutates = true ∧ c.Ends host .succeeded then
        c.surroundings.advanceGround.head
      else c.before.fence.head := by
  rw [c.fence_after]
  by_cases hends : c.Ends host .succeeded
  · rw [if_pos hends]
    by_cases hmut : c.task.task.mutates = true
    · rw [if_pos ⟨hmut, hends⟩, (hadv.advanced_eq hmut).1]
    · rw [if_neg fun h => hmut h.1, Runner.advanced, if_neg hmut]
  · rw [if_neg hends, if_neg fun h => hends h.2]

lemma allCleared_cons_of_synced (hown : c.surroundings.ground.Own c.before.fence)
    (hadv : c.surroundings.advanceGround.Own c.before.fence)
    (hstill : c.task.task.mutates = false → c.surroundings.advanceGround.head = c.surroundings.ground.head)
    (hsync : (c.after host).fence.head = c.surroundings.advanceGround.head →
      (AllCleared cs ↔ NoneAfterStray host cs))
    (hdrift : (c.after host).fence.head ≠ c.surroundings.advanceGround.head →
      (AllCleared cs ↔ ∀ d ∈ cs, d.task.task.mutates = false))
    (hhead : c.before.fence.head = c.surroundings.ground.head) :
    AllCleared (c :: cs) ↔ NoneAfterStray host (c :: cs) := by
  have hclear : Cleared c.before c.task c.surroundings := fun _ => hown.check_intact_iff.mpr hhead.symm
  rw [allCleared_cons, and_iff_right hclear]
  rw [Call.fence_head_after hadv] at hsync hdrift
  by_cases hstray : c.Strays host
  · have hnot : ¬ (c.task.task.mutates = true ∧ c.Ends host .succeeded) :=
      fun h => hstray.2.1 h.2.2
    rw [if_neg hnot, hhead] at hdrift
    rw [hdrift (Ne.symm hstray.2.2), noneAfterStray_cons_stray hstray]
  · rw [noneAfterStray_cons hstray]
    refine hsync ?_
    split
    · rfl
    · next hnot =>
      rw [hhead]
      by_cases hmut : c.task.task.mutates = true
      · -- It mutated without success and did not stray, so it left HEAD where it was.
        by_contra hmoved
        exact hstray ⟨hmut, fun hd => hnot ⟨hmut, hclear, hd⟩, Ne.symm hmoved⟩
      · exact (hstill (by simpa using hmut)).symm

lemma allCleared_cons_of_drifted (hown : c.surroundings.ground.Own c.before.fence)
    (hadv : c.surroundings.advanceGround.Own c.before.fence)
    (hstill : c.task.task.mutates = false → c.surroundings.advanceGround.head = c.surroundings.ground.head)
    (hdrift : (c.after host).fence.head ≠ c.surroundings.advanceGround.head →
      (AllCleared cs ↔ ∀ d ∈ cs, d.task.task.mutates = false))
    (hhead : c.before.fence.head ≠ c.surroundings.ground.head) :
    AllCleared (c :: cs) ↔ ∀ d ∈ c :: cs, d.task.task.mutates = false := by
  rw [allCleared_cons, forall_mem_cons]
  by_cases hmut : c.task.task.mutates = true
  · refine iff_of_false (fun h => ?_) (fun h => ?_)
    · exact hhead (hown.check_intact_iff.mp (h.1 hmut)).symm
    · rw [hmut] at h
      cases h.1
  · have hfalse : c.task.task.mutates = false := by simpa using hmut
    rw [Call.fence_head_after hadv, if_neg fun h => hmut h.1, hstill hfalse] at hdrift
    exact and_congr (iff_of_true (fun h => absurd h hmut) hfalse) (hdrift hhead)

/-- Where the fence stands at the start of an undisturbed run decides what the run may do: a fence at
HEAD allows everything but a mutation after a stray, and a fence behind HEAD no mutation at all. -/
lemma allCleared_calls (host : Host) (ss : List Surroundings) {r : Runner} {head : String}
    (h : Undisturbed head (calls host ss r)) :
    (r.fence.head = head → (AllCleared (calls host ss r) ↔ NoneAfterStray host (calls host ss r))) ∧
      (r.fence.head ≠ head →
        (AllCleared (calls host ss r) ↔ ∀ c ∈ calls host ss r, c.task.task.mutates = false)) := by
  refine calls_induction host (P := fun r cs => ∀ head, Undisturbed head cs →
    (r.fence.head = head → (AllCleared cs ↔ NoneAfterStray host cs)) ∧
      (r.fence.head ≠ head → (AllCleared cs ↔ ∀ c ∈ cs, c.task.task.mutates = false)))
    (by simp [AllCleared, NoneAfterStray]) (fun c cs _ ih head h => ?_) ss r head h
  obtain ⟨hown, rfl, hadv, hstill, hrest⟩ := h
  -- The rest of the run, from whatever HEAD the call left.
  obtain ⟨hsync, hdrift⟩ := ih _ hrest
  exact ⟨allCleared_cons_of_synced hown hadv hstill hsync hdrift, allCleared_cons_of_drifted hown hadv hstill hdrift⟩

/-- The run and its own commits.  When nobody else is around, every fence check of a run comes back
clean, and no call stops the run as a concurrent writer over a moved HEAD, exactly when no mutating
attempt follows one that moved HEAD and did not end in success. -/
theorem fence_cleared_iff (host : Host) (spec : Spec) (plan : Plan) (report : Report)
    (fence : Fence) (journal : Journal) (resume : Option ResumeState) (evidence : Ledger)
    (ss : List Surroundings)
    (hworld : Undisturbed fence.head (calls host ss (.ready spec plan report fence journal resume evidence))) :
    (∀ c ∈ calls host ss (.ready spec plan report fence journal resume evidence), c.task.task.mutates = true →
          (c.before.fence.check c.surroundings.ground).status = .intact ∧
            ¬ (c.stops host = true ∧ (c.after host).stopClass = .known .concurrentWriter ∧
              (c.before.fence.check c.surroundings.ground).status = .headMoved)) ↔
      (calls host ss (.ready spec plan report fence journal resume evidence)).Pairwise
        (fun c d => c.Strays host → d.task.task.mutates = false) := by
  refine Iff.trans ?_ ((allCleared_calls host ss hworld).1 rfl)
  refine forall₂_congr fun c _ => forall_congr' fun _ => ?_
  rw [FenceResult.intact, decide_eq_true_eq]
  refine and_iff_left_of_imp fun hintact hstop => ?_
  rw [hintact] at hstop
  cases hstop.2.2

/-- Two tasks that change the worktree. -/
def mutatingPlan : Plan :=
  { runID := "run", risk := .known .q0,
    tasks := [{ id := "a", argv := ["agent"], mutates := true },
              { id := "b", argv := ["agent"], mutates := true, band := .known .validation }] }

/-- A runner of that plan, fenced at commit `abc`. -/
def mutatingRunner : Runner :=
  .ready Runner.gatedSpec mutatingPlan ⟨"READY", []⟩ ⟨"/tree", "run", 1, "main", "abc", []⟩
    ⟨"run", 0, fun _ => Time.zero, []⟩ none ∅

/-- An attempt that starts at one commit of the run's branch and leaves it at another.  It was to
report a result, and reports it or not. -/
def committing (start finish : String) (result : Option ControllerResult) : Surroundings :=
  { Runner.calm with
    ground := ⟨.ok (some ⟨"run", 1⟩), .ok { branch := "main", head := start }⟩
    advanceGround := ⟨.ok (some ⟨"run", 1⟩), .ok { branch := "main", head := finish }⟩
    execution := { exitedZero := true, declaredResult := true, result := result } }

/-- Two tasks that commit and complete in turn pass every fence check. -/
theorem fence_cleared_iff_committed :
    let ss := [committing "abc" "def" (some { state := .known .complete }),
      committing "def" "fed" (some { state := .known .complete })]
    Undisturbed "abc" (calls .plain ss mutatingRunner) ∧ (calls .plain ss mutatingRunner).length = 2 ∧
      ∀ c ∈ calls .plain ss mutatingRunner, c.task.task.mutates = true →
        (c.before.fence.check c.surroundings.ground).status = .intact ∧
          ¬ (c.stops .plain = true ∧ (c.after .plain).stopClass = .known .concurrentWriter ∧
            (c.before.fence.check c.surroundings.ground).status = .headMoved) := by
  intro ss
  have hworld : Undisturbed "abc" (calls .plain ss mutatingRunner) := by decide
  refine ⟨hworld, by decide, ?_⟩
  refine (fence_cleared_iff .plain Runner.gatedSpec mutatingPlan _ _ _ none ∅ ss hworld).mpr ?_
  decide

/-- An attempt that commits and then leaves no result is tried again, and the retry stops the run
over the commit of its own first attempt. -/
theorem fence_reports_own_commit :
    let ss := [committing "abc" "def" none, committing "def" "def" none]
    Undisturbed "abc" (calls .plain ss mutatingRunner) ∧ (calls .plain ss mutatingRunner).map (fun c =>
          (c.task.task.id, (c.before.fence.check c.surroundings.ground).status,
            c.stops .plain, (c.after .plain).stopClass)) =
        [("a", .intact, false, .unset), ("a", .headMoved, true, .known .concurrentWriter)] := by
  decide

end DeliveryEngine.Unattended
