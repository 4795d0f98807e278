import DeliveryEngine.Handoff.Supersession
import DeliveryEngine.Unattended.RunOrder

/-!
# The compiled run respects the delivery graph

Each live package has the tasks its kind calls for, once each, and however the run goes, whatever lives it takes,
nothing of a package is done before the packages it depends on are published (`compile_sequenced`).  A task is
recognised by what it has the driver do, not by its name: `publish-projection` could be the name of either of two tasks.
-/

namespace DeliveryEngine.Handoff

open Go Unattended List

/-! ## The tasks of a package -/

/-- The task has the driver perform a stage for the package with the id. -/
def performs (stage id : String) (t : Task) : Bool := t.argv.tail.take 3 = [stage, "-package", id]

/-- The tasks that perform a stage for a package. -/
def tasksFor (work : Unattended.Plan) (stage id : String) : List Task := work.tasks.filter (performs stage id)

/-- The stages a package goes through. -/
def packageStages : List String := [stageAwait, stagePublish, stageVerify]

variable {t : Task}

section Tasks
variable {toLower : Char → Char} {intent : Intent} {plan : DeliveryPlan} {host : HostProfile}
  {runID stage id : String} {wp : WorkPackage}

lemma performs_packageArgs {s : String} (h : t.argv = host.driver :: packageArgs intent host s wp) :
    performs stage id t = true ↔ s = stage ∧ wp.id = id := by
  rw [performs, h, decide_eq_true_eq]
  change [s, "-package", wp.id] = [stage, "-package", id] ↔ _
  simp

@[simp] lemma performs_awaitTask :
    performs stage id (awaitTask intent host wp) = true ↔ stageAwait = stage ∧ wp.id = id :=
  performs_packageArgs rfl

@[simp] lemma performs_publishTask :
    performs stage id (publishTask intent host wp) = true ↔ stagePublish = stage ∧ wp.id = id :=
  performs_packageArgs rfl

@[simp] lemma performs_verifyTask :
    performs stage id (verifyTask intent host wp) = true ↔ stageVerify = stage ∧ wp.id = id :=
  performs_packageArgs rfl

lemma filter_packageTasks_of_ne (h : wp.id ≠ id) :
    (packageTasks intent host wp).filter (performs stage id) = [] := by
  unfold packageTasks
  split_ifs
  · simp [h]
  · simp [h]

lemma performs_of_stage {s : String} {args : List String} (h : t.argv = host.driver :: s :: args)
    (hs : s ∉ packageStages) (hstage : stage ∈ packageStages) : performs stage id t = false := by
  rw [performs, h, decide_eq_false_iff_not]
  rintro heq
  have hfirst : s = stage := by simpa using congrArg List.head? heq
  exact hs (hfirst ▸ hstage)

lemma tasksFor_compileWork (hstage : stage ∈ packageStages) :
    tasksFor (compileWork intent plan host runID) stage id =
      (orderPackages plan).flatMap (fun wp => (packageTasks intent host wp).filter (performs stage id)) := by
  have hcity : performs stage id (cityUpTask intent host) = false := performs_of_stage rfl (by decide) hstage
  have hdispatch : performs stage id (dispatchTask intent host) = false := performs_of_stage rfl (by decide) hstage
  have hproject : performs stage id (projectTask intent host plan) = false :=
    performs_of_stage rfl (by decide) hstage
  have hpublish : performs stage id (publishProjectionTask intent host) = false :=
    performs_of_stage rfl (by decide) hstage
  simp [tasksFor, compileWork, filter_append, filter_flatMap, hcity, hdispatch, hproject, hpublish]

variable (h : plan.Accepted toLower intent)
include h

lemma tasksFor_of_live (hwp : wp ∈ plan.allPackages) (hstage : stage ∈ packageStages) :
    tasksFor (compileWork intent plan host runID) stage wp.id =
      (packageTasks intent host wp).filter (performs stage wp.id) := by
  obtain ⟨before, after, horder⟩ := append_of_mem ((orderPackages_perm h).mem_iff.mpr hwp)
  have hnodup : ((orderPackages plan).map WorkPackage.id).Nodup :=
    ((orderPackages_perm h).map WorkPackage.id).nodup_iff.mpr h.ids_nodup
  rw [horder, map_append, map_cons, nodup_middle, nodup_cons, mem_append, not_or] at hnodup
  have hnone : ∀ pkgs : List WorkPackage, wp.id ∉ pkgs.map WorkPackage.id →
      pkgs.flatMap (fun other => (packageTasks intent host other).filter (performs stage wp.id)) = [] := by
    intro pkgs hpkgs
    refine flatMap_eq_nil_iff.mpr fun other hother => filter_packageTasks_of_ne fun heq => ?_
    exact hpkgs (heq ▸ mem_map_of_mem hother)
  rw [tasksFor_compileWork hstage, horder, flatMap_append, flatMap_cons, hnone before hnodup.1.1,
    hnone after hnodup.1.2, nil_append, append_nil]

lemma tasksFor_of_not_live (hid : id ∉ plan.allPackages.map WorkPackage.id)
    (hstage : stage ∈ packageStages) : tasksFor (compileWork intent plan host runID) stage id = [] := by
  rw [tasksFor_compileWork hstage, flatMap_eq_nil_iff]
  intro wp hwp
  refine filter_packageTasks_of_ne fun heq => hid ?_
  rw [← heq]
  exact mem_map_of_mem ((orderPackages_perm h).mem_iff.mp hwp)

end Tasks

/-! ## The run -/

/-- What a run owes the delivery graph. -/
structure Sequenced (intent : Intent) (plan : DeliveryPlan) (host : HostProfile) (work : Unattended.Plan) :
    Prop where
  /-- A package that changes the repository is awaited once and published once. -/
  mutation : ∀ wp ∈ plan.allPackages, wp.isVerification = false →
    tasksFor work stageAwait wp.id = [awaitTask intent host wp] ∧
      tasksFor work stagePublish wp.id = [publishTask intent host wp]
  /-- A package that checks evidence is verified once. -/
  verification : ∀ wp ∈ plan.allPackages, wp.isVerification = true →
    tasksFor work stageVerify wp.id = [verifyTask intent host wp]
  superseded : ∀ id ∈ plan.superseded, ∀ stage ∈ packageStages, tasksFor work stage id = []
  /-- The projection is rendered by one task, which needs what finishes each package. -/
  project : ∃ t ∈ work.tasks, t.id = stageProject ∧ ∀ wp ∈ plan.allPackages, wp.finishID ∈ t.needs
  /-- Nothing of a package is done before the packages it depends on are published. -/
  upstream : ∀ (env : Host) (x : Lives env work) before earlier call, x.Makes before earlier call →
    ∀ wp ∈ plan.allPackages,
      call.task.task ∈ tasksFor work stageAwait wp.id ∨ call.task.task ∈ tasksFor work stagePublish wp.id →
      ∀ dep ∈ wp.dependsOn, ∃ up ∈ plan.allPackages, up.id = dep ∧ up.isVerification = false ∧
        SucceededBefore env work before earlier (publishTask intent host up).id
  /-- The projection is neither rendered nor published before every package is finished. -/
  projection : ∀ (env : Host) (x : Lives env work) before earlier call, x.Makes before earlier call →
    call.task.task.id = stageProject ∨ call.task.task.id = stagePublishProjection →
      ∀ wp ∈ plan.allPackages, SucceededBefore env work before earlier wp.finishID

section Run
variable {toLower : Char → Char} {intent : Intent} {plan : DeliveryPlan} {host : HostProfile}
  {runID : String}

lemma upstream_subset_needs (h : plan.Accepted toLower intent) {wp : WorkPackage} (hwp : wp ∈ plan.allPackages)
    (ht : t ∈ tasksFor (compileWork intent plan host runID) stageAwait wp.id ∨
      t ∈ tasksFor (compileWork intent plan host runID) stagePublish wp.id) : wp.upstream ⊆ t.needs := by
  have hmem : t ∈ packageTasks intent host wp ∧ t ≠ verifyTask intent host wp := by
    rcases ht with ht | ht
    all_goals
      rw [tasksFor_of_live h hwp (by decide), mem_filter] at ht
      refine ⟨ht.1, ?_⟩
      rintro rfl
      exact absurd (performs_verifyTask.mp ht.2).1 (by decide)
  obtain ⟨hmem, hne⟩ := hmem
  unfold packageTasks at hmem
  split_ifs at hmem
  · exact absurd (mem_singleton.mp hmem) hne
  · rw [mem_cons, mem_singleton] at hmem
    rcases hmem with rfl | rfl
    · exact subset_cons_self _ _
    · exact subset_cons_self _ _

lemma projectTask_mem : projectTask intent host plan ∈ (compileWork intent plan host runID).tasks := by
  simp [compileWork]

lemma publishProjectionTask_mem :
    publishProjectionTask intent host ∈ (compileWork intent plan host runID).tasks := by
  simp [compileWork]

/-- A run that was compiled respects the delivery graph. -/
theorem compile_sequenced {library : Library} {spec : RunSpec} {work : Unattended.Plan}
    (hcompile : compile intent plan host library toLower runID = .ok (spec, work)) :
    Sequenced intent plan host work := by
  obtain ⟨haccepted, rfl, hvalid⟩ := compile_eq_ok hcompile
  have hsame : ∀ t ∈ (compileWork intent plan host runID).tasks,
      ∀ u ∈ (compileWork intent plan host runID).tasks, t.id = u.id → t = u :=
    fun t ht u hu hid => inj_on_of_nodup_map hvalid.ids_nodup ht hu hid
  refine ⟨fun wp hwp hkind => ⟨?_, ?_⟩, fun wp hwp hkind => ?_, fun id hid stage hstage => ?_,
    ⟨_, projectTask_mem, rfl, fun wp hwp => mem_map_of_mem hwp⟩, ?_, ?_⟩
  · rw [tasksFor_of_live haccepted hwp (by decide)]
    simp [packageTasks, hkind, stageAwait, stagePublish]
  · rw [tasksFor_of_live haccepted hwp (by decide)]
    simp [packageTasks, hkind, stageAwait, stagePublish]
  · rw [tasksFor_of_live haccepted hwp (by decide)]
    simp [packageTasks, hkind]
  · exact tasksFor_of_not_live haccepted (haccepted.notMem_of_superseded hid) hstage
  · intro env x before earlier call hmakes wp hwp htask dep hdep
    obtain ⟨-, hlive, hmutation⟩ := haccepted.dependency wp hwp dep hdep
    obtain ⟨up, hup, rfl⟩ := mem_map.mp hlive
    have hkind : up.isVerification = false := by
      by_contra hverification
      exact hmutation (mem_map_of_mem (mem_filter.mpr ⟨hup, by simpa using hverification⟩))
    refine ⟨up, hup, rfl, hkind, hmakes.needs_succeeded ?_⟩
    exact upstream_subset_needs haccepted hwp htask (mem_map.mpr ⟨up.id, hdep, rfl⟩)
  · intro env x before earlier call hmakes htask wp hwp
    have hfinish : wp.finishID ∈ (projectTask intent host plan).needs := mem_map_of_mem hwp
    rcases htask with hid | hid
    · refine hmakes.needs_succeeded ?_
      rwa [hsame _ hmakes.mem _ projectTask_mem hid]
    · -- Publishing waits for rendering, and rendering has waited for the packages.
      have hrendered : SucceededBefore env (compileWork intent plan host runID) before earlier
          (projectTask intent host plan).id := by
        refine hmakes.needs_succeeded ?_
        rw [hsame _ hmakes.mem _ publishProjectionTask_mem hid]
        exact mem_cons_self
      exact hmakes.need_of_succeeded projectTask_mem hrendered hfinish

end Run

theorem compile_sequenced_shop : Sequenced shopIntent (shopPlan "cart") shopHost
      (compileWork shopIntent (shopPlan "cart") shopHost "run-1") := by
  have hcompile : compile shopIntent (shopPlan "cart") shopHost exactLibrary Char.toLower "run-1" =
      .ok (compileSpec shopIntent shopHost, compileWork shopIntent (shopPlan "cart") shopHost "run-1") :=
    compile_of_valid (by decide) (by decide) (by decide) (by decide)
      (Unattended.Plan.valid_of_validate (by decide +kernel))
  exact compile_sequenced hcompile

end DeliveryEngine.Handoff
