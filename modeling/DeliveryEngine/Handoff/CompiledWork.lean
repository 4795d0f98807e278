import DeliveryEngine.Go.Result
import DeliveryEngine.Handoff.Compile

/-!
# The compiled work plan

The packages are put in an order in which each comes after those it depends on, so the work plan has no cycle.  What
can go wrong is a name: the task that publishes a package is called `publish-` and the id of the package, and the task
that publishes the projection `publish-projection`.  `compile_ok_iff` says that this is the only obstacle.
-/

namespace DeliveryEngine.Handoff

open Go Unattended List
open Listing (waits known edges)

/-! ## Names of tasks -/

lemma stage_append_inj {s t a b : String} (hs : '-' ∉ s.toList) (ht : '-' ∉ t.toList) :
    s ++ "-" ++ a = t ++ "-" ++ b ↔ s = t ∧ a = b := by
  refine ⟨fun h => ?_, by rintro ⟨rfl, rfl⟩; rfl⟩
  have hchars : s.toList ++ '-' :: a.toList = t.toList ++ '-' :: b.toList := by
    have hlist := congrArg String.toList h
    simpa [String.toList_append] using hlist
  have htake (x : List Char) (rest : List Char) (hx : '-' ∉ x) : (x ++ '-' :: rest).takeWhile (· ≠ '-') = x := by
    rw [takeWhile_append_of_pos]
    · simp
    · intro c hc
      simpa using fun (heq : c = '-') => hx (heq ▸ hc)
  have hst : s.toList = t.toList := by rw [← htake s.toList a.toList hs, hchars, htake t.toList b.toList ht]
  rw [hst] at hchars
  have hrest := append_cancel_left hchars
  exact ⟨String.toList_inj.mp hst, String.toList_inj.mp (List.cons.inj hrest).2⟩

lemma ne_stage_append {x s a : String} (hx : '-' ∉ x.toList) : x ≠ s ++ "-" ++ a := by
  rintro rfl
  simp at hx

variable {wp : WorkPackage}

namespace WorkPackage

def taskIDs (wp : WorkPackage) : List String :=
  if wp.isVerification then [wp.verifyID] else [wp.awaitID, wp.publishID]

/-- The names of the stages that are about one package. -/
def stages (wp : WorkPackage) : List String :=
  if wp.isVerification then [stageVerify] else [stageAwait, stagePublish]

lemma taskIDs_eq (wp : WorkPackage) : wp.taskIDs = wp.stages.map (fun s => s ++ "-" ++ wp.id) := by
  unfold taskIDs stages
  split_ifs <;> rfl

lemma notMem_stages {s : String} (h : s ∈ wp.stages) : '-' ∉ s.toList := by
  unfold stages at h
  split_ifs at h <;> simp only [mem_cons, not_mem_nil, or_false] at h
  · rw [h]
    decide
  · rcases h with rfl | rfl <;> decide

lemma nodup_taskIDs (wp : WorkPackage) : wp.taskIDs.Nodup := by
  rw [taskIDs_eq]
  refine List.Nodup.map_on (fun s hs t ht h => ?_) ?_
  · exact ((stage_append_inj (notMem_stages hs) (notMem_stages ht)).mp h).1
  · unfold stages
    split_ifs <;> decide

lemma disjoint_taskIDs {a b : WorkPackage} (h : a.id ≠ b.id) : List.Disjoint a.taskIDs b.taskIDs := by
  intro id ha hb
  rw [taskIDs_eq, mem_map] at ha hb
  obtain ⟨s, hs, rfl⟩ := ha
  obtain ⟨t, ht, heq⟩ := hb
  exact h ((stage_append_inj (notMem_stages hs) (notMem_stages ht)).mp heq.symm).2

lemma finishID_mem_taskIDs (wp : WorkPackage) : wp.finishID ∈ wp.taskIDs := by
  unfold finishID taskIDs
  split_ifs
  · exact mem_cons_self
  · exact mem_cons_of_mem _ mem_cons_self

lemma stagePublishProjection_mem_taskIDs :
    stagePublishProjection ∈ wp.taskIDs ↔ wp.isVerification = false ∧ wp.id = "projection" := by
  have hname : stagePublishProjection = stagePublish ++ "-" ++ "projection" := by decide
  rw [taskIDs_eq, mem_map]
  constructor
  · rintro ⟨s, hs, heq⟩
    rw [hname] at heq
    obtain ⟨rfl, hid⟩ := (stage_append_inj (notMem_stages hs) (by decide)).mp heq
    refine ⟨?_, hid⟩
    by_contra hverification
    rw [Bool.not_eq_false] at hverification
    rw [stages, if_pos hverification] at hs
    exact absurd hs (by decide)
  · rintro ⟨hmutation, hid⟩
    refine ⟨stagePublish, ?_, by rw [hid, hname]⟩
    simp [stages, hmutation]

lemma notMem_taskIDs {id : String}
    (h : id = stageCityUp ∨ id = stageDispatch ∨ id = stageProject) : id ∉ wp.taskIDs := by
  rw [taskIDs_eq, mem_map]
  rintro ⟨s, hs, heq⟩
  rcases h with rfl | rfl | rfl
  · have hname : stageCityUp = "city" ++ "-" ++ "up" := by decide
    rw [hname] at heq
    obtain ⟨rfl, -⟩ := (stage_append_inj (notMem_stages hs) (by decide)).mp heq
    unfold stages at hs
    split_ifs at hs <;> exact absurd hs (by decide)
  · exact ne_stage_append (by decide) heq.symm
  · exact ne_stage_append (by decide) heq.symm

end WorkPackage

open WorkPackage (taskIDs)

section Tasks
variable {intent : Intent} {plan : DeliveryPlan} {host : HostProfile} {runID : String}

lemma map_id_packageTasks (wp : WorkPackage) : (packageTasks intent host wp).map Task.id = wp.taskIDs := by
  unfold packageTasks taskIDs
  split_ifs <;> rfl

lemma ids_compileWork : (compileWork intent plan host runID).ids = [stageCityUp, stageDispatch] ++
      (orderPackages plan).flatMap taskIDs ++ [stageProject, stagePublishProjection] := by
  simp only [Unattended.Plan.ids, compileWork, map_append, map_flatMap, map_id_packageTasks]
  rfl

end Tasks

/-! ## The order of the packages -/

lemma map_fst_dependencyListing (pkgs : List WorkPackage) :
    (dependencyListing pkgs).map Prod.fst = pkgs.map WorkPackage.id := by
  rw [dependencyListing, map_map]
  rfl

variable {before after : List WorkPackage}

section Order
variable {toLower : Char → Char} {intent : Intent} {plan : DeliveryPlan}

/-- One sweep over the packages, which takes those that wait for nothing. -/
def sweep (plan : DeliveryPlan) : List String → List String :=
  (sortStrings (plan.allPackages.map WorkPackage.id)).foldl (Toposort.take
    (waits (dependencyListing plan.allPackages)) (known (dependencyListing plan.allPackages)))

/-- The ids of the packages in dependency order. -/
def orderedIDs (plan : DeliveryPlan) : List String :=
  Toposort.sort (waits (dependencyListing plan.allPackages))
    (known (dependencyListing plan.allPackages)) (sortStrings (plan.allPackages.map WorkPackage.id))

section
variable (h : plan.Accepted toLower intent)
include h

lemma sortable : (sortStrings (plan.allPackages.map WorkPackage.id)).Nodup ∧
    (∀ id, known (dependencyListing plan.allPackages) id = true →
      id ∈ sortStrings (plan.allPackages.map WorkPackage.id)) ∧
    ∃ order, Listing.Ordered (dependencyListing plan.allPackages) order ∧
      ∀ id ∈ sortStrings (plan.allPackages.map WorkPackage.id), id ∈ order := by
  obtain ⟨order, hfinished, hmem⟩ := Listing.exists_finished h.acyclic
  rw [map_fst_dependencyListing] at hmem
  refine ⟨(perm_insertionSort _ _).nodup_iff.mpr h.ids_nodup, fun id hid => ?_, order, hfinished,
    fun id hid => hmem id (mem_sortStrings.mp hid)⟩
  rw [mem_sortStrings, ← map_fst_dependencyListing]
  exact Listing.mem_of_known hid

lemma orderedIDs_spec : (orderedIDs plan).Perm (plan.allPackages.map WorkPackage.id) ∧
      Listing.Ordered (dependencyListing plan.allPackages) (orderedIDs plan).reverse := by
  obtain ⟨hnodup, hknown, order, hfinished, hids⟩ := sortable h
  exact ⟨(Toposort.sort_perm hnodup hknown hfinished hids).trans (perm_insertionSort _ _),
    Toposort.sort_finished hnodup hknown hfinished hids⟩

lemma get?_remaining (hwp : wp ∈ plan.allPackages) :
    (GoMap.indexBy WorkPackage.id id plan.allPackages).get? wp.id = some wp :=
  GoMap.get?_indexBy (x := wp) h.ids_nodup hwp

lemma orderPackages_perm : (orderPackages plan).Perm plan.allPackages := by
  have hperm := ((orderedIDs_spec h).1.filterMap (GoMap.indexBy WorkPackage.id id plan.allPackages).get?)
  refine hperm.trans (List.Perm.of_eq ?_)
  rw [filterMap_map]
  have hall : ∀ wp ∈ plan.allPackages,
      ((GoMap.indexBy WorkPackage.id id plan.allPackages).get? ∘ WorkPackage.id) wp = some wp :=
    fun wp hwp => get?_remaining h hwp
  rw [filterMap_congr hall, filterMap_some]

lemma map_id_orderPackages : (orderPackages plan).map WorkPackage.id = orderedIDs plan := by
  have hone : ∀ name ∈ orderedIDs plan,
      ((GoMap.indexBy WorkPackage.id id plan.allPackages).get? name).map WorkPackage.id = some name := by
    intro name hname
    obtain ⟨wp, hwp, rfl⟩ := mem_map.mp ((orderedIDs_spec h).1.mem_iff.mp hname)
    rw [get?_remaining h hwp, Option.map_some]
  rw [orderPackages, map_filterMap]
  exact (filterMap_congr hone).trans (filterMap_some)

lemma exists_upstream (horder : orderPackages plan = before ++ wp :: after) {dep : String}
    (hdep : dep ∈ wp.dependsOn) : ∃ up ∈ before, up.isVerification = false ∧ up.id = dep := by
  have hwp : wp ∈ plan.allPackages := by
    rw [← (orderPackages_perm h).mem_iff, horder]
    simp
  have hnodup : ((dependencyListing plan.allPackages).map Prod.fst).Nodup := by
    rw [map_fst_dependencyListing]
    exact h.ids_nodup
  have hitem : (wp.id, wp.dependsOn) ∈ dependencyListing plan.allPackages := mem_map.mpr ⟨wp, hwp, rfl⟩
  obtain ⟨-, hlive, hmutation⟩ := h.dependency wp hwp dep hdep
  obtain ⟨target, htarget, rfl⟩ := mem_map.mp hlive
  have hknown : known (dependencyListing plan.allPackages) target.id = true :=
    Listing.known_eq_true hnodup (mem_map.mpr ⟨target, htarget, rfl⟩)
  have hfinished := (orderedIDs_spec h).2
  rw [← map_id_orderPackages h, horder, map_append, map_cons, reverse_append,
    reverse_cons, append_assoc] at hfinished
  rw [← Listing.waits_eq hnodup hitem] at hdep
  obtain ⟨up, hup, hid⟩ := mem_map.mp (mem_reverse.mp (hfinished.mem_below hdep hknown))
  refine ⟨up, hup, ?_, hid⟩
  by_contra hverification
  have hup' : up ∈ plan.allPackages := by
    rw [← (orderPackages_perm h).mem_iff, horder]
    exact mem_append_left _ hup
  refine hmutation (hid ▸ mem_map_of_mem (mem_filter.mpr ⟨hup', ?_⟩))
  simpa using hverification

lemma orderPackages_congr {other : DeliveryPlan} (hperm : plan.allPackages.Perm other.allPackages) :
    orderPackages other = orderPackages plan := by
  have hlisted : ((dependencyListing plan.allPackages).map Prod.fst).Nodup := by
    rw [map_fst_dependencyListing]
    exact h.ids_nodup
  have hedges : edges (dependencyListing other.allPackages) = edges (dependencyListing plan.allPackages) :=
    GoMap.indexBy_congr hlisted (hperm.map _)
  simp only [orderPackages]
  unfold waits known
  rw [hedges, GoMap.indexBy_congr h.ids_nodup hperm, sortStrings_congr (hperm.map WorkPackage.id)]

end

end Order

/-! ## The needs of the tasks -/

section Needs
variable {toLower : Char → Char} {intent : Intent} {plan : DeliveryPlan} {host : HostProfile}
  {runID : String}

lemma map_fst_needsListing_packageTasks (wp : WorkPackage) :
    (needsListing (packageTasks intent host wp)).map Prod.fst = wp.taskIDs := by
  rw [map_fst_needsListing, map_id_packageTasks]

variable {seen : List String}

lemma backward_packageTasks (hdispatch : stageDispatch ∈ seen)
    (hupstream : wp.isVerification = false → wp.upstream ⊆ seen) :
    Listing.Backward seen (needsListing (packageTasks intent host wp)) := by
  unfold packageTasks
  split_ifs with hverification
  · exact ⟨fun name hname => mem_singleton.mp hname ▸ hdispatch, trivial⟩
  · have hup := hupstream (by simpa using hverification)
    refine ⟨fun name hname => ?_, fun name hname => ?_, trivial⟩
    · rcases mem_cons.mp hname with rfl | hname
      · exact hdispatch
      · exact hup hname
    · rcases mem_cons.mp hname with rfl | hname
      · exact mem_cons_self
      · exact mem_cons_of_mem _ (hup hname)

section
variable (h : plan.Accepted toLower intent)
include h

lemma backward_packages (horder : orderPackages plan = before ++ after) (hdispatch : stageDispatch ∈ seen)
    (hbefore : ∀ wp ∈ before, wp.finishID ∈ seen) :
    Listing.Backward seen (needsListing (after.flatMap (packageTasks intent host))) := by
  induction after generalizing before seen with
  | nil => trivial
  | cons wp after ih =>
    rw [flatMap_cons, needsListing_append]
    have horder' : orderPackages plan = before ++ [wp] ++ after := by
      rw [horder, append_assoc]
      rfl
    refine (backward_packageTasks hdispatch ?_).append (ih horder' ?_ ?_)
    · intro hmutation name hname
      obtain ⟨dep, hdep, rfl⟩ := mem_map.mp hname
      obtain ⟨up, hup, hupmutation, rfl⟩ := exists_upstream h horder hdep
      have hfinish := hbefore up hup
      rwa [WorkPackage.finishID, if_neg (by simp [hupmutation])] at hfinish
    · exact mem_append_right _ hdispatch
    · intro wp' hwp'
      rw [map_fst_needsListing_packageTasks]
      rcases mem_append.mp hwp' with hwp' | hwp'
      · exact mem_append_right _ (hbefore wp' hwp')
      · rw [mem_singleton] at hwp'
        rw [hwp']
        exact mem_append_left _ (mem_reverse.mpr wp.finishID_mem_taskIDs)

lemma backward_compileWork : Listing.Backward [] (needsListing (compileWork intent plan host runID).tasks) := by
  have hstart : Listing.Backward [] (needsListing [cityUpTask intent host, dispatchTask intent host]) := by
    refine ⟨fun name hname => ?_, fun name hname => ?_, trivial⟩
    · cases hname
    · exact mem_singleton.mp hname ▸ mem_cons_self
  have horder : orderPackages plan = [] ++ orderPackages plan := rfl
  have hpackages : Listing.Backward [stageDispatch, stageCityUp]
      (needsListing ((orderPackages plan).flatMap (packageTasks intent host))) :=
    backward_packages h horder mem_cons_self (by simp)
  have hend : Listing.Backward ((orderPackages plan).flatMap taskIDs)
      (needsListing [projectTask intent host plan, publishProjectionTask intent host]) := by
    refine ⟨fun name hname => ?_, fun name hname => ?_, trivial⟩
    · obtain ⟨wp, hwp, rfl⟩ := mem_map.mp hname
      rw [mem_flatMap]
      exact ⟨wp, (orderPackages_perm h).mem_iff.mpr hwp, wp.finishID_mem_taskIDs⟩
    · exact mem_singleton.mp hname ▸ mem_cons_self
  have hids : (needsListing ((orderPackages plan).flatMap (packageTasks intent host))).map Prod.fst =
      (orderPackages plan).flatMap taskIDs := by
    rw [map_fst_needsListing, map_flatMap]
    simp only [map_id_packageTasks]
  have hlast : Listing.Backward
      (((needsListing ((orderPackages plan).flatMap (packageTasks intent host))).map Prod.fst).reverse ++
        [stageDispatch, stageCityUp])
      (needsListing [projectTask intent host plan, publishProjectionTask intent host]) := by
    rw [hids]
    exact hend.mono fun name hname => mem_append_left _ (mem_reverse.mpr hname)
  have hall := hstart.append (hpackages.append hlast)
  rwa [← needsListing_append, ← needsListing_append, ← append_assoc] at hall

lemma nodup_ids_compileWork : (compileWork intent plan host runID).ids.Nodup ↔
      ∀ wp ∈ plan.allPackages, wp.isVerification = false → wp.id ≠ "projection" := by
  have hpackages : ((orderPackages plan).flatMap taskIDs).Nodup := by
    have hids : ((orderPackages plan).map WorkPackage.id).Nodup :=
      ((orderPackages_perm h).map WorkPackage.id).nodup_iff.mpr h.ids_nodup
    refine nodup_flatMap.mpr ⟨fun wp _ => wp.nodup_taskIDs, ?_⟩
    exact (pairwise_map.mp hids).imp fun hne => WorkPackage.disjoint_taskIDs hne
  have hfixed : ∀ id, id = stageCityUp ∨ id = stageDispatch ∨ id = stageProject →
      id ∉ (orderPackages plan).flatMap taskIDs := by
    intro id hid hmem
    obtain ⟨wp, -, hwp⟩ := mem_flatMap.mp hmem
    exact WorkPackage.notMem_taskIDs hid hwp
  have hprojection : stagePublishProjection ∉ (orderPackages plan).flatMap taskIDs ↔
      ∀ wp ∈ plan.allPackages, wp.isVerification = false → wp.id ≠ "projection" := by
    rw [mem_flatMap]
    push Not
    refine forall_congr' fun wp => ?_
    rw [(orderPackages_perm h).mem_iff, WorkPackage.stagePublishProjection_mem_taskIDs]
    push Not
    rfl
  rw [ids_compileWork, ← hprojection]
  have hcity := hfixed _ (.inl rfl)
  have hdispatch := hfixed _ (.inr (.inl rfl))
  have hproject := hfixed _ (.inr (.inr rfl))
  constructor
  · intro hnodup hmem
    have hdisjoint := disjoint_of_nodup_append hnodup
    exact hdisjoint (mem_append_right _ hmem) (mem_cons_of_mem _ mem_cons_self)
  · intro hfree
    have hstart : [stageCityUp, stageDispatch].Nodup := by decide
    have hend : [stageProject, stagePublishProjection].Nodup := by decide
    have hfirst : List.Disjoint [stageCityUp, stageDispatch] ((orderPackages plan).flatMap taskIDs) := by
      simp [hcity, hdispatch]
    have hlast : List.Disjoint ([stageCityUp, stageDispatch] ++ (orderPackages plan).flatMap taskIDs)
        [stageProject, stagePublishProjection] := by
      refine disjoint_append_left.mpr ⟨?_, by simp [hproject, hfree]⟩
      simp [stageCityUp, stageDispatch, stageProject, stagePublishProjection]
    exact (hstart.append hpackages hfirst).append hend hlast

end

lemma task_compileWork {t : Task} (ht : t ∈ (compileWork intent plan host runID).tasks) :
    t.argv ≠ [] ∧ t.band.valid = true := by
  simp only [compileWork, mem_append, mem_cons, not_mem_nil, or_false, mem_flatMap] at ht
  rcases ht with ((rfl | rfl) | ⟨wp, -, hwp⟩) | rfl | rfl
  on_goal 3 =>
    unfold packageTasks at hwp
    split_ifs at hwp <;> simp only [mem_cons, not_mem_nil, or_false] at hwp
    on_goal 2 => rcases hwp with hwp | hwp
    all_goals subst hwp
  all_goals exact ⟨cons_ne_nil _ _, rfl⟩

lemma trimSpace_ne_of_mem_ids {name : String} (hname : name ∈ (compileWork intent plan host runID).ids) :
    trimSpace name ≠ "" := by
  simp only [ids_compileWork, mem_append, mem_cons, not_mem_nil, or_false, mem_flatMap] at hname
  rcases hname with ((rfl | rfl) | ⟨wp, -, hwp⟩) | rfl | rfl
  · decide
  · decide
  · rw [WorkPackage.taskIDs_eq, mem_map] at hwp
    obtain ⟨s, -, rfl⟩ := hwp
    exact trimSpace_ne_empty_iff.mpr ⟨'-', by simp, by decide⟩
  · decide
  · decide

/-- The compiled work can be executed exactly when the names of its tasks are distinct. -/
theorem valid_compileWork_iff (h : plan.Accepted toLower intent) : (compileWork intent plan host runID).Valid ↔
      ∀ wp ∈ plan.allPackages, wp.isVerification = false → wp.id ≠ "projection" := by
  rw [← nodup_ids_compileWork h]
  refine ⟨fun hvalid => hvalid.ids_nodup, fun hnodup => ?_⟩
  have hbackward : Listing.Backward [] (needsListing (compileWork intent plan host runID).tasks) :=
    backward_compileWork h
  have hlisted : ((needsListing (compileWork intent plan host runID).tasks).map Prod.fst).Nodup := by
    rw [map_fst_needsListing]
    exact hnodup
  refine ⟨rfl, hnodup, fun t ht => ?_, fun t ht => (task_compileWork ht).1,
    fun t ht => (task_compileWork ht).2, fun t ht need hneed => ?_, _, hbackward.finished hlisted, ?_⟩
  · exact trimSpace_ne_of_mem_ids (mem_map_of_mem ht)
  · have hitem : (t.id, t.needs) ∈ needsListing (compileWork intent plan host runID).tasks :=
      mem_map.mpr ⟨t, ht, rfl⟩
    refine ⟨hbackward.ne hlisted (by simp) hitem hneed, ?_⟩
    have hmem := (hbackward.mem hitem hneed).resolve_right not_mem_nil
    rwa [map_fst_needsListing] at hmem
  · intro name hname
    rw [map_fst_needsListing]
    exact mem_reverse.mpr hname

end Needs

/-! ## What compiles -/

def NeedsTask (work : Unattended.Plan) (id need : String) : Prop := ∃ t ∈ work.tasks, t.id = id ∧ need ∈ t.needs

/-- A work plan that can be executed: distinct names, needs that name tasks, and no task that needs itself
through others. -/
structure Executable (work : Unattended.Plan) : Prop where
  ids_nodup : work.ids.Nodup
  needs_mem : ∀ t ∈ work.tasks, ∀ need ∈ t.needs, need ∈ work.ids
  acyclic : ∀ id, ¬Relation.TransGen (NeedsTask work) id id

variable {work : Unattended.Plan}

lemma executable_of_valid (h : work.Valid) : Executable work := by
  refine ⟨h.ids_nodup, fun t ht need hneed => (h.needs_mem t ht need hneed).2, fun id hcycle => ?_⟩
  obtain ⟨order, hfinished, hmem⟩ := h.ordered
  obtain ⟨height, hheights⟩ := hfinished.exists_heights
  have hedge : ∀ a b, NeedsTask work a b →
      ThreeColour.Edge (waits (needsListing work.tasks)) (known (needsListing work.tasks)) a b := by
    rintro _ need ⟨t, ht, rfl, hneed⟩
    obtain ⟨u, hu, rfl⟩ := mem_map.mp (h.needs_mem t ht need hneed).2
    exact ⟨by rwa [h.waits_eq ht], h.known hu⟩
  obtain ⟨_, ⟨t, ht, rfl, _⟩, _⟩ := Relation.TransGen.head'_iff.mp hcycle
  exact lt_irrefl _ (hheights.transGen_lt (hmem t.id (mem_map_of_mem ht)) (Relation.TransGen.mono hedge _ _ hcycle)).2

section Result
variable {library : Library} {toLower : Char → Char} {intent : Intent} {plan : DeliveryPlan}
  {host : HostProfile} {runID : String}

lemma compile_eq_ok {spec : RunSpec} (h : compile intent plan host library toLower runID = .ok (spec, work)) :
    plan.Accepted toLower intent ∧ work = compileWork intent plan host runID ∧ work.Valid := by
  simp only [compile, bind_eq_ok] at h
  obtain ⟨_, -, _, hplan, _, -, h⟩ := h
  have h := refusal_bind_eq_ok h
  obtain ⟨_, hwork, h⟩ := mapError_bind_eq_ok h
  obtain ⟨_, -, h⟩ := mapError_bind_eq_ok h
  cases h
  exact ⟨DeliveryPlan.validate_eq_ok_iff.mp hplan, rfl, Unattended.Plan.valid_of_validate hwork⟩

lemma compile_of_valid (hintent : intent.validate library = .ok ())
    (hplan : plan.validate toLower intent = .ok ()) (hhost : host.validate = .ok ())
    (hrunID : trimSpace runID ≠ "") (hvalid : (compileWork intent plan host runID).Valid) :
    compile intent plan host library toLower runID =
      .ok (compileSpec intent host, compileWork intent plan host runID) := by
  have hwork := Unattended.Plan.validate_eq_ok_iff_valid.mpr hvalid
  have hspec := validate_compileSpec (Intent.valid_of_validate hintent) hhost
  unfold compile
  rw [hintent, hplan, hhost, hwork, hspec, if_neg hrunID]
  rfl

/-- Everything the validators accept compiles to a work plan that can be executed, unless a package to be
published is called `projection`. -/
theorem compile_ok_iff (hintent : intent.validate library = .ok ())
    (hplan : plan.validate toLower intent = .ok ()) (hhost : host.validate = .ok ())
    (hrunID : trimSpace runID ≠ "") :
    (∃ spec work, compile intent plan host library toLower runID = .ok (spec, work) ∧ Executable work) ↔
      ∀ wp ∈ plan.allPackages, wp.isVerification = false → wp.id ≠ "projection" := by
  have hvalid : (compileWork intent plan host runID).Valid ↔
      ∀ wp ∈ plan.allPackages, wp.isVerification = false → wp.id ≠ "projection" :=
    valid_compileWork_iff (DeliveryPlan.validate_eq_ok_iff.mp hplan)
  rw [← hvalid]
  constructor
  · rintro ⟨spec, work, hcompile, -⟩
    obtain ⟨-, rfl, hwork⟩ := compile_eq_ok hcompile
    exact hwork
  · intro hwork
    exact ⟨compileSpec intent host, compileWork intent plan host runID,
      compile_of_valid hintent hplan hhost hrunID hwork, executable_of_valid hwork⟩

end Result

/-- A portal's request for one criterion. -/
def shopIntent : Intent where
  projectID := "shop"
  lifecycle := ["build"]
  acceptance := [{ id := "ac-1", statement := "The application works." }]
  policy := { needMerge := true, needPush := true, needPR := true, needChecks := true }
  repository := { slug := "acme/shop", origin := "git@github.com:acme/shop.git", defaultBranch := "main" }
  checkout := "/srv/shop"
  objective := "Deliver the application."

def shopPlan (id : String) : DeliveryPlan where
  projectID := "shop"
  packages := [{ id := id, title := id, phase := "build", objective := "Build the application."
                 artifact := "src/app.go", authorizedPaths := ["src/app.go"], gates := ["go test ./..."]
                 satisfies := ["ac-1"] }]

def shopHost : HostProfile where
  deliveryRoot := "/srv/delivery"
  driver := "/usr/bin/driver"
  provider := "agent"

/-- A library that parses no URL and compares texts exactly. -/
def exactLibrary : Library := ⟨fun _ => .error "not a URL", fun a b => a = b⟩

theorem compile_ok_iff_shop :
    (∃ spec work, compile shopIntent (shopPlan "cart") shopHost exactLibrary Char.toLower "run-1" =
      .ok (spec, work) ∧ Executable work) :=
  (compile_ok_iff (by decide) (by decide) (by decide) (by decide)).mpr (by decide)

/-- A plan with a package called `projection` is accepted and does not compile. -/
theorem projection_not_compiled : shopIntent.validate exactLibrary = .ok () ∧
      (shopPlan "projection").validate Char.toLower shopIntent = .ok () ∧ shopHost.validate = .ok () ∧
      compile shopIntent (shopPlan "projection") shopHost exactLibrary Char.toLower "run-1" =
        .error ("compiling the delivery run: unattended: work plan is invalid: " ++
          "task[5] id \"publish-projection\" is duplicated; " ++
          "task dependencies contain a cycle: project -> publish-projection -> project") := by
  have hintent : shopIntent.validate exactLibrary = .ok () := by decide
  have hplan : (shopPlan "projection").validate Char.toLower shopIntent = .ok () := by decide
  have hhost : shopHost.validate = .ok () := by decide
  have hwork : (compileWork shopIntent (shopPlan "projection") shopHost "run-1").validate =
      .error ("unattended: work plan is invalid: " ++ "task[5] id \"publish-projection\" is duplicated; " ++
        "task dependencies contain a cycle: project -> publish-projection -> project") := by
    decide +kernel
  refine ⟨hintent, hplan, hhost, ?_⟩
  unfold compile
  rfl

/-! ## Orders and cycles -/

/-- The packages of a plan that is accepted are put in an order in which each comes after those it depends on.  A sweep
always takes one, so the packages are never taken as they stand; and how a generation is listed makes no difference. -/
theorem orderPackages_sorts {toLower : Char → Char} {intent : Intent} {plan : DeliveryPlan}
    (h : plan.validate toLower intent = .ok ()) :
    (orderPackages plan).Perm plan.allPackages ∧
    (∀ before wp after, orderPackages plan = before ++ wp :: after → ∀ dep ∈ wp.dependsOn,
      dep ∈ plan.allPackages.map WorkPackage.id → dep ∈ before.map WorkPackage.id) ∧
    (∀ n, ((sweep plan)^[n] []).length < plan.allPackages.length →
      sweep plan ((sweep plan)^[n] []) ≠ (sweep plan)^[n] []) ∧
    ∀ other : DeliveryPlan, List.Forall₂ List.Perm plan.generations other.generations →
      orderPackages other = orderPackages plan := by
  have h := DeliveryPlan.validate_eq_ok_iff.mp h
  refine ⟨orderPackages_perm h, fun before wp after horder dep hdep _ => ?_, fun n hmissing => ?_,
    fun other hother => orderPackages_congr h ?_⟩
  · obtain ⟨up, hup, -, rfl⟩ := exists_upstream h horder hdep
    exact mem_map_of_mem hup
  · obtain ⟨hnodup, hknown, order, hfinished, hids⟩ := sortable h
    refine Toposort.foldl_take_ne hnodup hknown hfinished hids (hmissing.trans_eq ?_)
    rw [sortStrings, length_insertionSort, length_map]
  · rw [← DeliveryPlan.flatten_generations, ← DeliveryPlan.flatten_generations]
    exact Perm.flatten_congr hother

theorem orderPackages_sorts_shop :
    let plan := { shopPlan "cart" with
      packages := (shopPlan "api").packages.map ({ · with dependsOn := ["cart"] }) ++ (shopPlan "cart").packages }
    (orderPackages plan).map WorkPackage.id = ["cart", "api"] ∧ (orderPackages plan).Perm plan.allPackages := by
  intro plan
  have hvalid : plan.validate Char.toLower shopIntent = .ok () := by decide +kernel
  exact ⟨by decide +kernel, (orderPackages_sorts hvalid).1⟩

/-- The searches for a cycle among tasks and among packages are exact. -/
theorem cycle_search_exact : (∀ tasks : List Task, (tasks.map Task.id).Nodup →
      Listing.Exact (Listing.Edge (needsListing tasks)) (findTaskCycle tasks)) ∧
    ∀ pkgs : List WorkPackage, (pkgs.map WorkPackage.id).Nodup →
      Listing.Exact (Listing.Edge (dependencyListing pkgs)) (findCycle pkgs) := by
  refine ⟨fun tasks hnodup => Listing.findCycle_exact ?_, fun pkgs hnodup => Listing.findCycle_exact ?_⟩
  · rwa [map_fst_needsListing]
  · rwa [map_fst_dependencyListing]

theorem cycle_search_exact_pair :
    let tasks : List Task := [{ id := "a", argv := [], needs := ["b"] }, { id := "b", argv := [], needs := ["a"] }]
    findTaskCycle tasks = "a -> b -> a" ∧ Listing.Exact (Listing.Edge (needsListing tasks)) (findTaskCycle tasks) :=
  ⟨by decide +kernel, cycle_search_exact.1 _ (by decide)⟩

end DeliveryEngine.Handoff
