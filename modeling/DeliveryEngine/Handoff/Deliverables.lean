import DeliveryEngine.Go.Rfc3339
import DeliveryEngine.Handoff.Accepted
import DeliveryEngine.Handoff.Record
import DeliveryEngine.Projector.Render

/-!
# Deliverables and the assessment

A criterion is judged twice: by the projector when the document is rendered, and by the assessment when it reads the
document back.  The two rules are not the same: the projector takes a package at a user acceptance stage for delivered,
and judges only the packages of the original plan and those authorized for the latest finding.  `resolve_met_iff` says
when they nevertheless agree.
-/

namespace DeliveryEngine.Handoff

open Go List
open RecordedAcceptance (acceptedBy toAcceptance)

/-! ## The facts the driver writes -/

/-- The latest finding against a criterion. -/
def findingAgainst (invalidations : List Invalidation) (criterionID : String) : Option Invalidation :=
  (invalidations.filter (·.criterionID = criterionID)).getLast?

/-- The live packages of the remediations that answer a finding against a criterion.  The driver's glob finds
the files of the first 999 remediations of a project; the bound is left out. -/
def remediators (plan : DeliveryPlan) (criterionID : String) (inv : Invalidation) : List String :=
  (plan.remediations.filter (·.repairsInvalidation criterionID inv.seq)).flatMap
    (fun rm => (rm.packagesFor criterionID).filter (· ∉ plan.superseded))

/-- A finding as a deliverable carries it. -/
def Invalidation.fact (inv : Invalidation) : Projector.DeliverableInvalidation where
  seq := inv.seq
  raisedBy := inv.raisedBy
  reason := inv.reason
  evidence := inv.evidence
  raisedAt := inv.raisedAt.rfc3339Nano
  previousState := inv.previousState

variable (plan : DeliveryPlan) (r : Record) (c : Criterion)

/-- What the driver says of a criterion. -/
def deliverableFact : Projector.Deliverable :=
  let answer := r.acceptances.find? (·.criterionID = c.id)
  let finding := findingAgainst r.invalidations c.id
  { id := c.id
    statement := c.statement
    acceptedBy := (answer.map acceptedBy).getD ""
    acceptedAt := (answer.map (·.acceptedAt.rfc3339Nano)).getD ""
    satisfiedBy := (plan.packages.filter (fun wp => c.id ∈ wp.satisfies)).map WorkPackage.id
    remediatedBy := (finding.map (remediators plan c.id)).getD []
    invalidated := finding.map Invalidation.fact }

/-! ## The document read back -/

/-- A task as the assessment reads it. -/
def TaskRow.ofTask (t : Projector.Task) : TaskRow := ⟨t.taskID, t.status.text, t.completionGateStatus.text⟩

/-- The document a state is published as, as the assessment reads it. -/
def Projection.ofState (order : List String) (s : Projector.State) : Projection where
  projectID := s.project.projectID
  latestAcceptedMainSha := s.project.latestAcceptedMainSha
  activeTasks := (s.listed order).map TaskRow.ofTask

variable (tasks : GoMap Projector.Task)

/-- Every task is filed under its own id. -/
def Keyed : Prop := ∀ id t, tasks.get? id = some t → t.taskID = id

section ReadBack
variable {order : List String} {s : Projector.State}

lemma map_taskID_ofState (hkeyed : Keyed s.tasks) (horder : GoMap.Enumerates order s.tasks) :
    ((Projection.ofState order s).activeTasks.map TaskRow.taskID) = sortStrings order := by
  have hall : ∀ id ∈ sortStrings order, (s.tasks.get? id).map (TaskRow.taskID ∘ TaskRow.ofTask) = some id := by
    intro id hid
    obtain ⟨t, ht⟩ := Option.isSome_iff_exists.mp ((horder.2 id).mp (mem_sortStrings.mp hid))
    rw [ht]
    exact congrArg some (hkeyed id t ht)
  rw [Projection.ofState, Projector.State.listed, map_map, map_filterMap, filterMap_congr hall, filterMap_some]

lemma get?_ofState (hkeyed : Keyed s.tasks) (horder : GoMap.Enumerates order s.tasks) (id : String) :
    (GoMap.indexBy TaskRow.taskID (fun row => row) (Projection.ofState order s).activeTasks).get? id =
      (s.tasks.get? id).map TaskRow.ofTask := by
  have hids := map_taskID_ofState hkeyed horder
  cases ht : s.tasks.get? id with
  | none =>
    refine GoMap.get?_indexBy_of_notMem fun row hrow heq => ?_
    have hmem := mem_map_of_mem (f := TaskRow.taskID) hrow
    rw [hids, mem_sortStrings, horder.2, heq, ht] at hmem
    cases hmem
  | some t =>
    have hnodup : ((Projection.ofState order s).activeTasks.map TaskRow.taskID).Nodup := by
      rw [hids]
      exact (perm_insertionSort _ order).nodup_iff.mpr horder.1
    have hmem : TaskRow.ofTask t ∈ (Projection.ofState order s).activeTasks := by
      refine mem_map_of_mem (mem_filterMap.mpr ⟨id, mem_sortStrings.mpr ?_, ht⟩)
      rw [horder.2, ht]
      rfl
    obtain rfl : (TaskRow.ofTask t).taskID = id := hkeyed id t ht
    exact GoMap.get?_indexBy hnodup hmem

end ReadBack

/-! ## Rows -/

/-- Whether a package's row is one the assessment accepts, with its gate met. -/
def isAccepted (pkg : String) : Bool :=
  match tasks.get? pkg with
  | none => false
  | some t => t.status.text ∈ acceptedStatuses && t.completionGateStatus = .known .met

/-- Whether a package's row is at a user acceptance stage. -/
def atUAT (pkg : String) : Bool :=
  match tasks.get? pkg with
  | none => false
  | some t => t.status = .known .deployedUAT || t.status = .known .appliedUAT

lemma mem_acceptedStatuses_iff (status : Projector.TaskStatus) :
    status.text ∈ acceptedStatuses ↔ Projector.isTerminalStatus status = true ∧
      status ≠ .known .deployedUAT ∧ status ≠ .known .appliedUAT := by
  cases status with
  | known v => cases v <;> decide
  | other text unlisted =>
    have hlisted : ∀ v : Projector.StatusName, text ≠ Vocabulary.text v := by
      rintro v rfl
      rw [Vocabulary.find_text] at unlisted
      cases unlisted
    have hmerged := hlisted .merged
    have hverified := hlisted .verified
    have hcomplete := hlisted .complete
    simp_all [acceptedStatuses, Projector.isTerminalStatus, Named.text, Vocabulary.text]

variable {tasks : GoMap Projector.Task}

lemma isAccepted_iff {pkg : String} : isAccepted tasks pkg = true ↔
      Projector.isDelivered tasks pkg = true ∧ atUAT tasks pkg = false := by
  unfold isAccepted Projector.isDelivered atUAT
  cases tasks.get? pkg with
  | none => simp
  | some t =>
    simp only [Bool.and_eq_true, decide_eq_true_eq, mem_acceptedStatuses_iff, Bool.or_eq_false_iff,
      decide_eq_false_iff_not]
    tauto

lemma complete_ofState_iff {order : List String} {s : Projector.State} (hkeyed : Keyed s.tasks)
    (horder : GoMap.Enumerates order s.tasks) (wp : WorkPackage) :
    (Projection.ofState order s).Complete wp ↔ isAccepted s.tasks wp.id = true := by
  have hgate : ∀ gate : Projector.CompletionGateStatus, gate.text = "met" ↔ gate = .known .met :=
    fun gate => Named.text_injective.eq_iff' rfl
  rw [← Projection.standingOf_eq_complete, Projection.standingOf, get?_ofState hkeyed horder,
    standing_eq_complete, isAccepted]
  cases s.tasks.get? wp.id with
  | none => simp
  | some t => simp [TaskRow.ofTask, hgate]

/-! ## The two verdicts -/

variable {inv : Invalidation}

lemma findingAgainst_eq_some {invalidations : List Invalidation} {c : String} :
    findingAgainst invalidations c = some inv ↔ GoMap.Latest Invalidation.criterionID invalidations c inv := by
  have hlast : findingAgainst invalidations c =
      (GoMap.indexBy Invalidation.criterionID (fun inv => inv) invalidations).get? c := by
    induction invalidations using List.reverseRecOn with
    | nil => simp [findingAgainst, GoMap.indexBy]
    | append_singleton invalidations last ih =>
      rw [GoMap.indexBy_concat, GoMap.get?_set, findingAgainst]
      by_cases hlast : last.criterionID = c
      · simp [hlast]
      · simp [hlast, Ne.symm hlast, ← ih, findingAgainst]
  rw [hlast, GoMap.get?_indexBy_eq_some]
  constructor
  · rintro ⟨_, hx, rfl⟩
    exact hx
  · exact fun h => ⟨inv, h, rfl⟩

lemma mem_remediators {plan : DeliveryPlan} {c id : String} :
    id ∈ remediators plan c inv ↔ id ∈ repairedBy plan c inv.seq := by
  rw [repairedBy, mem_sortStrings, remediators]

/-- The packages that the projector judges a criterion by. -/
def judged : List String := (deliverableFact plan r c).satisfiedBy ++ (deliverableFact plan r c).remediatedBy

/-- No package of the original plan claims the criterion, and no remediation answers its latest finding. -/
def Unlisted : Prop :=
  (∀ wp ∈ plan.packages, c.id ∉ wp.satisfies) ∧
    ∀ inv, findingAgainst r.invalidations c.id = some inv → ¬ plan.Answers c.id inv.seq

/-- The first answer recorded for the criterion names somebody. -/
def Signed : Prop := ∃ a, r.acceptances.find? (·.criterionID = c.id) = some a ∧ a.acceptedBy ≠ ""

/-- When the projector and the assessment agree on a criterion. -/
structure Concur (plan : DeliveryPlan) (r : Record) (tasks : GoMap Projector.Task) (c : Criterion) :
    Prop where
  /-- A recorded answer names the person who gave it. -/
  human : c.isHuman = true → ∀ a, r.acceptances.find? (·.criterionID = c.id) = some a → a.acceptedBy ≠ ""
  /-- Nobody signs for a criterion that no package is listed for while a finding stands or corrective work that
  claims it is open: the projector would take the signature. -/
  signed : c.isHuman = false → Unlisted plan r c → Signed r c →
    (∀ inv ∈ r.invalidations, inv.criterionID ≠ c.id) ∧
      ∀ rm ∈ plan.remediations, ∀ wp ∈ plan.live rm, c.id ∈ wp.satisfies → isAccepted tasks wp.id = true
  /-- Without a signature a finding stands, or corrective work is open: the assessment asks for nothing else. -/
  unsigned : c.isHuman = false → Unlisted plan r c → ¬ Signed r c →
    (∃ inv ∈ r.invalidations, inv.criterionID = c.id) ∨
      ∃ rm ∈ plan.remediations, ∃ wp ∈ plan.live rm, c.id ∈ wp.satisfies ∧ isAccepted tasks wp.id = false
  /-- If every package listed is delivered, none of them is at a user acceptance stage, and the packages
  that claim the criterion and are not listed are accepted; unless a finding is left unanswered, which
  settles it for both. -/
  listed : c.isHuman = false → judged plan r c ≠ [] →
    (∀ inv, findingAgainst r.invalidations c.id = some inv → plan.Answers c.id inv.seq) →
    (∀ id ∈ judged plan r c, Projector.isDelivered tasks id = true) →
      (∀ id ∈ judged plan r c, atUAT tasks id = false) ∧
        ∀ wp ∈ plan.allPackages, c.id ∈ wp.satisfies → wp.id ∉ judged plan r c → isAccepted tasks wp.id = true

section Verdicts
variable {plan : DeliveryPlan} {r : Record} {c : Criterion}

lemma exists_of_mem_judged {id : String} (hid : id ∈ judged plan r c) :
    ∃ wp ∈ plan.allPackages, c.id ∈ wp.satisfies ∧ wp.id = id := by
  rcases mem_append.mp hid with hid | hid
  · obtain ⟨wp, hwp, rfl⟩ := mem_map.mp hid
    obtain ⟨hwp, hc⟩ := mem_filter.mp hwp
    exact ⟨wp, mem_append_left _ hwp, of_decide_eq_true hc, rfl⟩
  · simp only [deliverableFact] at hid
    cases hfinding : findingAgainst r.invalidations c.id with
    | none => simp [hfinding] at hid
    | some inv =>
      rw [hfinding, Option.map_some, Option.getD_some, mem_remediators] at hid
      obtain ⟨rm, hrm, -, wp, hwp, hc, rfl⟩ := mem_repairedBy.mp hid
      exact ⟨wp, mem_append_right _ (mem_flatMap.mpr ⟨rm, hrm, hwp⟩), hc, rfl⟩

lemma remediatedBy_eq_nil_iff : (deliverableFact plan r c).remediatedBy = [] ↔
      ∀ inv, findingAgainst r.invalidations c.id = some inv → ¬ plan.Answers c.id inv.seq := by
  simp only [deliverableFact]
  cases findingAgainst r.invalidations c.id with
  | none => simp
  | some inv =>
    have hnil : remediators plan c.id inv = [] ↔ ¬ plan.Answers c.id inv.seq := by
      rw [← repairedBy_ne_nil, not_not, repairedBy, sortStrings_eq_nil, remediators]
    simp [hnil]

lemma judged_eq_nil_iff : judged plan r c = [] ↔ Unlisted plan r c := by
  rw [judged, append_eq_nil_iff, remediatedBy_eq_nil_iff, Unlisted]
  simp [deliverableFact]

lemma acceptedBy_ne_empty_iff : (deliverableFact plan r c).acceptedBy ≠ "" ↔ Signed r c := by
  simp only [deliverableFact, Signed]
  cases r.acceptances.find? (·.criterionID = c.id) <;> simp

lemma resolve_met_of_judged (h : judged plan r c ≠ []) : ((deliverableFact plan r c).resolve tasks).met = true ↔
      (∀ id ∈ judged plan r c, Projector.isDelivered tasks id = true) ∧
        ∀ inv, findingAgainst r.invalidations c.id = some inv → plan.Answers c.id inv.seq := by
  have hlisted : ¬ ((deliverableFact plan r c).satisfiedBy = [] ∧
      (deliverableFact plan r c).remediatedBy = []) := fun hnil => h (by simp [judged, hnil])
  rw [Projector.Deliverable.resolve, if_neg hlisted]
  simp only [Bool.and_eq_true, all_eq_true, Bool.not_eq_true', Bool.and_eq_false_iff]
  refine and_congr_right' ?_
  cases hfinding : findingAgainst r.invalidations c.id with
  | none => simp [deliverableFact, hfinding]
  | some inv =>
    have hsome : (deliverableFact plan r c).invalidated.isSome = true := by simp [deliverableFact, hfinding]
    rw [hsome, decide_eq_false_iff_not, remediatedBy_eq_nil_iff]
    simp [hfinding]

lemma resolve_met_of_unjudged (h : judged plan r c = []) : ((deliverableFact plan r c).resolve tasks).met = true ↔
      (deliverableFact plan r c).acceptedBy ≠ "" := by
  rw [Projector.Deliverable.resolve, if_pos (append_eq_nil_iff.mp h), decide_eq_true_eq]

lemma accepted_iff_concur (hown : c.isHuman = true) :
    ((deliverableFact plan r c).acceptedBy ≠ "" ↔ ∃ a ∈ r.acceptances, a.criterionID = c.id) ↔
      Concur plan r tasks c := by
  have hconcur : Concur plan r tasks c ↔
      ∀ a, r.acceptances.find? (·.criterionID = c.id) = some a → a.acceptedBy ≠ "" :=
    ⟨fun h => h.human hown, fun h => ⟨fun _ => h, by simp [hown], by simp [hown], by simp [hown]⟩⟩
  rw [hconcur]
  simp only [deliverableFact]
  cases hfind : r.acceptances.find? (·.criterionID = c.id) with
  | none =>
    have hnone : ¬ ∃ a ∈ r.acceptances, a.criterionID = c.id := by
      rintro ⟨a, ha, heq⟩
      exact find?_eq_none.mp hfind a ha (decide_eq_true heq)
    simp [hnone]
  | some a =>
    have hsome : ∃ a ∈ r.acceptances, a.criterionID = c.id :=
      ⟨a, mem_of_find?_eq_some hfind, by simpa using find?_some hfind⟩
    simp [hsome]

lemma Unlisted.answered_iff (h : Unlisted plan r c) :
    (∀ inv, findingAgainst r.invalidations c.id = some inv → plan.Answers c.id inv.seq) ↔
      ∀ inv ∈ r.invalidations, inv.criterionID ≠ c.id := by
  have hnone : findingAgainst r.invalidations c.id = none ↔
      ∀ inv ∈ r.invalidations, inv.criterionID ≠ c.id := by simp [findingAgainst]
  rw [← hnone, Option.eq_none_iff_forall_ne_some]
  exact ⟨fun hall inv hinv => h.2 inv hinv (hall inv hinv), fun hno inv hinv => absurd hinv (hno inv)⟩

/-- The packages that claim an unlisted criterion are those of remediations. -/
lemma Unlisted.accepted_iff (h : Unlisted plan r c) :
    (∀ wp ∈ plan.allPackages, c.id ∈ wp.satisfies → isAccepted tasks wp.id = true) ↔
      ∀ rm ∈ plan.remediations, ∀ wp ∈ plan.live rm, c.id ∈ wp.satisfies → isAccepted tasks wp.id = true := by
  simp only [DeliveryPlan.allPackages, mem_append, mem_flatMap]
  refine ⟨fun hall rm hrm wp hwp => hall wp (.inr ⟨rm, hrm, hwp⟩), fun hall wp hwp hclaim => ?_⟩
  obtain hwp | ⟨rm, hrm, hwp⟩ := hwp
  · exact absurd hclaim (h.1 wp hwp)
  · exact hall rm hrm wp hwp hclaim

/-- Of a criterion delivery owns, the assessment asks for every live package that claims it. -/
lemma met_iff_concur (hown : c.isHuman = false) : (((deliverableFact plan r c).resolve tasks).met = true ↔
        (∀ wp ∈ plan.allPackages, c.id ∈ wp.satisfies → isAccepted tasks wp.id = true) ∧
          ∀ inv, findingAgainst r.invalidations c.id = some inv → plan.Answers c.id inv.seq) ↔
      Concur plan r tasks c := by
  by_cases hjudged : judged plan r c = []
  · have hunlisted := judged_eq_nil_iff.mp hjudged
    rw [resolve_met_of_unjudged hjudged, acceptedBy_ne_empty_iff, hunlisted.answered_iff, hunlisted.accepted_iff,
      and_comm]
    constructor
    · intro hagree
      refine ⟨by simp [hown], fun _ _ => hagree.mp, fun _ _ hunsigned => ?_, by simp [hjudged]⟩
      exact (not_and_or.mp (mt hagree.mpr hunsigned)).imp (by simp) (by simp)
    · intro hconcur
      refine ⟨hconcur.signed hown hunlisted, ?_⟩
      rintro ⟨hnone, hall⟩
      by_contra hunsigned
      obtain ⟨inv, hinv, heq⟩ | ⟨rm, hrm, wp, hwp, hclaim, hnot⟩ := hconcur.unsigned hown hunlisted hunsigned
      · exact hnone inv hinv heq
      · exact Bool.false_ne_true (hnot.symm.trans (hall rm hrm wp hwp hclaim))
  · rw [resolve_met_of_judged hjudged]
    constructor
    · intro hagree
      have hlisted := mt judged_eq_nil_iff.mpr hjudged
      refine ⟨by simp [hown], by simp [hlisted], by simp [hlisted], fun _ _ hanswered hdelivered => ?_⟩
      obtain ⟨hall, -⟩ := hagree.mp ⟨hdelivered, hanswered⟩
      refine ⟨fun id hid => ?_, fun wp hwp hclaim _ => hall wp hwp hclaim⟩
      obtain ⟨wp, hwp, hclaim, rfl⟩ := exists_of_mem_judged hid
      exact (isAccepted_iff.mp (hall wp hwp hclaim)).2
    · intro hconcur
      constructor
      · rintro ⟨hdelivered, hanswered⟩
        obtain ⟨huat, hothers⟩ := hconcur.listed hown hjudged hanswered hdelivered
        refine ⟨fun wp hwp hclaim => ?_, hanswered⟩
        by_cases hlisted : wp.id ∈ judged plan r c
        · exact isAccepted_iff.mpr ⟨hdelivered _ hlisted, huat _ hlisted⟩
        · exact hothers wp hwp hclaim hlisted
      · rintro ⟨hall, hanswered⟩
        refine ⟨fun id hid => ?_, hanswered⟩
        obtain ⟨wp, hwp, hclaim, rfl⟩ := exists_of_mem_judged hid
        exact (isAccepted_iff.mp (hall wp hwp hclaim)).1

end Verdicts

/-- **The two verdicts.**  For an accepted plan, a deliverable is marked met exactly when the assessment of
the published document lists its criterion as met, if and only if the rules concur on the criterion. -/
theorem resolve_met_iff (toLower : Char → Char) (plan : DeliveryPlan) (intent : Intent) (r : Record)
    (s : Projector.State) (order : List String) (path : String) (ev : Evidence)
    (hplan : plan.validate toLower intent = .ok ()) (hcriteria : intent.criteria.Nodup)
    (hkeyed : Keyed s.tasks) (horder : GoMap.Enumerates order s.tasks)
    (hassess : assess plan intent (r.acceptances.map toAcceptance) r.invalidations
      path (.document (Projection.ofState order s)) = .ok ev)
    (c : Criterion) (hc : c ∈ intent.acceptance) :
    (((deliverableFact plan r c).resolve s.tasks).met = true ↔ c.id ∈ ev.acceptanceMet) ↔
      Concur plan r s.tasks c := by
  have haccepted := DeliveryPlan.validate_eq_ok_iff.mp hplan
  have hverdict : c.id ∈ ev.acceptanceMet ↔ (verdictOn plan (r.acceptances.map toAcceptance) r.invalidations
        (Projection.ofState order s) c).isMet = true := by
    obtain ⟨habsent, -⟩ | ⟨doc, hdoc, rfl⟩ := assess_cases hassess
    · cases habsent
    · cases hdoc
      exact mem_withVerdict hcriteria hc _ _
  rw [hverdict]
  cases hown : c.isHuman with
  | true =>
    -- Nothing in an accepted plan claims the criterion, so the record decides for both.
    have hjudged : judged plan r c = [] := by
      refine eq_nil_iff_forall_not_mem.mpr fun id hid => ?_
      obtain ⟨wp, hwp, hclaim, -⟩ := exists_of_mem_judged hid
      exact haccepted.not_claim hc hown hwp hclaim
    have hanswered : (∃ a ∈ r.acceptances.map toAcceptance, a.criterionID = c.id)
        ↔ ∃ a ∈ r.acceptances, a.criterionID = c.id := by simp
    rw [resolve_met_of_unjudged hjudged, verdictOn_human hown, hanswered]
    exact accepted_iff_concur hown
  | false =>
    have hclaimed := haccepted.exists_claim hc hown
    rw [verdictOn_delivery hown, ← met_iff_concur hown]
    simp only [complete_ofState_iff hkeyed horder, ← findingAgainst_eq_some, hclaimed, true_and]

/-! ## Where they agree, and where they do not -/

/-- A task with a status and its completion gate met. -/
def statusTask (row : String × Projector.StatusName) : Projector.Task where
  taskID := row.1
  status := .known row.2
  completionGateStatus := .known .met

variable (rows : List (String × Projector.StatusName))

/-- A state with the given statuses, every completion gate met. -/
def statusState : Projector.State where
  project := { projectID := "shop" }
  tasks := GoMap.indexBy Projector.Task.taskID (fun t => t) (rows.map statusTask)

lemma keyed_statusState : Keyed (statusState rows).tasks := by
  intro id t ht
  obtain ⟨t', ⟨_, _, _, hkey, _⟩, rfl⟩ := GoMap.get?_indexBy_eq_some.mp ht
  exact hkey

lemma enumerates_statusState {rows : List (String × Projector.StatusName)} (hnodup : (rows.map Prod.fst).Nodup) :
    GoMap.Enumerates (rows.map Prod.fst) (statusState rows).tasks := by
  have hkeys : rows.map Prod.fst = (rows.map statusTask).map Projector.Task.taskID := by
    rw [map_map]
    rfl
  rw [hkeys] at hnodup ⊢
  exact GoMap.enumerates_indexBy hnodup

/-- A delivery whose criterion was disproved twice, with corrective work authorized each time. -/
def twiceRepairedPlan : DeliveryPlan where
  projectID := "shop"
  packages := [sharedPackage "load" []]
  remediations :=
    [{ projectID := "shop", seq := 1, repairs := [⟨"ac-1", 1⟩], authorizedBy := "owner"
       packages := [sharedPackage "fix" []] },
      { projectID := "shop", seq := 2, repairs := [⟨"ac-1", 2⟩], authorizedBy := "owner"
        packages := [sharedPackage "refix" []] }]

def twiceFoundRecord : Record where
  projectID := "shop"
  intent := sharedIntent
  intentDigest := ""
  createdAt := Time.zero
  updatedAt := Time.zero
  invalidations := [auditOf "ac-1", { auditOf "ac-1" with seq := 2 }]

def sharedCriterion : Criterion := { id := "ac-1", statement := "The application works." }

/-- The assessment of the published statuses. -/
def assessStatuses : Except String Evidence :=
  assess twiceRepairedPlan sharedIntent
    (twiceFoundRecord.acceptances.map toAcceptance) twiceFoundRecord.invalidations
    "STATE.yml" (.document (Projection.ofState (rows.map Prod.fst) (statusState rows)))

def mergedRows : List (String × Projector.StatusName) := [("load", .merged), ("fix", .merged), ("refix", .merged)]

/-- Once everything is merged, the deliverable is met and the assessment lists the criterion. -/
theorem resolve_met_iff_merged : ∃ ev, assessStatuses mergedRows = .ok ev ∧ "ac-1" ∈ ev.acceptanceMet ∧
      (((deliverableFact twiceRepairedPlan twiceFoundRecord sharedCriterion).resolve
          (statusState mergedRows).tasks).met = true ↔ "ac-1" ∈ ev.acceptanceMet) := by
  refine ⟨_, rfl, by decide, ?_⟩
  refine (resolve_met_iff Char.toLower twiceRepairedPlan sharedIntent twiceFoundRecord
    (statusState mergedRows) (mergedRows.map Prod.fst) "STATE.yml" _ (by decide) (by decide)
    (keyed_statusState _) (enumerates_statusState (by decide)) rfl sharedCriterion (by decide)).mpr ?_
  have hlisted : ¬ Unlisted twiceRepairedPlan twiceFoundRecord sharedCriterion :=
    fun h => h.1 (sharedPackage "load" []) (by decide) (by decide)
  exact ⟨by decide, by simp [hlisted], by simp [hlisted], fun _ _ _ _ => by decide⟩

/-- The plan is accepted.  With the original work deployed for user acceptance, or with the repair of the
earlier finding still planned, the deliverable is met, and the assessment does not list the criterion. -/
theorem uat_and_earlier_repair : twiceRepairedPlan.validate Char.toLower sharedIntent = .ok () ∧
    (((deliverableFact twiceRepairedPlan twiceFoundRecord sharedCriterion).resolve
        (statusState [("load", .deployedUAT), ("fix", .merged), ("refix", .merged)]).tasks).met = true ∧
      (assessStatuses [("load", .deployedUAT), ("fix", .merged), ("refix", .merged)]).toOption.map
        (fun ev => decide ("ac-1" ∈ ev.acceptanceMet)) = some false) ∧
    (((deliverableFact twiceRepairedPlan twiceFoundRecord sharedCriterion).resolve
        (statusState [("load", .merged), ("fix", .planned), ("refix", .merged)]).tasks).met = true ∧
      (assessStatuses [("load", .merged), ("fix", .planned), ("refix", .merged)]).toOption.map
        (fun ev => decide ("ac-1" ∈ ev.acceptanceMet)) = some false) := by
  refine ⟨by decide, ⟨by decide, by decide⟩, by decide, by decide⟩

end DeliveryEngine.Handoff
