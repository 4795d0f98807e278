import DeliveryEngine.Handoff.Intent

/-!
# The completion assessment

`assess` decides from evidence whether a delivery is complete.  It counts a package complete when its row of the
projection is accepted and its gate is met, and a criterion met when every package that claims it is complete, or when
a person has accepted it.  A finding against a criterion outranks the count until work authorized for that finding is
itself complete.  `assess_met_iff` says what the verdict means.
-/

namespace DeliveryEngine.Handoff

open Go List

/-! ## The facts an assessment reads -/

/-- A person's acceptance of a criterion. -/
structure Acceptance where
  criterionID : String
  deriving DecidableEq

/-- A finding that a criterion reported met was not satisfied. -/
structure Invalidation where
  seq : ℤ
  criterionID : String
  /-- The actor. -/
  raisedBy : String
  reason : String
  evidence : String
  previousState : String := "met"
  raisedAt : Time := default
  deriving DecidableEq

/-- A task as the projection reports it. -/
structure TaskRow where
  taskID : String
  status : String
  completionGateStatus : String

/-- The part of the published projection an assessment reads. -/
structure Projection where
  schemaVersion : ℤ := 1
  projectID : String := ""
  latestAcceptedMainSha : String := ""
  activeTasks : List TaskRow

/-- What reading the projection's file came to. -/
inductive Reading
  | absent
  | failed (err : String)
  | malformed (err : String)
  | document (p : Projection)

/-- The refusal of a projection that exists and cannot be read. -/
def errProjectionUnreadable (why : String) : String := "handoff: delivery projection is unreadable: " ++ why

def readProjection (path : String) : Reading → Except String (Option Projection)
  | .absent => .ok none
  | .failed err => .error s!"reading delivery projection {quote path}: {err}"
  | .malformed err => .error (errProjectionUnreadable s!"{path}: {err}")
  | .document p =>
    if p.schemaVersion ≠ 1 then
      .error (errProjectionUnreadable s!"{path}: schemaVersion {p.schemaVersion}, this engine reads 1")
    else .ok (some p)

/-! ## Packages -/

/-- The task statuses that can contribute to completion. -/
def acceptedStatuses : List String := ["merged", "verified", "complete"]

/-- How a package stands with the projection. -/
inductive Standing
  | unseen
  | blocked
  | unaccepted
  | gateNotMet
  | complete
  deriving DecidableEq

/-- The standing a row gives its package. -/
def standing : Option TaskRow → Standing
  | none => .unseen
  | some o =>
    if o.status = "blocked" then .blocked
    else if o.status ∉ acceptedStatuses then .unaccepted
    else if o.completionGateStatus ≠ "met" then .gateNotMet
    else .complete

namespace Projection

/-- The standing of a package.  Of several rows for a task, the last one counts. -/
def standingOf (p : Projection) (id : String) : Standing :=
  standing ((GoMap.indexBy TaskRow.taskID (fun row => row) p.activeTasks).get? id)

def withStanding (p : Projection) (all : List WorkPackage) (keep : Standing → Bool) : List String :=
  (all.map WorkPackage.id).filter (fun id => keep (p.standingOf id))

end Projection

/-! ## Criteria -/

variable (plan : DeliveryPlan) (criterionID : String) (seq : ℤ)

/-- The packages an authorized remediation added to repair one finding against one criterion. -/
def repairedBy : List String :=
  sortStrings ((plan.remediations.filter (·.repairsInvalidation criterionID seq)).flatMap
    (fun rm => (rm.packagesFor criterionID).filter (· ∉ plan.superseded)))

/-- A finding that stands, and what has been authorized to repair it. -/
structure InvalidatedCriterion where
  criterionID : String
  invalidation : ℤ
  raisedBy : String
  reason : String
  evidence : String
  raisedAt : Time
  previousState : String
  remedialPackages : List String

/-- What an assessment says of one criterion. -/
inductive Verdict
  | met
  | awaitingHuman
  | outstanding (finding : Option InvalidatedCriterion)

namespace Verdict

def isMet : Verdict → Bool
  | .met => true
  | _ => false

def isAwaiting : Verdict → Bool
  | .awaitingHuman => true
  | _ => false

def isOutstanding : Verdict → Bool
  | .outstanding _ => true
  | _ => false

def finding? : Verdict → Option InvalidatedCriterion
  | .outstanding finding => finding
  | _ => none

end Verdict

def claims (pkgs : List WorkPackage) (criterionID : String) : ℕ :=
  (pkgs.map (·.satisfies.count criterionID)).sum

/-- Whether every claim on a criterion is a complete package's, and there is one. -/
def delivered (all : List WorkPackage) (complete : List String) (criterionID : String) : Bool :=
  let claimed := claims all criterionID
  let done := claims (all.filter (·.id ∈ complete)) criterionID
  0 < claimed && claimed = done

def judge (plan : DeliveryPlan) (complete answered : List String) (latest : GoMap Invalidation)
    (c : Criterion) : Verdict :=
  if c.isHuman then if c.id ∈ answered then .met else .awaitingHuman
  else
    let counted := delivered plan.allPackages complete c.id
    match latest.get? c.id with
    | none => if counted then .met else .outstanding none
    | some inv =>
      let repaired := repairedBy plan c.id inv.seq
      if repaired = [] || !counted then
        .outstanding (some
          { criterionID := c.id
            invalidation := inv.seq
            raisedBy := inv.raisedBy
            reason := inv.reason
            evidence := inv.evidence
            raisedAt := inv.raisedAt
            previousState := inv.previousState
            remedialPackages := repaired })
      else .met

/-! ## The assessment -/

/-- The completion assessment. -/
structure Evidence where
  met : Bool := false
  requiredPackages : List String := []
  completePackages : List String := []
  outstandingPackages : List String := []
  /-- The packages that reached the forge and whose gate did not pass. -/
  gateNotMet : List String := []
  acceptanceMet : List String := []
  acceptanceOutstanding : List String := []
  awaitingHuman : List String := []
  invalidated : List InvalidatedCriterion := []
  blockingTasks : List String := []
  mergedMainSha : String := ""
  /-- What is still missing, in order. -/
  reasons : List String := []

/-- A finding as a reason against completion. -/
def InvalidatedCriterion.sentence (inv : InvalidatedCriterion) : String :=
  s!"{inv.criterionID} was {inv.previousState} and is no longer: {inv.reason} " ++
    s!"(evidence: {inv.evidence}; invalidation {inv.invalidation} recorded by {inv.raisedBy} " ++
    s!"at {inv.raisedAt.rfc3339})" ++
    (if inv.remedialPackages = [] then " — no remediation has been authorized for it"
      else " — remediation authorized: " ++ joinWith inv.remedialPackages ", ")

namespace Evidence

variable (policy : Policy) (ev : Evidence)

/-- The reasons against completion. -/
def objections : List String :=
  (if ev.outstandingPackages = [] then []
    else [s!"{ev.outstandingPackages.length} of {ev.requiredPackages.length} work packages are " ++
      "not complete: " ++ joinWith ev.outstandingPackages ", "]) ++
  (if ev.gateNotMet = [] then []
    else [s!"{ev.gateNotMet.length} package(s) reached the forge without a met completion gate: " ++
      joinWith ev.gateNotMet ", "]) ++
  (if ev.acceptanceOutstanding = [] then []
    else ["acceptance criteria not met: " ++ joinWith ev.acceptanceOutstanding ", "]) ++
  ev.invalidated.map InvalidatedCriterion.sentence ++
  (if ev.awaitingHuman = [] then []
    else ["awaiting human acceptance: " ++ joinWith ev.awaitingHuman ", "]) ++
  (if ev.blockingTasks = [] then []
    else ["blocking work remains: " ++ joinWith ev.blockingTasks ", "]) ++
  (if policy.needMerge && trimSpace ev.mergedMainSha = "" then
    ["no accepted commit is recorded on the authoritative branch"] else [])

/-- The evidence with its reasons and its verdict: nothing speaks against completion. -/
def conclude : Evidence :=
  { ev with reasons := ev.objections policy, met := ev.objections policy = [] }

end Evidence

section Assess
variable (plan : DeliveryPlan) (intent : Intent) (accepted : List Acceptance)
  (invalidations : List Invalidation)

/-- The ids of the required packages, sorted. -/
def required : List String := sortStrings (plan.allPackages.map WorkPackage.id)

/-- The ids of the criteria with a verdict, sorted. -/
def withVerdict (verdict : Criterion → Verdict) (keep : Verdict → Bool) : List String :=
  sortStrings ((intent.acceptance.filter (fun c => keep (verdict c))).map Criterion.id)

/-- The assessment before anything has been published: a person's answers count, and nothing else
does. -/
def unpublished : Evidence :=
  let verdict (c : Criterion) : Verdict :=
    if c.isHuman then
      if c.id ∈ accepted.map Acceptance.criterionID then .met else .awaitingHuman
    else .outstanding none
  { requiredPackages := required plan
    outstandingPackages := required plan
    acceptanceMet := withVerdict intent verdict Verdict.isMet
    acceptanceOutstanding := withVerdict intent verdict Verdict.isOutstanding
    awaitingHuman := withVerdict intent verdict Verdict.isAwaiting
    reasons := ["no delivery projection has been published yet"] }

def verdictOn (doc : Projection) (c : Criterion) : Verdict :=
  judge plan (doc.withStanding plan.allPackages (· = .complete)) (accepted.map Acceptance.criterionID)
    (GoMap.indexBy Invalidation.criterionID (fun inv => inv) invalidations) c

/-- What the projection shows, before the reasons are drawn from it. -/
def gather (doc : Projection) : Evidence :=
  let verdict := verdictOn plan accepted invalidations doc
  { requiredPackages := required plan
    completePackages := sortStrings (doc.withStanding plan.allPackages (· = .complete))
    outstandingPackages := sortStrings (doc.withStanding plan.allPackages (· ≠ .complete))
    gateNotMet := sortStrings (doc.withStanding plan.allPackages (· = .gateNotMet))
    blockingTasks := sortStrings (doc.withStanding plan.allPackages (· = .blocked))
    acceptanceMet := withVerdict intent verdict Verdict.isMet
    acceptanceOutstanding := withVerdict intent verdict Verdict.isOutstanding
    awaitingHuman := withVerdict intent verdict Verdict.isAwaiting
    invalidated := (intent.acceptance.filterMap (fun c => (verdict c).finding?)).insertionSort
      (fun a b => a.criterionID ≤ b.criterionID)
    mergedMainSha := doc.latestAcceptedMainSha }

/-- The completion evidence for a plan against a projection. -/
def assess (path : String) (reading : Reading) : Except String Evidence :=
  match readProjection path reading with
  | .error err => .error err
  | .ok none => .ok (unpublished plan intent accepted)
  | .ok (some doc) =>
    if doc.projectID ≠ "" ∧ doc.projectID ≠ intent.projectID then
      .error (errProjectionUnreadable
        s!"{path} projects project {quote doc.projectID}, not {quote intent.projectID}")
    else .ok ((gather plan intent accepted invalidations doc).conclude intent.policy)

end Assess

/-! ## What the assessment rests on -/

/-- The last row of a package is accepted, with its gate met. -/
def Projection.Complete (doc : Projection) (wp : WorkPackage) : Prop :=
  ∃ row, GoMap.Latest TaskRow.taskID doc.activeTasks wp.id row ∧ row.status ∈ acceptedStatuses ∧
    row.completionGateStatus = "met"

lemma standing_eq_complete {o : Option TaskRow} : standing o = .complete ↔
      ∃ row, o = some row ∧ row.status ∈ acceptedStatuses ∧ row.completionGateStatus = "met" := by
  cases o with
  | none => simp [standing]
  | some row =>
    have hblocked : row.status ∈ acceptedStatuses → row.status ≠ "blocked" := by
      rintro hmem heq
      rw [heq] at hmem
      revert hmem
      decide
    simp only [standing]
    split_ifs with hblock haccepted hgate <;> simp_all

variable {doc : Projection} {wp : WorkPackage}

lemma Projection.standingOf_eq_complete : doc.standingOf wp.id = .complete ↔ doc.Complete wp := by
  rw [Projection.standingOf, standing_eq_complete]
  refine exists_congr fun row => and_congr_left' ?_
  rw [GoMap.get?_indexBy_eq_some, exists_eq_right]

variable {all : List WorkPackage}

lemma Projection.mem_withStanding_complete (hwp : wp ∈ all) :
    wp.id ∈ doc.withStanding all (· = .complete) ↔ doc.Complete wp := by
  rw [Projection.withStanding, mem_filter, decide_eq_true_eq, standingOf_eq_complete]
  exact and_iff_right (mem_map_of_mem hwp)

/-! ### Claims -/

variable {c : String} {pkgs : List WorkPackage}

lemma claims_pos : 0 < claims pkgs c ↔ ∃ wp ∈ pkgs, c ∈ wp.satisfies := by
  simp [claims, List.sum_pos_iff_exists_pos_nat, count_pos_iff]

lemma claims_filter_eq {keep : WorkPackage → Bool} :
    claims pkgs c = claims (pkgs.filter keep) c ↔ ∀ wp ∈ pkgs, c ∈ wp.satisfies → keep wp = true := by
  have hsplit : claims pkgs c = claims (pkgs.filter keep) c + claims (pkgs.filter fun wp => !keep wp) c := by
    induction pkgs with
    | nil => rfl
    | cons wp pkgs ih =>
      simp only [claims, map_cons, sum_cons, filter_cons] at ih ⊢
      cases keep wp <;> simp <;> omega
  rw [hsplit, Nat.add_eq_left, ← Nat.le_zero, ← Nat.not_lt, claims_pos]
  simp only [mem_filter, not_exists, not_and, Bool.not_eq_true']
  refine forall_congr' fun wp => ?_
  cases keep wp <;> simp

lemma delivered_eq_true {complete : List String} : delivered all complete c = true ↔
      (∃ wp ∈ all, c ∈ wp.satisfies) ∧ ∀ wp ∈ all, c ∈ wp.satisfies → wp.id ∈ complete := by
  simp only [delivered, Bool.and_eq_true, decide_eq_true_eq, claims_pos, claims_filter_eq]

/-! ### Findings -/

/-- A remediation that names the finding has a package, not superseded, that claims the criterion. -/
def DeliveryPlan.Answers : Prop :=
  ∃ rm ∈ plan.remediations, rm.repairsInvalidation criterionID seq = true ∧
    ∃ wp ∈ plan.live rm, criterionID ∈ wp.satisfies

variable {plan : DeliveryPlan}

lemma mem_repairedBy {id : String} {seq : ℤ} :
    id ∈ repairedBy plan c seq ↔ ∃ rm ∈ plan.remediations, rm.repairsInvalidation c seq = true ∧
      ∃ wp ∈ plan.live rm, c ∈ wp.satisfies ∧ wp.id = id := by
  simp only [repairedBy, mem_sortStrings, mem_flatMap, mem_filter, decide_eq_true_eq,
    Remediation.packagesFor, DeliveryPlan.live, mem_map]
  constructor
  · rintro ⟨rm, ⟨hrm, hrepairs⟩, ⟨wp, ⟨hwp, hc⟩, rfl⟩, hlive⟩
    exact ⟨rm, hrm, hrepairs, wp, ⟨hwp, hlive⟩, hc, rfl⟩
  · rintro ⟨rm, hrm, hrepairs, wp, ⟨hwp, hlive⟩, hc, rfl⟩
    exact ⟨rm, ⟨hrm, hrepairs⟩, ⟨wp, ⟨hwp, hc⟩, rfl⟩, hlive⟩

lemma repairedBy_ne_nil {seq : ℤ} : repairedBy plan c seq ≠ [] ↔ plan.Answers c seq := by
  constructor
  · intro hne
    obtain ⟨id, hid⟩ := exists_mem_of_ne_nil _ hne
    obtain ⟨rm, hrm, hrepairs, wp, hwp, hc, -⟩ := mem_repairedBy.mp hid
    exact ⟨rm, hrm, hrepairs, wp, hwp, hc⟩
  · rintro ⟨rm, hrm, hrepairs, wp, hwp, hc⟩
    exact ne_nil_of_mem (mem_repairedBy.mpr ⟨rm, hrm, hrepairs, wp, hwp, hc, rfl⟩)

/-! ### Verdicts -/

lemma Verdict.isMet_iff (v : Verdict) : v.isMet = true ↔ v.isOutstanding = false ∧ v.isAwaiting = false := by
  cases v <;> simp [isMet, isOutstanding, isAwaiting]

lemma Verdict.finding?_eq_none {v : Verdict} (h : v.isOutstanding = false) : v.finding? = none := by
  cases v with
  | met => rfl
  | awaitingHuman => rfl
  | outstanding _ => cases h

section Verdicts
variable {intent : Intent} {accepted : List Acceptance}
  {invalidations : List Invalidation} {doc : Projection}

variable {c : Criterion}

lemma verdictOn_human (hc : c.isHuman = true) :
    (verdictOn plan accepted invalidations doc c).isMet = true ↔ ∃ a ∈ accepted, a.criterionID = c.id := by
  rw [verdictOn, judge]
  split_ifs with hmem
  · simpa [Verdict.isMet] using hmem
  · simpa [Verdict.isMet] using hmem

/-- A criterion delivery owns is met when it is claimed, every package that claims it is complete, and
the latest finding against it is answered. -/
lemma verdictOn_delivery (hc : c.isHuman = false) :
    (verdictOn plan accepted invalidations doc c).isMet = true ↔ ((∃ wp ∈ plan.allPackages, c.id ∈ wp.satisfies) ∧
        ∀ wp ∈ plan.allPackages, c.id ∈ wp.satisfies → doc.Complete wp) ∧
      ∀ inv, GoMap.Latest Invalidation.criterionID invalidations c.id inv → plan.Answers c.id inv.seq := by
  have hcounted : delivered plan.allPackages (doc.withStanding plan.allPackages (· = .complete)) c.id
      = true ↔ (∃ wp ∈ plan.allPackages, c.id ∈ wp.satisfies) ∧
        ∀ wp ∈ plan.allPackages, c.id ∈ wp.satisfies → doc.Complete wp := by
    rw [delivered_eq_true]
    refine and_congr_right' (forall₂_congr fun wp hwp => ?_)
    rw [Projection.mem_withStanding_complete hwp]
  have hlatest : ∀ inv, GoMap.Latest Invalidation.criterionID invalidations c.id inv ↔
      (GoMap.indexBy Invalidation.criterionID (fun inv => inv) invalidations).get? c.id = some inv := fun inv => by
    rw [GoMap.get?_indexBy_eq_some, exists_eq_right]
  simp only [← hcounted, hlatest, ← repairedBy_ne_nil]
  rw [verdictOn, judge, if_neg (by simp [hc])]
  generalize delivered plan.allPackages _ c.id = counted
  cases hget : (GoMap.indexBy Invalidation.criterionID (fun inv => inv) invalidations).get? c.id with
  | none => cases counted <;> simp [Verdict.isMet]
  | some inv =>
    by_cases hrepaired : repairedBy plan c.id inv.seq = [] <;>
      cases counted <;> simp [Verdict.isMet, hrepaired]

/-- Nothing speaks against completion exactly when every package is complete, every criterion is met, and
a commit is recorded if one had to be merged. -/
lemma objections_gather : (gather plan intent accepted invalidations doc).objections intent.policy = [] ↔
      (∀ wp ∈ plan.allPackages, doc.Complete wp) ∧
      (∀ c ∈ intent.acceptance, (verdictOn plan accepted invalidations doc c).isMet = true) ∧
      (intent.policy.needMerge = true → trimSpace doc.latestAcceptedMainSha ≠ "") := by
  constructor
  · intro h
    simp only [Evidence.objections, append_eq_nil_iff, ite_eq_left_iff, cons_ne_nil,
      imp_false, not_not, map_eq_nil_iff] at h
    obtain ⟨⟨⟨⟨⟨⟨hout, -⟩, hcriteria⟩, -⟩, hhuman⟩, -⟩, hsha⟩ := h
    refine ⟨fun wp hwp => ?_, fun c hc => ?_, fun hneed hblank => ?_⟩
    · rw [← Projection.standingOf_eq_complete]
      by_contra hne
      have hmem : wp.id ∈ sortStrings (doc.withStanding plan.allPackages (· ≠ .complete)) :=
        mem_sortStrings.mpr (mem_filter.mpr ⟨mem_map_of_mem hwp, decide_eq_true hne⟩)
      rw [show sortStrings _ = [] from hout] at hmem
      cases hmem
    · rw [Verdict.isMet_iff]
      have hnil := fun keep (h : withVerdict intent (verdictOn plan accepted invalidations doc) keep
          = []) => filter_eq_nil_iff.mp (map_eq_nil_iff.mp (sortStrings_eq_nil.mp h)) c hc
      exact ⟨by simpa using hnil _ hcriteria, by simpa using hnil _ hhuman⟩
    · simp [gather, hneed, hblank] at hsha
  · rintro ⟨hall, hmet, hsha⟩
    have hstanding : ∀ keep : Standing → Bool, keep .complete = false →
        doc.withStanding plan.allPackages keep = [] := fun keep hkeep => by
      refine filter_eq_nil_iff.mpr fun id hid => ?_
      obtain ⟨wp, hwp, rfl⟩ := mem_map.mp hid
      rw [Projection.standingOf_eq_complete.mpr (hall wp hwp), hkeep]
      exact Bool.false_ne_true
    have hverdict : ∀ keep : Verdict → Bool, (∀ v, v.isMet = true → keep v = false) →
        withVerdict intent (verdictOn plan accepted invalidations doc) keep = [] := fun keep hkeep => by
      refine sortStrings_eq_nil.mpr (map_eq_nil_iff.mpr (filter_eq_nil_iff.mpr ?_))
      exact fun c hc => by simp [hkeep _ (hmet c hc)]
    have hfindings : intent.acceptance.filterMap
        (fun c => (verdictOn plan accepted invalidations doc c).finding?) = [] :=
      filterMap_eq_nil_iff.mpr fun c hc =>
        Verdict.finding?_eq_none ((Verdict.isMet_iff _).mp (hmet c hc)).1
    have hneed : (intent.policy.needMerge &&
        decide (trimSpace doc.latestAcceptedMainSha = "")) = false := by
      cases hn : intent.policy.needMerge with
      | false => rfl
      | true => simpa using hsha hn
    simp only [Evidence.objections, gather, hfindings, hneed, hstanding (· ≠ .complete) (by decide),
      hstanding (· = .gateNotMet) (by decide), hstanding (· = .blocked) (by decide),
      hverdict Verdict.isOutstanding fun v hv => ((Verdict.isMet_iff v).mp hv).1,
      hverdict Verdict.isAwaiting fun v hv => ((Verdict.isMet_iff v).mp hv).2]
    rfl

lemma assess_cases {path : String} {reading : Reading} {ev : Evidence}
    (h : assess plan intent accepted invalidations path reading = .ok ev) :
    (reading = .absent ∧ ev = unpublished plan intent accepted) ∨ ∃ doc, reading = .document doc ∧
        ev = (gather plan intent accepted invalidations doc).conclude intent.policy := by
  cases reading with
  | absent =>
    cases h
    exact .inl ⟨rfl, rfl⟩
  | failed err => cases h
  | malformed err => cases h
  | document doc =>
    by_cases hversion : doc.schemaVersion = 1
    · rw [assess, readProjection, if_neg (not_not.mpr hversion)] at h
      dsimp only at h
      split_ifs at h
      cases h
      exact .inr ⟨doc, rfl, rfl⟩
    · rw [assess, readProjection, if_pos hversion] at h
      cases h

lemma mem_withVerdict (hnodup : intent.criteria.Nodup)
    (hc : c ∈ intent.acceptance) (verdict : Criterion → Verdict) (keep : Verdict → Bool) :
    c.id ∈ withVerdict intent verdict keep ↔ keep (verdict c) = true := by
  rw [withVerdict, mem_sortStrings, mem_map]
  constructor
  · rintro ⟨c', hc', heq⟩
    obtain ⟨hmem, hkeep⟩ := mem_filter.mp hc'
    rwa [inj_on_of_nodup_map hnodup hmem hc heq] at hkeep
  · exact fun h => ⟨c, mem_filter.mpr ⟨hc, h⟩, rfl⟩

end Verdicts

/-- **The verdict.**  A readable projection of the project is assessed, and delivery is complete exactly
when every live package is; every criterion delivery owns is claimed, and the latest finding against it
answered; every criterion reserved for a person is accepted; and a commit is recorded if one had to be
merged.  A criterion delivery owns with a finding counts as met only if a live package authorized for
that finding is complete. -/
theorem assess_met_iff (plan : DeliveryPlan) (intent : Intent) (accepted : List Acceptance)
    (invalidations : List Invalidation) (path : String) (doc : Projection)
    (hversion : doc.schemaVersion = 1)
    (hproject : doc.projectID = "" ∨ doc.projectID = intent.projectID) :
    ∃ ev, assess plan intent accepted invalidations path (.document doc) = .ok ev ∧ (ev.met = true ↔
        (∀ wp ∈ plan.allPackages, doc.Complete wp) ∧
        (∀ c ∈ intent.acceptance, c.isHuman = false → (∃ wp ∈ plan.allPackages, c.id ∈ wp.satisfies) ∧
            ∀ inv, GoMap.Latest Invalidation.criterionID invalidations c.id inv → plan.Answers c.id inv.seq) ∧
        (∀ c ∈ intent.acceptance, c.isHuman = true → ∃ a ∈ accepted, a.criterionID = c.id) ∧
        (intent.policy.needMerge = true → trimSpace doc.latestAcceptedMainSha ≠ "")) ∧
      ∀ id ∈ ev.acceptanceMet, id ∉ intent.human →
        ∀ inv, GoMap.Latest Invalidation.criterionID invalidations id inv →
          ∃ rm ∈ plan.remediations, rm.repairsInvalidation id inv.seq = true ∧
            ∃ wp ∈ plan.live rm, id ∈ wp.satisfies ∧ doc.Complete wp := by
  have hassess : assess plan intent accepted invalidations path (.document doc) =
      .ok ((gather plan intent accepted invalidations doc).conclude intent.policy) := by
    rw [assess, readProjection, if_neg (not_not.mpr hversion)]
    exact if_neg (by tauto)
  refine ⟨_, hassess, ?_, ?_⟩
  · rw [Evidence.conclude, decide_eq_true_eq, objections_gather]
    refine and_congr_right fun hall => ?_
    rw [← and_assoc]
    refine and_congr_left' ⟨fun hmet => ⟨fun c hc hown => ?_, fun c hc hown => ?_⟩, ?_⟩
    · obtain ⟨⟨hclaimed, -⟩, hfinding⟩ := (verdictOn_delivery hown).mp (hmet c hc)
      exact ⟨hclaimed, hfinding⟩
    · exact (verdictOn_human hown).mp (hmet c hc)
    · rintro ⟨hdelivery, hhuman⟩ c hc
      cases hown : c.isHuman with
      | true => exact (verdictOn_human hown).mpr (hhuman c hc hown)
      | false =>
        obtain ⟨hclaimed, hfinding⟩ := hdelivery c hc hown
        exact (verdictOn_delivery hown).mpr ⟨⟨hclaimed, fun wp hwp _ => hall wp hwp⟩, hfinding⟩
  · intro id hid hown inv hlatest
    obtain ⟨c, hc, rfl⟩ := mem_map.mp (mem_sortStrings.mp hid)
    obtain ⟨hmem, hmet⟩ := mem_filter.mp hc
    have hdelivery : c.isHuman = false := by
      by_contra hne
      exact hown (mem_map_of_mem (mem_filter.mpr ⟨hmem, by simpa using hne⟩))
    obtain ⟨⟨-, hcomplete⟩, hfinding⟩ := (verdictOn_delivery hdelivery).mp hmet
    obtain ⟨rm, hrm, hrepairs, wp, hwp, hclaims⟩ := hfinding inv hlatest
    have hall : wp ∈ plan.allPackages := mem_append_right _ (mem_flatMap.mpr ⟨rm, hrm, hwp⟩)
    exact ⟨rm, hrm, hrepairs, wp, hwp, hclaims, hcomplete wp hall hclaims⟩

/-! ## A repaired delivery, and two readings that are not the assessment's -/

def claiming (id criterionID : String) : WorkPackage := { id := id, satisfies := [criterionID] }

/-- A project with a criterion delivery owns and one reserved for a person. -/
def courseIntent : Intent where
  projectID := "course"
  lifecycle := ["build"]
  acceptance := [{ id := "ac-1", statement := "Courses load." },
    { id := "ac-2", statement := "A teacher likes it.", acceptedBy := acceptedByHuman }]
  policy := { needMerge := true, needPush := true, needPR := true, needChecks := true }
  repository := { slug := "acme/course", origin := "git@github.com:acme/course.git", defaultBranch := "main" }
  checkout := "/srv/course"
  objective := "Deliver the courses."

/-- A finding against a criterion. -/
def auditOf (criterionID : String) : Invalidation where
  seq := 1
  criterionID := criterionID
  raisedBy := "auditor"
  reason := "a behaviour is missing"
  evidence := "issue 7"

/-- The delivered package, a first repair that was withdrawn, and the one that replaced it. -/
def repairedPlan : DeliveryPlan where
  projectID := "course"
  packages := [claiming "load" "ac-1"]
  remediations :=
    [{ projectID := "course", seq := 1, repairs := [⟨"ac-1", 1⟩], authorizedBy := "owner"
       packages := [claiming "fix" "ac-1"] },
      { projectID := "course", seq := 2, repairs := [⟨"ac-1", 1⟩], authorizedBy := "owner"
        packages := [claiming "refix" "ac-1"], supersedes := ["fix"] }]

/-- The projection once the replacement has merged. -/
def repairedDoc : Projection where
  projectID := "course"
  latestAcceptedMainSha := "c0ffee"
  activeTasks := [⟨"load", "merged", "met"⟩, ⟨"fix", "blocked", "pending"⟩, ⟨"refix", "verified", "met"⟩]

/-- The repaired delivery is complete, on the strength of a live package authorized for the finding. -/
theorem assess_met_iff_repaired : ∃ ev, assess repairedPlan courseIntent [⟨"ac-2"⟩] [auditOf "ac-1"] "STATE.yml"
        (.document repairedDoc) = .ok ev ∧ ev.met = true ∧
      ∃ rm ∈ repairedPlan.remediations, rm.repairsInvalidation "ac-1" 1 = true ∧
        ∃ wp ∈ repairedPlan.live rm, "ac-1" ∈ wp.satisfies ∧ repairedDoc.Complete wp := by
  obtain ⟨ev, hev, -, hfinding⟩ := assess_met_iff repairedPlan courseIntent [⟨"ac-2"⟩]
    [auditOf "ac-1"] "STATE.yml" repairedDoc rfl (.inr rfl)
  have hrun : (assess repairedPlan courseIntent [⟨"ac-2"⟩] [auditOf "ac-1"] "STATE.yml"
      (.document repairedDoc)).toOption.map (fun ev => (ev.met, decide ("ac-1" ∈ ev.acceptanceMet)))
        = some (true, true) := by decide
  rw [hev, Except.toOption, Option.map_some, Option.some.injEq, Prod.mk.injEq] at hrun
  refine ⟨ev, hev, hrun.1, hfinding "ac-1" (of_decide_eq_true hrun.2) (by decide) (auditOf "ac-1") ?_⟩
  exact ⟨[], [], rfl, rfl, by simp⟩

/-- A plan without remediations. -/
def plainPlan : DeliveryPlan where
  projectID := "course"
  packages := [claiming "load" "ac-1"]

/-- A projection in which a package is listed twice, and its later row is not accepted. -/
def twiceDoc : Projection where
  projectID := "course"
  latestAcceptedMainSha := "c0ffee"
  activeTasks := [⟨"load", "merged", "met"⟩, ⟨"load", "in-progress", "pending"⟩]

/-- A person's acceptance meets their criterion although a finding names it and no remediation exists.
And a row that is accepted with its gate met does not make a package complete when a later row of the same
package is not: everything else that completion asks for holds there, and delivery is not complete. -/
theorem human_finding_and_last_row :
    courseIntent.validate ⟨fun _ => .error "not a URL", fun a b => a = b⟩ = .ok () ∧ (plainPlan.remediations = [] ∧
      ((assess plainPlan courseIntent [⟨"ac-2"⟩] [auditOf "ac-2"] "STATE.yml"
        (.document repairedDoc)).toOption.map (fun ev => decide ("ac-2" ∈ ev.acceptanceMet))) = some true) ∧
    (∀ wp ∈ plainPlan.allPackages, ∃ row ∈ twiceDoc.activeTasks, row.taskID = wp.id ∧
        row.status ∈ acceptedStatuses ∧ row.completionGateStatus = "met") ∧
      (∀ c ∈ courseIntent.acceptance, c.isHuman = false → ∃ wp ∈ plainPlan.allPackages, c.id ∈ wp.satisfies) ∧
      (∀ c ∈ courseIntent.acceptance, c.isHuman = true → c.id = "ac-2") ∧
      twiceDoc.latestAcceptedMainSha = "c0ffee" ∧
      ((assess plainPlan courseIntent [⟨"ac-2"⟩] [] "STATE.yml"
        (.document twiceDoc)).toOption.map Evidence.met) = some false := by
  decide

end DeliveryEngine.Handoff
