import DeliveryEngine.Go.Result
import DeliveryEngine.Handoff.Assess
import DeliveryEngine.Handoff.Validate

/-!
# The delivery record

The `Record` holds the intent as it was accepted, and four lists that are only ever appended to: the runs made, the
answers people gave, the findings that a criterion reported met was not satisfied, and the remediations authorized to
answer them.  Each operation returns the record it leaves and the refusal, if it refused.
-/

namespace DeliveryEngine.Handoff

open Go List

/-! ## The record -/

/-- One execution attempt. -/
structure RunRef where
  runID : String
  startedAt : Time
  reason : String
  deriving DecidableEq

/-- One person's answer to one criterion. -/
structure RecordedAcceptance extends Acceptance where
  /-- The person. -/
  acceptedBy : String
  note : String := ""
  acceptedAt : Time
  deriving DecidableEq

/-- The record's own memory of one authorization. -/
structure RemediationRef where
  seq : ℤ
  /-- The digest of the document as installed. -/
  digest : String
  authorizedBy : String
  authorizedAt : Time
  deriving DecidableEq

/-- The delivery record of a project. -/
structure Record where
  schemaVersion : ℤ := 1
  projectID : String
  intent : Intent
  /-- The fingerprint of the intent's terms. -/
  intentDigest : String
  stateDir : String := ""
  worktree : String := ""
  createdAt : Time
  updatedAt : Time
  runs : List RunRef := []
  acceptances : List RecordedAcceptance := []
  invalidations : List Invalidation := []
  remediations : List RemediationRef := []

/-- The first run of a delivery. -/
def reasonInitial : String := "initial"

/-- A run started to reconcile after an interruption. -/
def reasonResumed : String := "resumed"

/-- The refusal of a request that the durable state contradicts. -/
def errRecordConflict (why : String) : String := "handoff: delivery record conflicts with this request: " ++ why

/-- The criterion an id names.  Of several, the first one counts. -/
def Intent.criterion? (intent : Intent) (id : String) : Option Criterion :=
  intent.acceptance.find? (·.id = id)

namespace Record

/-! ## Runs and acceptances -/

/-- Record a new execution attempt. -/
def appendRun (r : Record) (runID reason : String) (now : Time) : Record :=
  { r with runs := r.runs ++ [⟨runID, now, reason⟩], updatedAt := now }

variable (r : Record) (criterionID : String)

/-- Record a person's acceptance of a criterion reserved for them.  The first answer is kept. -/
def accept (actor note : String) (now : Time) : Record × Option String :=
  match r.intent.criterion? criterionID with
  | none => (r, some (errRecordConflict s!"{r.projectID} declares no acceptance criterion {quote criterionID}"))
  | some c =>
    if !c.isHuman then
      (r, some (errRecordConflict (s!"{criterionID} is delivery's to satisfy and prove — " ++
        "accepting it by hand would forge the evidence the completion gate reads")))
    else if trimSpace actor = "" then
      (r, some (errRecordConflict s!"accepting {criterionID} requires the name of the person accepting it"))
    else if r.acceptances.any (·.criterionID = criterionID) then (r, none)
    else
      ({ r with
          acceptances := r.acceptances ++ [⟨⟨criterionID⟩, trimSpace actor, trimSpace note, now⟩]
          updatedAt := now }, none)

/-! ## Findings -/

/-- The most recent finding against a criterion. -/
def latestInvalidation : Option Invalidation :=
  r.invalidations.foldl (fun found inv => if inv.criterionID = criterionID then some inv else found) none

/-- The items joined, or what to say when there is none. -/
def joinOr (items : List String) (fallback : String) : String :=
  if items = [] then fallback else joinWith items "; "

/-- Record that a criterion reported met was not satisfied.  `prior` is the assessment withdrawn. -/
def invalidate (prior : Evidence) (actor reason evidence : String) (now : Time) : Record × Option String :=
  match r.intent.criterion? criterionID with
  | none => (r, some (errRecordConflict s!"{r.projectID} declares no acceptance criterion {quote criterionID}"))
  | some c =>
    if c.isHuman then
      (r, some (errRecordConflict (s!"{criterionID} is a person's to accept — this operation " ++
        "withdraws a result delivery proved, and a person's answer is theirs to give and theirs " ++
        "to revise")))
    else if trimSpace actor = "" then
      (r, some (errRecordConflict (s!"invalidating {criterionID} requires the name of the actor " ++
        "invalidating it — an unattributed invalidation is an invisible mutation of a finished " ++
        "project")))
    else if trimSpace reason = "" then
      (r, some (errRecordConflict (s!"invalidating {criterionID} requires a reason — what a later " ++
        "reader needs is why the earlier conclusion was wrong, not that somebody decided it was")))
    else if trimSpace evidence = "" then
      (r, some (errRecordConflict (s!"invalidating {criterionID} requires evidence — an assertion " ++
        "with nothing behind it is an opinion, and an opinion may not un-complete a project")))
    else if criterionID ∈ prior.acceptanceMet then
      ({ r with
          invalidations := r.invalidations ++
            [{ seq := r.invalidations.length + 1
               criterionID := criterionID
               raisedBy := trimSpace actor
               reason := trimSpace reason
               evidence := trimSpace evidence
               previousState := "met"
               raisedAt := now }]
          updatedAt := now }, none)
    else
      match r.latestInvalidation criterionID with
      | some inv =>
        (r, some (errRecordConflict (s!"{criterionID} is already invalidated — invalidation " ++
          s!"{inv.seq}, raised by {inv.raisedBy} on {inv.raisedAt.rfc3339}: {inv.reason} " ++
          s!"(evidence: {inv.evidence}). Authorize remediation for it rather than raising a " ++
          "second finding")))
      | none =>
        (r, some (errRecordConflict (s!"{criterionID} is not currently met, so there is no " ++
          "result to withdraw: " ++
          joinOr prior.reasons "the assessment reports it outstanding")))

/-- The findings that the assessment does not show answered, by criterion. -/
def standingInvalidations (r : Record) (prior : Evidence) : GoMap Invalidation :=
  r.intent.acceptance.foldl (fun out c =>
    match r.latestInvalidation c.id with
    | none => out
    | some inv => if c.id ∈ prior.acceptanceMet then out else out.set c.id inv) ∅

/-! ## Authorizing a remediation -/

/-- Refuse a document for everything that is wrong with it. -/
def refuse (problems : List String) : Except String Unit :=
  if problems = [] then .ok () else .error (errPlanInvalid (joinWith problems "; "))

/-- What a proposed remediation may not say of itself, and who authorizes it. -/
def checkProposal (r : Record) (rm : Remediation) (actor : String) : Except String Unit :=
  if rm.schemaVersion ≠ 1 then
    .error (errPlanInvalid s!"remediation schemaVersion {rm.schemaVersion}, this engine speaks 1")
  else refuse ( (if rm.projectID = r.projectID then []
      else [s!"remediation projectId {quote rm.projectID} does not match the delivery's " ++ quote r.projectID]) ++
    (if rm.seq = 0 then []
      else ["a remediation does not declare its own seq — the engine assigns it from how many " ++
        "findings this project has already had remediated"]) ++
    (if rm.authorizedAt.isZero then []
      else ["a remediation does not declare its own authorizedAt — a timestamp the authorized " ++
        "document chose is not evidence of when it was authorized"]) ++
    (if trimSpace rm.authorizedBy = "" then []
      else ["a remediation does not declare its own authorizedBy — who authorizes corrective work " ++
        "is stated by the person doing it, not by the document asking for it"]) ++
    (if trimSpace actor = "" then
      ["authorizing remediation requires the name of the actor authorizing it"] else []))

/-- The remediation with what the engine supplies: its position, the actor and the time. -/
def stamp (existing : List Remediation) (rm : Remediation) (actor : String) (now : Time) : Remediation :=
  { rm with seq := existing.length + 1, authorizedBy := trimSpace actor, authorizedAt := now }

/-- The problem with a repair that does not name the standing finding against its criterion. -/
def checkRepair (standing : GoMap Invalidation) (rep : Repair) : List String :=
  match standing.get? rep.criterionID with
  | none =>
    [s!"{rep.criterionID} has no standing invalidation — remediation repairs a recorded finding, " ++
      "and there is none to repair"]
  | some inv =>
    if inv.seq = rep.invalidation then []
    else [s!"{rep.criterionID} names invalidation {rep.invalidation}, but the standing finding " ++
      s!"against it is invalidation {inv.seq}"]

section Authorize
variable (toLower : Char → Char)

/-- The remediation that an authorization would install beside the existing ones, or why it is
refused. -/
def authorization (r : Record) (plan : DeliveryPlan) (prior : Evidence) (existing : List Remediation)
    (rm : Remediation) (actor : String) (now : Time) : Except String Remediation := do
  let rm := stamp existing rm actor now
  refuse (rm.repairs.flatMap (checkRepair (r.standingInvalidations prior)))
  rm.validate toLower r.intent
  DeliveryPlan.validate toLower r.intent { plan with remediations := existing ++ [rm] }
  return rm

end Authorize

/-- The record's memory of a document with a digest. -/
def refOf (rm : Remediation) (digest : String) : RemediationRef :=
  ⟨rm.seq, digest, rm.authorizedBy, rm.authorizedAt⟩

/-- Journal an authorization.  A journal written for the first time adopts what predates it. -/
def journal (r : Record) (adopted : List RemediationRef) (ref : RemediationRef) : Record :=
  { r with
    remediations := (if r.remediations = [] then adopted else r.remediations) ++ [ref]
    updatedAt := ref.authorizedAt }

/-! ## What an operation leaves -/

/-- Each list of the record has at most been appended to. -/
structure Extends (r r' : Record) : Prop where
  runs : r.runs <+: r'.runs
  acceptances : r.acceptances <+: r'.acceptances
  invalidations : r.invalidations <+: r'.invalidations
  remediations : r.remediations <+: r'.remediations

variable (r : Record)

lemma Extends.refl : r.Extends r := ⟨prefix_rfl, prefix_rfl, prefix_rfl, prefix_rfl⟩

lemma Extends.trans {r₁ r₂ r₃ : Record} (h₁ : r₁.Extends r₂) (h₂ : r₂.Extends r₃) : r₁.Extends r₃ :=
  ⟨h₁.runs.trans h₂.runs, h₁.acceptances.trans h₂.acceptances,
    h₁.invalidations.trans h₂.invalidations, h₁.remediations.trans h₂.remediations⟩

variable (criterionID : String)

lemma accept_cases (actor note : String) (now : Time) :
    (∃ err, r.accept criterionID actor note now = (r, some err)) ∨
      ((∃ a ∈ r.acceptances, a.criterionID = criterionID) ∧ r.accept criterionID actor note now = (r, none)) ∨
      ∃ a : RecordedAcceptance, a.criterionID = criterionID ∧ r.accept criterionID actor note now =
          ({ r with acceptances := r.acceptances ++ [a], updatedAt := now }, none) := by
  unfold accept
  split
  · exact .inl ⟨_, rfl⟩
  · split_ifs with hhuman hactor hthere
    · exact .inl ⟨_, rfl⟩
    · exact .inl ⟨_, rfl⟩
    · exact .inr (.inl ⟨by simpa using hthere, rfl⟩)
    · exact .inr (.inr ⟨_, rfl, rfl⟩)

/-- A finding is refused, or it is raised against a criterion that delivery owns and the assessment lists
as met, and appended with the next number. -/
lemma invalidate_cases (prior : Evidence) (actor reason evidence : String) (now : Time) :
    (∃ err, r.invalidate criterionID prior actor reason evidence now = (r, some err)) ∨
      (∃ c ∈ r.intent.acceptance, c.id = criterionID ∧ c.isHuman = false) ∧ criterionID ∈ prior.acceptanceMet ∧
        ∃ inv : Invalidation, inv.seq = r.invalidations.length + 1 ∧ inv.criterionID = criterionID ∧
          r.invalidate criterionID prior actor reason evidence now =
            ({ r with invalidations := r.invalidations ++ [inv], updatedAt := now }, none) := by
  unfold invalidate
  split
  · exact .inl ⟨_, rfl⟩
  · next c hc =>
    split_ifs with hhuman hactor hreason hevidence hmet
    · exact .inl ⟨_, rfl⟩
    · exact .inl ⟨_, rfl⟩
    · exact .inl ⟨_, rfl⟩
    · exact .inl ⟨_, rfl⟩
    · refine .inr ⟨⟨c, mem_of_find?_eq_some hc, ?_, by simpa using hhuman⟩, hmet, _, rfl, rfl, rfl⟩
      simpa using find?_some hc
    · split
      · exact .inl ⟨_, rfl⟩
      · exact .inl ⟨_, rfl⟩

variable {r} {criterionID : String} {inv : Invalidation}

lemma mem_of_latestInvalidation (h : r.latestInvalidation criterionID = some inv) :
    inv ∈ r.invalidations ∧ inv.criterionID = criterionID := by
  unfold latestInvalidation at h
  generalize r.invalidations = invalidations at h ⊢
  induction invalidations using List.reverseRecOn with
  | nil => cases h
  | append_singleton invalidations last ih =>
    rw [foldl_append, foldl_cons] at h
    split_ifs at h with hlast
    · cases h
      exact ⟨by simp, hlast⟩
    · obtain ⟨hmem, hcriterion⟩ := ih h
      exact ⟨mem_append_left _ hmem, hcriterion⟩

variable {prior : Evidence}

lemma latestInvalidation_of_standing (h : (r.standingInvalidations prior).get? criterionID = some inv) :
    r.latestInvalidation criterionID = some inv := by
  unfold standingInvalidations at h
  generalize r.intent.acceptance = acceptance at h
  induction acceptance using List.reverseRecOn with
  | nil =>
    cases h
  | append_singleton acceptance c ih =>
    rw [foldl_append, foldl_cons, foldl_nil] at h
    split at h
    · exact ih h
    · next found hfound =>
      split_ifs at h with hmet
      · exact ih h
      · rw [GoMap.get?_set] at h
        split_ifs at h with hid
        · cases h
          rw [hid, hfound]
        · exact ih h

lemma repair_of_authorization {toLower : Char → Char} {plan : DeliveryPlan}
    {existing : List Remediation} {rm rm' : Remediation} {actor : String}
    {now : Time} (h : r.authorization toLower plan prior existing rm actor now = .ok rm') :
    ∀ rep ∈ rm'.repairs, ∃ inv ∈ r.invalidations,
      inv.criterionID = rep.criterionID ∧ inv.seq = rep.invalidation := by
  simp only [authorization, bind_eq_ok] at h
  obtain ⟨_, hrepairs, _, _, _, _, hrm⟩ := h
  cases hrm
  intro rep hrep
  unfold refuse at hrepairs
  split_ifs at hrepairs with hnil
  have hone := flatMap_eq_nil_iff.mp hnil rep hrep
  unfold checkRepair at hone
  split at hone
  · cases hone
  · next inv hstanding =>
    split_ifs at hone with hseq
    obtain ⟨hmem, hcriterion⟩ := mem_of_latestInvalidation (latestInvalidation_of_standing hstanding)
    exact ⟨inv, hmem, hcriterion, hseq⟩

lemma prefix_journal (adopted : List RemediationRef) (ref : RemediationRef) :
    r.remediations <+: (r.journal adopted ref).remediations := by
  unfold journal
  split_ifs with hnil
  · rw [hnil]
    exact nil_prefix
  · exact prefix_append _ _

end Record

end DeliveryEngine.Handoff
