import DeliveryEngine.Go.Map
import DeliveryEngine.Go.Text
import DeliveryEngine.Go.Time

/-!
# Intents, delivery plans and remediations

An `Intent` is what a portal asks for, and a `DeliveryPlan` the work packages that are to deliver it.  Corrective work
is a `Remediation`, added to the plan without rewriting it, so a plan has generations.  A later remediation may
supersede corrective work of an earlier one; `DeliveryPlan.allPackages` and `DeliveryPlan.generations` leave it out.
-/

namespace DeliveryEngine.Handoff

open Go

/-! ## The intent -/

/-- Who may accept a criterion. -/
def acceptedByDelivery : String := "delivery"

/-- Who may accept a criterion reserved for a person. -/
def acceptedByHuman : String := "human"

/-- One acceptance statement. -/
structure Criterion where
  id : String
  statement : String := ""
  acceptedBy : String := ""
  /-- The behaviours the criterion requires, each with its alternatives separated by bars. -/
  mustCover : List String := []
  deriving DecidableEq

/-- Whether only a person may accept the criterion. -/
def Criterion.isHuman (c : Criterion) : Bool := c.acceptedBy = acceptedByHuman

/-- The delivery authority the portal grants. -/
structure Policy where
  needMerge : Bool := false
  needPush : Bool := false
  needPR : Bool := false
  needChecks : Bool := false
  /-- What a person must do when merge authority is withheld. -/
  mergeHumanAction : String := ""
  maxWorkers : ℤ := 0
  workDeadlineSeconds : ℤ := 0

/-- The repository a delivery is for. -/
structure Repository where
  /-- The repository's `owner/name`. -/
  slug : String := ""
  origin : String := ""
  defaultBranch : String := ""

/-- What a portal sends to start managed delivery. -/
structure Intent where
  projectID : String
  lifecycle : List String
  acceptance : List Criterion
  policy : Policy := {}
  schemaVersion : ℤ := 1
  repository : Repository := {}
  /-- The registered local working copy. -/
  checkout : String := ""
  objective : String := ""
  requestedBy : String := ""
  requestedAt : Time := Time.zero

namespace Intent

/-- The ids of the acceptance criteria. -/
def criteria (intent : Intent) : List String := intent.acceptance.map Criterion.id

/-- The ids of the criteria only a person may accept. -/
def human (intent : Intent) : List String := (intent.acceptance.filter Criterion.isHuman).map Criterion.id

end Intent

/-! ## The plan -/

/-- The commit whose evidence a verification package checks. -/
structure Verification where
  mergedSha : String
  deriving DecidableEq

/-- One bounded piece of delivery. -/
structure WorkPackage where
  id : String
  title : String := ""
  phase : String := ""
  objective : String := ""
  artifact : String := ""
  authorizedPaths : List String := []
  gates : List String := []
  dependsOn : List String := []
  satisfies : List String := []
  verifies : Option Verification := none
  deriving DecidableEq

/-- Whether the package checks existing evidence rather than producing new work. -/
def WorkPackage.isVerification (wp : WorkPackage) : Bool := wp.verifies.isSome

/-- One invalidated criterion a remediation repairs, and which finding against it. -/
structure Repair where
  criterionID : String
  invalidation : ℤ
  deriving DecidableEq

/-- The work authorized to repair invalidated criteria. -/
structure Remediation where
  schemaVersion : ℤ := 1
  projectID : String
  seq : ℤ
  repairs : List Repair
  authorizedBy : String
  authorizedAt : Time := Time.zero
  packages : List WorkPackage
  supersedes : List String := []
  deriving DecidableEq

namespace Remediation

variable (rm : Remediation) (criterionID : String)

/-- Whether the remediation answers the finding. -/
def repairsInvalidation (seq : ℤ) : Bool :=
  rm.repairs.any (fun r => r.criterionID = criterionID && r.invalidation = seq)

/-- The remediation's packages that claim a criterion. -/
def packagesFor : List String := (rm.packages.filter (fun wp => criterionID ∈ wp.satisfies)).map WorkPackage.id

end Remediation

/-- The plan of a project, joined with the remediations authorized since. -/
structure DeliveryPlan where
  schemaVersion : ℤ := 1
  projectID : String
  /-- Who produced the plan. -/
  plannedBy : String := ""
  plannedAt : Time := Time.zero
  packages : List WorkPackage
  remediations : List Remediation := []
  /-- The plan is a shape rather than a proposal. -/
  provisional : Bool := false

namespace DeliveryPlan

variable (p : DeliveryPlan)

/-- The corrective packages a remediation has replaced. -/
def superseded : List String := p.remediations.flatMap Remediation.supersedes

/-- The packages of a remediation that no remediation has replaced. -/
def live (rm : Remediation) : List WorkPackage := rm.packages.filter (·.id ∉ p.superseded)

/-- Every package the delivery must complete: what was planned first, then each remediation's
corrective work. -/
def allPackages : List WorkPackage := p.packages ++ p.remediations.flatMap p.live

/-- The packages by the revision that introduced them. -/
def generations : List (List WorkPackage) := p.packages :: p.remediations.map p.live

end DeliveryPlan

end DeliveryEngine.Handoff
