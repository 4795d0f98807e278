import DeliveryEngine.Go.Path
import DeliveryEngine.Graph.Listing
import DeliveryEngine.Graph.Worklist
import DeliveryEngine.Handoff.Fidelity

/-!
# Validation of a delivery plan

`DeliveryPlan.validate` walks the packages generation by generation, keeping what it has `Seen`: the ids taken, the
package that claimed each path, and the criteria some package claims.  Two packages of one generation may authorize the
same path only when one of them depends on the other; a claimant is compared with the latest one before it, and takes
its place.  Everything that is wrong is listed.
-/

namespace DeliveryEngine.Handoff

open Go

/-! ## Identifiers, gates and paths -/

def isIDChar (c : Char) : Bool := ('a' ≤ c && c ≤ 'z') || ('0' ≤ c && c ≤ '9')

/-- `IDPattern`: two to 64 lower-case letters, digits and hyphens, the first not a hyphen. -/
def isID (s : String) : Bool :=
  match s.toList with
  | [] => false
  | c :: cs => isIDChar c && cs.all (fun c => isIDChar c || c = '-') && 1 ≤ cs.length && cs.length ≤ 63

/-- `ShaPattern`: a full commit sha. -/
def isSha (s : String) : Bool :=
  s.toList.length = 40 && s.toList.all (fun c => ('0' ≤ c && c ≤ '9') || ('a' ≤ c && c ≤ 'f'))

/-- The verification surface one package may ask for. -/
def maxGatesPerPackage : ℕ := 8

/-- The programs a work package may name as a gate. -/
def gateRunners : List String :=
  ["npm", "pnpm", "yarn", "node", "go", "make", "cargo", "mvn", "gradle", "python", "python3",
    "pytest", "ruff", "tsc", "eslint", "vitest", "jest", "dotnet"]

/-- The characters that would turn one declared command into several. -/
def gateForbidden : String := ";|&$`<>()\x7b\x7d[]\\\"'\n\r\t*?!#~"

/-- Whether a word of a gate leads out of the worktree. -/
def traverses (token : String) : Bool :=
  token = ".." || hasPrefix token "../" || contains token "/../" || hasSuffix token "/.."

/-- Why a declared gate cannot be granted. -/
def validateGate (gate : String) : Except String Unit :=
  if trimSpace gate = "" then .error "a gate cannot be empty"
  else if trimSpace gate ≠ gate then
    .error s!"{quote gate} has surrounding whitespace; a gate is granted verbatim"
  else if containsAny gate gateForbidden then
    .error s!"{quote gate} contains shell syntax; a gate is one command, not a script"
  else if (fields gate).any traverses then
    .error s!"{quote gate} traverses out of the worktree"
  else
    let runner := (fields gate).headD ""
    if contains runner "/" then
      .error s!"{quote gate} names a path rather than a project runner"
    else if runner ∉ gateRunners then
      .error s!"{quote gate} is not a project build or test runner this engine will grant"
    else .ok ()

/-- Normalize a repository-relative path, refusing what could address a location outside the
repository. -/
def repoRelative (raw : String) : Except String String :=
  let s := trimSpace raw
  if s = "" then .error "empty"
  else if containsAny s "\x00" then .error "contains a NUL byte"
  else
    let s := replaceChar s '\\' '/'
    if hasPrefix s "/" then .error "is absolute"
    else if (bytes s)[1]? = some 58 then .error "is a drive-qualified path"
    else
      let cleaned := Path.clean s
      if cleaned = "." ∨ cleaned = ".." ∨ hasPrefix cleaned "../" then
        .error "escapes the repository"
      else .ok cleaned

/-- The paths no work package may be authorized to change. -/
def protectedPrefixes : List String := [".git", ".github/workflows", "delivery/gascity"]

/-- The protected path a cleaned path is under. -/
def isProtected (cleaned : String) : Option String :=
  protectedPrefixes.find? (fun p => cleaned = p || hasPrefix cleaned (p ++ "/"))

/-! ## The dependency order -/

def dependencyListing (pkgs : List WorkPackage) : List (String × List String) :=
  pkgs.map (fun wp => (wp.id, wp.dependsOn))

/-- A readable cycle of the dependency graph, or the empty text. -/
def findCycle (pkgs : List WorkPackage) : String := Listing.findCycle (dependencyListing pkgs)

/-- Whether the work of one package follows another's.  The search pushes each dependency of a package
once, which bounds its turns. -/
def reaches (pkgs : List WorkPackage) (source target : String) : Bool :=
  Worklist.reaches (Listing.waits (dependencyListing pkgs)) target
    ((pkgs.map (·.dependsOn.length)).sum + 2) [] [source]

/-- Whether two packages can never hold a worktree at the same time. -/
def dependencyOrdered (pkgs : List WorkPackage) (a b : String) : Bool := reaches pkgs a b || reaches pkgs b a

/-! ## The walk over the packages -/

/-- Which package authorized a path, and in which generation. -/
structure PathClaim where
  label : String
  id : String
  gen : ℕ

/-- What the walk has seen. -/
structure Seen where
  ids : List String := []
  owner : GoMap PathClaim := ∅
  satisfied : List String := []

/-- The name of a package's position. -/
def planPackageLabel (gen i : ℕ) : String :=
  if gen = 0 then s!"packages[{i}]" else s!"remediation {gen} packages[{i}]"

/-- How the refusal names a package: by its id, once that is usable. -/
def packageLabel (gen i : ℕ) (ids : List String) (wp : WorkPackage) : String :=
  if isID wp.id && wp.id ∉ ids then wp.id else planPackageLabel gen i

variable (label : String)

def checkID (ids : List String) (wp : WorkPackage) : List String :=
  if !isID wp.id then [s!"{label}.id {quote wp.id} is not a valid identifier"]
  else if wp.id ∈ ids then [s!"{label}.id {quote wp.id} is duplicated"]
  else []

/-- The problems with the gates of a package, given those declared before. -/
def checkGates (label : String) : List String → List String → List String
  | _, [] => []
  | declared, gate :: gates =>
    match validateGate gate with
    | .error err => s!"{label} gate {err}" :: checkGates label declared gates
    | .ok _ =>
      (if gate ∈ declared then [s!"{label} declares gate {quote gate} twice"] else []) ++
        checkGates label (gate :: declared) gates

variable (intent : Intent) (label : String)

/-- The problems with what a package says about itself. -/
def checkText (wp : WorkPackage) : List String :=
  (if trimSpace wp.title = "" then [s!"{label} has no title"] else []) ++
  (if trimSpace wp.objective = "" then
    [s!"{label} has no objective — a worker cannot be given an empty instruction"] else []) ++
  (if wp.phase ∈ intent.lifecycle then []
    else [s!"{label}.phase {quote wp.phase} is not one of the lifecycle phases the intent declared"]) ++
  (if maxGatesPerPackage < wp.gates.length then
    [s!"{label} declares {wp.gates.length} gates; at most {maxGatesPerPackage} may be granted"]
    else []) ++
  checkGates label [] wp.gates

/-- A package that checks evidence may change nothing, and any other must be able to change
something. -/
def checkKind (gen : ℕ) (wp : WorkPackage) : List String :=
  match wp.verifies with
  | none =>
    if wp.authorizedPaths = [] then
      [s!"{label} authorizes no paths — a package that may change nothing cannot produce anything"]
    else []
  | some v =>
    (if wp.authorizedPaths = [] then []
      else [s!"{label} verifies existing evidence and authorizes {wp.authorizedPaths.length} " ++
        "path(s) — a package that may write cannot be the check on what was written"]) ++
    (if isSha v.mergedSha then []
      else [s!"{label}.verifies.mergedSha {quote v.mergedSha} is not a full commit sha — " ++
        "a verification names the exact tree it ran against, so a later reader can go and look at it"]) ++
    (if wp.gates = [] then
      [s!"{label} verifies nothing — a verification package with no gates asserts a criterion is " ++
        "met without checking anything"] else []) ++
    (if wp.dependsOn = [] then []
      else [s!"{label} verifies existing evidence and declares dependencies — it merges nothing, " ++
        "so nothing it waited for could reach it"]) ++
    (if gen = 0 then
      [s!"{label} verifies existing evidence but is in the original plan — there is nothing for a " ++
        "delivery's first plan to verify, because none of its work has been done yet"] else [])

/-- The cleaned path an authorization claims, or why it cannot. -/
def claimPath (pkgs : List WorkPackage) (claim : PathClaim) (owner : GoMap PathClaim)
    (raw : String) : Except String String :=
  match repoRelative raw with
  | .error err => .error s!"{claim.label} authorized path {quote raw} is not usable: {err}"
  | .ok c =>
    match isProtected c with
    | some root =>
      .error (s!"{claim.label} authorizes {quote c}, which is under the protected path " ++
        s!"{quote root} — a run may not change what judges it")
    | none =>
      match owner.get? c with
      | none => .ok c
      | some prior =>
        if prior.gen = claim.gen && !dependencyOrdered pkgs prior.id claim.id then
          .error (s!"{claim.label} and {prior.label} both authorize {quote c} with no " ++
            "dependency ordering them — two workers that could hold the path at the same " ++
            "time is a collision, not a plan")
        else .ok c

/-- What came of a package's authorized paths. -/
structure Claimed where
  owner : GoMap PathClaim
  clean : List String
  problems : List String

/-- Claim a package's authorized paths in turn. -/
def claimPaths (pkgs : List WorkPackage) (claim : PathClaim) : GoMap PathClaim → List String → Claimed
  | owner, [] => ⟨owner, [], []⟩
  | owner, raw :: raws =>
    match claimPath pkgs claim owner raw with
    | .error problem =>
      let rest := claimPaths pkgs claim owner raws
      { rest with problems := problem :: rest.problems }
    | .ok c =>
      let rest := claimPaths pkgs claim (owner.set c claim) raws
      { rest with clean := c :: rest.clean }

/-- The problem with the artifact a package names. -/
def checkArtifact (clean : List String) (wp : WorkPackage) : List String :=
  if trimSpace wp.artifact = "" then
    [s!"{label} names no required artifact — nothing would prove the package produced its result"]
  else
    match repoRelative wp.artifact with
    | .error err => [s!"{label} artifact {quote wp.artifact} is not usable: {err}"]
    | .ok artifact =>
      if wp.isVerification || artifact ∈ clean then []
      else [s!"{label} must authorize its own artifact {quote artifact}"]

/-- The problem with a criterion a package claims. -/
def checkCriterion (c : String) : List String :=
  if c ∉ intent.criteria then
    [s!"{label} satisfies {quote c}, which the intent does not declare as an acceptance criterion"]
  else if c ∈ intent.human then
    [s!"{label} satisfies {quote c}, which only a person may accept — a work package may prepare " ++
      "what a reviewer reads and may never claim their acceptance"]
  else []

def checkSatisfies (wp : WorkPackage) : List String :=
  (if wp.satisfies = [] then
    [s!"{label} satisfies no acceptance criterion — work nobody asked for is not delivery"]
    else []) ++
  wp.satisfies.flatMap (checkCriterion intent label)

/-- The criteria a package adds to those addressed. -/
def addressed (intent : Intent) (wp : WorkPackage) : List String :=
  wp.satisfies.filter (fun c => c ∈ intent.criteria && c ∉ intent.human)

/-- Check one package of a generation `pkgs`, and note what it takes. -/
def checkPackage (intent : Intent) (gen : ℕ) (pkgs : List WorkPackage) (i : ℕ) (seen : Seen)
    (wp : WorkPackage) : Seen × List String :=
  let label := packageLabel gen i seen.ids wp
  let claimed := claimPaths pkgs ⟨label, wp.id, gen⟩ seen.owner wp.authorizedPaths
  (⟨if isID wp.id && wp.id ∉ seen.ids then wp.id :: seen.ids else seen.ids, claimed.owner,
      addressed intent wp ++ seen.satisfied⟩,
    checkID label seen.ids wp ++ checkText intent label wp ++ checkKind label gen wp ++
      claimed.problems ++ checkArtifact label claimed.clean wp ++ checkSatisfies intent label wp)

/-- Check the packages of a generation in turn. -/
def checkPackages (intent : Intent) (gen : ℕ) (pkgs : List WorkPackage) :
    ℕ → Seen → List WorkPackage → Seen × List String
  | _, seen, [] => (seen, [])
  | i, seen, wp :: rest =>
    let first := checkPackage intent gen pkgs i seen wp
    let others := checkPackages intent gen pkgs (i + 1) first.1 rest
    (others.1, first.2 ++ others.2)

def checkGenerations (intent : Intent) : ℕ → Seen → List (List WorkPackage) → Seen × List String
  | _, seen, [] => (seen, [])
  | gen, seen, pkgs :: rest =>
    let first := checkPackages intent gen pkgs 0 seen pkgs
    let others := checkGenerations intent (gen + 1) first.1 rest
    (others.1, first.2 ++ others.2)

/-! ## Checks on the composed plan -/

/-- The problems with what the `i`-th remediation supersedes, given the ids already named in it. -/
def checkSupersedes (base earlier : List String) (i : ℕ) : List String → List String → List String
  | _, [] => []
  | here, id :: ids =>
    (if id ∈ here then [s!"remediation {i} supersedes {quote id} twice"]
      else if id ∈ base then
        [s!"remediation {i} supersedes {quote id}, which the ORIGINAL plan authorized — that work " ++
          "is the history everything since was measured against, and a remediation may not " ++
          "withdraw it"]
      else if id ∉ earlier then
        [s!"remediation {i} supersedes {quote id}, which no earlier remediation authorized — " ++
          "corrective work can only replace corrective work that already exists"]
      else []) ++
    checkSupersedes base earlier i (id :: here) ids

/-- Supersession reaches backwards, and only into corrective work. -/
def checkSupersessions (base : List String) : ℕ → List String → List Remediation → List String
  | _, _, [] => []
  | i, earlier, rm :: rms =>
    checkSupersedes base earlier i [] rm.supersedes ++
      checkSupersessions base (i + 1) (rm.packages.map WorkPackage.id ++ earlier) rms

def checkDependency (ids verifiers : List String) (wp : WorkPackage) (dep : String) : List String :=
  if dep = wp.id then [s!"{wp.id} depends on itself"]
  else if dep ∉ ids then [s!"{wp.id} depends on {quote dep}, which is not in this plan"]
  else if dep ∈ verifiers then
    [s!"{wp.id} depends on {quote dep}, which verifies existing evidence and merges nothing — " ++
      "the merge it would wait for can never happen"]
  else []

/-- The criteria delivery owns that no package addresses. -/
def uncovered (intent : Intent) (satisfied : List String) : List String :=
  sortStrings ((intent.acceptance.filter (fun c => !c.isHuman && c.id ∉ satisfied)).map Criterion.id)

section Fidelity
variable (toLower : Char → Char)

/-- The problems with packages that claim a criterion with required behaviours: none of them declares a
gate, or they do not mention a behaviour. -/
def checkBehaviours (covering : List WorkPackage) (c : Criterion) (ungated undelivered : String) : List String :=
  let missing := missingBehaviours toLower (coveringText toLower covering) c.mustCover
  (if covering.any (fun wp => wp.gates ≠ []) then [] else [c.id ++ ungated]) ++
  (if missing = [] then []
    else [s!"{c.id} requires " ++ joinWith (missing.map quote) ", " ++ undelivered])

/-- Whether the work claiming a criterion carries the behaviours it requires. -/
def checkFidelity (all : List WorkPackage) (c : Criterion) : List String :=
  let covering := coveringPackages all c.id
  if c.isHuman || c.mustCover = [] || covering = [] then []
  else checkBehaviours toLower covering c
    (" requires behavior the plan must prove, and no work package claiming it declares a gate — " ++
      "a criterion nothing verifies cannot be evidence of anything")
    (", which no work package claiming it plans to deliver — a planner may split or reword the " ++
      "work and may not drop what it must achieve")

variable (intent : Intent)

/-- The criterion an id names.  Of several, the last one counts. -/
def Intent.declared (id : String) : Option Criterion := intent.acceptance.reverse.find? (·.id = id)

/-- Whether a repair names a finding that delivery may repair. -/
def repairable (rep : Repair) : Bool :=
  match intent.declared rep.criterionID with
  | none => false
  | some c => !c.isHuman && 1 ≤ rep.invalidation

/-- The problems with the repairs of a remediation, given the criteria repaired before. -/
def checkRepairs (intent : Intent) : ℕ → List String → List Repair → List String
  | _, _, [] => []
  | i, repaired, rep :: reps =>
    (match intent.declared rep.criterionID with
      | none => [s!"repairs[{i}] names {quote rep.criterionID}, which the intent does not declare " ++
          "as an acceptance criterion"]
      | some c =>
        if c.isHuman then
          [s!"repairs[{i}] names {quote rep.criterionID}, which only a person may accept — " ++
            "delivery does not remediate a person's answer"]
        else if rep.invalidation < 1 then
          [s!"repairs[{i}] ({rep.criterionID}) names invalidation {rep.invalidation}, which is " ++
            "not a recorded finding"]
        else if rep.criterionID ∈ repaired then
          [s!"repairs[{i}] names {quote rep.criterionID} twice"]
        else []) ++
    checkRepairs intent (i + 1) (if repairable intent rep then rep.criterionID :: repaired else repaired) reps

/-- A remedial package may claim only what the remediation repairs. -/
def checkScope (repaired : List String) (wp : WorkPackage) : List String :=
  (wp.satisfies.filter (· ∉ repaired)).map (fun s =>
    s!"remedial package {wp.id} claims {quote s}, which this remediation does not repair — " ++
      "a repair may not widen into delivery nobody authorized")

/-- A repair must carry the behaviours of its criterion itself. -/
def checkRepairFidelity (pkgs : List WorkPackage) (rep : Repair) : List String :=
  match intent.declared rep.criterionID with
  | none => []
  | some c =>
    let covering := coveringPackages pkgs c.id
    if c.isHuman || c.mustCover = [] then []
    else if covering = [] then [s!"{c.id} is repaired by no work package in this remediation"]
    else checkBehaviours toLower covering c
      (" requires behavior the remediation must prove, and no remedial package claiming it " ++
        "declares a gate — the work being repaired passed every gate it declared, so a repair " ++
        "that declares none cannot be evidence of anything")
      (", which no remedial package claiming it plans to deliver — the original work claimed " ++
        "those behaviors and was disproved, so a repair has to carry them itself")

/-- The refusal of a plan that this engine will not execute. -/
def errPlanInvalid (why : String) : String := "handoff: delivery plan is invalid: " ++ why

variable (rm : Remediation)

namespace Remediation

/-- Everything wrong with a remediation on its own. -/
def problems : List String :=
  let repaired := (rm.repairs.filter (repairable intent)).map Repair.criterionID
  (if rm.projectID = intent.projectID then []
    else [s!"remediation projectId {quote rm.projectID} does not match the intent's " ++ quote intent.projectID]) ++
  (if rm.seq < 1 then
    [s!"remediation seq {rm.seq} is not a position in the project's remediations"] else []) ++
  (if trimSpace rm.authorizedBy = "" then
    ["remediation authorizedBy is required — additive work against a finished project is a " ++
      "decision, and a decision with no author is a mutation"] else []) ++
  (if rm.repairs = [] then
    ["a remediation repairs nothing — corrective work is authorized against a finding, never in " ++
      "general"] else []) ++
  (if rm.packages = [] then ["a remediation with no work packages repairs nothing"] else []) ++
  checkRepairs intent 0 [] rm.repairs ++
  rm.packages.flatMap (checkScope repaired) ++
  rm.repairs.flatMap (checkRepairFidelity toLower intent rm.packages)

/-- Refuse a remediation this engine will not add to a plan. -/
def validate : Except String Unit :=
  if rm.schemaVersion ≠ 1 then
    .error (errPlanInvalid s!"remediation schemaVersion {rm.schemaVersion}, this engine speaks 1")
  else if rm.problems toLower intent = [] then .ok ()
  else .error (errPlanInvalid (joinWith (rm.problems toLower intent) "; "))

end Remediation

/-- What is wrong with a remediation, as a problem of the plan. -/
def checkRemediation : List String :=
  match rm.validate toLower intent with
  | .ok _ => []
  | .error err => [s!"remediation {rm.seq}: {err}"]

namespace DeliveryPlan

/-- Everything wrong with a plan. -/
def problems (p : DeliveryPlan) : List String :=
  let walk := checkGenerations intent 0 {} p.generations
  let verifiers := (p.allPackages.filter WorkPackage.isVerification).map WorkPackage.id
  (if p.projectID = intent.projectID then []
    else [s!"plan projectId {quote p.projectID} does not match the intent's " ++ quote intent.projectID]) ++
  (if p.packages = [] then ["a plan with no work packages cannot deliver anything"] else []) ++
  walk.2 ++
  checkSupersessions (p.packages.map WorkPackage.id) 1 [] p.remediations ++
  p.allPackages.flatMap (fun wp => wp.dependsOn.flatMap (checkDependency walk.1.ids verifiers wp)) ++
  (if findCycle p.allPackages = "" then []
    else ["work package dependencies contain a cycle: " ++ findCycle p.allPackages]) ++
  (if uncovered intent walk.1.satisfied = [] then []
    else ["no work package addresses acceptance criteria " ++
      joinWith (uncovered intent walk.1.satisfied) ", " ++ " — this plan cannot reach completion"]) ++
  (if p.provisional then [] else intent.acceptance.flatMap (checkFidelity toLower p.allPackages)) ++
  p.remediations.flatMap (checkRemediation toLower intent)

/-- Refuse a plan that cannot be executed against its intent. -/
def validate (p : DeliveryPlan) : Except String Unit :=
  if p.schemaVersion ≠ 1 then
    .error (errPlanInvalid s!"schemaVersion {p.schemaVersion}, this engine speaks 1")
  else if p.problems toLower intent = [] then .ok ()
  else .error (errPlanInvalid (joinWith (p.problems toLower intent) "; "))

end DeliveryPlan

end Fidelity

/-! ## Identifiers seen -/

/-- A walk that remembers the keys it has seen takes one more element. -/
lemma new_cons {α : Type} {key : α → String} {seen : List String} {x : α} {xs : List α} (hnew : key x ∉ seen)
    (hnodup : (xs.map key).Nodup) (hall : ∀ y ∈ xs, key y ∉ key x :: seen) :
    ((x :: xs).map key).Nodup ∧ ∀ y ∈ x :: xs, key y ∉ seen := by
  refine ⟨List.nodup_cons.mpr ⟨fun hmem => ?_, hnodup⟩, List.forall_mem_cons.mpr ⟨hnew, ?_⟩⟩
  · obtain ⟨other, hother, heq⟩ := List.mem_map.mp hmem
    exact hall other hother (heq ▸ List.mem_cons_self)
  · exact fun other hother hmem => hall other hother (List.mem_cons_of_mem _ hmem)

end DeliveryEngine.Handoff
