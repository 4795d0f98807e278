import DeliveryEngine.Unattended.Plan

/-!
# The declaration of a run

A `RunSpec` says everything a run depends on: what the session may touch, the tools, paths and other things it
needs, the forge authority it was given, and the limits only a person can lift.  A run reads a part of it; the
rest is for the preflight.

`RunSpec.validate` refuses a declaration that would produce an unreadable verdict, and lists everything that is
wrong with it.
-/

namespace DeliveryEngine.Unattended

open Go List

/-! ## Ownership -/

/-- What a session does to the worktree it names. -/
inductive RoleName
  | writer
  | controller
  | readOnly
  deriving DecidableEq

instance : Vocabulary RoleName where
  all := [.writer, .controller, .readOnly]
  text
    | .writer => "writer"
    | .controller => "controller"
    | .readOnly => "read-only"
  mem_all := by rintro ⟨⟩ <;> decide
  nodup := by decide

/-- What a session declares itself to be. -/
abbrev Role := Named RoleName

/-- Whether the role mutates the worktree. -/
def Role.exclusive (r : Role) : Bool := r = .known .writer ∨ r = .known .controller

/-- A session's declaration of what it may touch. -/
structure Ownership where
  projectID : String
  worktree : String
  expectedOrigin : String := ""
  expectedBranch : String := ""
  role : Role
  session : String
  allowDirtyWorktree : Bool := false

/-- The refusal of a declaration that nothing can be proved from. -/
def errOwnershipIncomplete (why : String) : String := "unattended: ownership declaration is incomplete: " ++ why

/-- Refuse a declaration that cannot be checked. -/
def Ownership.validate (o : Ownership) : Except String Unit :=
  let missing :=
    (if trimSpace o.projectID = "" then ["projectId"] else []) ++
    (if trimSpace o.worktree = "" then ["worktree"] else []) ++
    (if trimSpace o.session = "" then ["session"] else [])
  if missing ≠ [] then .error (errOwnershipIncomplete ("missing " ++ joinWith missing ", "))
  else if !o.role.isKnown then
    .error (errOwnershipIncomplete s!"role {quote o.role.text} is not one of writer, controller, read-only")
  else if o.role.exclusive && trimSpace o.expectedBranch = "" then
    .error (errOwnershipIncomplete (s!"a {o.role.text} must declare expectedBranch — a mutating " ++
      "session with no branch expectation cannot detect the branch moving underneath it"))
  else .ok ()

/-! ## Requirements -/

/-- An executable the run cannot proceed without. -/
structure ToolRequirement where
  name : String
  minVersion : String := ""
  versionArgs : List String := []
  purpose : String := ""

/-- What a required path must be. -/
inductive PathKindName
  | any
  | dir
  | file
  deriving DecidableEq

instance : Vocabulary PathKindName where
  all := [.any, .dir, .file]
  text
    | .any => ""
    | .dir => "dir"
    | .file => "file"
  mem_all := by rintro ⟨⟩ <;> decide
  nodup := by decide

/-- What a required path is declared to be. -/
abbrev PathKind := Named PathKindName

/-- A filesystem location the run depends on. -/
structure PathRequirement where
  path : String
  kind : PathKind := .known .any
  purpose : String := ""
  writable : Bool := false
  /-- A missing directory may be made. -/
  create : Bool := false

/-- An environment value the run reads. -/
structure EnvRequirement where
  name : String
  purpose : String := ""

/-- A TCP endpoint that must answer. -/
structure PortRequirement where
  address : String

/-- A dependency probed by running a command. -/
structure CommandRequirement where
  id : String
  argv : List String

/-- A secret the run needs. -/
structure CredentialRequirement where
  id : String
  env : String := ""
  file : String := ""
  notAfter : Time := Time.zero
  probe : List String := []

/-- The forge authority the run needs. -/
structure GitHubRequirement where
  /-- The repository's `owner/name`. -/
  repo : String
  command : String := ""
  branch : String := ""
  needPush : Bool := false
  needPR : Bool := false
  needChecks : Bool := false
  needMerge : Bool := false
  mergeHumanAction : String := ""

/-- A limit only a person can lift, stated beforehand. -/
structure KnownBoundary where
  id : String
  title : String := ""
  detail : String := ""
  action : String

/-- The declaration of a run. -/
structure RunSpec where
  projectID : String
  ownership : Ownership
  tools : List ToolRequirement := []
  paths : List PathRequirement := []
  env : List EnvRequirement := []
  ports : List PortRequirement := []
  commands : List CommandRequirement := []
  credentials : List CredentialRequirement := []
  github : Option GitHubRequirement := none
  classification : List ClassificationRule := []
  qa : QAPolicy := ⟨[]⟩
  stateDir : String
  publishPath : String := ""
  boundaries : List KnownBoundary := []

/-! ## Validation -/

/-- The problems of the items of a list, each found with its position. -/
def eachProblem {α : Type} (check : ℕ → α → List String) (xs : List α) : List String :=
  xs.zipIdx.flatMap (fun x => check x.2 x.1)

variable (i : ℕ)

def checkTool (t : ToolRequirement) : List String :=
  if trimSpace t.name = "" then [s!"tool[{i}] has no name"] else []

def checkPath (p : PathRequirement) : List String :=
  (if trimSpace p.path = "" then [s!"path[{i}] has no path"] else []) ++
  (if p.kind.isKnown then [] else [s!"path[{i}] kind {quote p.kind.text} is not one of dir, file"]) ++
  (if p.create ∧ p.kind ≠ .known .dir then [s!"path[{i}] may only be created when kind is dir"] else [])

def checkEnv (e : EnvRequirement) : List String :=
  if trimSpace e.name = "" then [s!"env[{i}] has no name"] else []

def checkPort (p : PortRequirement) : List String :=
  if contains p.address ":" then [] else [s!"port[{i}] address {quote p.address} is not host:port"]

def checkCommand (c : CommandRequirement) : List String :=
  (if trimSpace c.id = "" then [s!"command[{i}] has no id"] else []) ++
  (if c.argv = [] then [s!"command[{i}] has no argv"] else [])

def checkCredential (c : CredentialRequirement) : List String :=
  (if trimSpace c.id = "" then [s!"credential[{i}] has no id"] else []) ++
  (if c.env = "" ∧ c.file = "" ∧ c.probe = [] ∧ c.notAfter.isZero then
    [s!"credential[{i}] ({c.id}) declares nothing to check"] else [])

def checkRequiredGate (id : String) : List String :=
  if (lookupGate id).isSome then []
  else [s!"qa.requireGates names {quote id}, which is not a catalog gate ({joinGateIDs})"]

def checkGitHub (g : GitHubRequirement) : List String :=
  if contains g.repo "/" then [] else [s!"github.repo {quote g.repo} is not owner/name"]

/-- The problems with the boundaries, given the ids before. -/
def checkBoundaries : ℕ → List String → List KnownBoundary → List String
  | _, _, [] => []
  | i, seen, b :: bs =>
    (if trimSpace b.id = "" then [s!"boundary[{i}] has no id"]
      else if b.id ∈ seen then [s!"boundary[{i}] id {quote b.id} is duplicated"] else []) ++
    (if trimSpace b.action = "" then
      [s!"boundary[{i}] ({b.id}) names no action only a person can take"] else []) ++
    checkBoundaries (i + 1) (if trimSpace b.id = "" ∨ b.id ∈ seen then seen else b.id :: seen) bs

def checkRule (r : ClassificationRule) : List String :=
  (if trimSpace r.pattern = "" then [s!"classify[{i}] has no pattern"] else []) ++
  (if r.cls.valid then []
    else [s!"classify[{i}] class {quote r.cls.text} is not a declared failure class"])

namespace RunSpec

variable (s : RunSpec)

/-- Everything wrong with a declaration. -/
def problems : List String :=
  (if trimSpace s.projectID = "" then ["projectId is required"] else []) ++
  (if trimSpace s.stateDir = "" then
    ["stateDir is required — a run with nowhere durable to write cannot be resumed"] else []) ++
  (match s.ownership.validate with
    | .ok () => []
    | .error err => [err]) ++
  (if s.ownership.projectID ≠ "" ∧ s.projectID ≠ "" ∧ s.ownership.projectID ≠ s.projectID then
    [s!"ownership.projectId {quote s.ownership.projectID} does not match projectId " ++
      quote s.projectID] else []) ++
  eachProblem checkTool s.tools ++
  eachProblem checkPath s.paths ++
  eachProblem checkEnv s.env ++
  eachProblem checkPort s.ports ++
  eachProblem checkCommand s.commands ++
  eachProblem checkCredential s.credentials ++
  s.qa.requireGates.flatMap checkRequiredGate ++
  (s.github.toList.flatMap checkGitHub) ++
  checkBoundaries 0 [] s.boundaries ++
  eachProblem checkRule s.classification

/-- Refuse a declaration that would produce an unreadable verdict. -/
def validate : Except String Unit :=
  if s.problems = [] then .ok ()
  else .error ("unattended: run spec is invalid: " ++ joinWith s.problems "; ")

end RunSpec

/-! ## Declarations without problems -/

lemma eachProblem_eq_nil {α : Type} {check : ℕ → α → List String} {xs : List α}
    (h : ∀ i, ∀ x ∈ xs, check i x = []) : eachProblem check xs = [] := by
  refine flatMap_eq_nil_iff.mpr fun x hx => ?_
  exact h x.2 x.1 (fst_mem_of_mem_zipIdx hx)

lemma Ownership.validate_eq_ok {o : Ownership} (hproject : trimSpace o.projectID ≠ "")
    (hworktree : trimSpace o.worktree ≠ "") (hsession : trimSpace o.session ≠ "")
    (hrole : o.role.isKnown = true) (hbranch : trimSpace o.expectedBranch ≠ "") :
    o.validate = .ok () := by
  simp [Ownership.validate, hproject, hworktree, hsession, hrole, hbranch]

lemma checkBoundaries_eq_nil {i : ℕ} {seen : List String} {bs : List KnownBoundary}
    (hid : ∀ b ∈ bs, trimSpace b.id ≠ "" ∧ b.id ∉ seen ∧ trimSpace b.action ≠ "")
    (hnodup : (bs.map KnownBoundary.id).Nodup) : checkBoundaries i seen bs = [] := by
  induction bs generalizing i seen with
  | nil => rfl
  | cons b bs ih =>
    obtain ⟨hblank, hnew, haction⟩ := hid b mem_cons_self
    rw [map_cons, nodup_cons] at hnodup
    have hrest : checkBoundaries (i + 1) (b.id :: seen) bs = [] := by
      refine ih (fun b' hb' => ?_) hnodup.2
      obtain ⟨hblank', hnew', haction'⟩ := hid b' (mem_cons_of_mem _ hb')
      refine ⟨hblank', fun hmem => ?_, haction'⟩
      rcases mem_cons.mp hmem with heq | hmem
      · exact hnodup.1 (heq ▸ mem_map_of_mem hb')
      · exact hnew' hmem
    simp [checkBoundaries, hblank, hnew, haction, hrest]

end DeliveryEngine.Unattended
