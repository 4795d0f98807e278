import DeliveryEngine.Handoff.Validate

/-!
# Validation of an intent

`Intent.validate` refuses an intent that cannot safely govern a delivery, and lists everything that is wrong
with it.  Two questions are left to the host's library, and nothing is assumed of its answers: how a URL is
taken apart, and which texts are the same without regard to case.

`Intent.Valid` is what the rest of the engine rests on when an intent has been accepted.
-/

namespace DeliveryEngine.Handoff

open Go List

/-! ## Repositories and paths -/

/-- The owner and the name in `owner/name`. -/
def splitSlug (slug : String) : Option (String × String) :=
  match splitOn (trimSpace slug) '/' with
  | [owner, name] =>
    if owner = "" ∨ name = "" ∨ owner = "." ∨ owner = ".." ∨ name = "." ∨ name = ".." then none
    else some (owner, name)
  | _ => none

/-- `strings.TrimSuffix`. -/
def trimSuffix (s suf : String) : String :=
  if hasSuffix s suf then String.ofList (s.toList.take (s.toList.length - suf.toList.length)) else s

/-- `strings.Trim` of slashes. -/
def trimSlashes (s : String) : String :=
  String.ofList (((s.toList.dropWhile (· = '/')).reverse.dropWhile (· = '/')).reverse)

/-- The parts of a URL that an origin is read from. -/
structure Address where
  host : String
  path : String

/-- What the host's library says of URLs and of letter case. -/
structure Library where
  parseURL : String → Except String Address
  equalFold : String → String → Bool

/-- Reduce a git remote URL to `owner/name`. -/
def slugFromOrigin (library : Library) (origin : String) : Except String String :=
  let origin := trimSuffix (trimSpace origin) ".git"
  if containsAny origin "@" && !contains origin "://" then
    -- The scp-like form: what follows the first colon behind the at sign.
    match (origin.toList.dropWhile (· ≠ '@')).dropWhile (· ≠ ':') with
    | [] => .error "no path after host"
    | _ :: rest => .ok (trimSlashes (String.ofList rest))
  else
    match library.parseURL origin with
    | .error err => .error err
    | .ok u =>
      if u.host = "" then .error "no host"
      else
        match splitSlug (trimSlashes (Path.clean ("/" ++ u.path))) with
        | some (owner, name) => .ok (owner ++ "/" ++ name)
        | none => .error s!"path {quote u.path} is not /owner/name"

def isLetter (c : Char) : Bool := ('a' ≤ c && c ≤ 'z') || ('A' ≤ c && c ≤ 'Z')

/-- Whether a path is absolute on Windows. -/
def isWindowsAbs (p : String) : Bool :=
  match p.toList with
  | c :: ':' :: '\\' :: _ => isLetter c
  | c :: ':' :: '/' :: _ => isLetter c
  | _ => hasPrefix p "\\\\"

/-! ## The intent -/

/-- The grants of a policy that cannot all be true at once. -/
def Policy.problems (p : Policy) : List String :=
  (if p.needPR && !p.needPush then
    ["policy.needPr requires policy.needPush — a pull request needs a pushed branch"] else []) ++
  (if p.needMerge && !p.needPR then
    ["policy.needMerge requires policy.needPr — this engine merges through pull requests, never by " ++
      "pushing to the default branch"] else []) ++
  (if p.needMerge && !p.needChecks then
    ["policy.needMerge requires policy.needChecks — merging without required checks is publication " ++
      "without acceptance"] else []) ++
  (if !p.needMerge && trimSpace p.mergeHumanAction = "" then
    ["policy.mergeHumanAction is required when merge authority is withheld — name what a person must " ++
      "do, so the run reports a boundary rather than a failure"] else []) ++
  (if p.maxWorkers < 0 then ["policy.maxWorkers cannot be negative"] else []) ++
  (if p.workDeadlineSeconds < 0 then ["policy.workDeadlineSeconds cannot be negative"] else [])

/-- The problem with the origin of a repository whose slug could be read. -/
def checkOrigin (library : Library) (repo : Repository) : List String :=
  if trimSpace repo.origin = "" then
    ["repository.origin is required — the checkout's remote cannot be proved against nothing"]
  else
    match splitSlug repo.slug with
    | none => []
    | some (owner, name) =>
      match slugFromOrigin library repo.origin with
      | .error err => [s!"repository.origin {quote repo.origin} is not a readable git remote URL: {err}"]
      | .ok originSlug =>
        if library.equalFold originSlug (owner ++ "/" ++ name) then []
        else [s!"repository.origin {quote repo.origin} names {quote originSlug} but " ++
          "repository.slug says " ++ quote (owner ++ "/" ++ name)]

/-- The problems with the acceptance criteria, given the ids before. -/
def checkCriteria : ℕ → List String → List Criterion → List String
  | _, _, [] => []
  | i, seen, c :: cs =>
    (if !isID c.id then [s!"acceptance[{i}].id {quote c.id} is not a valid identifier"]
      else if c.id ∈ seen then [s!"acceptance[{i}].id {quote c.id} is duplicated"] else []) ++
    (if trimSpace c.statement = "" then [s!"acceptance[{i}] ({c.id}) has no statement"] else []) ++
    (if c.acceptedBy = "" ∨ c.acceptedBy = acceptedByDelivery ∨ c.acceptedBy = acceptedByHuman then []
      else [s!"acceptance[{i}] ({c.id}) has acceptedBy {quote c.acceptedBy} — it is " ++
        s!"{quote acceptedByDelivery} or {quote acceptedByHuman}, and empty means " ++
        quote acceptedByDelivery]) ++
    checkCriteria (i + 1) (if isID c.id ∧ c.id ∉ seen then c.id :: seen else seen) cs

/-- The refusal of an intent that this engine will not act on. -/
def errIntentInvalid (why : String) : String := "handoff: delivery intent is invalid: " ++ why

namespace Intent

variable (library : Library)

/-- Everything wrong with an intent. -/
def problems (intent : Intent) : List String :=
  (if isID intent.projectID then []
    else [s!"projectId {quote intent.projectID} is not 2-64 characters of lowercase letters, digits " ++
      "and hyphens"]) ++
  (if (splitSlug intent.repository.slug).isSome then []
    else [s!"repository.slug {quote intent.repository.slug} is not owner/name"]) ++
  (if trimSpace intent.repository.defaultBranch = "" then
    ["repository.defaultBranch is required — delivery has nothing to integrate into"] else []) ++
  checkOrigin library intent.repository ++
  (if trimSpace intent.checkout = "" then
    ["checkout is required — managed delivery does not choose where a project lives"]
    else if !hasPrefix intent.checkout "/" && !isWindowsAbs intent.checkout then
      [s!"checkout {quote intent.checkout} is not an absolute path"]
    else []) ++
  (if trimSpace intent.objective = "" then
    ["objective is required — a run with no stated purpose cannot be planned or judged"] else []) ++
  (if intent.lifecycle = [] then ["lifecycle is required — at least one phase"] else []) ++
  intent.lifecycle.zipIdx.flatMap (fun phase =>
    if trimSpace phase.1 = "" then [s!"lifecycle[{phase.2}] is empty"] else []) ++
  (if intent.acceptance = [] then
    ["acceptance is required — delivery that cannot be judged done cannot complete"] else []) ++
  checkCriteria 0 [] intent.acceptance ++
  (if intent.acceptance ≠ [] && !intent.acceptance.any (fun c => !c.isHuman) then
    ["every acceptance criterion is reserved to a person — managed delivery has nothing it may " ++
      "satisfy"] else []) ++
  intent.policy.problems

/-- Refuse an intent that cannot safely govern a delivery run. -/
def validate (intent : Intent) : Except String Unit :=
  if intent.schemaVersion ≠ 1 then
    .error ("handoff: delivery intent schema is not supported: " ++
      s!"schemaVersion {intent.schemaVersion}, this engine speaks 1")
  else if intent.problems library = [] then .ok ()
  else .error (errIntentInvalid (joinWith (intent.problems library) "; "))

/-! ## What acceptance establishes -/

/-- What the engine rests on once an intent has been accepted. -/
structure Valid (intent : Intent) : Prop where
  projectID : isID intent.projectID = true
  slug : (splitSlug intent.repository.slug).isSome = true
  defaultBranch : trimSpace intent.repository.defaultBranch ≠ ""
  checkout : trimSpace intent.checkout ≠ ""
  criteria_nodup : intent.criteria.Nodup

end Intent

lemma nodup_of_checkCriteria {i : ℕ} {seen : List String} {cs : List Criterion} (h : checkCriteria i seen cs = []) :
    (cs.map Criterion.id).Nodup ∧ ∀ c ∈ cs, c.id ∉ seen := by
  induction cs generalizing i seen with
  | nil => simp
  | cons c cs ih =>
    simp only [checkCriteria, append_eq_nil_iff] at h
    obtain ⟨⟨⟨hid, -⟩, -⟩, hrest⟩ := h
    split_ifs at hid with hisID hnew
    have hfresh : isID c.id = true ∧ c.id ∉ seen := ⟨by simpa using hisID, hnew⟩
    rw [if_pos hfresh] at hrest
    obtain ⟨hnodup, hall⟩ := ih hrest
    exact new_cons hnew hnodup hall

lemma Intent.valid_of_validate {library : Library} {intent : Intent}
    (h : intent.validate library = .ok ()) : intent.Valid := by
  unfold Intent.validate at h
  split_ifs at h with hversion hproblems
  simp only [Intent.problems, append_eq_nil_iff] at hproblems
  obtain ⟨⟨⟨⟨⟨⟨⟨⟨⟨⟨⟨hproject, hslug⟩, hbranch⟩, -⟩, hcheckout⟩, -⟩, -⟩, -⟩, -⟩, hcriteria⟩, -⟩, -⟩ := hproblems
  refine ⟨?_, ?_, ?_, ?_, (nodup_of_checkCriteria hcriteria).1⟩
  · by_contra hne
    simp [hne] at hproject
  · by_contra hne
    simp [hne] at hslug
  · intro hblank
    simp [hblank] at hbranch
  · intro hblank
    simp [hblank] at hcheckout

end DeliveryEngine.Handoff
