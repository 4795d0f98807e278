import DeliveryEngine.Graph.Toposort
import DeliveryEngine.Handoff.Accepted
import DeliveryEngine.Handoff.Intent
import DeliveryEngine.Unattended.RunSpec

/-!
# Compiling a delivery into a run

`compile` turns an intent and its plan into the declaration of a run and a work plan in which every task calls the
driver of the host.  A package that changes the repository becomes a task that waits for its worker and a task that
publishes what the worker made; a package that only checks evidence becomes one task.  The projection is rendered and
published when every package is finished.
-/

namespace DeliveryEngine.Handoff

open Go Unattended List

/-! ## The host -/

/-- The host that is to do the delivery. -/
structure HostProfile where
  /-- Where the state of each delivery lives. -/
  deliveryRoot : String
  /-- The program every task invokes. -/
  driver : String
  gitHubCommand : String := ""
  gasCityCommand : String := ""
  beadsCommand : String := ""
  /-- The agent runtime workers are started under. -/
  provider : String
  providerCommand : String := ""
  /-- Where the project's own tools are. -/
  projectToolPath : List String := []
  /-- Where the drives of a Windows portal are mounted. -/
  windowsMountPrefix : String := ""

/-- The refusal of a profile that cannot govern a run. -/
def errHostProfileInvalid (why : String) : String := "handoff: host profile is invalid: " ++ why

/-- A command as declared, or the name it has by default. -/
def commandOr (command fallback : String) : String :=
  if trimSpace command ≠ "" then command else fallback

/-- Join path elements with slashes, each without its own. -/
def pathJoin (parts : List String) : String := "/" ++ joinWith (parts.map trimSlashes) "/"

namespace HostProfile

variable (host : HostProfile)

/-- Refuse a profile missing something no default can supply. -/
def validate : Except String Unit :=
  let missing :=
    (if trimSpace host.deliveryRoot = "" then ["deliveryRoot"] else []) ++
    (if trimSpace host.driver = "" then ["driver"] else []) ++
    (if trimSpace host.provider = "" then ["provider"] else [])
  if missing = [] then .ok ()
  else .error (errHostProfileInvalid ("missing " ++ joinWith missing ", "))

/-- Map a checkout recorded by the portal onto this host. -/
def resolveCheckout (p : String) : String :=
  match p.toList with
  | c :: ':' :: sep :: rest =>
    if isLetter c ∧ (sep = '\\' ∨ sep = '/') ∧ host.windowsMountPrefix ≠ "" then
      pathJoin [host.windowsMountPrefix, String.singleton c.toLower, replaceChar (String.ofList rest) '\\' '/']
    else p
  | _ => p

variable (projectID : String)

/-- The directory of a delivery. -/
def projectDir : String := Path.join host.deliveryRoot projectID

/-- The directory of its run. -/
def stateDir : String := Path.join (host.projectDir projectID) "run"

/-- Where the run publishes its own projection. -/
def projectionPath : String := Path.join (host.stateDir projectID) "PROJECT-STATE.yml"

/-- The forge's command. -/
def forgeCLI : String := commandOr host.gitHubCommand "gh"

/-- Gas City's command. -/
def gasCityCLI : String := commandOr host.gasCityCommand "gc"

/-- The bead store's command. -/
def beadsCLI : String := commandOr host.beadsCommand "bd"

/-- The agent runtime's command; by default the provider's name. -/
def providerCLI : String := commandOr host.providerCommand host.provider

/-- The directories of the project's own tools. -/
def toolDirs : List String := (host.projectToolPath.map trimSpace).filter (· ≠ "")

/-- An option of the driver, if the host declares a value for it. -/
def driverOption (name value : String) : List String :=
  if trimSpace value ≠ "" then [name, trimSpace value] else []

/-- What every stage is told about the project and the host. -/
def projectArgs : List String :=
  ["-project", projectID, "-state", host.projectDir projectID] ++
  driverOption "-gh" host.gitHubCommand ++
  driverOption "-gc" host.gasCityCommand ++
  driverOption "-bd" host.beadsCommand ++
  ["-provider", host.provider] ++
  driverOption "-provider-bin" host.providerCommand ++
  (if joinWith host.toolDirs ":" ≠ "" then ["-project-path", joinWith host.toolDirs ":"] else [])

/-- A task that has the driver perform a stage. -/
def stage (id title : String) (band : BandName) (needs : List String) (mutates : Bool) (timeout : ℤ)
    (args : List String) : Task :=
  { id := id, title := title, band := .known band, argv := host.driver :: args, needs := needs,
    mutates := mutates, timeoutSeconds := timeout, resultPath := "results/" ++ id ++ ".json" }

end HostProfile

/-! ## The stages -/

/-- The city is built and the rig cloned. -/
def stageCityUp : String := "city-up"

/-- The beads are created and routed. -/
def stageDispatch : String := "dispatch"

/-- A package's worker is waited for. -/
def stageAwait : String := "await"

/-- A package's branch is published. -/
def stagePublish : String := "publish"

/-- A package that only checks evidence is verified. -/
def stageVerify : String := "verify"

/-- The projection is rendered. -/
def stageProject : String := "project"

/-- The projection is published. -/
def stagePublishProjection : String := "publish-projection"

/-- How much longer a task may take than the stage waits for the work. -/
def driverResultMargin : ℤ := 300

/-- The time a publication may spend waiting for required checks. -/
def publishCIBudget : ℤ := 2700

/-- How often a stage that reports unfinished work is offered again. -/
def driverMaxResumes : ℤ := 1

/-- How long a stage waits for the work of a package. -/
def Policy.awaitTimeout (p : Policy) : ℤ :=
  if p.workDeadlineSeconds ≤ 0 then 5400 else p.workDeadlineSeconds

/-- The status a successful publication establishes. -/
def publishedStatus (p : Policy) : String := if p.needMerge then "merged" else "pr-open"

namespace WorkPackage

variable (wp : WorkPackage)

/-- The task that waits for the worker. -/
def awaitID : String := stageAwait ++ "-" ++ wp.id

/-- The task that publishes what the worker made. -/
def publishID : String := stagePublish ++ "-" ++ wp.id

/-- The task that verifies the package. -/
def verifyID : String := stageVerify ++ "-" ++ wp.id

/-- The task that finishes the package. -/
def finishID : String := if wp.isVerification then wp.verifyID else wp.publishID

/-- The publications the package waits for. -/
def upstream : List String := wp.dependsOn.map (fun dep => stagePublish ++ "-" ++ dep)

end WorkPackage

section Tasks
variable (intent : Intent) (host : HostProfile)

/-- The arguments of a stage that is about one package. -/
def packageArgs (stageName : String) (wp : WorkPackage) : List String :=
  [stageName, "-package", wp.id, "-deadline", toString intent.policy.awaitTimeout] ++
    host.projectArgs intent.projectID

/-- The first task. -/
def cityUpTask : Task :=
  host.stage stageCityUp "build the city, clone the working rig and declare the workers" .primary [] false
    1800 (stageCityUp :: host.projectArgs intent.projectID)

/-- The second task; every package waits for it. -/
def dispatchTask : Task :=
  host.stage stageDispatch "create the work beads, wire their dependencies and route them" .primary
    [stageCityUp] false 900 (stageDispatch :: host.projectArgs intent.projectID)

variable (wp : WorkPackage)

/-- A verification waits for the dispatch alone, not for the packages it depends on. -/
def verifyTask : Task :=
  { host.stage wp.verifyID ("verify " ++ wp.id ++ ": " ++ wp.title) .primary [stageDispatch] false
      (intent.policy.awaitTimeout + driverResultMargin) (packageArgs intent host stageVerify wp) with
    maxResumes := driverMaxResumes
    deliveryStatus := "verified"
    completionGate := "declared verification gates passed against the authoritative merged commit + " ++
      "required evidence present at that commit"
    phase := wp.phase }

/-- The wait for a worker comes after the publications the package depends on. -/
def awaitTask : Task :=
  { host.stage wp.awaitID ("wait for " ++ wp.id ++ ": " ++ wp.title) .primary
      (stageDispatch :: wp.upstream) false
      (intent.policy.awaitTimeout + driverResultMargin) (packageArgs intent host stageAwait wp) with
    maxResumes := driverMaxResumes }

/-- The only task of a package that changes the repository. -/
def publishTask : Task :=
  { host.stage wp.publishID ("publish " ++ wp.id ++ ": " ++ wp.title) .primary
      (wp.awaitID :: wp.upstream) true
      (intent.policy.awaitTimeout + publishCIBudget + driverResultMargin)
      (packageArgs intent host stagePublish wp) with
    maxResumes := driverMaxResumes
    deliveryStatus := publishedStatus intent.policy
    completionGate := "required CI passed + independent assurance passed + merged through repository " ++
      "governance"
    phase := wp.phase }

/-- The tasks of a package. -/
def packageTasks : List Task :=
  if wp.isVerification then [verifyTask intent host wp]
  else [awaitTask intent host wp, publishTask intent host wp]

/-- The projection waits for every package. -/
def projectTask (plan : DeliveryPlan) : Task :=
  host.stage stageProject "render the delivery projection from the run's evidence" .evidence
    (plan.allPackages.map WorkPackage.finishID) false 600 (stageProject :: host.projectArgs intent.projectID)

/-- The last task. -/
def publishProjectionTask : Task :=
  host.stage stagePublishProjection "publish the projection into the project's repository" .evidence
    [stageProject] true 900 (stagePublishProjection :: host.projectArgs intent.projectID)

end Tasks

/-- The packages in dependency order. -/
def orderPackages (plan : DeliveryPlan) : List WorkPackage :=
  let remaining : GoMap WorkPackage := GoMap.indexBy WorkPackage.id id plan.allPackages
  let listing := dependencyListing plan.allPackages
  (Toposort.sort (Listing.waits listing) (Listing.known listing)
    (sortStrings (plan.allPackages.map WorkPackage.id))).filterMap remaining.get?

/-! ## Compilation -/

/-- The criteria reserved for a person, as limits the run knows beforehand. -/
def acceptanceBoundaries (intent : Intent) : List KnownBoundary :=
  (intent.acceptance.filter Criterion.isHuman).map (fun c =>
    { id := "acceptance." ++ c.id
      title := "acceptance criterion " ++ c.id ++ " is a person's to answer"
      detail := c.statement
      action := "a person accepts " ++ c.id ++ " — delivery may prepare what they read and may never " ++
        "claim their answer" })

section Compile
variable (intent : Intent) (plan : DeliveryPlan) (host : HostProfile)

/-- The declaration of the run. -/
def compileSpec : RunSpec :=
  let worktree := host.resolveCheckout intent.checkout
  { projectID := intent.projectID
    ownership :=
      { projectID := intent.projectID, worktree := worktree, expectedOrigin := intent.repository.origin
        expectedBranch := intent.repository.defaultBranch, role := .known .controller
        session := "managed-delivery-" ++ intent.projectID, allowDirtyWorktree := true }
    stateDir := host.stateDir intent.projectID
    publishPath := host.projectionPath intent.projectID
    tools :=
      [ { name := "git", minVersion := "2.30", versionArgs := ["--version"]
          purpose := "every repository operation delivery performs" },
        { name := "tmux", minVersion := "3.0", versionArgs := ["-V"]
          purpose := "the runtime provider worker sessions run under" },
        { name := host.forgeCLI, minVersion := "2.40", versionArgs := ["--version"]
          purpose := "pull requests, checks and merges" },
        { name := host.gasCityCLI
          purpose := "building the city, cloning the rig and every bead operation delivery performs" },
        { name := host.beadsCLI
          purpose := "the bead store Gas City creates in the rig; Gas City resolves it by PATH lookup" },
        { name := host.providerCLI
          purpose := "the agent runtime the city's provider readiness and every worker session " ++
            "resolve by name" } ]
    paths :=
      [ { path := worktree, kind := .known .dir, purpose := "the registered checkout this delivery is for" },
        { path := host.projectDir intent.projectID, kind := .known .dir, writable := true, create := true
          purpose := "durable delivery state: record, plan, journal, projection" },
        { path := host.stateDir intent.projectID, kind := .known .dir, writable := true, create := true
          purpose := "the run's journal, heartbeat and completion record" } ] ++
      host.toolDirs.map (fun dir =>
        { path := dir, kind := .known .dir
          purpose := "the project's own toolchain, which the controller runs a package's declared " ++
            "gates with" })
    env :=
      [ { name := "HOME", purpose := "resolves the agent runtime's configuration" },
        { name := "PATH", purpose := "resolves every declared tool" } ]
    classification :=
      [ { pattern := "supervisor cannot be asked to reconcile", cls := .known .humanDecision
          reason := "the machine-wide supervisor is not answering, and restarting a shared process is " ++
            "its owner's decision" } ]
    github := some
      { repo := intent.repository.slug, command := host.gitHubCommand
        branch := intent.repository.defaultBranch, needPush := intent.policy.needPush
        needPR := intent.policy.needPR, needChecks := intent.policy.needChecks
        needMerge := intent.policy.needMerge, mergeHumanAction := intent.policy.mergeHumanAction }
    boundaries := acceptanceBoundaries intent }

/-- The work plan of the run. -/
def compileWork (runID : String) : Unattended.Plan :=
  { runID := runID, risk := .known .q0
    tasks := [cityUpTask intent host, dispatchTask intent host] ++
      (orderPackages plan).flatMap (packageTasks intent host) ++
      [projectTask intent host plan, publishProjectionTask intent host] }

/-- Turn an intent and its plan into a run. -/
def compile (library : Library) (toLower : Char → Char) (runID : String) :
    Except String (RunSpec × Unattended.Plan) := do
  intent.validate library
  plan.validate toLower intent
  host.validate
  if trimSpace runID = "" then throw (errHostProfileInvalid "a run needs an id")
  (compileWork intent plan host runID).validate.mapError ("compiling the delivery run: " ++ ·)
  (compileSpec intent host).validate.mapError ("compiling the delivery run: " ++ ·)
  return (compileSpec intent host, compileWork intent plan host runID)

end Compile

/-! ## The declaration is acceptable -/

variable {s : String}

lemma isID_chars (h : isID s = true) :
    (∃ c ∈ s.toList, isIDChar c = true) ∧ ∀ c ∈ s.toList, isIDChar c = true ∨ c = '-' := by
  unfold isID at h
  split at h
  · cases h
  · next c cs hs =>
    simp only [Bool.and_eq_true, all_eq_true, Bool.or_eq_true, decide_eq_true_eq] at h
    obtain ⟨⟨⟨hc, hcs⟩, -⟩, -⟩ := h
    rw [hs]
    refine ⟨⟨c, mem_cons_self, hc⟩, fun d hd => ?_⟩
    rcases mem_cons.mp hd with rfl | hd
    · exact .inl hc
    · exact hcs d hd

lemma isSpace_of_isIDChar {c : Char} (h : isIDChar c = true) : isSpace c = false := by
  have hrange : 97 ≤ c.toNat ∧ c.toNat ≤ 122 ∨ 48 ≤ c.toNat ∧ c.toNat ≤ 57 := by
    simpa [isIDChar, Char.le_def, UInt32.le_iff_toNat_le] using h
  simp only [isSpace, Bool.or_eq_false_iff, Bool.and_eq_false_iff, decide_eq_false_iff_not, beq_eq_false_iff_ne]
  omega

lemma trimSpace_ne_of_isID (h : isID s = true) : trimSpace s ≠ "" := by
  obtain ⟨c, hc, hid⟩ := (isID_chars h).1
  exact trimSpace_ne_empty_iff.mpr ⟨c, hc, isSpace_of_isIDChar hid⟩

lemma trimSpace_append_ne (pre : String) (h : trimSpace s ≠ "") : trimSpace (pre ++ s) ≠ "" := by
  obtain ⟨c, hc, hspace⟩ := trimSpace_ne_empty_iff.mp h
  exact trimSpace_ne_empty_iff.mpr ⟨c, by simp [hc], hspace⟩

lemma trimSpace_join_ne (a : String) {b : String} (hslash : '/' ∉ b.toList) (hdot : '.' ∉ b.toList)
    (hb : trimSpace b ≠ "") : trimSpace (Path.join a b) ≠ "" := by
  obtain ⟨pre, hpre⟩ := Path.exists_join_eq a hslash (ne_empty_of_trimSpace_ne hb)
    (by rintro rfl; exact hdot (by decide)) (by rintro rfl; exact hdot (by decide))
  rw [hpre]
  exact trimSpace_append_ne pre hb

lemma notMem_of_isID (h : isID s = true) {c : Char} (hc : isIDChar c = false) (hyphen : c ≠ '-') : c ∉ s.toList := by
  intro hmem
  rcases (isID_chars h).2 c hmem with hid | heq
  · rw [hid] at hc
    cases hc
  · exact hyphen heq

lemma trimSpace_commandOr_ne {command fallback : String} (h : trimSpace fallback ≠ "") :
    trimSpace (commandOr command fallback) ≠ "" := by
  unfold commandOr
  split_ifs with hcommand
  · exact hcommand
  · exact h

lemma contains_slash_of_splitSlug {slug : String} (h : (splitSlug slug).isSome = true) :
    contains slug "/" = true := by
  change contains slug (String.singleton '/') = true
  refine contains_singleton.mpr (mem_of_mem_trimSpace ?_)
  by_contra hnot
  rw [splitSlug, splitOn_of_notMem hnot] at h
  cases h

namespace HostProfile

variable {host : HostProfile}

lemma declared_of_validate (h : host.validate = .ok ()) :
    trimSpace host.deliveryRoot ≠ "" ∧ trimSpace host.driver ≠ "" ∧ trimSpace host.provider ≠ "" := by
  unfold validate at h
  split_ifs at h <;> simp_all

lemma trimSpace_resolveCheckout_ne (host : HostProfile) {p : String} (h : trimSpace p ≠ "") :
    trimSpace (host.resolveCheckout p) ≠ "" := by
  unfold resolveCheckout
  split
  · split_ifs
    · exact trimSpace_ne_empty_iff.mpr ⟨'/', by simp [pathJoin], by decide⟩
    · exact h
  · exact h

lemma trimSpace_ne_of_mem_toolDirs {dir : String} (h : dir ∈ host.toolDirs) : trimSpace dir ≠ "" := by
  simp only [toolDirs, mem_filter, mem_map, decide_eq_true_eq] at h
  obtain ⟨⟨declared, -, rfl⟩, hne⟩ := h
  obtain ⟨c, hc, hspace⟩ := trimSpace_ne_empty_iff.mp hne
  exact trimSpace_ne_empty_iff.mpr ⟨c, mem_trimSpace hc hspace, hspace⟩

end HostProfile

lemma checkBoundaries_acceptanceBoundaries {intent : Intent} (h : intent.criteria.Nodup) :
    checkBoundaries 0 [] (acceptanceBoundaries intent) = [] := by
  refine checkBoundaries_eq_nil (fun b hb => ?_) ?_
  · obtain ⟨c, -, rfl⟩ := mem_map.mp hb
    refine ⟨?_, not_mem_nil, ?_⟩
    · exact trimSpace_ne_empty_iff.mpr ⟨'a', by simp, by decide⟩
    · exact trimSpace_ne_empty_iff.mpr ⟨'a', by simp, by decide⟩
  · have hids : (acceptanceBoundaries intent).map KnownBoundary.id =
        ((intent.acceptance.filter Criterion.isHuman).map Criterion.id).map ("acceptance." ++ ·) := by
      simp [acceptanceBoundaries]
    rw [hids]
    refine List.Nodup.map (fun a b hab => ?_) (h.sublist ((filter_sublist).map _))
    simpa [← String.toList_inj] using hab

section Declaration
variable {intent : Intent} {host : HostProfile}

lemma trimSpace_projectDir_ne (hproject : isID intent.projectID = true) :
    trimSpace (host.projectDir intent.projectID) ≠ "" :=
  trimSpace_join_ne _ (notMem_of_isID hproject (by decide) (by decide))
    (notMem_of_isID hproject (by decide) (by decide)) (trimSpace_ne_of_isID hproject)

lemma trimSpace_stateDir_ne : trimSpace (host.stateDir intent.projectID) ≠ "" :=
  trimSpace_join_ne _ (by decide) (by decide) (by decide)

lemma compileSpec_tools (hprovider : trimSpace host.provider ≠ "") :
    ∀ t ∈ (compileSpec intent host).tools, trimSpace t.name ≠ "" := by
  have hforge : trimSpace host.forgeCLI ≠ "" := trimSpace_commandOr_ne (by decide)
  have hgasCity : trimSpace host.gasCityCLI ≠ "" := trimSpace_commandOr_ne (by decide)
  have hbeads : trimSpace host.beadsCLI ≠ "" := trimSpace_commandOr_ne (by decide)
  have hproviderCLI : trimSpace host.providerCLI ≠ "" := trimSpace_commandOr_ne hprovider
  have hgit : trimSpace "git" ≠ "" := by decide
  have htmux : trimSpace "tmux" ≠ "" := by decide
  simp only [compileSpec, forall_mem_cons]
  exact ⟨hgit, htmux, hforge, hgasCity, hbeads, hproviderCLI, nofun⟩

lemma compileSpec_paths (hintent : intent.Valid) :
    ∀ p ∈ (compileSpec intent host).paths, trimSpace p.path ≠ "" ∧ p.kind = .known .dir := by
  simp only [compileSpec, forall_mem_append, forall_mem_cons, forall_mem_map]
  exact ⟨⟨⟨host.trimSpace_resolveCheckout_ne hintent.checkout, trivial⟩,
    ⟨trimSpace_projectDir_ne hintent.projectID, trivial⟩, ⟨trimSpace_stateDir_ne, trivial⟩, nofun⟩,
    fun dir hdir => ⟨HostProfile.trimSpace_ne_of_mem_toolDirs hdir, trivial⟩⟩

/-- The declaration compiled from what the validators accept is accepted itself. -/
theorem validate_compileSpec (hintent : intent.Valid) (hhost : host.validate = .ok ()) :
    (compileSpec intent host).validate = .ok () := by
  obtain ⟨-, -, hprovider⟩ := HostProfile.declared_of_validate hhost
  have hproject := trimSpace_ne_of_isID hintent.projectID
  have hownership : (compileSpec intent host).ownership.validate = .ok () :=
    Ownership.validate_eq_ok hproject (host.trimSpace_resolveCheckout_ne hintent.checkout)
      (trimSpace_append_ne _ hproject) rfl hintent.defaultBranch
  have htools : eachProblem checkTool (compileSpec intent host).tools = [] :=
    eachProblem_eq_nil fun i t ht => if_neg (compileSpec_tools hprovider t ht)
  have hpaths : eachProblem checkPath (compileSpec intent host).paths = [] := by
    refine eachProblem_eq_nil fun i p hp => ?_
    obtain ⟨hpath, hkind⟩ := compileSpec_paths hintent p hp
    simp [checkPath, hpath, hkind, Named.isKnown]
  have henv : eachProblem checkEnv (compileSpec intent host).env = [] := by
    have hnames : ∀ e ∈ (compileSpec intent host).env, trimSpace e.name ≠ "" := by
      simp only [compileSpec, forall_mem_cons]
      exact ⟨(by decide : trimSpace "HOME" ≠ ""), (by decide : trimSpace "PATH" ≠ ""), by simp⟩
    exact eachProblem_eq_nil fun i e he => if_neg (hnames e he)
  have hgithub : (compileSpec intent host).github.toList.flatMap checkGitHub = [] := by
    simp [compileSpec, checkGitHub, contains_slash_of_splitSlug hintent.slug]
  have hboundaries : checkBoundaries 0 [] (compileSpec intent host).boundaries = [] :=
    checkBoundaries_acceptanceBoundaries hintent.criteria_nodup
  have hrules : eachProblem checkRule (compileSpec intent host).classification = [] := by
    have hpattern : trimSpace "supervisor cannot be asked to reconcile" ≠ "" := by decide
    simp [compileSpec, eachProblem, checkRule, hpattern, FailureClass.valid, Named.isKnown]
  have hrest : eachProblem checkPort (compileSpec intent host).ports ++
      eachProblem checkCommand (compileSpec intent host).commands ++
      eachProblem checkCredential (compileSpec intent host).credentials ++
      (compileSpec intent host).qa.requireGates.flatMap checkRequiredGate = [] := rfl
  simp only [append_eq_nil_iff] at hrest
  obtain ⟨⟨⟨hports, hcommands⟩, hcredentials⟩, hgates⟩ := hrest
  refine if_pos ?_
  unfold RunSpec.problems
  rw [hownership, htools, hpaths, henv, hports, hcommands, hcredentials, hgates, hgithub, hboundaries,
    hrules, if_neg (show trimSpace (compileSpec intent host).projectID ≠ "" from hproject),
    if_neg (show trimSpace (compileSpec intent host).stateDir ≠ "" from trimSpace_stateDir_ne),
    if_neg fun h => h.2.2 rfl]
  rfl

end Declaration

end DeliveryEngine.Handoff
