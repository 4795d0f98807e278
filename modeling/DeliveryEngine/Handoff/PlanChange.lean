import DeliveryEngine.Handoff.RemediationJournal
import DeliveryEngine.Handoff.Supersession

/-!
# Replacing the plan of a delivery

The plan document is replaced when nothing was executed against it, or when what changes has no merge evidence.  The
replacement is validated on its own; what a delivery loads from then on is the replacement joined with the remediations,
validated again every time.  `DeliveryPlan.Joins` is what a replacement owes the remediations it does not know of: the
plan is loaded again exactly then (`plan_change_loads`), and `amendment_wedges` is a delivery whose plan is not.
-/

namespace DeliveryEngine.Handoff

open Go Go.Json List

/-! ## Replacements and remediations -/

/-- The packages of remediations that none of them has replaced. -/
def livePackages (rms : List Remediation) : List WorkPackage :=
  rms.flatMap (fun rm => rm.packages.filter (·.id ∉ rms.flatMap Remediation.supersedes))

lemma DeliveryPlan.allPackages_eq (p : DeliveryPlan) :
    p.allPackages = p.packages ++ livePackages p.remediations := rfl

/-- What a plan owes remediations that were authorized against another one: it takes none of their ids, the ones
they have replaced included, it has the packages they wait for, and beside theirs its packages still carry the
behaviours of each criterion that they claim. -/
structure DeliveryPlan.Joins (toLower : Char → Char) (intent : Intent) (p : DeliveryPlan)
    (rms : List Remediation) : Prop where
  ids : ∀ wp ∈ livePackages rms, wp.id ∉ p.packages.map WorkPackage.id
  superseded : ∀ id ∈ rms.flatMap Remediation.supersedes, id ∉ p.packages.map WorkPackage.id
  needs : ∀ wp ∈ livePackages rms, ∀ dep ∈ wp.dependsOn,
    dep ∈ p.packages.map WorkPackage.id ∨ dep ∈ (livePackages rms).map WorkPackage.id
  behaviours : ∀ c ∈ intent.acceptance, (∃ wp ∈ livePackages rms, c.id ∈ wp.satisfies) →
    checkFidelity toLower (p.packages ++ livePackages rms) c = []

variable {p : DeliveryPlan} {wp : WorkPackage}

section Join
variable {toLower : Char → Char} {intent : Intent}

lemma isVerification_of_generation {pkgs : List WorkPackage} (h : Generation intent 0 pkgs)
    (hwp : wp ∈ pkgs) : wp.isVerification = false := by
  obtain ⟨i, seen, hok⟩ := exists_checkPackage h hwp
  obtain ⟨-, -, hkind, -⟩ := checkPackage_eq_nil_iff.mp hok
  unfold checkKind at hkind
  unfold WorkPackage.isVerification
  split at hkind
  · next hnone => rw [hnone, Option.isSome_none]
  · simp at hkind

lemma checkFidelity_append {base more : List WorkPackage} {c : Criterion} (h : ¬ ∃ wp ∈ more, c.id ∈ wp.satisfies) :
    checkFidelity toLower (base ++ more) c = checkFidelity toLower base c := by
  have hnone : coveringPackages more c.id = [] :=
    filter_eq_nil_iff.mpr fun wp hwp hclaim => h ⟨wp, hwp, of_decide_eq_true hclaim⟩
  have hcovering : coveringPackages (base ++ more) c.id = coveringPackages base c.id := by
    rw [coveringPackages, filter_append]
    exact (congrArg _ hnone).trans (append_nil _)
  simp only [checkFidelity, hcovering]

lemma DeliveryPlan.allPackages_of_nil (h : p.remediations = []) : p.allPackages = p.packages := by
  rw [allPackages_eq, h]
  exact append_nil _

open DeliveryPlan (allPackages_eq allPackages_of_nil)

variable {standing next : DeliveryPlan}

lemma DeliveryPlan.Joins.ids_nodup (hjoins : next.Joins toLower intent standing.remediations)
    (hstanding : standing.Accepted toLower intent) (hnext : next.Accepted toLower intent)
    (hnone : next.remediations = []) :
    ((next.packages ++ livePackages standing.remediations).map WorkPackage.id).Nodup := by
  have hbase := hnext.ids_nodup
  have hall := hstanding.ids_nodup
  rw [allPackages_of_nil hnone] at hbase
  rw [allPackages_eq, map_append, nodup_append] at hall
  rw [map_append, nodup_append]
  refine ⟨hbase, hall.2.1, ?_⟩
  rintro _ ha _ hb rfl
  obtain ⟨wp, hwp, heq⟩ := mem_map.mp hb
  exact hjoins.ids wp hwp (heq ▸ ha)

/-- **Joining a replacement with remediations.**  A plan that is accepted on its own is accepted together with the
remediations of another one exactly when it joins them. -/
theorem accepted_join_iff (hstanding : standing.Accepted toLower intent) (hnext : next.Accepted toLower intent)
    (hnone : next.remediations = []) (hfinal : next.provisional = false) :
    DeliveryPlan.Accepted toLower intent { next with remediations := standing.remediations } ↔
      next.Joins toLower intent standing.remediations := by
  constructor
  · intro h
    have hnodup := h.ids_nodup
    rw [allPackages_eq, map_append, nodup_append] at hnodup
    refine ⟨fun wp hwp hmem => hnodup.2.2 _ hmem _ (mem_map_of_mem hwp) rfl,
      (checkSupersessions_eq_nil_iff.mp h.supersession).2, fun wp hwp dep hdep => ?_,
      fun c hc _ => h.faithful hfinal c hc⟩
    obtain ⟨-, hlisted, -⟩ := h.dependency wp (mem_append_right _ hwp) dep hdep
    rw [allPackages_eq, map_append, mem_append] at hlisted
    exact hlisted
  · intro hjoins
    have hnodup := hjoins.ids_nodup hstanding hnext hnone
    have hbase : ∀ wp ∈ next.packages, ∀ dep ∈ wp.dependsOn,
        dep ≠ wp.id ∧ dep ∈ next.packages.map WorkPackage.id := by
      intro wp hwp dep hdep
      rw [← allPackages_of_nil hnone] at hwp ⊢
      exact ⟨(hnext.dependency wp hwp dep hdep).1, (hnext.dependency wp hwp dep hdep).2.1⟩
    refine ⟨hnext.version, hnext.project, hnext.packages_ne, ?_, hnodup, ?_, ?_, ?_, ?_, ?_, hstanding.remediation⟩
    · rintro (_ | k) pkgs hpkgs
      · exact hnext.generation 0 pkgs hpkgs
      · exact hstanding.generation (k + 1) pkgs hpkgs
    · exact checkSupersessions_eq_nil_iff.mpr
        ⟨(checkSupersessions_eq_nil_iff.mp hstanding.supersession).1, hjoins.superseded⟩
    · have hverifiers : ∀ v ∈ (next.packages ++ livePackages standing.remediations).filter
          WorkPackage.isVerification, v ∈ livePackages standing.remediations ∧ v.isVerification = true := by
        intro v hv
        obtain ⟨hmem, hverifies⟩ := mem_filter.mp hv
        rcases mem_append.mp hmem with hmem | hmem
        · rw [isVerification_of_generation (hnext.generation 0 next.packages rfl) hmem] at hverifies
          cases hverifies
        · exact ⟨hmem, hverifies⟩
      intro wp hwp dep hdep
      rcases mem_append.mp hwp with hwp | hwp
      · obtain ⟨hself, hlisted⟩ := hbase wp hwp dep hdep
        refine ⟨hself, ?_, fun hverifier => ?_⟩
        · rw [allPackages_eq, map_append]
          exact mem_append_left _ hlisted
        · obtain ⟨v, hv, rfl⟩ := mem_map.mp hverifier
          exact hjoins.ids v (hverifiers v hv).1 hlisted
      · obtain ⟨hself, -, hmerges⟩ := hstanding.dependency wp (mem_append_right _ hwp) dep hdep
        refine ⟨hself, ?_, fun hverifier => ?_⟩
        · rw [allPackages_eq, map_append, mem_append]
          exact hjoins.needs wp hwp dep hdep
        · obtain ⟨v, hv, rfl⟩ := mem_map.mp hverifier
          obtain ⟨hlive, hverifies⟩ := hverifiers v hv
          exact hmerges (mem_map_of_mem (mem_filter.mpr ⟨mem_append_right _ hlive, hverifies⟩))
    · have hacyclic := hnext.acyclic
      have hbefore := hstanding.acyclic
      rw [allPackages_of_nil hnone] at hacyclic
      rw [allPackages_eq, findCycle, dependencyListing, map_append] at hbefore ⊢
      refine Listing.findCycle_append ?_ ?_ ?_ hacyclic hbefore
      · rw [← map_append, map_map]
        exact hnodup
      · rw [← map_append, map_map]
        exact hstanding.ids_nodup
      · intro item hitem dep hdep
        obtain ⟨wp, hwp, rfl⟩ := mem_map.mp hitem
        rw [map_map]
        exact (hbase wp hwp dep hdep).2
    · intro c hc hown
      obtain ⟨wp, hwp, hclaim⟩ := hnext.covered c hc hown
      rw [allPackages_of_nil hnone] at hwp
      exact ⟨wp, mem_append_left _ hwp, hclaim⟩
    · intro _ c hc
      by_cases hclaimed : ∃ wp ∈ livePackages standing.remediations, c.id ∈ wp.satisfies
      · exact hjoins.behaviours c hc hclaimed
      · have hfaithful := hnext.faithful hfinal c hc
        rw [allPackages_of_nil hnone] at hfaithful
        exact (checkFidelity_append hclaimed).trans hfaithful

end Join

/-! ## Reading and replacing the plan document -/

def planName : String := "plan.json"

/-- Where the superseded plan with a number is archived, `plan-superseded-%03d.json`. -/
def supersededPlanName (n : ℕ) : String := "plan-superseded-" ++ Duration.padded 3 n ++ ".json"

/-- The first free place in the archive, counting from one.  Among one more places than there are files, one is
free. -/
def archiveName (files : Files) : String :=
  supersededPlanName (((List.range (files.keys.length + 1)).find? (fun n =>
    (files.lookup (supersededPlanName (n + 1))).isNone)).getD 0 + 1)

/-- What a delivery is observed to be doing. -/
inductive DeliveryState
  | notStarted
  | planning
  | queued
  | running
  | blocked
  | completed
  | failed
  deriving DecidableEq

def DeliveryState.text : DeliveryState → String
  | .notStarted => "not-started"
  | .planning => "planning"
  | .queued => "queued"
  | .running => "running"
  | .blocked => "blocked"
  | .completed => "completed"
  | .failed => "failed"

/-- What a delivery was observed to be. -/
structure Status where
  projectID : String
  state : DeliveryState
  /-- A run holds the worktree. -/
  live : Bool := false
  evidence : Evidence := {}

/-- The packages with merge evidence. -/
def Status.merged (st : Status) : List String := st.evidence.completePackages ++ st.evidence.gateNotMet

/-- Whether two packages are written alike. -/
def packagesIdentical (a b : WorkPackage) : Bool :=
  match marshal packageCodec a, marshal packageCodec b with
  | some x, some y => x = y
  | _, _ => false

/-- What is wrong with a package of the standing plan under an amendment. -/
def checkAmended (next : DeliveryPlan) (st : Status) (wp : WorkPackage) : Except String Unit :=
  match (GoMap.indexBy WorkPackage.id id next.packages).get? wp.id with
  | none => .error (errRecordConflict (s!"the amendment drops package {quote wp.id} — its beads may already " ++
      "exist, and work no plan describes is work nobody governs"))
  | some replacement =>
    if wp.id ∈ st.merged ∧ !packagesIdentical wp replacement then
      .error (errRecordConflict (s!"package {quote wp.id} has merged against the standing plan and the " ++
        "amendment changes it — the merged work's record does not move; only packages with no merge " ++
        "evidence may change"))
    else .ok ()

/-- Why a plan may not be amended. -/
def checkAmendment (standing next : DeliveryPlan) (st : Status) : Except String Unit := do
  if st.projectID ≠ next.projectID then
    throw (errRecordConflict
      s!"the status observed {quote st.projectID} but the amendment is for {quote next.projectID}")
  if st.live then
    throw (errRecordConflict
      s!"a run currently holds {quote next.projectID} — an amendment lands between runs, not under one")
  standing.packages.forM (checkAmended next st)

def checkSuperseded (next : DeliveryPlan) (st : Status) : Except String Unit := do
  if st.projectID ≠ next.projectID then
    throw (errRecordConflict s!"the status observed {quote st.projectID} but the plan is for {quote next.projectID}")
  if st.live then
    throw (errRecordConflict (s!"a run currently holds {quote next.projectID} — a live run may be mid-dispatch " ++
      "against the standing plan, and swapping it now would leave the run reconciling two"))
  if st.state ≠ .failed ∧ st.state ≠ .planning then
    throw (errRecordConflict (s!"delivery for {quote next.projectID} is {quote st.state.text} — a delivery whose " ++
      "run finished executed its packages against the standing plan, and that plan is never replaced. " ++
      "Authorize corrective work as a remediation instead"))
  if st.evidence.completePackages ≠ [] then
    throw (errRecordConflict (s!"{st.evidence.completePackages.length} package(s) of {quote next.projectID} " ++
      "completed against the standing plan — it measured real work and is never replaced. Authorize corrective " ++
      "work as a remediation instead"))
  if st.evidence.gateNotMet ≠ [] then
    throw (errRecordConflict (s!"{st.evidence.gateNotMet.length} package(s) of {quote next.projectID} merged " ++
      "without their completion gate — work was measured against the standing plan and the plan is never " ++
      "replaced"))

/-- The two ways a standing plan is replaced. -/
inductive PlanChange
  | amend
  | supersede

namespace PlanChange

def goes : PlanChange → String
  | amend => "amended-away"
  | supersede => "superseded"

def comes : PlanChange → String
  | amend => "amended"
  | supersede => "superseding"

/-- Why a change is refused. -/
def check (change : PlanChange) (standing next : DeliveryPlan) (st : Status) : Except String Unit :=
  match change with
  | amend => checkAmendment standing next st
  | supersede => checkSuperseded next st

end PlanChange

namespace Storage

variable (storage : Storage)

/-- Parse a plan, join the remediations to it, and validate both together. -/
def decodePlanWithRemediations (data : List UInt8) (intent : Intent) (rms : List Remediation) :
    Except String DeliveryPlan :=
  match decodePlan data with
  | none => .error (errPlanInvalid (storage.decodeError data))
  | some p => do
      DeliveryPlan.validate storage.toLower intent { p with remediations := rms }
      return { p with remediations := rms }

/-- A plan that was decided elsewhere. -/
def staticPlan (raw : List UInt8) (intent : Intent) : Except String DeliveryPlan :=
  (storage.decodePlanWithRemediations raw intent []).mapError (fun err => "handoff: planning failed: " ++ err)

/-- The plan of a delivery, joined with its remediations.  That there is none is no error. -/
def loadPlan (dir : Directory) (intent : Intent) : Except String (Option DeliveryPlan) :=
  match dir.files.lookup planName with
  | none => .ok none
  | some data => do
      let rms ← storage.loadRemediations dir intent.projectID
      let p ← (storage.decodePlanWithRemediations data intent rms).mapError
        (fun err => storage.filePath intent.projectID planName ++ ": " ++ err)
      return some p

def savePlan (installed : Option String) (dir : Directory) (next : DeliveryPlan) : Directory × Option String :=
  match marshalPlan next with
  | none => (dir, some ("encoding delivery plan: json: error calling MarshalJSON for type time.Time: " ++
      "Time.MarshalJSON: year outside of range [0,9999]"))
  | some data =>
    match installed with
    | some err => (dir, some s!"writing delivery plan: {err}")
    | none => ({ dir with files := dir.files.insert planName data }, none)

variable (change : PlanChange) (archived installed : Option String) (dir : Directory)

/-- Archive the standing plan and install another one.  `archived` and `installed` are what went wrong with the
two writes, if anything did. -/
def replacePlan (next : DeliveryPlan) : Directory × Option String :=
  match dir.files.lookup planName, change with
  | none, .supersede => savePlan installed dir next
  | none, .amend => (dir, some (s!"reading the standing plan " ++
      s!"{quote (storage.filePath next.projectID planName)}: {storage.noSuchFile next.projectID planName}"))
  | some existing, _ =>
    let archive := archiveName dir.files
    match archived with
    | some err => (dir, some
        s!"archiving the {change.goes} plan to {quote (storage.filePath next.projectID archive)}: {err}")
    | none =>
      let kept := { dir with files := dir.files.insert archive existing }
      match marshalPlan next with
      | none => (kept, some (s!"encoding the {change.comes} plan: json: error calling MarshalJSON for type " ++
          "time.Time: Time.MarshalJSON: year outside of range [0,9999]"))
      | some data =>
        match installed with
        | some err => (kept, some s!"writing the {change.comes} plan: {err}")
        | none => ({ kept with files := kept.files.insert planName data }, none)

/-- `AmendUnmergedPackages` and `SupersedeUnexecutedPlan`. -/
def changePlan (standing next : DeliveryPlan) (st : Status) : Directory × Option String :=
  match change.check standing next st with
  | .error err => (dir, some err)
  | .ok _ => storage.replacePlan change archived installed dir next

end Storage

/-! ## What a change leaves -/

lemma remediationNumeral_eq_none {name : String} (h : name.toList.head? ≠ some 'r') :
    remediationNumeral name = none := by
  unfold remediationNumeral
  rw [dif_neg]
  rintro ⟨-, hname⟩
  rw [hname] at h
  exact h rfl

lemma remediationNumeral_archiveName (files : Files) : remediationNumeral (archiveName files) = none := by
  have hhead (rest : List Char) : ("plan-superseded-".toList ++ rest).head? ≠ some 'r' := by
    rw [head?_append_of_ne_nil _ (by decide)]
    decide
  refine remediationNumeral_eq_none ?_
  change ("plan-superseded-" ++ Duration.padded 3 _ ++ ".json").toList.head? ≠ some 'r'
  rw [String.append_assoc, String.toList_append]
  exact hhead _

lemma loadRemediations_insert (storage : Storage) (dir : Directory) {name : String}
    (h : remediationNumeral name = none) (data : List UInt8) (projectID : String) :
    storage.loadRemediations { dir with files := dir.files.insert name data } projectID =
      storage.loadRemediations dir projectID := by
  have hfiles : Directory.documentFiles { dir with files := dir.files.insert name data } = dir.documentFiles :=
    Files.matching_insert_of_none h data
  rw [Storage.loadRemediations, hfiles]
  rfl

section Change
variable {storage : Storage} {change : PlanChange} {archived installed : Option String}
  {dir dir' : Directory} {intent : Intent} {standing next : DeliveryPlan} {st : Status}

lemma replacePlan_eq_none {existing : List UInt8} (hplan : dir.files.lookup planName = some existing)
    (h : storage.replacePlan change archived installed dir next = (dir', none)) :
    ∃ data, marshalPlan next = some data ∧ dir'.files.lookup planName = some data ∧
      ∀ projectID, storage.loadRemediations dir' projectID = storage.loadRemediations dir projectID := by
  unfold Storage.replacePlan at h
  rw [hplan] at h
  dsimp only at h
  split at h
  · cases h
  split at h
  · cases h
  · next data hdata =>
    split at h
    · cases h
    · cases h
      refine ⟨data, hdata, AList.lookup_insert _, fun projectID => ?_⟩
      exact (loadRemediations_insert storage _ (remediationNumeral_eq_none (by decide)) _ _).trans
        (loadRemediations_insert storage dir (remediationNumeral_archiveName _) _ _)

variable {data : List UInt8}

lemma decodePlan_bare (h : decodePlan data = some p) : p.remediations = [] ∧ p.provisional = false := by
  obtain ⟨value, -, h⟩ := Option.bind_eq_some_iff.mp h
  obtain ⟨j, -, hdecode⟩ := Option.bind_eq_some_iff.mp h
  refine strict_decode_keeps (P := fun p => p.remediations = [] ∧ p.provisional = false) ?_ ⟨rfl, rfl⟩ hdecode
  intro f hf q j q' hq hbare
  simp only [planFields, mem_cons, not_mem_nil, or_false] at hf
  rcases hf with rfl | rfl | rfl | rfl | rfl <;>
  · obtain ⟨x, -, rfl⟩ := Option.map_eq_some_iff.mp hq
    exact hbare

lemma decodePlanWithRemediations_eq_ok {rms : List Remediation} :
    storage.decodePlanWithRemediations data intent rms = .ok p ↔
      ∃ q, decodePlan data = some q ∧ p = { q with remediations := rms } ∧ p.Accepted storage.toLower intent := by
  unfold Storage.decodePlanWithRemediations
  split
  · next hnone => simp [hnone]
  · next q hq =>
    rw [bind_eq_ok, hq]
    constructor
    · rintro ⟨_, hvalid, ⟨⟩⟩
      exact ⟨q, rfl, rfl, DeliveryPlan.validate_eq_ok_iff.mp hvalid⟩
    · rintro ⟨_, ⟨⟩, rfl, haccepted⟩
      exact ⟨(), DeliveryPlan.validate_eq_ok_iff.mpr haccepted, rfl⟩

lemma loadPlan_eq_some : storage.loadPlan dir intent = .ok (some p) ↔
    ∃ data rms q, dir.files.lookup planName = some data ∧
      storage.loadRemediations dir intent.projectID = .ok rms ∧ decodePlan data = some q ∧
      p = { q with remediations := rms } ∧ p.Accepted storage.toLower intent := by
  unfold Storage.loadPlan
  split
  · next hnone => simp [hnone]
  · next data hdata =>
    simp only [bind_eq_ok, mapError_eq_ok, decodePlanWithRemediations_eq_ok, hdata]
    constructor
    · rintro ⟨rms, hrms, p', ⟨q, hq, rfl, haccepted⟩, ⟨⟩⟩
      exact ⟨data, rms, q, rfl, hrms, hq, rfl, haccepted⟩
    · rintro ⟨_, rms, q, ⟨⟩, hrms, hq, rfl, haccepted⟩
      exact ⟨rms, hrms, _, ⟨q, hq, rfl, haccepted⟩, rfl⟩

lemma eq_of_packagesIdentical {a b : WorkPackage} (h : packagesIdentical a b = true) : a = b := by
  unfold packagesIdentical at h
  split at h
  · next x y ha hb =>
    have hread (wp : WorkPackage) {bs : List UInt8} (hbs : marshal packageCodec wp = some bs) :
        unmarshal packageCodec bs = some wp := unmarshal_marshal (by decide) (faithful_package wp) hbs
    have hxy : x = y := of_decide_eq_true h
    subst hxy
    exact Option.some.inj ((hread a ha).symm.trans (hread b hb))
  · cases h

lemma kept_of_checkAmendment (h : checkAmendment standing next st = .ok ()) (hwp : wp ∈ standing.packages) :
    ∃ wp' ∈ next.packages, wp'.id = wp.id ∧ (wp.id ∈ st.merged → wp' = wp) := by
  have hall := forM_eq_ok.mp (refusal_bind_eq_ok (refusal_bind_eq_ok h)) wp hwp
  unfold checkAmended at hall
  split at hall
  · cases hall
  · next replacement hreplacement =>
    obtain ⟨_, ⟨before, after, hlist, hid, -⟩, rfl⟩ := GoMap.get?_indexBy_eq_some.mp hreplacement
    refine ⟨_, hlist ▸ by simp, hid, fun hmerged => ?_⟩
    split_ifs at hall with hchanged
    have hidentical := not_and.mp hchanged hmerged
    rw [Bool.not_eq_true', Bool.not_eq_false] at hidentical
    exact (eq_of_packagesIdentical hidentical).symm

lemma merged_of_checkSuperseded (h : checkSuperseded next st = .ok ()) : st.merged = [] := by
  have hrest := refusal_bind_eq_ok (refusal_bind_eq_ok (refusal_bind_eq_ok h))
  have hcomplete := not_of_refusal_bind hrest
  have hgate : ¬ st.evidence.gateNotMet ≠ [] := by
    intro hne
    have hlast := refusal_bind_eq_ok hrest
    rw [if_pos hne] at hlast
    cases hlast
  rw [Status.merged, not_not.mp hcomplete, not_not.mp hgate, append_nil]

/-- What a plan after a change keeps of the one before: every package with merge evidence as it is and, under an
amendment, every package by its id. -/
structure PlanChange.Keeps (change : PlanChange) (st : Status) (standing p : DeliveryPlan) : Prop where
  merged : ∀ wp ∈ standing.allPackages, wp.id ∈ st.merged → wp ∈ p.allPackages
  named : change = .amend → ∀ wp ∈ standing.allPackages, wp.id ∈ p.allPackages.map WorkPackage.id

lemma PlanChange.keeps_of_check (h : change.check standing next st = .ok ()) :
    change.Keeps st standing { next with remediations := standing.remediations } := by
  constructor
  · intro wp hwp hmerged
    rcases mem_append.mp hwp with hbase | hlive
    · cases change with
      | amend =>
        obtain ⟨wp', hwp', -, hsame⟩ := kept_of_checkAmendment h hbase
        exact mem_append_left _ (hsame hmerged ▸ hwp')
      | supersede =>
        rw [merged_of_checkSuperseded h] at hmerged
        cases hmerged
    · exact mem_append_right _ hlive
  · rintro rfl wp hwp
    rw [DeliveryPlan.allPackages_eq, map_append]
    rcases mem_append.mp hwp with hbase | hlive
    · obtain ⟨wp', hwp', hid, -⟩ := kept_of_checkAmendment h hbase
      exact mem_append_left _ (hid ▸ mem_map_of_mem hwp')
    · exact mem_append_right _ (mem_map_of_mem hlive)

lemma loadPlan_changePlan (hload : storage.loadPlan dir intent = .ok (some standing))
    (hnext : next.Accepted storage.toLower intent) (hnone : next.remediations = []) (hfinal : next.provisional = false)
    (hinstall : storage.changePlan change archived installed dir standing next st = (dir', none))
    (p : DeliveryPlan) : storage.loadPlan dir' intent = .ok (some p) ↔
      p = { next with remediations := standing.remediations } ∧ p.Accepted storage.toLower intent := by
  obtain ⟨data, rms, q, hdata, hrms, -, hstanding, -⟩ := loadPlan_eq_some.mp hload
  unfold Storage.changePlan at hinstall
  split at hinstall
  · cases hinstall
  obtain ⟨data', hmarshal, hlookup, hsame⟩ := replacePlan_eq_none hdata hinstall
  have hdecode : decodePlan data' = some next := decode_plan (by rw [hnext.version]; decide) hnone hfinal hmarshal
  have hrms' : standing.remediations = rms := by rw [hstanding]
  rw [loadPlan_eq_some, hsame, hrms, hlookup, hrms']
  constructor
  · rintro ⟨_, _, _, ⟨⟩, ⟨⟩, hq, rfl, hp⟩
    rw [hdecode] at hq
    cases hq
    exact ⟨rfl, hp⟩
  · rintro ⟨rfl, hp⟩
    exact ⟨data', rms, next, rfl, rfl, hdecode, rfl, hp⟩

lemma accepted_of_staticPlan {raw : List UInt8} (h : storage.staticPlan raw intent = .ok next) :
    next.Accepted storage.toLower intent ∧ next.remediations = [] ∧ next.provisional = false := by
  obtain ⟨q, hq, rfl, haccepted⟩ := decodePlanWithRemediations_eq_ok.mp (mapError_eq_ok.mp h)
  exact ⟨haccepted, rfl, (decodePlan_bare hq).2⟩

end Change

/-- **Whether a plan change wedges a delivery.**  Where the plan of a delivery is loaded, joined with its
remediations, and a replacement that the planner accepts is installed, the plan is loaded again, with everything in
it that has to be there, exactly when the replacement joins the remediations.  What is loaded keeps the work of the
standing plan in any case. -/
theorem plan_change_loads (storage : Storage) (dir : Directory) (intent : Intent) (standing : DeliveryPlan)
    (hload : storage.loadPlan dir intent = .ok (some standing)) (raw : List UInt8) (next : DeliveryPlan)
    (hplanner : storage.staticPlan raw intent = .ok next) (change : PlanChange)
    (archived installed : Option String) (st : Status) (dir' : Directory)
    (hinstall : storage.changePlan change archived installed dir standing next st = (dir', none)) :
    ((∃ p, storage.loadPlan dir' intent = .ok (some p) ∧ change.Keeps st standing p) ↔
      next.Joins storage.toLower intent standing.remediations) ∧
    ∀ p, storage.loadPlan dir' intent = .ok (some p) → change.Keeps st standing p := by
  obtain ⟨_, _, _, -, -, -, -, hstanding⟩ := loadPlan_eq_some.mp hload
  obtain ⟨hnext, hnone, hfinal⟩ := accepted_of_staticPlan hplanner
  have hloaded := loadPlan_changePlan hload hnext hnone hfinal hinstall
  have hkeeps : change.Keeps st standing { next with remediations := standing.remediations } := by
    unfold Storage.changePlan at hinstall
    split at hinstall
    · cases hinstall
    · next _ hcheck => exact PlanChange.keeps_of_check hcheck
  refine ⟨?_, fun p hp => ((hloaded p).mp hp).1 ▸ hkeeps⟩
  rw [← accepted_join_iff hstanding hnext hnone hfinal]
  constructor
  · rintro ⟨p, hp, -⟩
    obtain ⟨rfl, haccepted⟩ := (hloaded p).mp hp
    exact haccepted
  · exact fun haccepted => ⟨_, (hloaded _).mpr ⟨rfl, haccepted⟩, hkeeps⟩

/-! ## An amendment of a repaired delivery -/

/-- The plan document of the delivery. -/
def plannedDirectory : Directory where
  files := AList.insert planName ((marshalPlan loadPlan).getD []) ∅
  record := some disprovedRecord

/-- The directory after the criterion was repaired by a package `fix`. -/
def fixedDirectory : Directory :=
  (plainStorage.authorizeRemediation {} plannedDirectory disprovedRecord loadPlan {} proposedFix "owner" Time.zero).1

def fixedPlan : DeliveryPlan :=
  { loadPlan with remediations := [Record.stamp [] proposedFix "owner" Time.zero] }

variable (id : String)

/-- The plan with one package more. -/
def extendedPlan : DeliveryPlan :=
  { loadPlan with packages := [sharedPackage "load" [], sharedPackage id ["load"]] }

def mergedStatus : Status where
  projectID := "shop"
  state := .blocked
  evidence := { completePackages := ["load"] }

/-- The amendment of the plan by one package. -/
def extendPlan : Directory × Option String :=
  plainStorage.changePlan .amend none none fixedDirectory fixedPlan (extendedPlan id) mergedStatus

lemma decodePlan_getD (hversion : IsInt64 p.schemaVersion) (hnone : p.remediations = [])
    (hfinal : p.provisional = false) (hwritten : (marshalPlan p).isSome) :
    decodePlan ((marshalPlan p).getD []) = some p := by
  obtain ⟨data, hdata⟩ := Option.isSome_iff_exists.mp hwritten
  rw [hdata]
  exact decode_plan hversion hnone hfinal hdata

lemma loadPlan_fixedDirectory : plainStorage.loadPlan fixedDirectory sharedIntent = .ok (some fixedPlan) := by
  have hok : (plainStorage.authorizeRemediation {} plannedDirectory disprovedRecord loadPlan {} proposedFix
      "owner" Time.zero).2 = .ok (Record.stamp [] proposedFix "owner" Time.zero) := by decide +kernel
  have hauthorized : plainStorage.authorizeRemediation {} plannedDirectory disprovedRecord loadPlan {} proposedFix
      "owner" Time.zero = (fixedDirectory, .ok (Record.stamp [] proposedFix "owner" Time.zero)) :=
    Prod.ext rfl hok
  have hload : plainStorage.loadRemediations plannedDirectory "shop" = .ok [] := by rfl
  have hrecord : loadRecord plainStorage.toSite plannedDirectory.record "shop" = .ok (some disprovedRecord) := rfl
  obtain ⟨-, hrms, -⟩ := loadRemediations_authorized (n := 0) hrecord hload rfl (by decide)
    ⟨by decide, by decide, by decide⟩ hauthorized
  obtain ⟨-, _, data, _, -, -, hleft⟩ := authorizeRemediation_eq_ok hauthorized
  have hplan : fixedDirectory.files.lookup planName = some ((marshalPlan loadPlan).getD []) := by
    rw [hleft.left, AList.lookup_insert_ne (by decide)]
    exact AList.lookup_insert _
  exact loadPlan_eq_some.mpr ⟨_, _, loadPlan, hplan, hrms,
    decodePlan_getD (by decide) rfl rfl (by decide +kernel), rfl,
    DeliveryPlan.validate_eq_ok_iff.mp (by decide +kernel)⟩

lemma staticPlan_extendedPlan (hvalid : (extendedPlan id).validate Char.toLower sharedIntent = .ok ())
    (hwritten : (marshalPlan (extendedPlan id)).isSome) :
    plainStorage.staticPlan ((marshalPlan (extendedPlan id)).getD []) sharedIntent = .ok (extendedPlan id) :=
  mapError_eq_ok.mpr (decodePlanWithRemediations_eq_ok.mpr ⟨extendedPlan id,
    decodePlan_getD (show IsInt64 1 by decide) rfl rfl hwritten, rfl, DeliveryPlan.validate_eq_ok_iff.mp hvalid⟩)

/-- A package of a new name can be added. -/
theorem plan_change_loads_docs : ∃ p, plainStorage.loadPlan (extendPlan "docs").1 sharedIntent = .ok (some p) ∧
      PlanChange.amend.Keeps mergedStatus fixedPlan p := by
  have hplanner := staticPlan_extendedPlan "docs" (by decide +kernel) (by decide +kernel)
  have hinstall : (extendPlan "docs").2 = none := by decide +kernel
  have hpair : extendPlan "docs" = ((extendPlan "docs").1, none) := by rw [← hinstall]
  refine (plan_change_loads plainStorage fixedDirectory sharedIntent fixedPlan loadPlan_fixedDirectory _ _ hplanner
    .amend none none mergedStatus _ hpair).1.mpr ⟨?_, ?_, ?_, ?_⟩
  all_goals decide +kernel

/-- Nothing tells that the name of the corrective package is taken.  The amendment is installed, and from then on
the plan of the delivery is not loaded any more. -/
theorem amendment_wedges : plainStorage.loadPlan fixedDirectory sharedIntent = .ok (some fixedPlan) ∧
      plainStorage.staticPlan ((marshalPlan (extendedPlan "fix")).getD []) sharedIntent = .ok (extendedPlan "fix") ∧
      (extendPlan "fix").2 = none ∧
      ∀ p, plainStorage.loadPlan (extendPlan "fix").1 sharedIntent ≠ .ok (some p) := by
  have hplanner := staticPlan_extendedPlan "fix" (by decide +kernel) (by decide +kernel)
  have hinstall : (extendPlan "fix").2 = none := by decide +kernel
  have hpair : extendPlan "fix" = ((extendPlan "fix").1, none) := by rw [← hinstall]
  refine ⟨loadPlan_fixedDirectory, hplanner, hinstall, fun p hp => ?_⟩
  obtain ⟨hnext, hnone, hfinal⟩ := accepted_of_staticPlan hplanner
  obtain ⟨rfl, haccepted⟩ := (loadPlan_changePlan loadPlan_fixedDirectory hnext hnone hfinal hpair p).mp hp
  exact absurd haccepted.ids_nodup (by decide)

end DeliveryEngine.Handoff
