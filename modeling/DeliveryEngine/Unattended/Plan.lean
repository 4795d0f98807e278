import DeliveryEngine.Graph.Listing
import DeliveryEngine.Unattended.Failure
import DeliveryEngine.Unattended.Gates

/-!
# The work packet

A `Plan` is the declared work queue of a run, and a `Spec` the project's half of the packet.  Validation collects every
problem before it refuses.  `Plan.valid_of_validate` reads acceptance back as a structure: distinct task ids, needs
that name tasks of the plan, and an order in which every task comes after the tasks it needs.
-/

namespace DeliveryEngine.Unattended

open Go List

/-! ## Tasks and plans -/

/-- The priority tiers, in the order the queue prefers them. -/
inductive BandName
  | primary
  | dependency
  | validation
  | assurance
  | evidence
  | documentation
  | nextStage
  deriving DecidableEq

instance : Vocabulary BandName where
  all := [.primary, .dependency, .validation, .assurance, .evidence, .documentation, .nextStage]
  text
    | .primary => "primary"
    | .dependency => "dependency"
    | .validation => "validation"
    | .assurance => "assurance"
    | .evidence => "evidence"
    | .documentation => "documentation"
    | .nextStage => "next-stage"
  mem_all := by rintro ⟨⟩ <;> decide
  nodup := by decide

/-- The priority tier a task belongs to. -/
abbrev Band := Named BandName

namespace Band

/-- Whether the band is one of the declared seven. -/
def valid (b : Band) : Bool := b.isKnown

/-- The order of the bands.  Lower is preferred. -/
def rank : Band → ℕ
  | .known .primary => 0
  | .known .dependency => 1
  | .known .validation => 2
  | .known .assurance => 3
  | .known .evidence => 4
  | .known .documentation => 5
  | .known .nextStage => 6
  | .other _ _ => 7

end Band

/-- One unit of declared work. -/
structure Task where
  id : String
  title : String := ""
  band : Band := .known .primary
  argv : List String
  needs : List String := []
  requiresChecks : List String := []
  mutates : Bool := false
  maxAttempts : ℤ := 0
  maxResumes : ℤ := 0
  deliveryStatus : String := ""
  completionGate : String := ""
  phase : String := ""
  qaGate : String := ""
  timeoutSeconds : ℤ := 0
  /-- Where the task states its outcome. -/
  resultPath : String := ""
  deriving DecidableEq

/-- The declared work queue of a run. -/
structure Plan where
  runID : String
  risk : RiskClass
  tasks : List Task

namespace Plan

/-- The ids of the plan's tasks, in declaration order. -/
def ids (p : Plan) : List String := p.tasks.map Task.id

end Plan

/-- The project's half of the packet, as far as a run reads it. -/
structure Spec where
  projectID : String
  session : String
  role : String
  classification : List ClassificationRule
  qa : QAPolicy
  stateDir : String
  /-- The origin remote the worktree must have. -/
  expectedOrigin : String := ""

/-! ## Validation of a plan -/

def quoteOrBare (s : String) : String := if s = "unset" then s else quote s

def joinRiskClasses : String := joinWith (riskClasses.map Named.text) ", "

/-- A risk as a refusal prints it. -/
def declaredRisk (risk : RiskClass) : String :=
  quoteOrBare (if trimSpace risk.text = "" then "unset" else risk.text)

variable (tasks : List Task)

def needsListing : List (String × List String) := tasks.map (fun t => (t.id, t.needs))

/-- A readable cycle of the needs graph, or the empty text. -/
def findTaskCycle : String := Listing.findCycle (needsListing tasks)

/-- What is wrong with a task on its own, given the ids seen before it. -/
def checkTask (i : ℕ) (seen : List String) (t : Task) : List String :=
  (if trimSpace t.id = "" then [s!"task[{i}] has no id"]
    else if t.id ∈ seen then [s!"task[{i}] id {quote t.id} is duplicated"] else []) ++
  (if t.argv = [] then [s!"task {quote t.id} has no argv"] else []) ++
  (if t.band.valid then []
    else [s!"task {quote t.id} band {quote t.band.text} is not a declared band"])

variable (seen : List String) (t : Task)

/-- The ids seen once a task has been checked. -/
def seeTask : List String :=
  if trimSpace t.id = "" ∨ t.id ∈ seen then seen else t.id :: seen

def checkTasks : ℕ → List String → List Task → List String
  | _, _, [] => []
  | i, seen, t :: tasks => checkTask i seen t ++ checkTasks (i + 1) (seeTask seen t) tasks

def checkNeed (need : String) : List String :=
  if need = t.id then [s!"task {quote t.id} needs itself"]
  else if need ∈ seen then []
  else [s!"task {quote t.id} needs {quote need}, which is not in this plan"]

namespace Plan

/-- Everything wrong with a plan. -/
def problems (p : Plan) : List String :=
  let risk :=
    if p.risk.valid then []
    else [s!"risk {declaredRisk p.risk} is not a declared class ({joinRiskClasses})"]
  let seen := p.tasks.foldl seeTask []
  let needs := p.tasks.flatMap (fun t => t.needs.flatMap (checkNeed seen t))
  let cycle :=
    if findTaskCycle p.tasks = "" then []
    else ["task dependencies contain a cycle: " ++ findTaskCycle p.tasks]
  risk ++ checkTasks 0 [] p.tasks ++ needs ++ cycle

/-- Refuse a plan that cannot be executed. -/
def validate (p : Plan) : Except String Unit :=
  if p.problems = [] then .ok ()
  else .error ("unattended: work plan is invalid: " ++ joinWith p.problems "; ")

end Plan

/-! ## Validation of the QA declarations -/

def joinGateIDs : String := joinWith (sortStrings (gateCatalogue.map GateDefinition.id)) ", "

/-- The problem with the gate a task declares. -/
def checkQAGate (t : Task) : List String :=
  if t.qaGate = "" ∨ (lookupGate t.qaGate).isSome then []
  else [s!"task {quote t.id} declares qaGate {quote t.qaGate}, " ++ s!"which is not a catalog gate ({joinGateIDs})"]

/-- The catalogue gates the plan's tasks declare, in task order and with repetition. -/
def Plan.declaredGates (plan : Plan) : List String :=
  (plan.tasks.map Task.qaGate).filter (fun id => id ≠ "" ∧ (lookupGate id).isSome)

/-- The tasks that declare a catalogue gate. -/
def Plan.producers (plan : Plan) (gate : String) : List String :=
  (plan.tasks.filter (fun t => t.qaGate = gate ∧ t.qaGate ≠ "" ∧ (lookupGate t.qaGate).isSome)).map Task.id

variable (spec : Spec) (plan : Plan)

/-- Everything wrong with a packet's QA declarations. -/
def qaProblems : List String :=
  let risk :=
    if plan.risk.valid then []
    else [s!"risk {declaredRisk plan.risk} is not a declared class ({joinRiskClasses}) — " ++
      "a packet that does not classify its own risk cannot resolve a gate set"]
  let policy := spec.qa.requireGates.flatMap (fun id =>
    if (lookupGate id).isSome then []
    else [s!"qa.requireGates names {quote id}, which is not a catalog gate ({joinGateIDs})"])
  let claimed := (sortStrings plan.declaredGates.dedup).flatMap (fun id =>
    if (plan.producers id).length ≤ 1 then []
    else [s!"gate {quote id} is claimed by {(plan.producers id).length} tasks " ++
      "(" ++ joinWith (plan.producers id) ", " ++
      ") — two verdicts for one gate is an ambiguous ledger"])
  let uncovered :=
    if plan.risk.valid then
      (requiredGates spec.qa plan.risk).flatMap (fun id =>
        if plan.producers id ≠ [] then []
        else
          [s!"risk {plan.risk.text} requires gate {quote id} (" ++
            ((lookupGate id).map GateDefinition.title).getD "" ++
            ") and no task declares it — " ++
            "the packet cannot produce the evidence it needs to progress"])
    else []
  risk ++ policy ++ plan.tasks.flatMap checkQAGate ++ claimed ++ uncovered

/-- Refuse a packet whose QA information is malformed or incomplete. -/
def validateQAPacket : Except String Unit :=
  if qaProblems spec plan = [] then .ok ()
  else .error ("unattended: the packet's QA declarations are invalid: " ++ joinWith (qaProblems spec plan) "; ")

/-! ## What acceptance establishes -/

lemma map_fst_needsListing : (needsListing tasks).map Prod.fst = tasks.map Task.id := by
  rw [needsListing, map_map]
  rfl

lemma needsListing_append (more : List Task) :
    needsListing (tasks ++ more) = needsListing tasks ++ needsListing more :=
  map_append

variable {seen : List String} {t : Task} {i : ℕ}

lemma checkTask_eq_nil (h : checkTask i seen t = []) :
    trimSpace t.id ≠ "" ∧ t.id ∉ seen ∧ t.argv ≠ [] ∧ t.band.valid = true := by
  unfold checkTask at h
  simp only [append_eq_nil_iff] at h
  obtain ⟨⟨hid, hargv⟩, hband⟩ := h
  refine ⟨fun hblank => ?_, fun hseen => ?_, fun hnil => ?_, ?_⟩
  · simp [hblank] at hid
  · split_ifs at hid
  · simp [hnil] at hargv
  · by_contra hne
    simp [hne] at hband

variable {tasks : List Task}

lemma checkTasks_eq_nil (h : checkTasks i seen tasks = []) : (tasks.map Task.id).Nodup ∧
      (∀ t ∈ tasks, trimSpace t.id ≠ "" ∧ t.id ∉ seen ∧ t.argv ≠ [] ∧ t.band.valid = true) ∧
      ∀ id, id ∈ tasks.foldl seeTask seen ↔ id ∈ tasks.map Task.id ∨ id ∈ seen := by
  induction tasks generalizing i seen with
  | nil => simp
  | cons t tasks ih =>
    rw [checkTasks, append_eq_nil_iff] at h
    obtain ⟨hid, hseen, hargv, hband⟩ := checkTask_eq_nil h.1
    have hsee : seeTask seen t = t.id :: seen := if_neg (by simp [hid, hseen])
    rw [hsee] at h
    obtain ⟨hnodup, hall, hmem⟩ := ih h.2
    refine ⟨nodup_cons.mpr ⟨?_, hnodup⟩, ?_, ?_⟩
    · intro hin
      obtain ⟨u, hu, hueq⟩ := mem_map.mp hin
      exact (hall u hu).2.1 (hueq ▸ mem_cons_self)
    · intro u hu
      rcases mem_cons.mp hu with rfl | hu
      · exact ⟨hid, hseen, hargv, hband⟩
      · obtain ⟨h₁, h₂, h₃⟩ := hall u hu
        exact ⟨h₁, fun hin => h₂ (mem_cons_of_mem _ hin), h₃⟩
    · intro id
      rw [foldl_cons, hsee, hmem, map_cons, mem_cons, mem_cons, or_assoc, or_left_comm]

/-- What `Plan.validate` establishes of the plans it accepts. -/
structure Plan.Valid (p : Plan) : Prop where
  risk_known : p.risk.valid = true
  ids_nodup : p.ids.Nodup
  id_ne : ∀ t ∈ p.tasks, trimSpace t.id ≠ ""
  argv_ne : ∀ t ∈ p.tasks, t.argv ≠ []
  band_known : ∀ t ∈ p.tasks, t.band.valid = true
  needs_mem : ∀ t ∈ p.tasks, ∀ need ∈ t.needs, need ≠ t.id ∧ need ∈ p.ids
  /-- The tasks can be put in an order in which each comes after the tasks it needs. -/
  ordered : ∃ order, ThreeColour.Finished (Listing.waits (needsListing p.tasks))
    (Listing.known (needsListing p.tasks)) order ∧ ∀ id ∈ p.ids, id ∈ order

variable {p : Plan}

lemma Plan.Valid.listing_nodup (h : p.Valid) : ((needsListing p.tasks).map Prod.fst).Nodup := by
  rw [map_fst_needsListing]
  exact h.ids_nodup

lemma Plan.Valid.waits_eq (h : p.Valid) (ht : t ∈ p.tasks) : Listing.waits (needsListing p.tasks) t.id = t.needs :=
  Listing.waits_eq h.listing_nodup (mem_map.mpr ⟨t, ht, rfl⟩)

lemma Plan.Valid.known (h : p.Valid) (ht : t ∈ p.tasks) : Listing.known (needsListing p.tasks) t.id = true :=
  Listing.known_eq_true h.listing_nodup (mem_map.mpr ⟨t, ht, rfl⟩)

lemma Plan.validate_eq_ok_iff : p.validate = .ok () ↔ p.problems = [] := by
  unfold Plan.validate
  split <;> simp_all

lemma Plan.valid_of_validate (h : p.validate = .ok ()) : p.Valid := by
  rw [Plan.validate_eq_ok_iff] at h
  unfold Plan.problems at h
  simp only [append_eq_nil_iff] at h
  obtain ⟨⟨⟨hrisk, htasks⟩, hneeds⟩, hcycle⟩ := h
  obtain ⟨hnodup, hall, hseen⟩ := checkTasks_eq_nil htasks
  refine ⟨?_, hnodup, fun t ht => (hall t ht).1, fun t ht => (hall t ht).2.2.1,
    fun t ht => (hall t ht).2.2.2, ?_, ?_⟩
  · by_contra hne
    simp [hne] at hrisk
  · intro t ht need hneed
    have hnil := flatMap_eq_nil_iff.mp (flatMap_eq_nil_iff.mp hneeds t ht) need hneed
    unfold checkNeed at hnil
    split at hnil
    · cases hnil
    · next hself =>
      split at hnil
      · next hin => exact ⟨hself, by simpa [Plan.ids] using (hseen need).mp hin⟩
      · cases hnil
  · have hnone : findTaskCycle p.tasks = "" := by
      by_contra hne
      simp [hne] at hcycle
    have hfinished := Listing.exists_finished hnone
    rwa [map_fst_needsListing] at hfinished

lemma checkTasks_eq_nil_of (hnodup : (tasks.map Task.id).Nodup)
    (hall : ∀ t ∈ tasks, trimSpace t.id ≠ "" ∧ t.id ∉ seen ∧ t.argv ≠ [] ∧ t.band.valid = true) :
    checkTasks i seen tasks = [] := by
  induction tasks generalizing i seen with
  | nil => rfl
  | cons t tasks ih =>
    obtain ⟨hid, hseen, hargv, hband⟩ := hall t mem_cons_self
    rw [map_cons, nodup_cons] at hnodup
    have hsee : seeTask seen t = t.id :: seen := if_neg (by simp [hid, hseen])
    have hone : checkTask i seen t = [] := by simp [checkTask, hid, hseen, hargv, hband]
    rw [checkTasks, hone, hsee]
    refine ih hnodup.2 fun u hu => ?_
    obtain ⟨h₁, h₂, h₃⟩ := hall u (mem_cons_of_mem _ hu)
    refine ⟨h₁, fun hin => ?_, h₃⟩
    rcases mem_cons.mp hin with heq | hin
    · exact hnodup.1 (heq ▸ mem_map_of_mem hu)
    · exact h₂ hin

theorem Plan.validate_eq_ok_iff_valid : p.validate = .ok () ↔ p.Valid := by
  refine ⟨Plan.valid_of_validate, fun h => ?_⟩
  have htasks : checkTasks 0 [] p.tasks = [] := checkTasks_eq_nil_of h.ids_nodup
    (fun t ht => ⟨h.id_ne t ht, not_mem_nil, h.argv_ne t ht, h.band_known t ht⟩)
  have hneeds : p.tasks.flatMap (fun t => t.needs.flatMap (checkNeed (p.tasks.foldl seeTask []) t)) = [] := by
    refine flatMap_eq_nil_iff.mpr fun t ht => flatMap_eq_nil_iff.mpr fun need hneed => ?_
    obtain ⟨hself, hin⟩ := h.needs_mem t ht need hneed
    rw [checkNeed, if_neg hself, if_pos ((checkTasks_eq_nil htasks).2.2 need |>.mpr (.inl hin))]
  have hcycle : findTaskCycle p.tasks = "" := by
    obtain ⟨order, hfinished, hmem⟩ := h.ordered
    refine Listing.findCycle_eq_empty_iff.mpr ⟨order, hfinished, ?_⟩
    rwa [map_fst_needsListing]
  rw [Plan.validate_eq_ok_iff]
  simp [Plan.problems, h.risk_known, htasks, hneeds, hcycle]

end DeliveryEngine.Unattended
