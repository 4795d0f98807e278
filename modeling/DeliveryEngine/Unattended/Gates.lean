import DeliveryEngine.Go.Map
import DeliveryEngine.Go.Text
import DeliveryEngine.Go.Time
import DeliveryEngine.Go.Vocabulary
import Mathlib.Data.List.Dedup

/-!
# The mechanical QA contract

`requiredGates` resolves risk and policy into the gates that must pass; every gate leaves `GateEvidence` bound to the
revision it examined; `evaluateProgression` permits progression only on passing evidence for the revision in hand.  An
entry of the ledger is the worst of the observations made since the gate last looked at another revision
(`accounts_observe`), and knows nothing of those before.
-/

namespace DeliveryEngine.Unattended

open Go List

/-! ## Risk classes and the gate catalogue -/

/-- The four declared risk classes. -/
inductive RiskName
  | q0
  | q1
  | q2
  | q3
  deriving DecidableEq

instance : Vocabulary RiskName where
  all := [.q0, .q1, .q2, .q3]
  text
    | .q0 => "Q0"
    | .q1 => "Q1"
    | .q2 => "Q2"
    | .q3 => "Q3"
  mem_all := by rintro ⟨⟩ <;> decide
  nodup := by decide

/-- How much the packet's change can hurt if it is wrong. -/
abbrev RiskClass := Named RiskName

namespace RiskClass

/-- Whether the class is one of the declared four. -/
def valid (r : RiskClass) : Bool := r.isKnown

/-- The order of the risk classes.  An undeclared class ranks above every declared one, so it
acquires every gate. -/
def rank : RiskClass → ℕ
  | .known .q0 => 0
  | .known .q1 => 1
  | .known .q2 => 2
  | .known .q3 => 3
  | .other _ _ => 4

end RiskClass

/-- The declared classes in ascending order of risk. -/
def riskClasses : List RiskClass := [.known .q0, .known .q1, .known .q2, .known .q3]

/-- A catalogue entry: a gate and the risk at which it stops being optional. -/
structure GateDefinition where
  id : String
  title : String
  minRisk : RiskClass

def gateBuild : String := "build"
def gateUnitTest : String := "unit-test"
def gateStaticAnalysis : String := "static-analysis"
def gateControlSafety : String := "control-safety"

/-- The whole of the mandatory-gate policy. -/
def gateCatalogue : List GateDefinition :=
  [⟨gateBuild, "the packet's code builds", .known .q1⟩,
    ⟨gateUnitTest, "the packet's automated tests pass", .known .q1⟩,
    ⟨gateStaticAnalysis, "the packet passes static examination", .known .q2⟩,
    ⟨gateControlSafety, "the packet's autonomous behavior is mechanically examined", .known .q3⟩]

/-- The catalogue entry of a gate. -/
def lookupGate (id : String) : Option GateDefinition := gateCatalogue.find? (·.id = id)

/-- The packet's half of gate selection.  It can only add gates. -/
structure QAPolicy where
  requireGates : List String

/-- The mandatory gates of a risk class under a policy, sorted and without repetition. -/
def requiredGates (policy : QAPolicy) (risk : RiskClass) : List String :=
  sortStrings (((gateCatalogue.filter (·.minRisk.rank ≤ risk.rank)).map GateDefinition.id ++
      policy.requireGates).dedup)

/-! ## Evidence -/

/-- What a gate's execution observed. -/
inductive GateResultName
  | pass
  | fail
  | error
  deriving DecidableEq

instance : Vocabulary GateResultName where
  all := [.pass, .fail, .error]
  text
    | .pass => "pass"
    | .fail => "fail"
    | .error => "error"
  mem_all := by rintro ⟨⟩ <;> decide
  nodup := by decide

abbrev GateResult := Named GateResultName

namespace GateResult

/-- The result of a gate that ran to completion and whose condition holds. -/
def pass : GateResult := .known .pass

/-- Whether the result certifies.  A result outside the vocabulary does not. -/
def passed (r : GateResult) : Bool := r = pass

/-- The order in which two verdicts for one revision are folded. -/
def severity : GateResult → ℕ
  | .known .pass => 0
  | .known .fail => 2
  | .known .error => 1
  | .other _ _ => 3

@[simp] lemma severity_eq_zero {r : GateResult} : r.severity = 0 ↔ r = pass := by
  rcases r with ⟨_ | _ | _⟩ | _ <;> simp [severity, pass]

end GateResult

/-- One gate's durable record of what was examined, against which revision, and what came
back. -/
structure GateEvidence where
  gateID : String
  taskID : String
  tool : String
  toolVersion : String
  result : GateResult
  observedAt : Time
  targetSHA : String
  reproduce : List String
  detail : String
  evidencePath : String
  deriving DecidableEq

variable {sha : String}

namespace GateEvidence

/-- The zero value, which reading an absent ledger entry yields. -/
def zero : GateEvidence := ⟨"", "", "", "", Named.ofText "", Time.zero, "", [], "", ""⟩

variable (e : GateEvidence) (targetSHA : String)

/-- Whether this evidence licenses progression for a revision: it is a pass, it names the
revision it examined, and that revision is the one in hand. -/
def certifies : Bool :=
  e.result.passed && trimSpace e.targetSHA ≠ "" && trimSpace targetSHA ≠ "" && e.targetSHA = targetSHA

/-- Whether this evidence examined code other than the revision in hand. -/
def stale : Bool := trimSpace targetSHA ≠ "" && trimSpace e.targetSHA ≠ "" && e.targetSHA ≠ targetSHA

lemma certifies_iff {e : GateEvidence} : e.certifies sha = true ↔
      e.result = GateResult.pass ∧ e.targetSHA = sha ∧ trimSpace sha ≠ "" := by
  constructor
  · intro h
    simp only [certifies, GateResult.passed, Bool.and_eq_true, decide_eq_true_eq] at h
    exact ⟨h.1.1.1, h.2, h.1.2⟩
  · rintro ⟨hpass, rfl, hsha⟩
    simp [certifies, GateResult.passed, hpass, hsha]

end GateEvidence

/-- Fold an observed verdict into the one already held for a gate. -/
def mergeEvidence (existing observed : GateEvidence) : GateEvidence :=
  if existing.gateID = "" then observed
  else if existing.targetSHA ≠ observed.targetSHA then observed
  else if existing.result.severity ≥ observed.result.severity then existing
  else observed

/-- The evidence ledger of a packet: the entry of each gate observed so far. -/
abbrev Ledger := GoMap GateEvidence

/-- Record one observation under its gate. -/
def Ledger.record (ledger : Ledger) (observed : GateEvidence) : Ledger :=
  ledger.set observed.gateID (mergeEvidence (ledger.getD observed.gateID GateEvidence.zero) observed)

/-- Fold a sequence of observations into a ledger.  An observation that names no gate is passed
over, as the journal's fold passes over it. -/
def Ledger.observe (ledger : Ledger) (observed : List GateEvidence) : Ledger :=
  observed.foldl (fun l ev => if ev.gateID = "" then l else l.record ev) ledger

/-! ## The progression decision -/

/-- Why a required gate does not permit progression. -/
inductive BlockReason
  | missing
  | failed
  | stale
  | unknownTarget

/-- One blocking gate. -/
structure GateBlock where
  gateID : String
  reason : BlockReason
  result : GateResult := Named.ofText ""
  evidenceSHA : String := ""
  detail : String := ""

/-- The first line of a text, trimmed. -/
def firstLine (s : String) : String := trimSpace (String.ofList (s.toList.takeWhile (· ≠ '\n')))

/-- A revision shortened for a report. -/
def shortSHA (sha : String) : String := String.ofList (sha.toList.take 9)

/-- One block as a report reads it. -/
def GateBlock.text (b : GateBlock) : String :=
  match b.reason with
  | .missing => s!"{b.gateID}: required, and no evidence has been recorded"
  | .stale => s!"{b.gateID}: passed against {shortSHA b.evidenceSHA}, which is not the code in hand"
  | .unknownTarget => s!"{b.gateID}: there is no target revision to certify against"
  | .failed =>
    let detail := if b.detail = "" then "" else " — " ++ firstLine b.detail
    s!"{b.gateID}: recorded {b.result.text} against {shortSHA b.evidenceSHA}{detail}"

/-- The whole answer to whether a packet may progress. -/
structure ProgressionDecision where
  allowed : Bool
  risk : RiskClass
  targetSHA : String
  required : List String
  satisfied : List String
  blocking : List GateBlock

/-- Why progression was refused, or why it was permitted. -/
def ProgressionDecision.reason (d : ProgressionDecision) : String :=
  if !d.allowed && d.required = [] && d.blocking = [] then "no progression decision was recorded"
  else if d.allowed then
    if d.required = [] then s!"risk {d.risk.text} requires no mechanical gate"
    else s!"every gate required at risk {d.risk.text} has passing evidence for " ++
      s!"{shortSHA d.targetSHA}: " ++ joinWith d.required ", "
  else
    s!"{d.blocking.length} of {d.required.length} gate(s) required at risk {d.risk.text} " ++
      "do not permit progression: " ++ joinWith (d.blocking.map GateBlock.text) "; "

/-- What one required gate contributes to the decision: nothing when its evidence certifies the
revision, and a block otherwise. -/
def blockOf (targetSHA : String) (evidence : Ledger) (id : String) : Option GateBlock :=
  match evidence.get? id with
  | none => some { gateID := id, reason := .missing }
  | some ev =>
    if ev.certifies targetSHA then none
    else if !ev.result.passed then
      some { gateID := id, reason := .failed, result := ev.result,
             evidenceSHA := ev.targetSHA, detail := ev.detail }
    else if ev.stale targetSHA then
      some { gateID := id, reason := .stale, result := ev.result, evidenceSHA := ev.targetSHA }
    else some { gateID := id, reason := .unknownTarget, result := ev.result }

/-- Decide whether a packet may progress. -/
def evaluateProgression (policy : QAPolicy) (risk : RiskClass) (targetSHA : String)
    (evidence : Ledger) : ProgressionDecision :=
  let required := requiredGates policy risk
  if required = [] then ⟨true, risk, targetSHA, required, [], []⟩
  else if trimSpace targetSHA = "" then
    ⟨false, risk, targetSHA, required, [], required.map (fun id => { gateID := id, reason := .unknownTarget })⟩
  else
    let blocking := required.filterMap (blockOf targetSHA evidence)
    ⟨blocking = [], risk, targetSHA, required,
      required.filter (fun id => (blockOf targetSHA evidence id).isNone), blocking⟩

variable {evidence : Ledger}

lemma blockOf_eq_none {id : String} : blockOf sha evidence id = none ↔
      ∃ ev, evidence.get? id = some ev ∧ ev.certifies sha = true := by
  cases h : evidence.get? id with
  | none => simp [blockOf, h]
  | some ev =>
    by_cases hc : ev.certifies sha = true
    · simp [blockOf, h, hc]
    · simp only [blockOf, h]
      split_ifs <;> simp [hc]

lemma evaluateProgression_allowed_iff {policy : QAPolicy} {risk : RiskClass} :
    (evaluateProgression policy risk sha evidence).allowed = true ↔
      ∀ id ∈ requiredGates policy risk, ∃ ev, evidence.get? id = some ev ∧ ev.certifies sha = true := by
  unfold evaluateProgression
  dsimp only
  split
  · next hnil => simp [hnil]
  · next hne =>
    obtain ⟨id, hid⟩ := exists_mem_of_ne_nil _ hne
    split
    · next hblank =>
      -- No evidence certifies a blank revision, and some gate is required.
      simp only [Bool.false_eq_true, false_iff]
      intro hall
      obtain ⟨ev, -, hev⟩ := hall id hid
      exact (GateEvidence.certifies_iff.mp hev).2.2 hblank
    · simp only [decide_eq_true_eq, filterMap_eq_nil_iff, blockOf_eq_none]

/-! ## What a ledger entry knows -/

/-- The entry `ev` stands for the last stretch of a gate's observations: those made since the gate
last looked at another revision.  It is one of them and no better than any of them. -/
def Standing (observed : List GateEvidence) (ev : GateEvidence) : Prop :=
  ∃ before since, observed = before ++ since ∧ ev ∈ since ∧
    (∀ o ∈ since, o.targetSHA = ev.targetSHA ∧ o.result.severity ≤ ev.result.severity) ∧
    ∀ o ∈ before.getLast?, o.targetSHA ≠ ev.targetSHA

lemma Standing.singleton (ev : GateEvidence) : Standing [ev] ev :=
  ⟨[], [ev], rfl, mem_singleton_self ev, by simp, by simp⟩

variable {observed : List GateEvidence} {ev : GateEvidence}

lemma Standing.targetSHA_getLast {last : GateEvidence} (h : Standing observed ev)
    (hlast : last ∈ observed.getLast?) : last.targetSHA = ev.targetSHA := by
  obtain ⟨before, since, rfl, hmem, hsince, -⟩ := h
  rw [getLast?_append_of_ne_nil _ (ne_nil_of_mem hmem)] at hlast
  exact (hsince last (mem_of_getLast? hlast)).1

variable {o : GateEvidence}

lemma Standing.merge (h : Standing observed ev) (hid : ev.gateID ≠ "") :
    Standing (observed ++ [o]) (mergeEvidence ev o) := by
  unfold mergeEvidence
  rw [if_neg hid]
  split
  · next hsha =>
    -- Another revision: the stretch starts afresh at `o`.
    refine ⟨observed, [o], rfl, mem_singleton_self o, by simp, ?_⟩
    intro last hlast
    rw [h.targetSHA_getLast hlast]
    exact hsha
  · next hsha =>
    rw [not_not] at hsha
    obtain ⟨before, since, rfl, hmem, hsince, hbefore⟩ := h
    split
    · next hsev =>
      refine ⟨before, since ++ [o], by simp, mem_append_left _ hmem, ?_, hbefore⟩
      intro p hp
      rcases mem_append.mp hp with hp | hp
      · exact hsince p hp
      · rw [mem_singleton.mp hp]
        exact ⟨hsha.symm, hsev⟩
    · next hsev =>
      refine ⟨before, since ++ [o], by simp, by simp, ?_, hsha ▸ hbefore⟩
      intro p hp
      rcases mem_append.mp hp with hp | hp
      · obtain ⟨htarget, hle⟩ := hsince p hp
        exact ⟨htarget.trans hsha, by omega⟩
      · rw [mem_singleton.mp hp]
        exact ⟨rfl, le_refl _⟩

/-- What the entry of a gate knows of the observations made: an absent entry that none was of the
gate, a present one that it stands for those that were. -/
def Accounts (observed : List GateEvidence) (id : String) : Option GateEvidence → Prop
  | none => ∀ o ∈ observed, o.gateID = id → id = ""
  | some ev => id ≠ "" ∧ ev.gateID = id ∧ Standing (observed.filter (·.gateID = id)) ev

lemma Accounts.record {ledger : Ledger} (h : Accounts observed o.gateID (ledger.get? o.gateID))
    (hid : o.gateID ≠ "") :
    Accounts (observed ++ [o]) o.gateID ((ledger.record o).get? o.gateID) := by
  rw [Ledger.record, GoMap.get?_set_self, GoMap.getD]
  cases hget : ledger.get? o.gateID with
  | none =>
    rw [hget] at h
    have hnone : observed.filter (·.gateID = o.gateID) = [] := by
      rw [filter_eq_nil_iff]
      intro p hp hpid
      exact hid (h p hp (by simpa using hpid))
    refine ⟨hid, ?_, ?_⟩
    · simp [mergeEvidence, GateEvidence.zero]
    · simpa [filter_append, hnone, mergeEvidence, GateEvidence.zero] using Standing.singleton o
  | some ev =>
    rw [hget] at h
    obtain ⟨-, hev, hstand⟩ := h
    refine ⟨hid, ?_, ?_⟩
    · simp only [Option.getD_some, mergeEvidence]
      split_ifs <;> first | rfl | exact hev
    · simpa [filter_append] using hstand.merge (o := o) (hev ▸ hid)

lemma Accounts.append_of_ne {id : String} {entry : Option GateEvidence}
    (h : Accounts observed id entry) (ho : o.gateID = id → id = "") :
    Accounts (observed ++ [o]) id entry := by
  cases entry with
  | none =>
    intro p hp hpid
    rcases mem_append.mp hp with hp | hp
    · exact h p hp hpid
    · exact ho (mem_singleton.mp hp ▸ hpid)
  | some ev =>
    obtain ⟨hid, hev, hstand⟩ := h
    have hne : o.gateID ≠ id := fun heq => hid (ho heq)
    exact ⟨hid, hev, by simpa [filter_append, hne] using hstand⟩

lemma accounts_observe (observed : List GateEvidence) (id : String) :
    Accounts observed id ((Ledger.observe ∅ observed).get? id) := by
  induction observed using List.reverseRecOn with
  | nil => simp [Ledger.observe, Accounts]
  | append_singleton observed o ih =>
    have hstep : Ledger.observe ∅ (observed ++ [o]) =
        if o.gateID = "" then Ledger.observe ∅ observed
        else (Ledger.observe ∅ observed).record o := by
      simp [Ledger.observe, foldl_append]
    rw [hstep]
    split
    · next hblank => exact ih.append_of_ne fun h => h ▸ hblank
    · next hid =>
      by_cases heq : o.gateID = id
      · subst heq
        exact ih.record hid
      · rw [Ledger.record, GoMap.get?_set_of_ne _ _ (Ne.symm heq)]
        exact ih.append_of_ne fun h => absurd h heq

lemma Standing.severity_le {before after : List GateEvidence} (h : Standing observed ev)
    (hsplit : observed = before ++ o :: after)
    (hsame : ∀ p ∈ o :: after, p.targetSHA = ev.targetSHA) :
    o.result.severity ≤ ev.result.severity := by
  obtain ⟨early, since, rfl, -, hsince, hearly⟩ := h
  rcases append_eq_append_iff.mp hsplit with ⟨mid, rfl, rfl⟩ | ⟨mid, rfl, hmid⟩
  · exact (hsince o (by simp)).2
  · -- `o` would lie before the stretch, whose predecessor looked at another revision.
    cases mid with
    | nil =>
      rw [nil_append] at hmid
      exact (hsince o (hmid ▸ mem_cons_self)).2
    | cons m mid =>
      have hlast := getLast?_eq_some_getLast (cons_ne_nil m mid)
      have hmem : (m :: mid).getLast (cons_ne_nil m mid) ∈ o :: after := by
        rw [hmid]
        exact mem_append_left _ (getLast_mem _)
      refine absurd (hsame _ hmem) (hearly _ ?_)
      rw [getLast?_append_of_ne_nil _ (cons_ne_nil m mid)]
      rfl

/-- A failed gate stands.  When progression is allowed at a revision on the evidence folded from a
sequence of observations, every observation of a required gate at that revision is a pass, except
those after which the same gate went on to look at another revision. -/
theorem required_gate_passed_of_allowed (policy : QAPolicy) (risk : RiskClass) (sha : String)
    (observed : List GateEvidence)
    (hallowed : (evaluateProgression policy risk sha (Ledger.observe ∅ observed)).allowed = true) :
    ∀ id ∈ requiredGates policy risk, ∀ before o after, observed = before ++ o :: after →
      o.gateID = id → o.targetSHA = sha →
      (∀ p ∈ after, p.gateID = id → p.targetSHA = sha) → o.result = GateResult.pass := by
  rintro id hid before o after rfl hgate rfl hafter
  obtain ⟨ev, hget, hcert⟩ := evaluateProgression_allowed_iff.mp hallowed id hid
  obtain ⟨hpass, hsha, -⟩ := GateEvidence.certifies_iff.mp hcert
  have hacc := accounts_observe (before ++ o :: after) id
  rw [hget] at hacc
  obtain ⟨-, -, hstand⟩ := hacc
  have hfilter : (before ++ o :: after).filter (·.gateID = id) =
      before.filter (·.gateID = id) ++ o :: after.filter (·.gateID = id) := by
    simp [filter_append, hgate]
  have hle := hstand.severity_le hfilter (by
    intro p hp
    rw [hsha]
    rcases mem_cons.mp hp with rfl | hp
    · rfl
    · obtain ⟨hmem, hpid⟩ := mem_filter.mp hp
      exact hafter p hmem (by simpa using hpid))
  rw [hpass] at hle
  exact GateResult.severity_eq_zero.mp (Nat.le_zero.mp hle)

/-- A build observation at a revision, for the runs below. -/
def buildAt (sha : String) (result : GateResult) : GateEvidence :=
  { GateEvidence.zero with gateID := gateBuild, targetSHA := sha, result := result }

/-- A pass before and after, at one revision. -/
theorem required_gate_passed_of_allowed_twice : (evaluateProgression ⟨[gateBuild]⟩ (.known .q0) "r"
        (Ledger.observe ∅ [buildAt "r" .pass, buildAt "r" .pass])).allowed = true ∧
      (buildAt "r" .pass).result = GateResult.pass :=
  ⟨by decide, required_gate_passed_of_allowed ⟨[gateBuild]⟩ (.known .q0) "r"
    [buildAt "r" .pass, buildAt "r" .pass] (by decide) gateBuild (by decide) []
    (buildAt "r" .pass) [buildAt "r" .pass] rfl rfl rfl (by decide)⟩

/-- The exception is real: a failure at `r` is forgotten once the gate has passed at `s`, and a
pass at `r` then allows progression at `r`. -/
theorem failed_gate_forgotten_after_other_revision :
    (evaluateProgression ⟨[gateBuild]⟩ (.known .q0) "r" (Ledger.observe ∅
        [buildAt "r" (.known .fail), buildAt "s" .pass, buildAt "r" .pass])).allowed = true ∧
      gateBuild ∈ requiredGates ⟨[gateBuild]⟩ (.known .q0) ∧
      ∃ o ∈ [buildAt "r" (.known .fail), buildAt "s" .pass, buildAt "r" .pass],
        o.gateID = gateBuild ∧ o.targetSHA = "r" ∧ o.result ≠ GateResult.pass := by
  decide

end DeliveryEngine.Unattended
