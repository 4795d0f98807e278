import DeliveryEngine.Handoff.Isolation
import DeliveryEngine.Handoff.Record
import DeliveryEngine.Runs.Growth

/-!
# The history of a delivery

A `Delivery` is a record together with the remediation documents that have been authorized, and `Delivery.Change` what
one operation can do to it.  Between two operations the projection and the plan may change in any way.
`finding_lifecycle` is the law of whole histories: findings are numbered in order, nothing recorded is lost, and between
two findings against a criterion the first was answered by work that was complete when the second was raised.
-/

namespace DeliveryEngine.Handoff

open Go Runs List

/-- A record, and the remediation documents in sequence. -/
structure Delivery where
  record : Record
  documents : List Remediation

/-- An operation on a delivery. -/
inductive Op
  | accept (criterionID actor note : String) (now : Time)
  | appendRun (runID reason : String) (now : Time)
  /-- The plan document and the projection are those read at that moment. -/
  | invalidate (base : DeliveryPlan) (path : String) (reading : Reading)
      (criterionID actor reason evidence : String) (now : Time)
  | authorize (base : DeliveryPlan) (prior : Evidence) (rm : Remediation) (actor : String) (now : Time)

namespace Delivery

/-- The plan, joined with the remediations. -/
def plan (d : Delivery) (base : DeliveryPlan) : DeliveryPlan :=
  { base with remediations := d.documents }

/-- The assessment of the moment. -/
def evidence (d : Delivery) (base : DeliveryPlan) (path : String) (reading : Reading) : Except String Evidence :=
  assess (d.plan base) d.record.intent (d.record.acceptances.map RecordedAcceptance.toAcceptance)
    d.record.invalidations path reading

section Apply
variable (toLower : Char → Char) (digest : Remediation → String)

/-- Install a remediation and journal it. -/
def authorize (d : Delivery) (base : DeliveryPlan) (prior : Evidence) (rm : Remediation)
    (actor : String) (now : Time) : Except String Delivery := do
  d.record.checkProposal rm actor
  let rm ← d.record.authorization toLower base prior d.documents rm actor now
  return {
    record := d.record.journal (d.documents.map (fun prior => Record.refOf prior (digest prior)))
      (Record.refOf rm (digest rm))
    documents := d.documents ++ [rm] }

/-- Perform an operation. -/
def apply (op : Op) (d : Delivery) : Delivery × Option String :=
  match op with
  | .accept criterionID actor note now =>
    let result := d.record.accept criterionID actor note now
    ({ d with record := result.1 }, result.2)
  | .appendRun runID reason now => ({ d with record := d.record.appendRun runID reason now }, none)
  | .invalidate base path reading criterionID actor reason evidence now =>
    match d.evidence base path reading with
    | .error err => (d, some err)
    | .ok prior =>
      let result := d.record.invalidate criterionID prior actor reason evidence now
      ({ d with record := result.1 }, result.2)
  | .authorize base prior rm actor now =>
    match d.authorize toLower digest base prior rm actor now with
    | .error err => (d, some err)
    | .ok d' => (d', none)

/-- The delivery after the first operations of a history. -/
def after (d : Delivery) (ops : List Op) (k : ℕ) : Delivery :=
  (ops.take k).foldl (fun d op => (d.apply toLower digest op).1) d

end Apply

/-- A delivery that has only just been started. -/
structure Fresh (d : Delivery) : Prop where
  runs : d.record.runs = []
  acceptances : d.record.acceptances = []
  invalidations : d.record.invalidations = []
  remediations : d.record.remediations = []
  documents : d.documents = []

/-! ## One operation -/

/-- What an operation can do. -/
inductive Change (d : Delivery) : Op → Delivery → Prop
  | none {op : Op} : Change d op d
  | accepted {op : Op} (a : RecordedAcceptance) (now : Time) :
      Change d op { d with record := { d.record with
        acceptances := d.record.acceptances ++ [a], updatedAt := now } }
  | ran {op : Op} (x : RunRef) (now : Time) :
      Change d op { d with record := { d.record with
        runs := d.record.runs ++ [x], updatedAt := now } }
  | raised {base : DeliveryPlan} {path : String} {doc : Projection}
      {criterionID actor reason evidence : String} {now : Time} (inv : Invalidation)
      (seq : inv.seq = d.record.invalidations.length + 1) (criterion : inv.criterionID = criterionID)
      (answered : ∀ last, GoMap.Latest Invalidation.criterionID d.record.invalidations criterionID last →
          (d.plan base).Answers criterionID last.seq)
      (complete : ∀ wp ∈ (d.plan base).allPackages, criterionID ∈ wp.satisfies → doc.Complete wp) :
      Change d (.invalidate base path (.document doc) criterionID actor reason evidence now)
        { d with record := { d.record with
          invalidations := d.record.invalidations ++ [inv], updatedAt := now } }
  | authorized {op : Op} (rm : Remediation) (adopted : List RemediationRef) (ref : RemediationRef)
      (repairs : ∀ rep ∈ rm.repairs, ∃ inv ∈ d.record.invalidations,
        inv.criterionID = rep.criterionID ∧ inv.seq = rep.invalidation) :
      Change d op ⟨d.record.journal adopted ref, d.documents ++ [rm]⟩

section Step
variable {toLower : Char → Char} {digest : Remediation → String} {d : Delivery}

lemma met_of_evidence {base : DeliveryPlan} {path : String} {reading : Reading} {prior : Evidence}
    (hcriteria : d.record.intent.criteria.Nodup) (hprior : d.evidence base path reading = .ok prior)
    {c : Criterion} (hc : c ∈ d.record.intent.acceptance) (hown : c.isHuman = false)
    (hmet : c.id ∈ prior.acceptanceMet) :
    ∃ doc, reading = .document doc ∧ (∀ wp ∈ (d.plan base).allPackages, c.id ∈ wp.satisfies → doc.Complete wp) ∧
      ∀ last, GoMap.Latest Invalidation.criterionID d.record.invalidations c.id last →
        (d.plan base).Answers c.id last.seq := by
  obtain ⟨-, rfl⟩ | ⟨doc, rfl, rfl⟩ := assess_cases hprior
  · -- Before anything is published, only what a person answers can be met.
    have hverdict := (mem_withVerdict hcriteria hc _ _).mp hmet
    simp [hown, Verdict.isMet] at hverdict
  · have hverdict := (mem_withVerdict hcriteria hc _ _).mp hmet
    obtain ⟨⟨-, hcomplete⟩, hanswered⟩ := (verdictOn_delivery hown).mp hverdict
    exact ⟨doc, rfl, hcomplete, hanswered⟩

lemma change_apply (hcriteria : d.record.intent.criteria.Nodup) (op : Op) :
    Change d op (d.apply toLower digest op).1 ∧
      ((d.apply toLower digest op).2 ≠ none → (d.apply toLower digest op).1 = d) := by
  cases op with
  | accept criterionID actor note now =>
    obtain ⟨err, h⟩ | ⟨-, h⟩ | ⟨a, -, h⟩ := d.record.accept_cases criterionID actor note now
    · simp only [apply, h]
      exact ⟨.none, fun _ => trivial⟩
    · simp only [apply, h]
      exact ⟨.none, fun _ => trivial⟩
    · simp only [apply, h]
      exact ⟨.accepted a now, fun hne => absurd rfl hne⟩
  | appendRun runID reason now => exact ⟨.ran _ now, fun hne => absurd rfl hne⟩
  | invalidate base path reading criterionID actor reason evidence now =>
    simp only [apply]
    cases hprior : d.evidence base path reading with
    | error err => exact ⟨.none, fun _ => rfl⟩
    | ok prior =>
      obtain ⟨err, h⟩ | ⟨⟨c, hc, rfl, hown⟩, hmet, inv, hseq, hcriterion, h⟩ :=
        d.record.invalidate_cases criterionID prior actor reason evidence now
      · simp only [h]
        exact ⟨.none, fun _ => trivial⟩
      · obtain ⟨doc, rfl, hcomplete, hanswered⟩ := met_of_evidence hcriteria hprior hc hown hmet
        simp only [h]
        exact ⟨.raised inv hseq hcriterion hanswered hcomplete, fun hne => absurd rfl hne⟩
  | authorize base prior rm actor now =>
    simp only [apply]
    cases hresult : d.authorize toLower digest base prior rm actor now with
    | error err => exact ⟨.none, fun _ => rfl⟩
    | ok d' =>
      simp only [authorize, bind_eq_ok] at hresult
      obtain ⟨_, -, rm', hrm', hd'⟩ := hresult
      cases hd'
      exact ⟨.authorized rm' _ _ (Record.repair_of_authorization hrm'), fun hne => absurd rfl hne⟩

end Step

/-! ### What a change keeps -/

private lemma ne_append_singleton {α : Type} (xs : List α) (x : α) : xs ≠ xs ++ [x] := by simp

variable {inv : Invalidation} {rm : Remediation}

namespace Change

variable {d d' : Delivery} {op : Op}

section
variable (h : Change d op d')
include h

lemma intent_eq : d'.record.intent = d.record.intent := by cases h <;> rfl

lemma extends_record : d.record.Extends d'.record := by
  cases h with
  | none => exact .refl _
  | accepted a now => exact { Record.Extends.refl d.record with acceptances := prefix_append _ _ }
  | ran x now => exact { Record.Extends.refl d.record with runs := prefix_append _ _ }
  | raised inv => exact { Record.Extends.refl d.record with invalidations := prefix_append _ _ }
  | authorized rm adopted ref =>
    exact { Record.Extends.refl d.record with remediations := d.record.prefix_journal adopted ref }

lemma invalidations : d'.record.invalidations = d.record.invalidations ∨
      ∃ inv, d'.record.invalidations = d.record.invalidations ++ [inv] := by
  cases h with
  | raised inv => exact .inr ⟨inv, rfl⟩
  | _ => exact .inl rfl

lemma documents : d'.documents = d.documents ∨ ∃ rm, d'.documents = d.documents ++ [rm] := by
  cases h with
  | authorized rm => exact .inr ⟨rm, rfl⟩
  | _ => exact .inl rfl

/-- The operation that appended a finding raised it, against a criterion whose latest finding was answered
and all of whose packages were complete. -/
lemma of_finding (hadded : d'.record.invalidations = d.record.invalidations ++ [inv]) :
    inv.seq = d.record.invalidations.length + 1 ∧ ∃ base path doc actor reason evidence now,
        op = .invalidate base path (.document doc) inv.criterionID actor reason evidence now ∧
        (∀ last, GoMap.Latest Invalidation.criterionID d.record.invalidations inv.criterionID last →
          (d.plan base).Answers inv.criterionID last.seq) ∧
        ∀ wp ∈ (d.plan base).allPackages, inv.criterionID ∈ wp.satisfies → doc.Complete wp := by
  cases h with
  | raised inv' hseq hcriterion hanswered hcomplete =>
    obtain rfl : inv' = inv := by simpa using hadded
    subst hcriterion
    exact ⟨hseq, _, _, _, _, _, _, _, rfl, hanswered, hcomplete⟩
  | _ => exact absurd hadded (ne_append_singleton _ _)

lemma of_document (hadded : d'.documents = d.documents ++ [rm]) : ∀ rep ∈ rm.repairs, ∃ inv ∈ d.record.invalidations,
      inv.criterionID = rep.criterionID ∧ inv.seq = rep.invalidation := by
  cases h with
  | authorized rm' _ _ hrepairs =>
    obtain rfl : rm' = rm := by simpa using hadded
    exact hrepairs
  | _ => exact absurd hadded (ne_append_singleton _ _)

end

end Change

/-! ## Whole histories -/

/-- Every step of a history is a change by one of the operations, or none is left. -/
def Steps (ops : List Op) (history : ℕ → Delivery) : Prop :=
  ∀ k, history (k + 1) = history k ∨ ∃ op, ops[k]? = some op ∧ Change (history k) op (history (k + 1))

section Histories
variable (toLower : Char → Char) (digest : Remediation → String) {d : Delivery} (ops : List Op)

lemma after_succ (k : ℕ) : d.after toLower digest ops (k + 1) = match ops[k]? with
      | none => d.after toLower digest ops k
      | some op => ((d.after toLower digest ops k).apply toLower digest op).1 := by
  rw [after, take_add_one, foldl_append]
  cases ops[k]? <;> rfl

variable (hcriteria : d.record.intent.criteria.Nodup)
include hcriteria

lemma criteria_after (k : ℕ) : (d.after toLower digest ops k).record.intent.criteria.Nodup := by
  induction k with
  | zero => exact hcriteria
  | succ k ih =>
    rw [after_succ]
    split
    · exact ih
    · next op _ =>
      rw [(change_apply ih op).1.intent_eq]
      exact ih

lemma steps_after : Steps ops (d.after toLower digest ops) := by
  intro k
  rw [after_succ toLower digest]
  cases hop : ops[k]? with
  | none => exact .inl rfl
  | some op => exact .inr ⟨op, rfl, (change_apply (criteria_after toLower digest ops hcriteria k) op).1⟩

end Histories

namespace Steps

variable {ops : List Op} {history : ℕ → Delivery} (h : Steps ops history)
include h

lemma extends_record (k : ℕ) : (history k).record.Extends (history (k + 1)).record := by
  obtain heq | ⟨op, -, hchange⟩ := h k
  · rw [heq]
    exact .refl _
  · exact hchange.extends_record

lemma grows_invalidations : Grows (fun k => (history k).record.invalidations) := by
  intro k
  obtain heq | ⟨op, -, hchange⟩ := h k
  · exact .inl (by simp only [heq])
  · exact hchange.invalidations

lemma grows_documents : Grows (fun k => (history k).documents) := by
  intro k
  obtain heq | ⟨op, -, hchange⟩ := h k
  · exact .inl (by simp only [heq])
  · exact hchange.documents

lemma change_of_added {α : Type} {f : Delivery → List α} {k : ℕ} {x : α}
    (hadded : f (history (k + 1)) = f (history k) ++ [x]) :
    ∃ op, ops[k]? = some op ∧ Change (history k) op (history (k + 1)) := by
  refine (h k).resolve_left fun heq => ?_
  rw [heq] at hadded
  exact absurd hadded (ne_append_singleton _ _)

variable (hfresh : (history 0).Fresh) {k i : ℕ}
include hfresh

lemma exists_raised (hinv : (history k).record.invalidations[i]? = some inv) :
    ∃ m < k, (history m).record.invalidations.length = i ∧
      (history (m + 1)).record.invalidations = (history m).record.invalidations ++ [inv] ∧
      ∃ op, ops[m]? = some op ∧ Change (history m) op (history (m + 1)) := by
  obtain ⟨m, hm, hlength, hadded⟩ := h.grows_invalidations.exists_step hfresh.invalidations hinv
  exact ⟨m, hm, hlength, hadded, h.change_of_added (f := fun d => d.record.invalidations) hadded⟩

lemma exists_authorized (hrm : rm ∈ (history k).documents) :
    ∃ n < k, (history (n + 1)).documents = (history n).documents ++ [rm] ∧
      ∃ op, ops[n]? = some op ∧ Change (history n) op (history (n + 1)) := by
  obtain ⟨i, hi⟩ := mem_iff_getElem?.mp hrm
  obtain ⟨n, hn, -, hadded⟩ := h.grows_documents.exists_step hfresh.documents hi
  exact ⟨n, hn, hadded, h.change_of_added (f := documents) hadded⟩

lemma seq_eq (hinv : (history k).record.invalidations[i]? = some inv) : inv.seq = i + 1 := by
  obtain ⟨m, -, hlength, hadded, op, -, hchange⟩ := h.exists_raised hfresh hinv
  rw [(hchange.of_finding hadded).1, hlength]

end Steps

end Delivery

/-- Two findings against one criterion, with none against it between them. -/
def Successive (findings : List Invalidation) (first second : Invalidation) : Prop :=
  ∃ before between after, findings = before ++ first :: between ++ second :: after ∧
    first.criterionID = second.criterionID ∧ ∀ inv ∈ between, inv.criterionID ≠ second.criterionID

open Delivery in
/-- **The life of a finding.**  In every history of a delivery, findings are numbered in order, every
operation only appends to the lists of the record, a refused one leaves the record as it was, and between two
successive findings against a criterion a remediation was authorized for the first.  That remediation has live
packages that claim the criterion, and all of them were complete in the projection against which the second
finding was raised. -/
theorem finding_lifecycle (toLower : Char → Char) (digest : Remediation → String) (d : Delivery)
    (hfresh : d.Fresh) (hcriteria : d.record.intent.criteria.Nodup) (ops : List Op) :
    let history := d.after toLower digest ops
    (∀ k (i : ℕ) inv, (history k).record.invalidations[i]? = some inv → inv.seq = (i : ℤ) + 1) ∧
    (∀ k, (history k).record.Extends (history (k + 1)).record) ∧
    (∀ k op err, ops[k]? = some op → ((history k).apply toLower digest op).2 = some err →
      (history (k + 1)).record = (history k).record) ∧
    ∀ k first second, Successive (history k).record.invalidations first second → ∃ m n l, m < n ∧ n < l ∧
        (history (m + 1)).record.invalidations = (history m).record.invalidations ++ [first] ∧
        (history (l + 1)).record.invalidations = (history l).record.invalidations ++ [second] ∧
        ∃ rm, (history (n + 1)).documents = (history n).documents ++ [rm] ∧
          rm.repairsInvalidation second.criterionID first.seq = true ∧
          ∃ base path doc actor reason evidence now,
            ops[l]? = some (.invalidate base path (.document doc) second.criterionID actor reason evidence now) ∧
            (∃ wp ∈ ((history l).plan base).live rm, second.criterionID ∈ wp.satisfies) ∧
            ∀ wp ∈ ((history l).plan base).live rm, second.criterionID ∈ wp.satisfies → doc.Complete wp := by
  intro history
  have hsteps : Steps ops history := steps_after toLower digest ops hcriteria
  refine ⟨fun k i inv hinv => hsteps.seq_eq hfresh hinv, hsteps.extends_record, ?_, ?_⟩
  · intro k op err hop hrefused
    have hsame := (change_apply (criteria_after toLower digest ops hcriteria k) op).2
      fun hnone => nomatch hrefused.symm.trans hnone
    rw [show history (k + 1) = _ from after_succ toLower digest ops k, hop]
    exact congrArg Delivery.record hsame
  · rintro k first second ⟨before, between, after, hlist, hsame, hbetween⟩
    -- The steps that raised the two findings, and what the second one found.
    have hfirst : (history k).record.invalidations[before.length]? = some first := by
      rw [hlist]
      simp
    have hsecond : (history k).record.invalidations[(before ++ first :: between).length]? = some second := by
      rw [hlist, getElem?_append_right (Nat.le_refl _)]
      simp
    obtain ⟨m, -, hm, haddedm, -⟩ := hsteps.exists_raised hfresh hfirst
    obtain ⟨l, hl, hlength, haddedl, op, hop, hchange⟩ := hsteps.exists_raised hfresh hsecond
    obtain ⟨-, base, path, doc, actor, reason, evidence, now, rfl, hanswered, hcomplete⟩ :=
      hchange.of_finding haddedl
    have hfound : (history l).record.invalidations = before ++ first :: between := by
      have hprefix := hsteps.grows_invalidations.prefix_of_le hl.le
      simp only [hlist] at hprefix
      exact (prefix_of_prefix_length_le hprefix (prefix_append _ _) hlength.le).eq_of_length hlength
    -- The first finding was answered then, by a document installed after it was raised.
    obtain ⟨rm, hrm, hrepairs, wp, hwp, hclaims⟩ := hanswered first
      ⟨before, between, hfound, hsame, hbetween⟩
    obtain ⟨n, hn, haddedn, _, -, hchangen⟩ := hsteps.exists_authorized hfresh hrm
    have hlater : m < n := by
      obtain ⟨rep, hrep, hboth⟩ := any_eq_true.mp hrepairs
      obtain ⟨inv, hinv, -, hseq⟩ := hchangen.of_document haddedn rep hrep
      obtain ⟨i, hi⟩ := mem_iff_getElem?.mp hinv
      have hi' := hsteps.seq_eq hfresh hi
      have hfirst' := hsteps.seq_eq hfresh hfirst
      obtain ⟨-, hnumber⟩ : rep.criterionID = second.criterionID ∧ rep.invalidation = first.seq := by
        simpa using hboth
      refine hsteps.grows_invalidations.lt_of_length_lt ?_
      have hlt := (List.getElem?_eq_some_iff.mp hi).1
      simp only [hm]
      omega
    refine ⟨m, n, l, hlater, hn, haddedm, haddedl, rm, haddedn, hrepairs, base, path, doc, actor, reason,
      evidence, now, hop, ⟨wp, hwp, hclaims⟩, fun wp hwp hclaims => ?_⟩
    exact hcomplete wp (mem_append_right _ (mem_flatMap.mpr ⟨rm, hrm, hwp⟩)) hclaims

/-! ## A criterion disproved twice -/

/-- A delivery that has just been started. -/
def startedDelivery : Delivery where
  record :=
    { projectID := "shop", intent := sharedIntent, intentDigest := "", createdAt := Time.zero
      updatedAt := Time.zero }
  documents := []

def loadPlan : DeliveryPlan where
  projectID := "shop"
  packages := [sharedPackage "load" []]

/-- The projection with packages merged. -/
def mergedReading (ids : List String) : Reading :=
  .document { projectID := "shop", activeTasks := ids.map (fun id => ⟨id, "merged", "met"⟩) }

/-- The criterion is found wanting, repaired, and found wanting again. -/
def disprovedTwice : List Op :=
  [.invalidate loadPlan "STATE.yml" (mergedReading ["load"]) "ac-1" "auditor" "it crashes" "issue 7" Time.zero,
    .authorize loadPlan {}
      { projectID := "shop", seq := 0, repairs := [⟨"ac-1", 1⟩], authorizedBy := ""
        packages := [sharedPackage "fix" []] } "owner" Time.zero,
    .invalidate loadPlan "STATE.yml" (mergedReading ["load", "fix"]) "ac-1" "auditor"
      "it crashes again" "issue 9" Time.zero]

/-- A finding of the history. -/
def crash (seq : ℤ) (reason evidence : String) : Invalidation where
  seq := seq
  criterionID := "ac-1"
  raisedBy := "auditor"
  reason := reason
  evidence := evidence

/-- In this history the second finding was raised after a repair of the first was installed. -/
theorem finding_lifecycle_twice :
    let history := startedDelivery.after Char.toLower (fun _ => "") disprovedTwice
    (history 3).record.invalidations = [crash 1 "it crashes" "issue 7", crash 2 "it crashes again" "issue 9"] ∧
      ∃ n rm, (history (n + 1)).documents = (history n).documents ++ [rm] ∧
        rm.repairsInvalidation "ac-1" 1 = true := by
  have hfindings : (startedDelivery.after Char.toLower (fun _ => "") disprovedTwice 3).record.invalidations
      = [crash 1 "it crashes" "issue 7", crash 2 "it crashes again" "issue 9"] := by decide +kernel
  obtain ⟨-, -, -, hlife⟩ := finding_lifecycle Char.toLower (fun _ => "") startedDelivery
    ⟨rfl, rfl, rfl, rfl, rfl⟩ (by decide) disprovedTwice
  obtain ⟨_, n, _, -, -, -, -, rm, hadded, hrepairs, -⟩ := hlife 3 _ _ ⟨[], [], [], hfindings, rfl, by simp⟩
  exact ⟨hfindings, n, rm, hadded, hrepairs⟩

end DeliveryEngine.Handoff
