import DeliveryEngine.Handoff.Assess
import DeliveryEngine.Handoff.CompiledWork

/-!
# Supersession

A remediation may replace corrective work of an earlier one, by id.  Validation looks at the ids that are left, so an
id that was superseded can be used again, and the package that uses it is left out as well.  `live_iff` says which
packages of a remediation are work of the delivery.
-/

namespace DeliveryEngine.Handoff

open Go List

/-! ## What the validator checks -/

variable {base earlier : List String}

lemma checkSupersedes_eq_nil_iff {i : ℕ} {here ids : List String} :
    checkSupersedes base earlier i here ids = [] ↔ ids.Nodup ∧ ∀ id ∈ ids, id ∉ here ∧ id ∉ base ∧ id ∈ earlier := by
  induction ids generalizing here with
  | nil => simp [checkSupersedes]
  | cons id ids ih =>
    rw [checkSupersedes, append_eq_nil_iff, ih, nodup_cons, forall_mem_cons]
    split_ifs with hhere hbase hearlier
    · simp [hhere]
    · simp [hbase]
    · constructor
      · rintro ⟨-, hnodup, hall⟩
        refine ⟨⟨fun hmem => (hall id hmem).1 mem_cons_self, hnodup⟩, ⟨hhere, hbase, hearlier⟩, fun x hx => ?_⟩
        exact ⟨fun hmem => (hall x hx).1 (mem_cons_of_mem _ hmem), (hall x hx).2⟩
      · rintro ⟨⟨hnew, hnodup⟩, -, hall⟩
        refine ⟨rfl, hnodup, fun x hx => ⟨fun hmem => ?_, (hall x hx).2⟩⟩
        rcases mem_cons.mp hmem with rfl | hmem
        · exact hnew hx
        · exact (hall x hx).1 hmem
    · simp [hearlier]

lemma checkSupersessions_eq_nil_iff {i : ℕ} {rms : List Remediation} : checkSupersessions base i earlier rms = [] ↔
      checkSupersessions [] i earlier rms = [] ∧ ∀ id ∈ rms.flatMap Remediation.supersedes, id ∉ base := by
  induction rms generalizing i earlier with
  | nil => simp [checkSupersessions]
  | cons rm rms ih =>
    rw [checkSupersessions, checkSupersessions, append_eq_nil_iff, append_eq_nil_iff, ih,
      checkSupersedes_eq_nil_iff, checkSupersedes_eq_nil_iff, flatMap_cons]
    simp only [forall_mem_append]
    constructor
    · rintro ⟨⟨hnodup, hown⟩, hrest, hbase⟩
      exact ⟨⟨⟨hnodup, fun id hid => ⟨(hown id hid).1, not_mem_nil, (hown id hid).2.2⟩⟩, hrest⟩,
        fun id hid => (hown id hid).2.1, hbase⟩
    · rintro ⟨⟨⟨hnodup, hown⟩, hrest⟩, hownbase, hbase⟩
      exact ⟨⟨hnodup, fun id hid => ⟨(hown id hid).1, hownbase id hid, (hown id hid).2.2⟩⟩, hrest, hbase⟩

lemma DeliveryPlan.Accepted.notMem_of_superseded {toLower : Char → Char} {intent : Intent}
    {p : DeliveryPlan} (h : p.Accepted toLower intent) {id : String} (hid : id ∈ p.superseded) :
    id ∉ p.allPackages.map WorkPackage.id := by
  rw [DeliveryPlan.allPackages, map_append, mem_append, not_or]
  refine ⟨(checkSupersessions_eq_nil_iff.mp h.supersession).2 id hid, fun hmem => ?_⟩
  obtain ⟨wp, hwp, rfl⟩ := mem_map.mp hmem
  obtain ⟨rm, -, hlive⟩ := mem_flatMap.mp hwp
  exact (by simpa using (mem_filter.mp hlive).2 : wp.id ∉ p.superseded) hid

/-! ## Live work -/

/-- A package of a remediation is work of the delivery: it is among the packages, compiled, required for
completion, and counted as an answer to the findings the remediation repairs. -/
structure DeliveryPlan.LiveWork (p : DeliveryPlan) (rm : Remediation) (wp : WorkPackage) : Prop where
  listed : wp ∈ p.allPackages
  compiled : wp ∈ orderPackages p
  required : wp.id ∈ required p
  counted : ∀ criterionID seq, rm.repairsInvalidation criterionID seq = true →
    criterionID ∈ wp.satisfies → wp.id ∈ repairedBy p criterionID seq

/-- A package of a remediation that no later remediation supersedes is work of the delivery exactly when
neither its own remediation nor an earlier one supersedes its id. -/
theorem live_iff (toLower : Char → Char) (intent : Intent) (p : DeliveryPlan)
    (hvalid : p.validate toLower intent = .ok ()) {before later : List Remediation} {rm : Remediation}
    (hremediations : p.remediations = before ++ rm :: later) {wp : WorkPackage} (hwp : wp ∈ rm.packages)
    (hlater : ∀ next ∈ later, wp.id ∉ next.supersedes) :
    p.LiveWork rm wp ↔ ∀ prior ∈ before ++ [rm], wp.id ∉ prior.supersedes := by
  have haccepted := DeliveryPlan.validate_eq_ok_iff.mp hvalid
  have hrm : rm ∈ p.remediations := by
    rw [hremediations]
    simp
  have hsuperseded : wp.id ∉ p.superseded ↔ ∀ prior ∈ before ++ [rm], wp.id ∉ prior.supersedes := by
    have hall : wp.id ∉ p.superseded ↔ ∀ prior ∈ before ++ [rm] ++ later, wp.id ∉ prior.supersedes := by
      rw [DeliveryPlan.superseded, hremediations, mem_flatMap]
      simp
    rw [hall, forall_mem_append]
    exact and_iff_left hlater
  rw [← hsuperseded]
  constructor
  · intro hlive hmem
    exact haccepted.notMem_of_superseded hmem (mem_map_of_mem hlive.listed)
  · intro hnot
    have hlive : wp ∈ p.live rm := mem_filter.mpr ⟨hwp, by simpa using hnot⟩
    have hlisted : wp ∈ p.allPackages := mem_append_right _ (mem_flatMap.mpr ⟨rm, hrm, hlive⟩)
    refine ⟨hlisted, (orderPackages_perm haccepted).mem_iff.mpr hlisted, ?_, ?_⟩
    · exact mem_sortStrings.mpr (mem_map_of_mem hlisted)
    · intro criterionID seq hrepairs hclaims
      exact mem_repairedBy.mpr ⟨rm, hrm, hrepairs, wp, hlive, hclaims, rfl⟩

/-- A package that changes one file and claims the criterion. -/
def fixPackage (id : String) : WorkPackage where
  id := id
  title := id
  phase := "build"
  objective := "Repair the application."
  artifact := "src/app.go"
  authorizedPaths := ["src/app.go"]
  gates := ["go test ./..."]
  satisfies := ["ac-1"]

/-- A remediation that answers a finding with one package. -/
def fixing (seq : ℤ) (id : String) (supersedes : List String) : Remediation where
  projectID := "shop"
  seq := seq
  repairs := [⟨"ac-1", seq⟩]
  authorizedBy := "owner"
  packages := [fixPackage id]
  supersedes := supersedes

/-- Two remediations, of which the second replaces what the first one added. -/
def replacedPlan (id : String) : DeliveryPlan where
  projectID := "shop"
  packages := [fixPackage "load"]
  remediations := [fixing 1 "fix-1" [], fixing 2 id ["fix-1"]]

theorem live_iff_replaced : (replacedPlan "fix-2").LiveWork (fixing 2 "fix-2" ["fix-1"]) (fixPackage "fix-2") := by
  have hremediations : (replacedPlan "fix-2").remediations =
      [fixing 1 "fix-1" []] ++ fixing 2 "fix-2" ["fix-1"] :: [] := rfl
  exact (live_iff Char.toLower shopIntent (replacedPlan "fix-2") (by decide +kernel) hremediations
    mem_cons_self (by simp)).mpr (by decide)

/-- The second remediation replaces a package by one of the same id.  The plan is accepted, nothing later
supersedes the package, and it is not work of the delivery. -/
theorem own_package_withdrawn : (replacedPlan "fix-1").validate Char.toLower shopIntent = .ok () ∧
      (replacedPlan "fix-1").remediations = [fixing 1 "fix-1" []] ++ fixing 2 "fix-1" ["fix-1"] :: [] ∧
      fixPackage "fix-1" ∈ (fixing 2 "fix-1" ["fix-1"]).packages ∧
      fixPackage "fix-1" ∉ (replacedPlan "fix-1").allPackages ∧
      repairedBy (replacedPlan "fix-1") "ac-1" 2 = [] := by
  decide +kernel

end DeliveryEngine.Handoff
