import DeliveryEngine.Go.Json.Document
import DeliveryEngine.Handoff.Plan

/-!
# Plans and remediations as documents

A plan and each remediation live in documents of their own.  The fields with their names, in the order in which
they are written; a document that has any other is refused.  What a plan is joined with, and whether it is
provisional, is in no document.

* `decode_remediation` and `decode_plan`: what was written is read back, provided that its numbers fit the
  machine integers that hold them.
-/

namespace DeliveryEngine.Handoff

open Go Go.Json

/-! ## Work packages -/

def verificationFields : List (StructField Verification) :=
  [.of "mergedSha" stringCodec (fun _ => false) (·.mergedSha) (fun v x => { v with mergedSha := x })]

def verificationCodec : Codec Verification := strictCodec ⟨""⟩ verificationFields

lemma faithful_verification (v : Verification) : verificationCodec.Faithful 1 v :=
  faithful_strict (by decide) (by decide) (fills_required rfl rfl (faithful_string _) rfl)

def WorkPackage.zero : WorkPackage := { id := "" }

def packageFields : List (StructField WorkPackage) :=
  [.of "id" stringCodec (fun _ => false) (·.id) (fun wp x => { wp with id := x }),
    .of "title" stringCodec (fun _ => false) (·.title) (fun wp x => { wp with title := x }),
    .of "phase" stringCodec (fun _ => false) (·.phase) (fun wp x => { wp with phase := x }),
    .of "objective" stringCodec (fun _ => false) (·.objective) (fun wp x => { wp with objective := x }),
    .of "artifact" stringCodec (fun _ => false) (·.artifact) (fun wp x => { wp with artifact := x }),
    .of "authorizedPaths" (sliceCodec stringCodec) (fun _ => false) (·.authorizedPaths)
      (fun wp x => { wp with authorizedPaths := x }),
    .of "gates" (sliceCodec stringCodec) (· = []) (·.gates) (fun wp x => { wp with gates := x }),
    .of "dependsOn" (sliceCodec stringCodec) (· = []) (·.dependsOn) (fun wp x => { wp with dependsOn := x }),
    .of "satisfies" (sliceCodec stringCodec) (fun _ => false) (·.satisfies) (fun wp x => { wp with satisfies := x }),
    .of "verifies" (pointerCodec verificationCodec) (·.isNone) (·.verifies) (fun wp x => { wp with verifies := x })]

def packageCodec : Codec WorkPackage := strictCodec WorkPackage.zero packageFields

lemma faithful_strings (xs : List String) : (sliceCodec stringCodec).Faithful 1 xs :=
  faithful_slice fun s _ => faithful_string s

lemma encode_strict_ne_null {S : Type} {zero : S} {fields : List (StructField S)} (s : S) :
    (strictCodec zero fields).encode s ≠ some .null := by
  intro h
  obtain ⟨ms, -, hobj⟩ := Option.map_eq_some_iff.mp h
  cases hobj

lemma faithful_verifies {verifies : Option Verification} (h : verifies.isNone = false) :
    (pointerCodec verificationCodec).Faithful 1 verifies := by
  cases verifies with
  | none => cases h
  | some v => exact faithful_pointer (encode_strict_ne_null v) (faithful_verification v)

lemma faithful_package (wp : WorkPackage) : packageCodec.Faithful 2 wp := by
  have htext : ∀ s : String, stringCodec.Faithful 1 s := fun s => (faithful_string s).mono (by decide)
  refine faithful_strict (by decide) (by decide) ?_
  iterate 5 refine fills_required rfl rfl (htext _) ?_
  refine fills_required rfl rfl (faithful_strings _) ?_
  refine fills_cons rfl rfl of_decide_eq_true (fun _ => faithful_strings _) ?_
  refine fills_cons rfl rfl of_decide_eq_true (fun _ => faithful_strings _) ?_
  refine fills_required rfl rfl (faithful_strings _) ?_
  exact fills_cons rfl rfl Option.isNone_iff_eq_none.mp faithful_verifies rfl

lemma faithful_packages (pkgs : List WorkPackage) : (sliceCodec packageCodec).Faithful 3 pkgs :=
  faithful_slice fun wp _ => faithful_package wp

/-! ## Remediations -/

def repairFields : List (StructField Repair) :=
  [.of "criterionId" stringCodec (fun _ => false) (·.criterionID) (fun r x => { r with criterionID := x }),
    .of "invalidation" intCodec (fun _ => false) (·.invalidation) (fun r x => { r with invalidation := x })]

def repairCodec : Codec Repair := strictCodec ⟨"", 0⟩ repairFields

lemma faithful_repair {r : Repair} (h : IsInt64 r.invalidation) : repairCodec.Faithful 1 r := by
  refine faithful_strict (by decide) (by decide) ?_
  refine fills_required rfl rfl (faithful_string _) ?_
  exact fills_required rfl rfl (faithful_int h) rfl

namespace Remediation

def zero : Remediation :=
  { schemaVersion := 0, projectID := "", seq := 0, repairs := [], authorizedBy := "", packages := [] }

/-- The integers of a remediation are machine integers, as their types have it. -/
structure Fits (rm : Remediation) : Prop where
  schemaVersion : IsInt64 rm.schemaVersion
  seq : IsInt64 rm.seq
  repairs : ∀ r ∈ rm.repairs, IsInt64 r.invalidation

end Remediation

def remediationFields : List (StructField Remediation) :=
  [.of "schemaVersion" intCodec (fun _ => false) (·.schemaVersion) (fun rm x => { rm with schemaVersion := x }),
    .of "projectId" stringCodec (fun _ => false) (·.projectID) (fun rm x => { rm with projectID := x }),
    .of "seq" intCodec (fun _ => false) (·.seq) (fun rm x => { rm with seq := x }),
    .of "repairs" (sliceCodec repairCodec) (fun _ => false) (·.repairs) (fun rm x => { rm with repairs := x }),
    .of "authorizedBy" stringCodec (fun _ => false) (·.authorizedBy) (fun rm x => { rm with authorizedBy := x }),
    .of "authorizedAt" timeCodec (fun _ => false) (·.authorizedAt) (fun rm x => { rm with authorizedAt := x }),
    .of "packages" (sliceCodec packageCodec) (fun _ => false) (·.packages) (fun rm x => { rm with packages := x }),
    .of "supersedes" (sliceCodec stringCodec) (· = []) (·.supersedes) (fun rm x => { rm with supersedes := x })]

def remediationCodec : Codec Remediation := strictCodec Remediation.zero remediationFields

variable {rm : Remediation}

lemma fills_remediation (h : rm.Fits) : Fills 3 rm remediationFields Remediation.zero := by
  have htext : ∀ s : String, stringCodec.Faithful 3 s := fun s => (faithful_string s).mono (by decide)
  have hrepairs : (sliceCodec repairCodec).Faithful 2 rm.repairs :=
    faithful_slice fun r hr => faithful_repair (h.repairs r hr)
  refine fills_required rfl rfl ((faithful_int h.schemaVersion).mono (by decide)) ?_
  refine fills_required rfl rfl (htext _) ?_
  refine fills_required rfl rfl ((faithful_int h.seq).mono (by decide)) ?_
  refine fills_required rfl rfl (hrepairs.mono (by decide)) ?_
  refine fills_required rfl rfl (htext _) ?_
  refine fills_required rfl rfl ((faithful_time _).mono (by decide)) ?_
  refine fills_required rfl rfl (faithful_packages _) ?_
  exact fills_cons rfl rfl of_decide_eq_true (fun _ => (faithful_strings _).mono (by decide)) rfl

/-- Read a remediation document. -/
def decodeRemediation (data : List UInt8) : Option Remediation := decodeDocument remediationCodec data

/-- The document of a remediation, if its time can be written. -/
def marshalRemediation (rm : Remediation) : Option (List UInt8) := marshalDocument remediationCodec rm

variable {data : List UInt8}

theorem decode_remediation (h : rm.Fits)
    (hdata : marshalRemediation rm = some data) : decodeRemediation data = some rm :=
  decode_marshalDocument (faithful_strict (by decide) (by decide) (fills_remediation h))
    (fun _ hj => isObjectText_indent (by decide) (by decide) (fills_remediation h) (by decide) hj) hdata

/-! ## Plans -/

def DeliveryPlan.zero : DeliveryPlan := { schemaVersion := 0, projectID := "", packages := [] }

def planFields : List (StructField DeliveryPlan) :=
  [.of "schemaVersion" intCodec (fun _ => false) (·.schemaVersion) (fun p x => { p with schemaVersion := x }),
    .of "projectId" stringCodec (fun _ => false) (·.projectID) (fun p x => { p with projectID := x }),
    .of "plannedBy" stringCodec (fun _ => false) (·.plannedBy) (fun p x => { p with plannedBy := x }),
    .of "plannedAt" timeCodec (fun _ => false) (·.plannedAt) (fun p x => { p with plannedAt := x }),
    .of "packages" (sliceCodec packageCodec) (fun _ => false) (·.packages) (fun p x => { p with packages := x })]

def planCodec : Codec DeliveryPlan := strictCodec DeliveryPlan.zero planFields

variable {p : DeliveryPlan}

lemma fills_plan (hversion : IsInt64 p.schemaVersion) (hremediations : p.remediations = [])
    (hprovisional : p.provisional = false) : Fills 3 p planFields DeliveryPlan.zero := by
  have htext : ∀ s : String, stringCodec.Faithful 3 s := fun s => (faithful_string s).mono (by decide)
  refine fills_required rfl rfl ((faithful_int hversion).mono (by decide)) ?_
  refine fills_required rfl rfl (htext _) ?_
  refine fills_required rfl rfl (htext _) ?_
  refine fills_required rfl rfl ((faithful_time _).mono (by decide)) ?_
  refine fills_required rfl rfl (faithful_packages _) ?_
  cases p
  subst hremediations hprovisional
  rfl

/-- Read a plan document. -/
def decodePlan (data : List UInt8) : Option DeliveryPlan := decodeDocument planCodec data

/-- The document of a plan, if its time can be written. -/
def marshalPlan (p : DeliveryPlan) : Option (List UInt8) := marshalDocument planCodec p

/-- A plan that is joined with nothing is read back from its document. -/
theorem decode_plan (hversion : IsInt64 p.schemaVersion)
    (hremediations : p.remediations = []) (hprovisional : p.provisional = false)
    (hdata : marshalPlan p = some data) : decodePlan data = some p :=
  decode_marshalDocument (faithful_strict (by decide) (by decide) (fills_plan hversion hremediations hprovisional))
    (fun _ hj => isObjectText_indent (by decide) (by decide)
      (fills_plan hversion hremediations hprovisional) (by decide) hj) hdata

end DeliveryEngine.Handoff
