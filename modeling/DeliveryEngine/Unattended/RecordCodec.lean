import DeliveryEngine.Go.Json.Codec
import DeliveryEngine.Unattended.Journal

/-!
# A journal record as a line of JSON

The fields of a record and of the gate evidence it may carry, with their names, in the order in which they
are written.  `faithful_record` says that a record is read back, provided that its numbers fit the machine
integers that hold them.
-/

namespace DeliveryEngine.Unattended

open Go Go.Json

/-! ## Gate evidence -/

def gateFields : List (StructField GateEvidence) :=
  [.of "gateId" stringCodec (fun _ => false) (·.gateID) (fun e x => { e with gateID := x }),
    .of "taskId" stringCodec (· = "") (·.taskID) (fun e x => { e with taskID := x }),
    .of "tool" stringCodec (· = "") (·.tool) (fun e x => { e with tool := x }),
    .of "toolVersion" stringCodec (· = "") (·.toolVersion) (fun e x => { e with toolVersion := x }),
    .of "result" (namedCodec _) (fun _ => false) (·.result) (fun e x => { e with result := x }),
    .of "observedAt" timeCodec (fun _ => false) (·.observedAt) (fun e x => { e with observedAt := x }),
    .of "targetSha" stringCodec (· = "") (·.targetSHA) (fun e x => { e with targetSHA := x }),
    .of "reproduce" (sliceCodec stringCodec) (· = []) (·.reproduce) (fun e x => { e with reproduce := x }),
    .of "detail" stringCodec (· = "") (·.detail) (fun e x => { e with detail := x }),
    .of "evidencePath" stringCodec (· = "") (·.evidencePath) (fun e x => { e with evidencePath := x })]

def gateCodec : Codec GateEvidence := structCodec GateEvidence.zero gateFields

variable (e : GateEvidence)

lemma fills_gate : Fills 1 e gateFields GateEvidence.zero := by
  have htext : ∀ s : String, stringCodec.Faithful 1 s := fun s => (faithful_string s).mono (by decide)
  have hempty : ∀ s : String, decide (s = "") = true → s = "" := fun s => of_decide_eq_true
  refine fills_required rfl rfl (htext _) ?_
  iterate 3 refine fills_cons rfl rfl (hempty _) (fun _ => htext _) ?_
  refine fills_required rfl rfl ((faithful_named _).mono (by decide)) ?_
  refine fills_required rfl rfl ((faithful_time _).mono (by decide)) ?_
  refine fills_cons rfl rfl (hempty _) (fun _ => htext _) ?_
  refine fills_cons rfl rfl of_decide_eq_true (fun _ => faithful_slice fun s _ => faithful_string s) ?_
  refine fills_cons rfl rfl (hempty _) (fun _ => htext _) ?_
  refine fills_cons rfl rfl (hempty _) (fun _ => htext _) ?_
  rfl

lemma faithful_gate : gateCodec.Faithful 2 e := faithful_struct (by decide) (by decide) (fills_gate e)

/-! ## Records -/

def recordFields : List (StructField Record) :=
  [.of "seq" intCodec (fun _ => false) (·.seq) (fun r x => { r with seq := x }),
    .of "at" timeCodec (fun _ => false) (·.time) (fun r x => { r with time := x }),
    .of "kind" (namedCodec _) (fun _ => false) (·.kind) (fun r x => { r with kind := x }),
    .of "runId" stringCodec (fun _ => false) (·.runID) (fun r x => { r with runID := x }),
    .of "taskId" stringCodec (· = "") (·.taskID) (fun r x => { r with taskID := x }),
    .of "attempt" intCodec (· = 0) (·.attempt) (fun r x => { r with attempt := x }),
    .of "class" (namedCodec _) (·.text = "") (·.cls) (fun r x => { r with cls := x }),
    .of "outcome" stringCodec (· = "") (·.outcome) (fun r x => { r with outcome := x }),
    .of "detail" stringCodec (· = "") (·.detail) (fun r x => { r with detail := x }),
    .of "durationMs" intCodec (· = 0) (·.durationMS) (fun r x => { r with durationMS := x }),
    .of "gate" (pointerCodec gateCodec) (·.isNone) (·.gate) (fun r x => { r with gate := x })]

namespace Record

def zero : Record := { kind := Named.ofText "" }

/-- The integers of a record are machine integers, as their types have it. -/
structure Fits (r : Record) : Prop where
  seq : IsInt64 r.seq
  attempt : IsInt64 r.attempt
  durationMS : IsInt64 r.durationMS

end Record

def recordCodec : Codec Record := structCodec Record.zero recordFields

variable {r : Record}

lemma fills_record (hr : r.Fits) : Fills 2 r recordFields Record.zero := by
  have htext : ∀ s : String, stringCodec.Faithful 2 s := fun s => (faithful_string s).mono (by decide)
  have hempty : ∀ s : String, decide (s = "") = true → s = "" := fun s => of_decide_eq_true
  refine fills_required rfl rfl ((faithful_int hr.seq).mono (by decide)) ?_
  refine fills_required rfl rfl ((faithful_time _).mono (by decide)) ?_
  refine fills_required rfl rfl ((faithful_named _).mono (by decide)) ?_
  refine fills_required rfl rfl (htext _) ?_
  refine fills_cons rfl rfl (hempty _) (fun _ => htext _) ?_
  refine fills_cons rfl rfl of_decide_eq_true (fun _ => (faithful_int hr.attempt).mono (by decide)) ?_
  refine fills_cons rfl rfl (fun h => ?_) (fun _ => (faithful_named _).mono (by decide)) ?_
  · exact Named.text_injective ((of_decide_eq_true h).trans (Named.text_ofText _).symm)
  refine fills_cons rfl rfl (hempty _) (fun _ => htext _) ?_
  refine fills_cons rfl rfl (hempty _) (fun _ => htext _) ?_
  refine fills_cons rfl rfl of_decide_eq_true (fun _ => (faithful_int hr.durationMS).mono (by decide)) ?_
  refine fills_cons rfl rfl Option.isNone_iff_eq_none.mp (fun h => ?_) rfl
  obtain ⟨e, he⟩ : ∃ e, r.gate = some e := by
    cases hgate : r.gate with
    | none => simp [hgate] at h
    | some e => exact ⟨e, rfl⟩
  simp only [he]
  refine faithful_pointer (fun h => ?_) (faithful_gate e)
  obtain ⟨ms, -, hobj⟩ := Option.map_eq_some_iff.mp h
  cases hobj

lemma faithful_record (hr : r.Fits) : recordCodec.Faithful 3 r :=
  faithful_struct (by decide) (by decide) (fills_record hr)

/-! ## What can be written -/

/-- Whether every instant of the record has a text. -/
def Record.writable (r : Record) : Bool :=
  r.time.hasFourDigitYear && r.gate.all (·.observedAt.hasFourDigitYear)

lemma isSome_encode_gate : (gateCodec.encode e).isSome = e.observedAt.hasFourDigitYear := by
  rw [gateCodec, isSome_encode_struct]
  simp [gateFields, StructField.of, stringCodec, namedCodec, textCodec, isSome_encode_slice, isSome_encode_time]

lemma isSome_marshal (r : Record) : (marshal recordCodec r).isSome = r.writable := by
  have hgate : (r.gate.isNone || ((pointerCodec gateCodec).encode r.gate).isSome) =
      r.gate.all (·.observedAt.hasFourDigitYear) := by
    cases r.gate with
    | none => rfl
    | some e => exact isSome_encode_gate e
  rw [marshal, Option.isSome_map, recordCodec, isSome_encode_struct, Record.writable, ← hgate]
  simp [recordFields, StructField.of, stringCodec, namedCodec, textCodec, intCodec, isSome_encode_time]

lemma isObjectText_record (hr : r.Fits) {bs : List UInt8} (hbs : marshal recordCodec r = some bs) :
    IsObjectText bs ∧ ∃ rest, bs = 0x7b :: 0x22 :: 0x73 :: rest := by
  obtain ⟨j, hj, rfl⟩ := Option.map_eq_some_iff.mp hbs
  refine ⟨isObjectText_struct (by decide) (by decide) (fills_record hr) (by decide) hj, ?_⟩
  obtain ⟨ms, hms, rfl⟩ := Option.map_eq_some_iff.mp hj
  obtain ⟨v, rest, -, -, rfl⟩ := encodeFields?_cons rfl hms
  exact ⟨_, rfl⟩

end DeliveryEngine.Unattended
