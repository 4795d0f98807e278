import DeliveryEngine.Unattended.Failure
import DeliveryEngine.Unattended.Gates

/-!
# What an attempt's outcome means

A task may state what happened to it in a structured result.  `interpretExecution` turns one
attempt's outcome into a verdict: the structured result decides when the task declared one, and
the exit status only when it promised nothing.  The verdict's `Disposition` is all the runner
branches on.
-/

namespace DeliveryEngine.Unattended

open Go

/-- The states a structured result may declare. -/
inductive ControllerStateName
  | continue
  | complete
  | humanBlocked
  | failed
  deriving DecidableEq

instance : Vocabulary ControllerStateName where
  all := [.continue, .complete, .humanBlocked, .failed]
  text
    | .continue => "CONTINUE"
    | .complete => "COMPLETE"
    | .humanBlocked => "HUMAN_BLOCKED"
    | .failed => "FAILED"
  mem_all := by rintro ⟨⟩ <;> decide
  nodup := by decide

abbrev ControllerState := Named ControllerStateName

/-- A task's own statement of what happened. -/
structure ControllerResult where
  state : ControllerState
  terminalReason : String := ""
  subtype : String := ""
  isError : Bool := false
  detail : String := ""
  numTurns : ℤ := 0

/-- What the runner does next. -/
inductive Disposition
  | succeeded
  | continue
  | resume
  | retry
  | humanBlocked
  | failSafe
  deriving DecidableEq

namespace Disposition

def text : Disposition → String
  | .succeeded => "succeeded"
  | .continue => "continue"
  | .resume => "resume"
  | .retry => "retry"
  | .humanBlocked => "human-blocked"
  | .failSafe => "fail-safe"

/-- Whether the task is to be driven again without having failed. -/
def resumable : Disposition → Bool
  | .continue => true
  | .resume => true
  | _ => false

end Disposition

/-- What one attempt was found to mean. -/
structure ControllerVerdict where
  disposition : Disposition
  cls : FailureClass := FailureClass.unset
  reason : String
  structured : Bool := false
  state : ControllerState := Named.ofText ""
  terminalReason : String := ""
  gateResult : GateResult := Named.ofText ""

/-- One attempt's raw outcome. -/
structure Execution where
  exitedZero : Bool
  output : String := ""
  err : Option String := none
  declaredResult : Bool := false
  result : Option ControllerResult := none
  resultErr : Option String := none

/-- The text a failure is classified by. -/
def Execution.text (e : Execution) : String :=
  match e.err with
  | some err => err ++ "\n" ++ e.output
  | none => e.output

section
variable (host : Host) (reason : String)

def normalizeReason : String := host.lower (trimSpace reason)

/-- The reason a result gives, from its terminal reason or else its subtype. -/
def ControllerResult.effectiveReason (r : ControllerResult) : String :=
  if normalizeReason host r.terminalReason ≠ "" then normalizeReason host r.terminalReason
  else normalizeReason host r.subtype

/-- Whether a reason says the harness stopped the agent at its turn cap. -/
def isResumableReason : Bool :=
  normalizeReason host reason = "max_turns" || normalizeReason host reason = "error_max_turns"

/-- The class of a terminal reason this package knows. -/
def reasonClasses : Option FailureClass :=
  if reason = "network_timeout" then some (.known .externalService)
  else if reason = "rate_limited" then some (.known .externalService)
  else if reason = "authentication_failed" then some (.known .auth)
  else if reason = "permission_denied" then some (.known .auth)
  else none

def classForBlockedReason : FailureClass :=
  if reasonClasses reason = some (.known .auth) then .known .auth else .known .humanDecision

def blockedReasonText (detail : String) : String :=
  "the task reported HUMAN_BLOCKED" ++ (if reason = "" then "" else " (" ++ reason ++ ")") ++
    (if trimSpace detail = "" then "" else ": " ++ firstLine (host.redact (trimSpace detail)))

def interpretStructured (res : ControllerResult) (rules : List ClassificationRule)
    (text : String) : ControllerVerdict :=
  let reason := res.effectiveReason host
  let v (d : Disposition) (why : String) : ControllerVerdict :=
    { disposition := d, reason := why, structured := true, state := res.state, terminalReason := reason }
  if isResumableReason host reason then
    v .resume (s!"the harness stopped the agent at its turn cap ({reason}); " ++
      "the work is unfinished, not failed")
  else
    match res.state with
    | .known .complete =>
      { v .succeeded "the task reported COMPLETE" with gateResult := GateResult.pass }
    | .known .continue => v .continue "the task reported CONTINUE; it has more to do"
    | .known .humanBlocked =>
      { v .humanBlocked (blockedReasonText host reason res.detail) with
        cls := classForBlockedReason reason, gateResult := .known .error }
    | .known .failed =>
      let (cls, why) :=
        match reasonClasses reason with
        | some cls => (cls, "the task reported FAILED with terminal reason " ++ reason)
        | none => ((classify host text rules).cls, (classify host text rules).reason)
      if cls = .known .auth then
        { v .humanBlocked why with cls := cls, gateResult := .known .error }
      else { v .retry why with cls := cls, gateResult := .known .fail }
    | .other s _ =>
      { v .failSafe ("the structured result declared state " ++ s ++
          ", which this run cannot adjudicate") with
        cls := .known .environment, gateResult := .known .error }

def interpretExecution (e : Execution) (rules : List ClassificationRule) : ControllerVerdict :=
  match e.result with
  | some res => interpretStructured host res rules e.text
  | none =>
    if e.declaredResult then
      -- The task promised a result and left none: nothing is known about the attempt.
      let silence := e.resultErr.getD
        "the task declared a structured controller result and did not produce a usable one"
      let v : ControllerVerdict :=
        { disposition := .failSafe, cls := .known .environment, structured := true,
          gateResult := .known .error,
          reason := silence ++ " — nothing is known about this attempt, so nothing is assumed" }
      if e.err.isSome || !e.exitedZero then
        { v with cls := (classify host e.text rules).cls,
                 reason := (classify host e.text rules).reason ++ "; and " ++ silence }
      else v
    else if e.exitedZero && e.err.isNone then
      { disposition := .succeeded, reason := "the command exited zero", gateResult := GateResult.pass }
    else
      { disposition := .retry, cls := (classify host e.text rules).cls,
        reason := (classify host e.text rules).reason, gateResult := .known .fail }

end

end DeliveryEngine.Unattended
