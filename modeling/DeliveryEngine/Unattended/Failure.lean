import DeliveryEngine.Go.Text
import DeliveryEngine.Go.Time
import DeliveryEngine.Go.Vocabulary

/-!
# Failure classes, their policies, and classification

What a run does about a failure is decided by its class alone: `policyFor` gives the attempt budget, the backoff and
whether the class ends the run.  `classify` assigns a class to a failed command's text, first by the rules a project
declares and then by the built-in ones.  `Host` stands for Go's regexp engine and Unicode tables; nothing is assumed
about either.
-/

namespace DeliveryEngine.Unattended

open Go

/-! ## The regexp engine and the case tables -/

/-- Go's regexp engine and case mapping. -/
structure Host where
  /-- Whether `regexp.Compile` accepts a pattern. -/
  compiles : String → Bool
  /-- `MatchString` of a pattern on a text. -/
  isMatch : String → String → Bool
  /-- `ReplaceAllString` of a pattern in a text. -/
  replaceAllString : String → String → String → String
  /-- `unicode.ToLower`. -/
  toLower : Char → Char

namespace Host

/-- A host whose expressions match nothing and whose case mapping is the ASCII one. -/
def plain : Host where
  compiles _ := true
  isMatch _ _ := false
  replaceAllString _ text _ := text
  toLower := Char.toLower

variable (host : Host)

/-- Credential material that must not reach a durable report. -/
def secretPatterns : List String :=
  ["gh[pousr]_[A-Za-z0-9]\x7b16,\x7d", "github_pat_[A-Za-z0-9_]\x7b20,\x7d",
    "(?i)\\bbearer\\s+[A-Za-z0-9._\\-]\x7b12,\x7d",
    "\\bAKIA[0-9A-Z]\x7b16\x7d\\b",
    "(?i)\\b(token|secret|password|passwd|api[_-]?key)\\b\\s*[:=]\\s*\\S+",
    "\\bey[A-Za-z0-9_\\-]\x7b10,\x7d\\.[A-Za-z0-9_\\-]\x7b10,\x7d\\.[A-Za-z0-9_\\-]\x7b10,\x7d",
    "\\b[A-Za-z0-9_\\-]\x7b40,\x7d\\b"]

/-- Replace everything that looks like credential material. -/
def redact (s : String) : String := secretPatterns.foldl (fun t re => host.replaceAllString re t "[redacted]") s

/-- `strings.ToLower`. -/
def lower (s : String) : String := String.ofList (s.toList.map host.toLower)

end Host

/-! ## Classes and policies -/

/-- The declared failure classes. -/
inductive FailureName
  | retryable
  | codeDefect
  | environment
  | auth
  | governance
  | dependency
  | concurrentWriter
  | externalService
  | humanDecision
  | irreversibleBoundary
  deriving DecidableEq

instance : Vocabulary FailureName where
  all := [.retryable, .codeDefect, .environment, .auth, .governance, .dependency,
    .concurrentWriter, .externalService, .humanDecision, .irreversibleBoundary]
  text
    | .retryable => "retryable"
    | .codeDefect => "code-defect"
    | .environment => "environment"
    | .auth => "auth"
    | .governance => "governance"
    | .dependency => "dependency"
    | .concurrentWriter => "concurrent-writer"
    | .externalService => "external-service"
    | .humanDecision => "human-decision"
    | .irreversibleBoundary => "irreversible-boundary"
  mem_all := by rintro ⟨⟩ <;> decide
  nodup := by decide

/-- What kind of thing went wrong. -/
abbrev FailureClass := Named FailureName

namespace FailureClass

/-- The zero value: no class. -/
def unset : FailureClass := Named.ofText ""

def valid (c : FailureClass) : Bool := c.isKnown

end FailureClass

/-- What the run does about a class of failure. -/
structure Policy where
  maxAttempts : ℤ
  baseBackoff : Duration := 0
  maxBackoff : Duration := 0
  stopsRun : Bool := false
  why : String

open Duration in
/-- The policy of a declared class. -/
def policies : FailureName → Policy
  | .retryable =>
    { maxAttempts := 4, baseBackoff := 5 * second, maxBackoff := 2 * minute,
      why := "transient by definition; retried with backoff, then treated as a blocked task " ++
        "rather than a stopped run" }
  | .codeDefect =>
    { maxAttempts := 3, baseBackoff := second, maxBackoff := 10 * second,
      why := "ordinary engineering work — a failing test or build is what the run is for, " ++
        "not a reason to end it" }
  | .environment =>
    { maxAttempts := 2, baseBackoff := 10 * second, maxBackoff := 30 * second,
      why := "the machine will not fix itself, but one retry costs little and covers a " ++
        "transient filesystem or process race" }
  | .auth =>
    { maxAttempts := 1,
      why := "a credential does not become valid by being asked again; the task is held " ++
        "and the queue moves on" }
  | .governance =>
    { maxAttempts := 1,
      why := "a policy refusal is a decision, not a fault; the task is held for the human " ++ "who can lift it" }
  | .dependency =>
    { maxAttempts := 1,
      why := "the queue re-offers the task when its dependency succeeds, so retrying in " ++
        "place would only burn attempts" }
  | .concurrentWriter =>
    { maxAttempts := 1, stopsRun := true,
      why := "another session owns this worktree; continuing would mean two writers, which " ++
        "is the failure this layer exists to prevent" }
  | .externalService =>
    { maxAttempts := 5, baseBackoff := 15 * second, maxBackoff := 5 * minute,
      why := "third-party outages and rate limits recover on their own; backoff is longer " ++
        "and attempts are more generous" }
  | .humanDecision =>
    { maxAttempts := 1, why := "the answer is a judgement this run is not entitled to make" }
  | .irreversibleBoundary =>
    { maxAttempts := 1, stopsRun := true,
      why := "the next step cannot be undone without authorization, so it is never taken " ++ "unattended" }

/-- The policy of a class.  Nothing is known about an undeclared one, so it ends the run. -/
def policyFor : FailureClass → Policy
  | .known c => policies c
  | .other s _ =>
    { maxAttempts := 1, stopsRun := true,
      why := "unrecognized failure class " ++ s ++ " — nothing is known about it, so nothing is assumed" }

/-- The delay before a retry: the base doubled for each attempt already made, up to the cap. -/
def Policy.backoff (p : Policy) (attempt : ℕ) : Duration :=
  if attempt < 1 ∨ p.baseBackoff ≤ 0 then 0
  else
    let d := p.baseBackoff * 2 ^ min (attempt - 1) 20
    if 0 < p.maxBackoff ∧ p.maxBackoff < d then p.maxBackoff else d

lemma one_le_maxAttempts (c : FailureClass) : 1 ≤ (policyFor c).maxAttempts := by
  rcases c with ⟨c⟩ | _
  · cases c <;> decide
  · exact le_refl _

/-! ## Classification -/

/-- A project's own failure signature. -/
structure ClassificationRule where
  pattern : String
  cls : FailureClass
  reason : String

/-- The built-in signatures, in the order they are tried. -/
def builtinRules : List ClassificationRule :=
  [⟨"(?i)another session (owns|took ownership)|worktree already has a live owner|" ++
      "fence (branch-changed|head-moved|owner-lost)",
      .known .concurrentWriter, "the worktree ownership guard fired"⟩,
    ⟨"(?i)\\b(401|403)\\b|not logged in|authentication failed|bad credentials|" ++
      "permission denied \\(publickey\\)|token .*(expired|invalid)",
      .known .auth, "the forge or transport refused the credential"⟩,
    ⟨"(?i)protected branch|required status check|review required|" ++
      "at least \\d+ approving review|environment .* requires approval",
      .known .governance, "a repository or deployment policy refused the action"⟩,
    ⟨"(?i)\\b(429|502|503|504)\\b|rate limit|service unavailable|temporarily unavailable|" ++
      "connection reset by peer|i/o timeout|TLS handshake timeout",
      .known .externalService, "a third party refused or dropped the request"⟩,
    ⟨"(?i)command not found|executable file not found|no such file or directory|" ++
      "no space left on device|cannot allocate memory|address already in use",
      .known .environment, "the machine could not provide something the command needed"⟩,
    ⟨"(?i)^--- FAIL|\\bFAIL\\b.*\\[build failed\\]|\\bassertion failed\\b|" ++
      "\\bcompile error\\b|\\bsyntax error\\b|undefined:|cannot use .* as .* value",
      .known .codeDefect, "the code under test did not do what it should"⟩,
    ⟨"(?i)merge conflict|CONFLICT \\(content\\)|would be overwritten by merge",
      .known .codeDefect, "a merge conflict is ordinary work, resolved in the tree"⟩,
    ⟨"(?i)context deadline exceeded|timed out|timeout",
      .known .retryable, "the attempt ran out of time without saying why"⟩]

/-- What a failure was classified as, why, and by which rule. -/
structure Classification where
  cls : FailureClass
  reason : String
  rule : String

/-- The first project rule that compiles and matches. -/
def classifyBySpec (host : Host) (text : String) : ℕ → List ClassificationRule → Option Classification
  | _, [] => none
  | i, r :: rules =>
    if host.compiles r.pattern && host.isMatch r.pattern text then
      some ⟨r.cls, if r.reason = "" then "matched a project-declared signature" else r.reason,
        s!"spec.classify[{i}]"⟩
    else classifyBySpec host text (i + 1) rules

/-- The first built-in rule that matches. -/
def classifyByBuiltin (host : Host) (text : String) : ℕ → List ClassificationRule → Option Classification
  | _, [] => none
  | i, r :: rules =>
    if host.isMatch r.pattern text then some ⟨r.cls, r.reason, s!"builtin[{i}]"⟩
    else classifyByBuiltin host text (i + 1) rules

def classify (host : Host) (text : String) (rules : List ClassificationRule) : Classification :=
  match classifyBySpec host text 0 rules with
  | some c => c
  | none =>
    match classifyByBuiltin host text 0 builtinRules with
    | some c => c
    | none =>
      ⟨.known .codeDefect, "no signature matched, so it is treated as ordinary work rather than as a boundary",
        "default"⟩

end DeliveryEngine.Unattended
