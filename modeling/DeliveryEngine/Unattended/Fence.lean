import DeliveryEngine.Unattended.Gates

/-!
# The fence

A fence is the run's claim on the repository position it works from.  `Fence.check` compares that
claim with a reading of the ground, and `Fence.recordAuthorisedAdvance` moves the claim to the HEAD
it reads, for the run's own commits.  What a check reads from the lock directory and the worktree is
a `Ground`; a check is a function of the fence and one reading.
-/

namespace DeliveryEngine.Unattended

open Go

/-! ## Readings -/

/-- Who holds the writer lock. -/
structure Owner where
  runID : String
  pid : ℤ
  deriving DecidableEq

/-- The state of the worktree. -/
structure RepoState where
  branch : String
  head : String
  detached : Bool := false

/-- One reading of the lock record and the worktree.  Either may fail to be read, and the lock
record may be absent. -/
structure Ground where
  owner : Except String (Option Owner)
  repo : Except String RepoState

/-! ## The fence -/

/-- The outcomes of re-verifying that the ground has not moved. -/
inductive FenceStatus
  | intact
  | branchChanged
  | headMoved
  | ownerLost
  | unreadable
  deriving DecidableEq

def FenceStatus.text : FenceStatus → String
  | .intact => "intact"
  | .branchChanged => "branch-changed"
  | .headMoved => "head-moved"
  | .ownerLost => "owner-lost"
  | .unreadable => "unreadable"

/-- One fence verification. -/
structure FenceResult where
  status : FenceStatus
  expected : String
  observed : String
  evidence : String := ""

namespace FenceResult

/-- Whether work may proceed. -/
def intact (r : FenceResult) : Bool := r.status = .intact

def error (r : FenceResult) : Option String :=
  if r.intact then none
  else some (s!"unattended: fence {r.status.text} — expected {quote r.expected}, " ++
    s!"observed {quote r.observed}" ++ (if r.evidence = "" then "" else " (" ++ r.evidence ++ ")"))

end FenceResult

/-- One authorised movement of HEAD. -/
structure FenceAdvance where
  source : String
  target : String
  reason : String

/-- The run's claim on the repository position it is working from. -/
structure Fence where
  worktree : String
  runID : String
  pid : ℤ
  branch : String
  head : String
  advances : List FenceAdvance := []

namespace Fence

variable (f : Fence)

/-- Whether a reading of the lock names this run as the owner. -/
def owns (owner : Owner) : Bool := owner.runID = f.runID && owner.pid = f.pid

/-- The claim as text. -/
def position : String := f.branch ++ "@" ++ shortSHA f.head

/-- Compare the fence with a reading of the worktree, the lock being this run's. -/
def checkRepo (repo : Except String RepoState) : FenceResult :=
  match repo with
  | .error err => ⟨.unreadable, f.worktree, "unreadable", err⟩
  | .ok state =>
    if state.branch ≠ f.branch then
      ⟨.branchChanged, f.branch,
        if state.detached then "detached HEAD at " ++ shortSHA state.head else state.branch,
        "the worktree was moved to a different ref outside this run"⟩
    else if state.head ≠ f.head then
      ⟨.headMoved, shortSHA f.head, shortSHA state.head,
        "HEAD moved without an authorized advance being recorded by this run"⟩
    else ⟨.intact, f.position, "unchanged", ""⟩

/-- Re-verify the fence against a reading.  Ownership comes first: when the lock is somebody
else's, so are branch and HEAD. -/
def check (g : Ground) : FenceResult :=
  match g.owner with
  | .error err => ⟨.ownerLost, f.runID, "unreadable", err⟩
  | .ok none =>
    ⟨.ownerLost, f.runID, "no owner recorded", "the writer lock record was removed while this run held it"⟩
  | .ok (some owner) =>
    if f.owns owner then f.checkRepo g.repo
    else
      ⟨.ownerLost, s!"{f.runID} (pid {f.pid})", s!"{owner.runID} (pid {owner.pid})",
        "another session took ownership of this worktree"⟩

/-- Move the fence to the HEAD of a reading after the run itself committed.  When ownership was
lost the answer is a fresh check, against a second reading. -/
def recordAuthorisedAdvance (reason : String) (g recheck : Ground) : Fence × Option FenceResult × Option String :=
  if reason = "" then (f, none, some "unattended: an authorized advance must state its reason")
  else
    match g.owner with
    | .ok (some owner) =>
      if f.owns owner then
        match g.repo with
        | .error err =>
          let res : FenceResult := ⟨.unreadable, f.worktree, "unreadable", err⟩
          (f, some res, res.error)
        | .ok state =>
          if state.branch ≠ f.branch then
            let res : FenceResult := ⟨.branchChanged, f.branch, state.branch,
              "an advance was claimed on a branch this run does not own"⟩
            (f, some res, res.error)
          else
            let f' :=
              if state.head ≠ f.head then
                { f with head := state.head, advances := f.advances ++ [⟨f.head, state.head, reason⟩] }
              else f
            (f', some ⟨.intact, f'.position, "advanced by this run", ""⟩, none)
      else (f, some (f.check recheck), (f.check recheck).error)
    | _ => (f, some (f.check recheck), (f.check recheck).error)

end Fence

end DeliveryEngine.Unattended
