import DeliveryEngine.Beads.Metadata
import DeliveryEngine.Go.Map

/-!
# Formulas

A formula is a workflow template: steps, the variables they use, and rules that rewrite them when the
formula is compiled.  A step's children and its loop body are steps again, so `Step` is a tree of `StepSpec`
records; everything a step declares beside them is in its `StepSpec`.
-/

namespace DeliveryEngine.Formulas

open Beads (Metadata)

/-- An asynchronous wait before a step. -/
structure Gate where
  type : String
  id : String := ""
  timeout : String := ""

/-- How a check loop validates an attempt. -/
structure RalphCheckSpec where
  mode : String := ""
  path : String := ""
  timeout : String := ""

/-- A run and check loop around a step. -/
structure RalphSpec where
  maxAttempts : ℤ := 0
  check : Option RalphCheckSpec := none

/-- A retry loop around a step. -/
structure RetrySpec where
  maxAttempts : ℤ := 0
  onExhausted : String := ""

/-- An iteration over a body of steps.  The body itself is in `Step`. -/
structure LoopSpec where
  count : ℤ := 0
  until_ : String := ""
  max : ℤ := 0
  range : String := ""
  var : String := ""

/-- What a step spawns over its output when it completes. -/
structure OnCompleteSpec where
  forEach : String := ""
  bond : String := ""
  vars : List (String × String) := []
  parallel : Bool := false
  sequential : Bool := false

/-- A drain of the input convoy. -/
structure DrainSpec where
  context : String := ""
  formula : String := ""
  continuationGroup : String := ""
  memberAccess : String := ""
  maxUnits : Option ℤ := none
  onItemFailure : String := ""
  singleLane : Bool := false

/-- What a step declares beside its children and its loop body. -/
structure StepSpec where
  id : String
  title : String := ""
  description : String := ""
  descriptionFile : String := ""
  type : String := ""
  priority : Option ℤ := none
  labels : List String := []
  metadata : Metadata := []
  dependsOn : List String := []
  needs : List String := []
  waitsFor : String := ""
  assignee : String := ""
  expand : String := ""
  expandVars : List (String × String) := []
  condition : String := ""
  gate : Option Gate := none
  loop : Option LoopSpec := none
  onComplete : Option OnCompleteSpec := none
  ralph : Option RalphSpec := none
  retry : Option RetrySpec := none
  drain : Option DrainSpec := none
  timeout : String := ""

/-- A step: what it declares, its children, and the body of its loop (empty without one). -/
inductive Step
  | mk (spec : StepSpec) (children body : List Step)

namespace Step

def spec : Step → StepSpec
  | mk spec _ _ => spec

def id (s : Step) : String := s.spec.id

end Step

/-! ## Rules -/

/-- A named place where another formula can attach. -/
structure BondPoint where
  id : String
  description : String := ""
  afterStep : String := ""
  beforeStep : String := ""
  parallel : Bool := false

/-- An attachment triggered by a condition. -/
structure Hook where
  trigger : String
  attach : String
  at_ : String := ""
  vars : List (String × String) := []

/-- An expansion of one step. -/
structure ExpandRule where
  target : String
  with_ : String
  vars : List (String × String) := []

/-- An expansion of every step that matches. -/
structure MapRule where
  select : String
  with_ : String
  vars : List (String × String) := []

/-- Parallel paths that join again. -/
structure BranchRule where
  source : String
  steps : List String
  join : String

/-- A condition before a step. -/
structure GateRule where
  before : String
  condition : String

/-- How a formula is composed with others. -/
structure ComposeRules where
  bondPoints : List BondPoint := []
  hooks : List Hook := []
  expand : List ExpandRule := []
  map : List MapRule := []
  branch : List BranchRule := []
  gate : List GateRule := []
  aspects : List String := []

/-- A step inserted by advice. -/
structure AdviceStep where
  id : String
  title : String := ""
  description : String := ""
  type : String := ""

/-- Steps inserted around the steps that match: `aroundBefore` and `aroundAfter` are the two lists of
`around`. -/
structure AdviceRule where
  target : String
  before : Option AdviceStep := none
  after : Option AdviceStep := none
  aroundBefore : List AdviceStep := []
  aroundAfter : List AdviceStep := []

/-- A template variable. -/
structure VarDef where
  default : Option String := none
  required : Bool := false
  enum : List String := []
  pattern : String := ""
  type : String := ""

/-- A compiler requirement, with the declaration it comes from. -/
structure CompilerConstraint where
  raw : String
  source : String

/-- What a formula is for. -/
inductive FormulaType
  | workflow
  | expansion
  | aspect

/-- A formula. -/
structure Formula where
  formula : String
  description : String := ""
  contract : String := ""
  requires : Option String := none
  type : FormulaType := .workflow
  extends_ : List String := []
  vars : Go.GoMap VarDef := ∅
  steps : List Step := []
  template : List Step := []
  compose : Option ComposeRules := none
  advice : List AdviceRule := []
  phase : String := ""
  pour : Bool := false
  source : String := ""
  compilerRequirementSources : List CompilerConstraint := []

/-- The compose rules of a formula, none when it declares none. -/
def Formula.rules (f : Formula) : ComposeRules := f.compose.getD {}

end DeliveryEngine.Formulas
