import DeliveryEngine.Beads.Store

/-!
# Recipes

A compiled formula is a recipe: a flat list of steps, the root first, and the dependencies between them.
The texts of a recipe may name variables, `\x7b\x7bname\x7d\x7d`; `substitute` puts their values in when the recipe
is materialized, and keeps a name it has no value for.
-/

namespace DeliveryEngine.Formulas

open Beads

structure RecipeStep where
  id : String
  title : String := ""
  description : String := ""
  notes : String := ""
  type : String := "task"
  labels : List String := []
  assignee : String := ""
  isRoot : Bool := false
  metadata : Metadata := []

/-- `step.Metadata[k]`. -/
def RecipeStep.meta (step : RecipeStep) (k : Key) : String := step.metadata.get k

/-- The step `stepID` depends on the step `dependsOnID`. -/
structure RecipeDep where
  stepID : String
  dependsOnID : String
  type : DepType
  deriving DecidableEq

structure Recipe where
  name : String := ""
  steps : List RecipeStep := []
  deps : List RecipeDep := []
  /-- The declared variables that have a default, with it. -/
  vars : List (String × String) := []
  rootOnly : Bool := false

/-! ## Variables -/

def isNameStart (c : Char) : Bool := c.isAlpha || c = '_'

def isNameChar (c : Char) : Bool := isNameStart c || c.isDigit

/-- A variable at the front of a text: its name, and what follows its closing braces. -/
def placeholder : List Char → Option (List Char × List Char)
  | '{' :: '{' :: rest =>
    match rest.takeWhile isNameChar, rest.dropWhile isNameChar with
    | c :: name, '}' :: '}' :: after => if isNameStart c then some (c :: name, after) else none
    | _, _ => none
  | _ => none

variable (vars : List (String × String))

/-- What a variable is replaced by: its value, or itself. -/
def valueOf (name : List Char) : List Char :=
  match vars.lookup (String.ofList name) with
  | some value => value.toList
  | none => '{' :: '{' :: (name ++ ['}', '}'])

/-- Replace the variables of a text from left to right; `fuel` is at least the length of the text. -/
def substituteFrom (vars : List (String × String)) : ℕ → List Char → List Char
  | 0, cs => cs
  | _ + 1, [] => []
  | fuel + 1, c :: cs =>
    match placeholder (c :: cs) with
    | some (name, after) => valueOf vars name ++ substituteFrom vars fuel after
    | none => c :: substituteFrom vars fuel cs

/-- `formula.Substitute`. -/
def substitute (s : String) : String := String.ofList (substituteFrom vars s.toList.length s.toList)

/-- The metadata of a step, its variables replaced. -/
def substituteMetadata (m : Metadata) : Metadata := m.map fun kv => (kv.1, substitute vars kv.2)

@[simp] lemma get_substituteMetadata (m : Metadata) (k : Key) :
    (substituteMetadata vars m).get k = substitute vars (m.get k) := by
  induction m with
  | nil => rfl
  | cons kv m ih =>
    rw [substituteMetadata, List.map_cons, Metadata.get_cons, Metadata.get_cons]
    split_ifs
    · rfl
    · exact ih

end DeliveryEngine.Formulas
