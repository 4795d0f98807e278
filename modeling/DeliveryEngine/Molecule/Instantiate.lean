import DeliveryEngine.Formula.Recipe

/-!
# Instantiating a recipe

`instantiate` creates one bead for each step of a recipe, the root first, and wires the dependencies that could not be
given at creation.  A bead may be created deferred, so that no worker sees it, until `activateFencedGraphWorkflowBead`
restores it.  When a step is refused the beads created so far are marked `molecule_failed`; the refusals themselves are
a parameter `BeadCheck`.
-/

namespace DeliveryEngine.Molecule

open Beads Formulas

/-- Why an operation on molecules fails. -/
inductive Failure
  | epochConflict (msg : String)
  | failed (msg : String)

abbrev M := StoreM Failure

/-- What is wrong with the bead of a step, if anything. -/
abbrev BeadCheck := String → Bead → Option String

/-! ## Identifiers by step -/

/-- A Go map from steps to beads, in the order of insertion. -/
abbrev IDMapping := List (String × String)

variable (m : IDMapping) (k : String)

/-- `m[k] = v`. -/
def IDMapping.set (v : String) : IDMapping := m.filter (·.1 ≠ k) ++ [(k, v)]

/-- `m[k]`. -/
def IDMapping.get : String := (m.lookup k).getD ""

/-! ## Beads of steps -/

/-- The types that are never ready work. -/
def readyExcludeTypes : List String :=
  ["merge-request", "gate", "molecule", "step", "convoy", "message", "session", "agent", "role", "rig"]

variable (b : Bead)

def isReadyExcludedBead : Bool :=
  readyExcludeTypes.contains b.type ||
    b.labels.any fun label => label = "gc:session" || label = "gc:order-tracking" || label = "order-tracking"

/-- A bead for a step, its variables replaced. -/
def stepToBead (step : RecipeStep) (vars : List (String × String)) : Bead where
  title := substitute vars step.title
  description := substitute vars step.description
  type := if step.type = "" then "task" else step.type
  labels := step.labels.map (substitute vars)
  assignee := substitute vars step.assignee
  metadata :=
    if step.notes = "" then substituteMetadata vars step.metadata
    else (substituteMetadata vars step.metadata).set (.other "notes") (substitute vars step.notes)

variable (sourceKey deferredKey : Key)

/-- Move a metadata value to the key it is deferred under. -/
def deferBeadMetadataValue (b : Bead) : Bead :=
  if b.meta sourceKey = "" then b
  else { b with metadata := (b.metadata.set deferredKey (b.meta sourceKey)).delete sourceKey }

/-- Keep a bead's type, assignee and routes in metadata only. -/
def deferBeadRouting : Bead :=
  let b := if isReadyExcludedBead b then b
    else { b with
      metadata := b.metadata.set .deferredType (if b.type = "" then "task" else b.type)
      type := "gate" }
  let b := if b.assignee = "" then b
    else { b with metadata := b.metadata.set .deferredAssignee b.assignee, assignee := "" }
  deferBeadMetadataValue .executionRoutedTo .deferredExecutionRoutedTo
    (deferBeadMetadataValue .routedTo .deferredRoutedTo b)

def fenceGraphWorkflowBead : Bead := deferBeadRouting { b with metadata := b.metadata.set .instantiating "true" }

def restoreRoute : Metadata :=
  if b.meta deferredKey = "" then []
  else (deferredKey, "") :: if b.meta sourceKey = b.meta deferredKey then [] else [(sourceKey, b.meta deferredKey)]

/-- The update that makes a deferred bead what it was meant to be. -/
def deferredRoutingActivationUpdate : UpdateOpts where
  assignee :=
    if b.meta .deferredAssignee = "" ∨ b.assignee = b.meta .deferredAssignee then none
    else some (b.meta .deferredAssignee)
  type :=
    if b.meta .deferredType = "" ∨ b.type = b.meta .deferredType then none
    else some (b.meta .deferredType)
  metadata :=
    (if b.meta .deferredAssignee = "" then [] else [(.deferredAssignee, "")]) ++
    restoreRoute b .routedTo .deferredRoutedTo ++
    restoreRoute b .executionRoutedTo .deferredExecutionRoutedTo ++
    (if b.meta .deferredType = "" then [] else [(.deferredType, "")]) ++
    if b.meta .instantiating = "" then [] else [(.instantiating, "")]

/-- Restore what a bead keeps deferred; `false` when the bead does not exist. -/
def activateFencedGraphWorkflowBead (id : String) : M Bool := do
  match ← StoreM.get id with
  | none => pure false
  | some b =>
    let update := deferredRoutingActivationUpdate b
    if update.assignee = none ∧ update.type = none ∧ update.metadata = [] then pure true
    else StoreM.update id update

/-- Mark beads `molecule_failed`, as far as they exist. -/
def markFailed (ids : List String) : M Unit :=
  forM ids fun id => do
    let _ ← StoreM.setMetadataBatch id [(.moleculeFailed, "true"), (.instantiating, "")]

/-! ## The logical step of an attempt -/

/-- `s` without its suffix, if it has it. -/
def trimAttemptSuffix (s suffix : String) : Option String :=
  if suffix ≠ "" ∧ Go.hasSuffix s suffix
  then some (String.ofList (s.toList.take (s.toList.length - suffix.toList.length))) else none

/-- What stands before the last occurrence of `sep`, unless that is at the front. -/
def beforeLast (s sep : String) : Option String :=
  match (List.range (s.toList.length + 1)).reverse.find? fun i => sep.toList.isPrefixOf (s.toList.drop i) with
  | some (i + 1) => some (String.ofList (s.toList.take (i + 1)))
  | _ => none

/-- The step an attempt, run or check step stands for. -/
def logicalRecipeStepID (step : RecipeStep) : Option String :=
  let kind := step.meta .kind
  let attempt := step.meta .attempt
  let byAttempt : Option String :=
    if attempt = "" then none
    else
      let legacy : Option String :=
        if kind = "run" ∨ kind = "scope" ∨ kind = "retry-run" then trimAttemptSuffix step.id (".run." ++ attempt)
        else if kind = "check" then trimAttemptSuffix step.id (".check." ++ attempt)
        else if kind = "retry-eval" then trimAttemptSuffix step.id (".eval." ++ attempt)
        else none
      legacy <|> trimAttemptSuffix step.id (".attempt." ++ attempt) <|>
        trimAttemptSuffix step.id (".iteration." ++ attempt)
  let byOwner : Option String :=
    if step.meta .ralphStepID ≠ "" ∧ (kind = "run" ∨ kind = "check" ∨ kind = "scope")
    then some (step.meta .ralphStepID) else none
  let byName : Option String :=
    if kind = "run" ∨ kind = "check" ∨ kind = "scope" ∨ kind = "retry-run" ∨ kind = "retry-eval"
    then beforeLast step.id ".run." <|> beforeLast step.id ".check." <|> beforeLast step.id ".eval."
    else none
  byAttempt <|> byOwner <|> byName

/-! ## Creating the beads -/

structure Options where
  title : String := ""
  vars : List (String × String) := []
  preserveRootType : Bool := false
  deferAssignees : Bool := false

structure Result where
  rootID : String
  idMapping : IDMapping
  created : ℕ

variable (recipe : Recipe)

/-- Graph workflows and the attempts of their loops keep the types of their steps. -/
def preservesGraphActionTypes : Bool :=
  match recipe.steps with
  | [] => false
  | root :: _ => root.meta .kind = "workflow" || (root.meta .attempt ≠ "" && root.meta .stepRef ≠ "")

def nonRootStepBeadType (currentType : String) : String := if currentType = "task" then "step" else currentType

/-- The variables of the call over the defaults of the recipe. -/
def applyVarDefaults (vars defaults : List (String × String)) : List (String × String) :=
  vars ++ defaults.filter fun kv => (vars.lookup kv.1).isNone

/-- The record of the variables on the root: those with a value. -/
def stampFormulaVars (vars : List (String × String)) (m : Metadata) : Metadata :=
  vars.foldr (fun kv m => if kv.2 = "" then m else m.set (.other ("gc.var." ++ kv.1)) kv.2) m

/-- What the creation loop carries. -/
structure Progress where
  idMapping : IDMapping := []
  parents : IDMapping := []
  createdIDs : List String := []
  embedded : List RecipeDep := []
  pendingAssignees : IDMapping := []

/-- The dependencies of a step that are no parenthood. -/
def stepDeps (step : RecipeStep) : List RecipeDep :=
  recipe.deps.filter fun dep => dep.stepID = step.id ∧ dep.type ≠ .parentChild

variable (st : Progress)

/-- The bead that a dependency of a step is already materialized as. -/
def Progress.blocker (dep : RecipeDep) : Option String := (st.idMapping.lookup dep.dependsOnID).filter (· ≠ "")

variable (recipe : Recipe) (st : Progress) (step : RecipeStep) (b : Bead)

/-- What a step that is no root adds to its bead. -/
def placeStep : Bead :=
  let graphWorkflow := preservesGraphActionTypes recipe
  let parent := (recipe.deps.find? fun dep => dep.stepID = step.id ∧ dep.type = .parentChild).bind
    fun dep => st.idMapping.lookup dep.dependsOnID
  let m := if b.meta .stepRef = "" then b.metadata.set .stepRef step.id else b.metadata
  let rootID := (recipe.steps.head?.map fun root => st.idMapping.get root.id).getD ""
  let m := if (graphWorkflow ∨ step.meta .kind ≠ "") ∧ m.get .rootBeadID = "" ∧ rootID ≠ ""
    then m.set .rootBeadID rootID else m
  let m := match (logicalRecipeStepID step).bind fun logical => st.idMapping.lookup logical with
    | some logicalBeadID => m.set .logicalBeadID logicalBeadID
    | none => m
  { b with
    type := if graphWorkflow then b.type else nonRootStepBeadType b.type
    parentID := parent.getD b.parentID
    ref := step.id
    metadata := m }

variable (opts : Options) (vars : List (String × String))

def placeRoot (step : RecipeStep) (b : Bead) : Bead :=
  { b with
    type := if opts.preserveRootType ∨ step.meta .kind = "workflow" ∨ step.meta .kind = "wisp" then b.type
      else "molecule"
    ref := recipe.name
    title := if opts.title = "" then b.title else substitute vars opts.title
    metadata := stampFormulaVars vars b.metadata }

/-- An assignee is withheld from a step of a graph workflow whose blockers are not all there yet. -/
def withholds : Bool :=
  !step.isRoot && preservesGraphActionTypes recipe && b.assignee ≠ "" &&
    (stepDeps recipe step).any fun dep => (st.blocker dep).isNone

/-- The bead without the assignee that is withheld from it. -/
def withheld : Bead :=
  if withholds recipe st step b then { b with assignee := "" } else b

/-- The bead of a step before it has a place in the recipe. -/
def draftOf (step : RecipeStep) : Bead :=
  if opts.deferAssignees then deferBeadRouting (stepToBead step vars) else stepToBead step vars

variable (recipe : Recipe) (opts : Options) (vars : List (String × String)) (st : Progress) (step : RecipeStep)

def placedBead : Bead :=
  if step.isRoot then placeRoot recipe opts vars step (draftOf opts vars step)
  else placeStep recipe st step (draftOf opts vars step)

/-- The bead of a step as it is created, its assignee perhaps withheld. -/
def beadOf : Bead :=
  let b := withheld recipe st step (placedBead recipe opts vars st step)
  if preservesGraphActionTypes recipe && !opts.deferAssignees then fenceGraphWorkflowBead b else b

/-- The assignee a step gets once everything is wired. -/
def pendingAssignee : Option String :=
  let b := draftOf opts vars step
  if withholds recipe st step b then some b.assignee else none

/-! What a step says under a key that instantiation has no part in, its bead says too. -/

/-- The keys that instantiation writes. -/
def instantiateKeys : List Key :=
  [.deferredType, .deferredAssignee, .routedTo, .deferredRoutedTo, .executionRoutedTo,
    .deferredExecutionRoutedTo, .instantiating, .stepRef, .rootBeadID, .logicalBeadID]

/-- A key that instantiation has no part in. -/
def Untouched (k : Key) : Prop := k ∉ instantiateKeys ∧ ∀ name, k ≠ .other name

variable {k : Key}

lemma meta_stepToBead (hk : ∀ name, k ≠ .other name) (step : RecipeStep) (vars : List (String × String)) :
    (stepToBead step vars).meta k = substitute vars (step.meta k) := by
  rw [stepToBead, Bead.meta]
  dsimp only
  split_ifs
  · rw [get_substituteMetadata, RecipeStep.meta]
  · rw [Metadata.get_set, if_neg (hk "notes"), get_substituteMetadata, RecipeStep.meta]

lemma meta_deferBeadMetadataValue {sourceKey deferredKey : Key} (hsource : k ≠ sourceKey)
    (hdeferred : k ≠ deferredKey) (b : Bead) :
    (deferBeadMetadataValue sourceKey deferredKey b).meta k = b.meta k := by
  rw [deferBeadMetadataValue]
  split_ifs
  · rfl
  · simp [Bead.meta, hsource, hdeferred]

lemma get_stampFormulaVars (hk : ∀ name, k ≠ .other name) (vars : List (String × String))
    (m : Metadata) : (stampFormulaVars vars m).get k = m.get k := by
  induction vars with
  | nil => rfl
  | cons kv vars ih =>
    rw [stampFormulaVars, List.foldr_cons]
    split_ifs
    · exact ih
    · rw [Metadata.get_set, if_neg (hk _)]
      exact ih

section
variable (hk : Untouched k) (recipe : Recipe) (opts : Options) (vars : List (String × String)) (st : Progress)
  (step : RecipeStep) (b : Bead)

include hk

lemma meta_deferBeadRouting : (deferBeadRouting b).meta k = b.meta k := by
  have hne : ∀ k' ∈ instantiateKeys, k ≠ k' := fun k' hk' h => hk.1 (h ▸ hk')
  rw [deferBeadRouting, meta_deferBeadMetadataValue (hne _ (by decide)) (hne _ (by decide)),
    meta_deferBeadMetadataValue (hne _ (by decide)) (hne _ (by decide))]
  have htype : k ≠ .deferredType := hne _ (by decide)
  have hassignee : k ≠ .deferredAssignee := hne _ (by decide)
  split_ifs <;> simp [Bead.meta, htype, hassignee]

lemma meta_fenceGraphWorkflowBead : (fenceGraphWorkflowBead b).meta k = b.meta k := by
  have hne : k ≠ .instantiating := fun h => hk.1 (h ▸ by decide)
  rw [fenceGraphWorkflowBead, meta_deferBeadRouting hk]
  simp [Bead.meta, hne]

lemma meta_placeStep : (placeStep recipe st step b).meta k = b.meta k := by
  have href : k ≠ .stepRef := fun h => hk.1 (h ▸ by decide)
  have hroot : k ≠ .rootBeadID := fun h => hk.1 (h ▸ by decide)
  have hlogical : k ≠ .logicalBeadID := fun h => hk.1 (h ▸ by decide)
  rw [placeStep, Bead.meta]
  dsimp only
  split <;> split_ifs <;> simp [Bead.meta, href, hroot, hlogical]

lemma meta_draftOf : (draftOf opts vars step).meta k = substitute vars (step.meta k) := by
  rw [draftOf]
  split_ifs
  · rw [meta_deferBeadRouting hk, meta_stepToBead hk.2]
  · rw [meta_stepToBead hk.2]

lemma meta_placedBead : (placedBead recipe opts vars st step).meta k = substitute vars (step.meta k) := by
  rw [placedBead]
  split_ifs
  · rw [placeRoot, Bead.meta, get_stampFormulaVars hk.2]
    exact meta_draftOf hk opts vars step
  · rw [meta_placeStep hk, meta_draftOf hk]

omit hk in
lemma meta_withheld : (withheld recipe st step b).meta k = b.meta k := by
  rw [withheld]
  split_ifs <;> rfl

lemma meta_beadOf : (beadOf recipe opts vars st step).meta k = substitute vars (step.meta k) := by
  rw [beadOf]
  split_ifs
  · rw [meta_fenceGraphWorkflowBead hk, meta_withheld, meta_placedBead hk]
  · rw [meta_withheld, meta_placedBead hk]

end

/-- A refusal undoes the instantiation as far as it can be. -/
def refuse (problem : Option String) : M Unit :=
  match problem with
  | none => pure ()
  | some problem => do
      markFailed st.createdIDs
      throw (.failed problem)

variable (check : BeadCheck) (recipe : Recipe) (opts : Options)

def createStep (vars : List (String × String)) (st : Progress) (step : RecipeStep) : M Progress := do
  let b := beadOf recipe opts vars st step
  refuse st (check step.id b)
  let deps := stepDeps recipe step
  let created ← StoreM.create b (deps.filterMap fun dep => (st.blocker dep).map fun id => (dep.type, id))
  pure {
    idMapping := st.idMapping.set step.id created.id
    parents := st.parents.set step.id created.parentID
    createdIDs := st.createdIDs ++ [created.id]
    embedded := st.embedded ++ deps.filter fun dep => (st.blocker dep).isSome
    pendingAssignees := match pendingAssignee recipe opts vars st step with
      | some assignee => st.pendingAssignees.set step.id assignee
      | none => st.pendingAssignees }

/-- A write that did not find its bead is a refusal. -/
def orMarkFailed (problem : String) (found : Bool) : M Unit := refuse st (if found then none else some problem)

variable (parents : IDMapping) (dep : RecipeDep)

/-- Set the parent of a bead that has another; the parents recorded so far are carried along. -/
def setParent (fromID toID : String) : M IDMapping :=
  if dep.type = .parentChild ∧ parents.get dep.stepID ≠ toID then do
    let found ← StoreM.update fromID { parentID := some toID }
    orMarkFailed st ("setting parent for dep " ++ dep.stepID ++ "->" ++ dep.dependsOnID) found
    pure (parents.set dep.stepID toID)
  else pure parents

def wireDep : M IDMapping :=
  match st.idMapping.lookup dep.stepID, st.idMapping.lookup dep.dependsOnID with
  | some fromID, some toID =>
    if dep ∈ st.embedded then pure parents
    else do
      let parents ← setParent st parents dep fromID toID
      StoreM.depAdd fromID toID dep.type
      pure parents
  | _, _ => pure parents

def wireDeps (st : Progress) : M Unit := do
  let _ ← recipe.deps.foldlM (wireDep st) st.parents
  pure ()

/-- Assign a step whose assignee was withheld. -/
def assignStep (pending : String × String) : M Unit :=
  if pending.2 ≠ "" ∧ st.idMapping.get pending.1 ≠ "" then do
    let found ← StoreM.update (st.idMapping.get pending.1) { assignee := some pending.2 }
    orMarkFailed st ("assigning graph step " ++ pending.1) found
  else pure ()

/-- Activate the bead of a step that was created fenced. -/
def activateStep (step : RecipeStep) : M Unit :=
  if st.idMapping.get step.id ≠ "" then do
    let found ← activateFencedGraphWorkflowBead (st.idMapping.get step.id)
    orMarkFailed st ("activating graph step " ++ step.id) found
  else pure ()

/-- What follows the creation of the beads: wiring, assigning, activating. -/
def finishInstantiate (opts : Options) (st : Progress) : M Unit := do
  let graphWorkflow := preservesGraphActionTypes recipe
  Runs.Fallible.when (!recipe.rootOnly) (wireDeps recipe st)
  Runs.Fallible.when graphWorkflow (forM st.pendingAssignees (assignStep st))
  Runs.Fallible.when (graphWorkflow && !opts.deferAssignees) (forM recipe.steps (activateStep st))

/-- Create the beads of a recipe and wire them. -/
def instantiate : M Result := do
  Runs.Fallible.orElse (recipe.steps ≠ []) (.failed ("recipe " ++ Go.quote recipe.name ++ " has no steps"))
  let vars := applyVarDefaults opts.vars recipe.vars
  let steps := if recipe.rootOnly then recipe.steps.take 1 else recipe.steps
  let st ← steps.foldlM (createStep check recipe opts vars) {}
  finishInstantiate recipe opts st
  pure {
    rootID := st.createdIDs.headD ""
    idMapping := st.idMapping
    created := st.createdIDs.length }

end DeliveryEngine.Molecule
