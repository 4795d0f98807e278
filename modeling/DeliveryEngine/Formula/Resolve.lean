import DeliveryEngine.Formula.Types
import DeliveryEngine.Go.Override
import DeliveryEngine.Go.Result
import Mathlib.Data.List.ReduceOption

/-!
# Inheritance

A formula may extend others.  Resolving it resolves each parent, merges them in order, and lays what the formula
declares itself over the result; of the compose rules only some kinds are carried over when two sides both declare
rules.  `LosesNothing` is what a resolved formula has to hold of what was declared and inherited.
-/

namespace DeliveryEngine.Formulas

open List
open Go (override Laid Agree Survives)
open Formula (compose)

/-! ## Merging -/

/-- Child steps laid over those of the parents. -/
def mergeSteps (parent child : List Step) : List Step := override Step.id parent child

/-- One rule set laid over another.  A side that is absent leaves the other as it is. -/
def mergeComposeRules : Option ComposeRules → Option ComposeRules → Option ComposeRules
  | base, none => base
  | none, some overlay => some overlay
  | some base, some overlay =>
    some
      { bondPoints := override BondPoint.id base.bondPoints overlay.bondPoints
        hooks := base.hooks ++ overlay.hooks
        expand := base.expand ++ overlay.expand
        map := base.map ++ overlay.map }

/-- Variables of a parent, under those there already. -/
def inheritVars (vars parent : Go.GoMap VarDef) : Go.GoMap VarDef := vars ∪ parent

/-! ## The resolver -/

/-- What the resolver asks of the rest of the package: the checks of a formula, and its compiler
requirements.  They decide whether a formula is returned, never what it holds. -/
structure Checks where
  validate : Formula → Except String Unit
  compilerConstraints : Formula → Except String (List CompilerConstraint)
  directConstraints : Formula → List CompilerConstraint
  constraintSet : String → List CompilerConstraint → Except String Unit
  descriptionFiles : Formula → Except String Unit

/-- The formula a name is found under in the search paths. -/
abbrev Library := String → Except String Formula

def inherit (merged parent : Formula) : Formula :=
  { merged with
    contract := if merged.contract = "" then parent.contract else merged.contract
    requires := merged.requires.orElse fun _ => parent.requires
    phase := if merged.phase = "" then parent.phase else merged.phase
    pour := merged.pour || parent.pour
    vars := inheritVars merged.vars parent.vars
    steps := merged.steps ++ parent.steps
    template := merged.template ++ parent.template
    compose := mergeComposeRules merged.compose parent.compose }

/-- What merging starts from: the child's own header. -/
def seed (child : Formula) : Formula :=
  { formula := child.formula
    description := child.description
    contract := child.contract
    requires := child.requires
    type := child.type
    phase := child.phase
    pour := child.pour
    source := child.source }

/-- What the child declares, laid over what was inherited. -/
def applyChild (merged child : Formula) : Formula :=
  { merged with
    vars := child.vars ∪ merged.vars
    steps := mergeSteps merged.steps child.steps
    template := mergeSteps merged.template child.template
    compose := mergeComposeRules merged.compose child.compose
    description := if child.description = "" then merged.description else child.description }

/-- The requirements a merged formula ends up with. -/
def setConstraints (f : Formula) (constraints : List CompilerConstraint) : Formula :=
  if constraints = [] then f
  else
    { f with
      compilerRequirementSources := constraints
      requires := some (", ".intercalate (constraints.map CompilerConstraint.raw)) }

namespace Checks

variable (checks : Checks) (library : Library)

/-- One parent: loaded, resolved by `resolveParent`, and with its compiler requirements. -/
def loadParent (resolveParent : Formula → Except String Formula) (name : String) :
    Except String (Formula × List CompilerConstraint) := do
  let declared ← (library name).mapError (s!"extends {name}: " ++ ·)
  let parent ← (resolveParent declared).mapError (s!"resolve parent {name}: " ++ ·)
  let constraints ← (checks.compilerConstraints parent).mapError (s!"resolve parent {name}: " ++ ·)
  pure (parent, constraints)

/-- `Resolve`.  `chain` holds the names being resolved; `fuel` bounds the depth, which the cycle check
bounds in the source. -/
def resolve : ℕ → List String → Formula → Except String Formula
  | 0, _, _ => throw "out of fuel"
  | fuel + 1, chain, f => do
      if f.formula ∈ chain then
        throw (s!"circular extends detected: " ++ " -> ".intercalate (chain ++ [f.formula]))
      if f.extends_ = [] then
        checks.validate f
        return f
      let parents ← f.extends_.mapM (checks.loadParent library (resolve fuel (chain ++ [f.formula])))
      let constraints := checks.directConstraints f ++ parents.flatMap Prod.snd
      let merged := applyChild ((parents.map Prod.fst).foldl inherit (seed f)) f
      checks.constraintSet merged.formula constraints
      let merged := setConstraints merged constraints
      checks.validate merged
      checks.descriptionFiles merged
      pure merged

def Parents (fuel : ℕ) (chain : List String) (f : Formula) (parents : List Formula) : Prop :=
  List.Forall₂ (fun name parent => ∃ declared, library name = .ok declared ∧
    checks.resolve library fuel (chain ++ [f.formula]) declared = .ok parent) f.extends_ parents

variable {checks library}

lemma resolve_eq_ok {fuel : ℕ} {chain : List String} {f r : Formula} (hext : f.extends_ ≠ [])
    (h : checks.resolve library fuel chain f = .ok r) :
    ∃ n parents constraints, checks.Parents library n chain f parents ∧
      r = setConstraints (applyChild (parents.foldl inherit (seed f)) f) constraints := by
  cases fuel with
  | zero => cases h
  | succ n =>
    have h := Go.refusal_bind_eq_ok h
    rw [if_neg hext] at h
    obtain ⟨loaded, hloaded, h⟩ := Go.bind_eq_ok.mp h
    obtain ⟨-, -, h⟩ := Go.bind_eq_ok.mp h
    obtain ⟨-, -, h⟩ := Go.bind_eq_ok.mp h
    obtain ⟨-, -, h⟩ := Go.bind_eq_ok.mp h
    refine ⟨n, loaded.map Prod.fst, _, ?_, (Except.ok.inj h).symm⟩
    rw [Parents, List.forall₂_map_right_iff]
    refine (Go.mapM_eq_ok.mp hloaded).imp fun name parent hp => ?_
    obtain ⟨declared, hdeclared, hp⟩ := Go.mapError_bind_eq_ok hp
    obtain ⟨resolved, hresolved, hp⟩ := Go.mapError_bind_eq_ok hp
    obtain ⟨_, -, hp⟩ := Go.mapError_bind_eq_ok hp
    obtain rfl := Except.ok.inj hp
    exact ⟨declared, hdeclared, hresolved⟩

end Checks

/-! ## What merging keeps -/

variable (sets : List (Option ComposeRules))

/-- A chain of rule sets, each laid over those before. -/
def mergeAll : Option ComposeRules := sets.foldl mergeComposeRules none

variable (set : Option ComposeRules)

/-- The rules of a set, none when it is absent. -/
def rulesOf : ComposeRules := set.getD {}

lemma mergeAll_concat : mergeAll (sets ++ [set]) = mergeComposeRules (mergeAll sets) set := by
  rw [mergeAll, foldl_append]
  rfl

lemma mergeAll_eq_none_iff {sets : List (Option ComposeRules)} : mergeAll sets = none ↔ sets.reduceOption = [] := by
  induction sets using List.reverseRecOn with
  | nil => simp [mergeAll]
  | append_singleton sets set ih =>
    rw [mergeAll_concat, reduceOption_append]
    cases set with
    | none => simpa [mergeComposeRules] using ih
    | some rules =>
      cases mergeAll sets with
      | none => simp [mergeComposeRules]
      | some base => simp [mergeComposeRules]

section Kinds
variable {β : Type} (rules : ComposeRules → List β)

lemma mergeAll_appended (hnil : rules {} = [])
    (hmerge : ∀ base overlay, rules (rulesOf (mergeComposeRules (some base) (some overlay))) =
      rules base ++ rules overlay) (sets : List (Option ComposeRules)) :
    rules (rulesOf (mergeAll sets)) = sets.flatMap (rules ∘ rulesOf) := by
  induction sets using List.reverseRecOn with
  | nil => exact hnil
  | append_singleton sets set ih =>
    rw [mergeAll_concat, flatMap_append, ← ih, flatMap_singleton]
    cases set with
    | none => simp [mergeComposeRules, rulesOf, hnil]
    | some overlay =>
      cases mergeAll sets with
      | none => simp [mergeComposeRules, rulesOf, hnil]
      | some base => exact hmerge base overlay

lemma mergeAll_forgotten (hnil : rules {} = [])
    (hmerge : ∀ base overlay, rules (rulesOf (mergeComposeRules (some base) (some overlay))) = [])
    (sets : List (Option ComposeRules)) :
    rules (rulesOf (mergeAll sets)) =
      if sets.reduceOption.length ≤ 1 then sets.flatMap (rules ∘ rulesOf) else [] := by
  induction sets using List.reverseRecOn with
  | nil => exact hnil
  | append_singleton sets set ih =>
    rw [mergeAll_concat, flatMap_append, reduceOption_append]
    cases set with
    | none =>
      rw [show mergeComposeRules (mergeAll sets) none = mergeAll sets by cases mergeAll sets <;> rfl, ih]
      simp [rulesOf, hnil]
    | some overlay =>
      cases hbase : mergeAll sets with
      | none =>
        have hempty := mergeAll_eq_none_iff.mp hbase
        rw [hbase, hempty] at ih
        have hflat : sets.flatMap (rules ∘ rulesOf) = [] := by simpa [rulesOf, hnil] using ih.symm
        rw [hempty, hflat]
        simp [mergeComposeRules, rulesOf]
      | some base =>
        have hne : sets.reduceOption ≠ [] := fun h => by
          rw [mergeAll_eq_none_iff.mpr h] at hbase
          cases hbase
        rw [hmerge, if_neg (by simp; omega)]

end Kinds

/-! ## Nothing declared or inherited is lost -/

/-- The bond points inherited from parents, each parent's laid over those before. -/
def inheritedBondPoints (parents : List Formula) : List BondPoint :=
  parents.foldl (fun points parent => override BondPoint.id points parent.rules.bondPoints) []

/-- The resolved formula holds every rule the child declares and every compose rule of a parent but the bond
points overridden by identifier, and the steps of both: a parent's in its place unless overridden, a child's
in the place of the one it overrides or at the end. -/
structure LosesNothing (child : Formula) (parents : List Formula) (resolved : Formula) : Prop where
  advice : child.advice.Sublist resolved.advice
  hooks : ((parents ++ [child]).flatMap (·.rules.hooks)).Sublist resolved.rules.hooks
  expand : ((parents ++ [child]).flatMap (·.rules.expand)).Sublist resolved.rules.expand
  map : ((parents ++ [child]).flatMap (·.rules.map)).Sublist resolved.rules.map
  branch : ((parents ++ [child]).flatMap (·.rules.branch)).Sublist resolved.rules.branch
  gate : ((parents ++ [child]).flatMap (·.rules.gate)).Sublist resolved.rules.gate
  aspects : ((parents ++ [child]).flatMap (·.rules.aspects)).Sublist resolved.rules.aspects
  survives : Survives BondPoint.id ((parents ++ [child]).flatMap (·.rules.bondPoints)) resolved.rules.bondPoints
  bondPoints : Laid BondPoint.id (inheritedBondPoints parents) child.rules.bondPoints resolved.rules.bondPoints
  steps : Laid Step.id (parents.flatMap Formula.steps) child.steps resolved.steps
  template : Laid Step.id (parents.flatMap Formula.template) child.template resolved.template

/-- The child declares no advice; at most one of the parents and the child declares compose rules, or none of
them a branch, a gate or an aspect; and the child does not declare two different bond points, steps or
template steps under one inherited identifier. -/
structure Mergeable (child : Formula) (parents : List Formula) : Prop where
  advice : child.advice = []
  rules : ((parents ++ [child]).map compose).reduceOption.length ≤ 1 ∨
    ∀ f ∈ parents ++ [child], f.rules.branch = [] ∧ f.rules.gate = [] ∧ f.rules.aspects = []
  bondPoints : Agree BondPoint.id (parents.flatMap (·.rules.bondPoints)) child.rules.bondPoints
  steps : Agree Step.id (parents.flatMap Formula.steps) child.steps
  template : Agree Step.id (parents.flatMap Formula.template) child.template

section Fold
variable (parents : List Formula)

lemma foldl_inherit (start : Formula) :
    (parents.foldl inherit start).steps = start.steps ++ parents.flatMap Formula.steps ∧
      (parents.foldl inherit start).template = start.template ++ parents.flatMap Formula.template ∧
      (parents.foldl inherit start).advice = start.advice ∧
      (parents.foldl inherit start).compose = (parents.map compose).foldl mergeComposeRules start.compose := by
  induction parents generalizing start with
  | nil => simp
  | cons parent parents ih =>
    obtain ⟨hsteps, htemplate, hadvice, hcompose⟩ := ih (inherit start parent)
    rw [foldl_cons]
    refine ⟨?_, ?_, hadvice, hcompose⟩
    · rw [hsteps, flatMap_cons, ← append_assoc]
      rfl
    · rw [htemplate, flatMap_cons, ← append_assoc]
      rfl

lemma resolved_fields (f : Formula) (parents : List Formula) (constraints : List CompilerConstraint)
    {r : Formula} (hr : r = setConstraints (applyChild (parents.foldl inherit (seed f)) f) constraints) :
    r.advice = [] ∧ r.steps = override Step.id (parents.flatMap Formula.steps) f.steps ∧
      r.template = override Step.id (parents.flatMap Formula.template) f.template ∧
      r.compose = mergeAll ((parents ++ [f]).map compose) := by
  obtain ⟨hsteps, htemplate, hadvice, hcompose⟩ := foldl_inherit parents (seed f)
  have hfields : ∀ g : Formula, (setConstraints g constraints).advice = g.advice ∧
      (setConstraints g constraints).steps = g.steps ∧
      (setConstraints g constraints).template = g.template ∧
      (setConstraints g constraints).compose = g.compose := by
    intro g
    unfold setConstraints
    split <;> exact ⟨rfl, rfl, rfl, rfl⟩
  obtain ⟨ha, hs, ht, hc⟩ := hfields (applyChild (parents.foldl inherit (seed f)) f)
  subst hr
  refine ⟨ha.trans hadvice, ?_, ?_, ?_⟩
  · rw [hs]
    exact congrArg (fun steps => override Step.id steps f.steps) hsteps
  · rw [ht]
    exact congrArg (fun steps => override Step.id steps f.template) htemplate
  · rw [hc, map_append, map_singleton, mergeAll_concat]
    exact congrArg (fun set => mergeComposeRules set f.compose) hcompose

lemma bondPoints_mergeAll : (rulesOf (mergeAll (parents.map compose))).bondPoints = inheritedBondPoints parents := by
  induction parents using List.reverseRecOn with
  | nil => rfl
  | append_singleton parents parent ih =>
    rw [map_append, map_singleton, mergeAll_concat, inheritedBondPoints, foldl_append, ← inheritedBondPoints, ← ih]
    cases hparent : parent.compose with
    | none => cases mergeAll (parents.map compose) <;> simp [mergeComposeRules, rulesOf, Formula.rules,
        hparent, override]
    | some overlay =>
      cases mergeAll (parents.map compose) with
      | none => simp [mergeComposeRules, rulesOf, Formula.rules, hparent]
      | some base => simp [mergeComposeRules, rulesOf, Formula.rules, hparent]

lemma survives_inheritedBondPoints :
    Survives BondPoint.id (parents.flatMap (·.rules.bondPoints)) (inheritedBondPoints parents) := by
  induction parents using List.reverseRecOn with
  | nil => exact fun i x h => by simp at h
  | append_singleton parents parent ih =>
    rw [flatMap_append, flatMap_singleton, inheritedBondPoints, foldl_append]
    exact ih.override

lemma exists_inheritedBondPoint_iff {parents : List Formula} {id : String} :
    (∃ b ∈ inheritedBondPoints parents, b.id = id) ↔ ∃ b ∈ parents.flatMap (·.rules.bondPoints), b.id = id := by
  constructor
  · rintro ⟨b, hb, rfl⟩
    refine ⟨b, ?_, rfl⟩
    induction parents using List.reverseRecOn with
    | nil => cases hb
    | append_singleton parents parent ih =>
      rw [inheritedBondPoints, foldl_append] at hb
      rw [flatMap_append, flatMap_singleton, mem_append]
      exact (Go.mem_of_mem_override hb).imp_left ih
  · rintro ⟨b, hb, rfl⟩
    obtain ⟨i, hi⟩ := mem_iff_getElem?.mp hb
    rcases survives_inheritedBondPoints parents i b hi with h | ⟨j, y, -, -, hy, h⟩
    · exact ⟨b, h, rfl⟩
    · exact ⟨y, h, hy⟩

end Fold

lemma forgotten_sublist_iff {β : Type} (rules : ComposeRules → List β) (hnil : rules {} = [])
    (hmerge : ∀ base overlay, rules (rulesOf (mergeComposeRules (some base) (some overlay))) = [])
    (formulas : List Formula) :
    (formulas.flatMap (rules ∘ Formula.rules)).Sublist (rules (rulesOf (mergeAll (formulas.map compose)))) ↔
      (formulas.map compose).reduceOption.length ≤ 1 ∨ ∀ f ∈ formulas, rules f.rules = [] := by
  rw [mergeAll_forgotten rules hnil hmerge, flatMap_map]
  split
  next h => exact iff_of_true (List.Sublist.refl _) (.inl h)
  next h =>
    rw [sublist_nil, flatMap_eq_nil_iff]
    exact ⟨.inr, fun hor => hor.resolve_left h⟩

/-- A resolved formula loses nothing exactly when its parents and itself can be merged so. -/
theorem loses_nothing_iff (checks : Checks) (library : Library) (fuel : ℕ) (chain : List String)
    (f resolved : Formula) (hext : f.extends_ ≠ [])
    (h : checks.resolve library fuel chain f = .ok resolved) :
    ∃ n parents, checks.Parents library n chain f parents ∧
      (LosesNothing f parents resolved ↔ Mergeable f parents) := by
  obtain ⟨n, parents, constraints, hparents, hr⟩ := Checks.resolve_eq_ok hext h
  obtain ⟨hadvice, hsteps, htemplate, hcompose⟩ := resolved_fields f parents constraints hr
  refine ⟨n, parents, hparents, ?_⟩
  have hrules : resolved.rules = rulesOf (mergeAll ((parents ++ [f]).map compose)) := congrArg rulesOf hcompose
  have hpoints : resolved.rules.bondPoints =
      override BondPoint.id (inheritedBondPoints parents) f.rules.bondPoints := by
    rw [hrules, bondPoints_mergeAll, inheritedBondPoints, foldl_append]
    rfl
  have hagree : Agree BondPoint.id (inheritedBondPoints parents) f.rules.bondPoints ↔
      Agree BondPoint.id (parents.flatMap (·.rules.bondPoints)) f.rules.bondPoints := by
    simp only [Agree, exists_inheritedBondPoint_iff]
  have hbranch := forgotten_sublist_iff ComposeRules.branch rfl (fun _ _ => rfl) (parents ++ [f])
  have hgate := forgotten_sublist_iff ComposeRules.gate rfl (fun _ _ => rfl) (parents ++ [f])
  have haspects := forgotten_sublist_iff ComposeRules.aspects rfl (fun _ _ => rfl) (parents ++ [f])
  rw [← hrules] at hbranch hgate haspects
  constructor
  · intro hl
    refine ⟨by simpa [hadvice] using hl.advice, ?_, hagree.mp ?_, ?_, ?_⟩
    · by_cases hone : ((parents ++ [f]).map compose).reduceOption.length ≤ 1
      · exact .inl hone
      · exact .inr fun g hg => ⟨(hbranch.mp hl.branch).resolve_left hone g hg,
          (hgate.mp hl.gate).resolve_left hone g hg, (haspects.mp hl.aspects).resolve_left hone g hg⟩
    · exact Go.laid_override_iff.mp (hpoints ▸ hl.bondPoints)
    · exact Go.laid_override_iff.mp (hsteps ▸ hl.steps)
    · exact Go.laid_override_iff.mp (htemplate ▸ hl.template)
  · intro hm
    have happended : ∀ {β : Type} (rules : ComposeRules → List β), rules {} = [] →
        (∀ base overlay, rules (rulesOf (mergeComposeRules (some base) (some overlay))) =
          rules base ++ rules overlay) →
        ((parents ++ [f]).flatMap (rules ∘ Formula.rules)).Sublist (rules resolved.rules) := by
      intro β rules hnil hmerge
      rw [hrules, mergeAll_appended rules hnil hmerge, flatMap_map]
      exact List.Sublist.refl _
    refine ⟨by rw [hm.advice]; exact nil_sublist _, happended _ rfl fun _ _ => rfl,
      happended _ rfl fun _ _ => rfl, happended _ rfl fun _ _ => rfl,
      hbranch.mpr (hm.rules.imp_right fun h g hg => (h g hg).1),
      hgate.mpr (hm.rules.imp_right fun h g hg => (h g hg).2.1),
      haspects.mpr (hm.rules.imp_right fun h g hg => (h g hg).2.2), ?_, ?_, ?_, ?_⟩
    · rw [hpoints, flatMap_append, flatMap_singleton]
      exact (survives_inheritedBondPoints parents).override
    · rw [hpoints]
      exact Go.laid_override_iff.mpr (hagree.mpr hm.bondPoints)
    · rw [hsteps]
      exact Go.laid_override_iff.mpr hm.steps
    · rw [htemplate]
      exact Go.laid_override_iff.mpr hm.template

/-- Checks that find nothing wrong; the source's find nothing wrong with the formulas below. -/
def accepting : Checks where
  validate _ := pure ()
  compilerConstraints _ := pure []
  directConstraints _ := []
  constraintSet _ _ := pure ()
  descriptionFiles _ := pure ()

/-- A parent with two steps that run in parallel, declared by a branch rule. -/
def reviewBase : Formula where
  formula := "review-base"
  steps := ["draft", "lint", "test", "merge"].map fun id => .mk { id := id, title := id } [] []
  compose := some { branch := [{ source := "draft", steps := ["lint", "test"], join := "merge" }] }

/-- A child that only adds a hook. -/
def hookedReview : Formula where
  formula := "hooked-review"
  extends_ := ["review-base"]
  compose := some { hooks := [{ trigger := "label:security", attach := "audit" }] }

/-- A child that adds a step and no rule. -/
def longerReview : Formula where
  formula := "longer-review"
  extends_ := ["review-base"]
  steps := [.mk { id := "announce", title := "announce", needs := ["merge"] } [] []]

def reviewLibrary : Library := fun name =>
  if name = "review-base" then pure reviewBase else throw s!"formula {name} not found in search paths"

/-- The child's hook drops the branch rule it inherits: the steps that were to run in parallel and the one that
was to wait for both are no longer ordered. -/
theorem hook_drops_inherited_branch : ∃ resolved, accepting.resolve reviewLibrary 2 [] hookedReview = .ok resolved ∧
      resolved.rules.branch = [] ∧ ¬ LosesNothing hookedReview [reviewBase] resolved := by
  refine ⟨_, rfl, rfl, fun h => ?_⟩
  exact absurd h.branch.length_le (by decide)

theorem loses_nothing_iff_longerReview : ∃ n parents, accepting.Parents reviewLibrary n [] longerReview parents ∧
      (LosesNothing longerReview parents
        (setConstraints (applyChild ([reviewBase].foldl inherit (seed longerReview)) longerReview) []) ↔
          Mergeable longerReview parents) :=
  loses_nothing_iff accepting reviewLibrary 2 [] longerReview _ (by decide) rfl

end DeliveryEngine.Formulas
