import DeliveryEngine.Handoff.Isolation

/-!
# What acceptance of a plan says

`DeliveryPlan.validate` is one walk over every generation and a row of checks after it.  `DeliveryPlan.Accepted` says
the same without the walk (`validate_eq_ok_iff`): each generation is in order on its own, no two live packages share an
id, and the checks on the composed plan hold.  A path is only contested inside a generation, so the owners that earlier
generations left are never looked at (`toOption_claimPath`).

Two live packages that authorize the same path and could be at work at once must not both be accepted
(`DeliveryPlan.Isolated`).  `isolated_iff` says which accepted plans keep to that, and `forked_plan_accepted` gives two
that do not.
-/

namespace DeliveryEngine.Handoff

open Go List

/-! ## Paths are contested inside a generation -/

variable (gen : ℕ) (owner : GoMap PathClaim) (path : String)

/-- The package of a generation that owns a path. -/
def ownerIn : Option String := (owner.get? path).bind (fun claim => if claim.gen = gen then some claim.id else none)

lemma ownerIn_set (c : String) (claim : PathClaim) : ownerIn gen (owner.set c claim) path =
      if path = c then (if claim.gen = gen then some claim.id else none)
      else ownerIn gen owner path := by
  unfold ownerIn
  rw [GoMap.get?_set]
  split <;> rfl

variable {found : PathClaim}

section Claims
variable {pkgs : List WorkPackage}

lemma toOption_claimPath (claim : PathClaim) (owner : GoMap PathClaim) (raw : String) :
    (claimPath pkgs claim owner raw).toOption = (repoRelative raw).toOption.bind (fun c =>
        if (isProtected c).isSome then none
        else if (ownerIn claim.gen owner c).all (dependencyOrdered pkgs · claim.id) then some c
        else none) := by
  unfold claimPath
  cases repoRelative raw with
  | error err => rfl
  | ok c =>
    cases hprotected : isProtected c with
    | some root => simp [hprotected, Except.toOption]
    | none =>
      cases hget : owner.get? c with
      | none => simp [hprotected, hget, ownerIn, Except.toOption]
      | some prior =>
        by_cases hgen : prior.gen = claim.gen
        · cases hordered : dependencyOrdered pkgs prior.id claim.id <;>
            simp [hprotected, hget, hgen, hordered, ownerIn, Except.toOption]
        · simp [hprotected, hget, hgen, ownerIn, Except.toOption]

variable {x : Except String String}

lemma toOption_eq_some {c : String} : x.toOption = some c ↔ x = .ok c := by
  cases x <;> simp [Except.toOption]

lemma toOption_eq_none : x.toOption = none ↔ ∃ err, x = .error err := by
  cases x <;> simp [Except.toOption]

lemma claimPaths_congr {claim claim' : PathClaim} (hid : claim.id = claim'.id)
    (hgen : claim.gen = claim'.gen) {owner owner' : GoMap PathClaim}
    (howner : ownerIn claim.gen owner = ownerIn claim.gen owner') (raws : List String) :
    (claimPaths pkgs claim owner raws).clean = (claimPaths pkgs claim' owner' raws).clean ∧
      ((claimPaths pkgs claim owner raws).problems = [] ↔ (claimPaths pkgs claim' owner' raws).problems = []) ∧
      ownerIn claim.gen (claimPaths pkgs claim owner raws).owner =
        ownerIn claim.gen (claimPaths pkgs claim' owner' raws).owner := by
  induction raws generalizing owner owner' with
  | nil => exact ⟨rfl, Iff.rfl, howner⟩
  | cons raw raws ih =>
    have hsame : (claimPath pkgs claim owner raw).toOption = (claimPath pkgs claim' owner' raw).toOption := by
      rw [toOption_claimPath, toOption_claimPath, hid, ← hgen, howner]
    rw [claimPaths, claimPaths]
    cases hclaim : claimPath pkgs claim owner raw with
    | error problem =>
      rw [hclaim] at hsame
      obtain ⟨problem', hclaim'⟩ := toOption_eq_none.mp hsame.symm
      rw [hclaim']
      obtain ⟨hclean, -, howners⟩ := ih howner
      exact ⟨hclean, by simp, howners⟩
    | ok c =>
      rw [hclaim] at hsame
      rw [toOption_eq_some.mp hsame.symm]
      have hset : ownerIn claim.gen (owner.set c claim) = ownerIn claim.gen (owner'.set c claim') := by
        funext path
        rw [ownerIn_set, ownerIn_set, howner, hid, hgen]
      obtain ⟨hclean, hproblems, howners⟩ := ih hset
      exact ⟨congrArg (c :: ·) hclean, hproblems, howners⟩

lemma gen_of_claimPaths {claim : PathClaim} {raws : List String} {owner : GoMap PathClaim}
    {path : String}
    (h : (claimPaths pkgs claim owner raws).owner.get? path = some found) :
    found.gen = claim.gen ∨ owner.get? path = some found := by
  induction raws generalizing owner with
  | nil => exact .inr h
  | cons raw raws ih =>
    rw [claimPaths] at h
    split at h
    · exact ih h
    · rcases ih h with hgen | hset
      · exact .inl hgen
      · rw [GoMap.get?_set] at hset
        split at hset
        · cases hset
          exact .inl rfl
        · exact .inr hset

end Claims

/-! ## Packages -/

section Walk
variable {intent : Intent} {gen : ℕ} {pkgs : List WorkPackage} {i : ℕ} {seen : Seen} {wp : WorkPackage}

lemma checkPackage_eq_nil_iff : (checkPackage intent gen pkgs i seen wp).2 = [] ↔
      (isID wp.id = true ∧ wp.id ∉ seen.ids) ∧
        let claimed := claimPaths pkgs ⟨wp.id, wp.id, gen⟩ seen.owner wp.authorizedPaths
        checkText intent wp.id wp = [] ∧ checkKind wp.id gen wp = [] ∧ claimed.problems = [] ∧
          checkArtifact wp.id claimed.clean wp = [] ∧ checkSatisfies intent wp.id wp = [] := by
  have hid : ∀ label, checkID label seen.ids wp = [] ↔ isID wp.id = true ∧ wp.id ∉ seen.ids := by
    intro label
    refine ⟨checkID_eq_nil, fun ⟨hid, hnew⟩ => ?_⟩
    simp [checkID, hid, hnew]
  by_cases hnew : isID wp.id = true ∧ wp.id ∉ seen.ids
  · have hlabel : packageLabel gen i seen.ids wp = wp.id := if_pos (by simp [hnew])
    simp only [checkPackage, hlabel, append_eq_nil_iff, hid, and_assoc]
  · simp only [checkPackage, append_eq_nil_iff, hid, hnew, false_and]

lemma ids_checkPackage (hid : isID wp.id = true) (hnew : wp.id ∉ seen.ids) :
    (checkPackage intent gen pkgs i seen wp).1.ids = wp.id :: seen.ids :=
  if_pos (by simp [hid, hnew])

lemma owner_checkPackage (hid : isID wp.id = true) (hnew : wp.id ∉ seen.ids) :
    (checkPackage intent gen pkgs i seen wp).1.owner =
      (claimPaths pkgs ⟨wp.id, wp.id, gen⟩ seen.owner wp.authorizedPaths).owner := by
  have hlabel : packageLabel gen i seen.ids wp = wp.id := if_pos (by simp [hid, hnew])
  rw [checkPackage, hlabel]

variable {rest : List WorkPackage}

/-- A walk without problems has none from any other start with the same owners of the generation, if the
ids are new there. -/
lemma checkPackages_eq_nil_of {seen' : Seen} (howner : ownerIn gen seen.owner = ownerIn gen seen'.owner)
    (h : (checkPackages intent gen pkgs i seen rest).2 = [])
    (hnew : ∀ wp ∈ rest, wp.id ∉ seen'.ids) :
    (checkPackages intent gen pkgs i seen' rest).2 = [] := by
  induction rest generalizing i seen seen' with
  | nil => rfl
  | cons wp rest ih =>
    have hnodup := (nodup_of_checkPackages h).1
    simp only [checkPackages, append_eq_nil_iff] at h ⊢
    obtain ⟨⟨hid, hseen⟩, htext, hkind, hpaths, hartifact, hsatisfies⟩ := checkPackage_eq_nil_iff.mp h.1
    have hseen' := hnew wp mem_cons_self
    have hclaim : (⟨wp.id, wp.id, gen⟩ : PathClaim).gen = gen := rfl
    obtain ⟨hclean, hproblems, howners⟩ := claimPaths_congr rfl hclaim howner wp.authorizedPaths
    refine ⟨checkPackage_eq_nil_iff.mpr ⟨⟨hid, hseen'⟩, htext, hkind, hproblems.mp hpaths,
      hclean ▸ hartifact, hsatisfies⟩, ih ?_ h.2 ?_⟩
    · rw [owner_checkPackage hid hseen, owner_checkPackage hid hseen']
      exact howners
    · intro other hother
      rw [ids_checkPackage hid hseen', mem_cons, not_or]
      refine ⟨fun heq => ?_, hnew other (mem_cons_of_mem _ hother)⟩
      exact (nodup_cons.mp hnodup).1 (heq ▸ mem_map_of_mem hother)

lemma ids_checkPackages (h : (checkPackages intent gen pkgs i seen rest).2 = []) (id : String) :
    id ∈ (checkPackages intent gen pkgs i seen rest).1.ids ↔ id ∈ rest.map WorkPackage.id ∨ id ∈ seen.ids := by
  induction rest generalizing i seen with
  | nil => simp [checkPackages]
  | cons wp rest ih =>
    simp only [checkPackages, append_eq_nil_iff] at h ⊢
    obtain ⟨-, hids⟩ := checkPackage_ids h.1
    rw [ih h.2, hids, map_cons, mem_cons, mem_cons]
    tauto

lemma gen_of_checkPackages {path : String}
    (h : (checkPackages intent gen pkgs i seen rest).1.owner.get? path = some found) :
    found.gen = gen ∨ seen.owner.get? path = some found := by
  induction rest generalizing i seen with
  | nil => exact .inr h
  | cons wp rest ih =>
    rcases ih h with hgen | hfirst
    · exact .inl hgen
    · exact gen_of_claimPaths hfirst

lemma satisfied_checkPackages (c : String) : c ∈ (checkPackages intent gen pkgs i seen rest).1.satisfied ↔
      (∃ wp ∈ rest, c ∈ addressed intent wp) ∨ c ∈ seen.satisfied := by
  induction rest generalizing i seen with
  | nil => simp [checkPackages]
  | cons wp rest ih =>
    simp only [checkPackages, ih, mem_cons, exists_eq_or_imp]
    simp only [checkPackage, mem_append]
    rw [or_left_comm, ← or_assoc]

lemma exists_checkPackage (h : (checkPackages intent gen pkgs i seen rest).2 = [])
    (hwp : wp ∈ rest) : ∃ i seen, (checkPackage intent gen pkgs i seen wp).2 = [] := by
  induction rest generalizing i seen with
  | nil => cases hwp
  | cons first rest ih =>
    simp only [checkPackages, append_eq_nil_iff] at h
    rcases mem_cons.mp hwp with rfl | hwp
    · exact ⟨i, seen, h.1⟩
    · exact ih h.2 hwp

/-! ## Generations -/

/-- A generation is in order on its own. -/
def Generation (intent : Intent) (gen : ℕ) (pkgs : List WorkPackage) : Prop :=
  (checkPackages intent gen pkgs 0 {} pkgs).2 = []

lemma checkPackages_eq_nil_iff (hold : ∀ path claim, seen.owner.get? path = some claim → claim.gen < gen) :
    (checkPackages intent gen pkgs 0 seen pkgs).2 = [] ↔
      Generation intent gen pkgs ∧ ∀ wp ∈ pkgs, wp.id ∉ seen.ids := by
  have hnone : ownerIn gen seen.owner = ownerIn gen ({} : Seen).owner := by
    funext path
    unfold ownerIn
    cases hget : seen.owner.get? path with
    | none => simp
    | some claim => simp [(hold path claim hget).ne]
  constructor
  · intro h
    exact ⟨checkPackages_eq_nil_of hnone h fun _ _ => not_mem_nil, (nodup_of_checkPackages h).2⟩
  · rintro ⟨h, hnew⟩
    exact checkPackages_eq_nil_of hnone.symm h hnew

variable {gens : List (List WorkPackage)}

/-- The walk has no problems exactly when each generation is in order on its own, and all ids are
new. -/
lemma checkGenerations_eq_nil_iff (hold : ∀ path claim, seen.owner.get? path = some claim → claim.gen < gen) :
    (checkGenerations intent gen seen gens).2 = [] ↔
      (∀ k pkgs, gens[k]? = some pkgs → Generation intent (gen + k) pkgs) ∧
        (gens.flatten.map WorkPackage.id).Nodup ∧ ∀ wp ∈ gens.flatten, wp.id ∉ seen.ids := by
  induction gens generalizing gen seen with
  | nil => simp [checkGenerations]
  | cons first gens ih =>
    simp only [checkGenerations, append_eq_nil_iff]
    have hnext : ∀ path claim, (checkPackages intent gen first 0 seen first).1.owner.get? path = some claim →
          claim.gen < gen + 1 := by
      intro path claim hclaim
      rcases gen_of_checkPackages hclaim with hgen | hbefore
      · omega
      · have hlt := hold path claim hbefore
        omega
    have hindex : (∀ k pkgs, (first :: gens)[k]? = some pkgs → Generation intent (gen + k) pkgs) ↔
        Generation intent gen first ∧ ∀ k pkgs, gens[k]? = some pkgs → Generation intent (gen + 1 + k) pkgs := by
      constructor
      · intro h
        refine ⟨h 0 first rfl, fun k pkgs hk => ?_⟩
        have hk' := h (k + 1) pkgs (by simpa using hk)
        rwa [show gen + 1 + k = gen + (k + 1) by omega]
      · rintro ⟨hfirst, hrest⟩ (_ | k) pkgs hk
        · cases hk
          exact hfirst
        · have hk' := hrest k pkgs (by simpa using hk)
          rwa [show gen + 1 + k = gen + (k + 1) by omega] at hk'
    rw [ih hnext, checkPackages_eq_nil_iff hold, hindex, flatten_cons, map_append, nodup_append]
    constructor
    · rintro ⟨⟨hfirst, hnew⟩, hrest, hnodup, hafter⟩
      have hwalk := (checkPackages_eq_nil_iff hold).mpr ⟨hfirst, hnew⟩
      simp only [ids_checkPackages hwalk, not_or] at hafter
      refine ⟨⟨hfirst, hrest⟩, ⟨(nodup_of_checkPackages hfirst).1, hnodup, ?_⟩, ?_⟩
      · rintro _ ha _ hb rfl
        obtain ⟨wp, hwp, heq⟩ := mem_map.mp hb
        exact (hafter wp hwp).1 (heq ▸ ha)
      · intro wp hwp
        rcases mem_append.mp hwp with hwp | hwp
        · exact hnew wp hwp
        · exact (hafter wp hwp).2
    · rintro ⟨⟨hfirst, hrest⟩, ⟨-, hnodup, hdisjoint⟩, hnew⟩
      have hnew₁ : ∀ wp ∈ first, wp.id ∉ seen.ids := fun wp hwp => hnew wp (mem_append_left _ hwp)
      have hwalk := (checkPackages_eq_nil_iff hold).mpr ⟨hfirst, hnew₁⟩
      refine ⟨⟨hfirst, hnew₁⟩, hrest, hnodup, fun wp hwp => ?_⟩
      rw [ids_checkPackages hwalk, not_or]
      exact ⟨fun hmem => hdisjoint _ hmem _ (mem_map_of_mem hwp) rfl, hnew wp (mem_append_right _ hwp)⟩

lemma ids_checkGenerations (h : (checkGenerations intent gen seen gens).2 = []) (id : String) :
    id ∈ (checkGenerations intent gen seen gens).1.ids ↔ id ∈ gens.flatten.map WorkPackage.id ∨ id ∈ seen.ids := by
  induction gens generalizing gen seen with
  | nil => simp [checkGenerations]
  | cons first gens ih =>
    simp only [checkGenerations, append_eq_nil_iff] at h ⊢
    rw [ih h.2, ids_checkPackages h.1, flatten_cons, map_append, mem_append]
    tauto

lemma satisfied_checkGenerations (c : String) : c ∈ (checkGenerations intent gen seen gens).1.satisfied ↔
      (∃ wp ∈ gens.flatten, c ∈ addressed intent wp) ∨ c ∈ seen.satisfied := by
  induction gens generalizing gen seen with
  | nil => simp [checkGenerations]
  | cons first gens ih =>
    simp only [checkGenerations, ih, satisfied_checkPackages, flatten_cons, mem_append]
    constructor
    · rintro (⟨wp, hwp, hc⟩ | ⟨wp, hwp, hc⟩ | hc)
      · exact .inl ⟨wp, .inr hwp, hc⟩
      · exact .inl ⟨wp, .inl hwp, hc⟩
      · exact .inr hc
    · rintro (⟨wp, hwp | hwp, hc⟩ | hc)
      · exact .inr (.inl ⟨wp, hwp, hc⟩)
      · exact .inl ⟨wp, hwp, hc⟩
      · exact .inr (.inr hc)

end Walk

/-! ## Accepted plans -/

lemma DeliveryPlan.flatten_generations (p : DeliveryPlan) : p.generations.flatten = p.allPackages := by
  rw [generations, flatten_cons, allPackages, flatMap_def]

/-- What acceptance of a plan says. -/
structure DeliveryPlan.Accepted (toLower : Char → Char) (intent : Intent) (p : DeliveryPlan) :
    Prop where
  version : p.schemaVersion = 1
  project : p.projectID = intent.projectID
  packages_ne : p.packages ≠ []
  generation : ∀ gen pkgs, p.generations[gen]? = some pkgs → Generation intent gen pkgs
  ids_nodup : (p.allPackages.map WorkPackage.id).Nodup
  supersession : checkSupersessions (p.packages.map WorkPackage.id) 1 [] p.remediations = []
  dependency : ∀ wp ∈ p.allPackages, ∀ dep ∈ wp.dependsOn, dep ≠ wp.id ∧ dep ∈ p.allPackages.map WorkPackage.id ∧
    dep ∉ (p.allPackages.filter WorkPackage.isVerification).map WorkPackage.id
  acyclic : findCycle p.allPackages = ""
  covered : ∀ c ∈ intent.acceptance, c.isHuman = false → ∃ wp ∈ p.allPackages, c.id ∈ addressed intent wp
  faithful : p.provisional = false → ∀ c ∈ intent.acceptance, checkFidelity toLower p.allPackages c = []
  remediation : ∀ rm ∈ p.remediations, rm.validate toLower intent = .ok ()

variable {wp : WorkPackage}

namespace DeliveryPlan.Accepted

variable {toLower : Char → Char} {intent : Intent} {p : DeliveryPlan}

section
variable (h : p.Accepted toLower intent)
include h

lemma exists_checkPackage (hwp : wp ∈ p.allPackages) :
    ∃ gen pkgs i seen, p.generations[gen]? = some pkgs ∧ wp ∈ pkgs ∧
      (checkPackage intent gen pkgs i seen wp).2 = [] := by
  rw [← flatten_generations] at hwp
  obtain ⟨pkgs, hpkgs, hmem⟩ := mem_flatten.mp hwp
  obtain ⟨gen, hgen⟩ := mem_iff_getElem?.mp hpkgs
  obtain ⟨i, seen, hok⟩ := Handoff.exists_checkPackage (h.generation gen pkgs hgen) hmem
  exact ⟨gen, pkgs, i, seen, hgen, hmem, hok⟩

lemma claim (hwp : wp ∈ p.allPackages) {c : String} (hc : c ∈ wp.satisfies) :
    c ∈ intent.criteria ∧ c ∉ intent.human := by
  obtain ⟨_, _, _, _, -, -, hok⟩ := h.exists_checkPackage hwp
  obtain ⟨-, -, -, -, -, hsatisfies⟩ := checkPackage_eq_nil_iff.mp hok
  rw [checkSatisfies, append_eq_nil_iff, flatMap_eq_nil_iff] at hsatisfies
  have hcriterion := hsatisfies.2 c hc
  unfold checkCriterion at hcriterion
  split_ifs at hcriterion with hknown hhuman
  exact ⟨hknown, hhuman⟩

lemma exists_claim {c : Criterion} (hc : c ∈ intent.acceptance) (hown : c.isHuman = false) :
    ∃ wp ∈ p.allPackages, c.id ∈ wp.satisfies := by
  obtain ⟨wp, hwp, haddressed⟩ := h.covered c hc hown
  exact ⟨wp, hwp, (mem_filter.mp haddressed).1⟩

lemma not_claim {c : Criterion} (hc : c ∈ intent.acceptance) (hown : c.isHuman = true)
    (hwp : wp ∈ p.allPackages) : c.id ∉ wp.satisfies :=
  fun hclaim => (h.claim hwp hclaim).2 (mem_map_of_mem (mem_filter.mpr ⟨hc, hown⟩))

end

end DeliveryPlan.Accepted

lemma checkDependency_eq_nil_iff {ids verifiers : List String} {dep : String} :
    checkDependency ids verifiers wp dep = [] ↔ dep ≠ wp.id ∧ dep ∈ ids ∧ dep ∉ verifiers := by
  unfold checkDependency
  split_ifs with hself hknown hverifier <;> simp_all

variable {intent : Intent}

lemma uncovered_eq_nil_iff {satisfied : List String} : uncovered intent satisfied = [] ↔
      ∀ c ∈ intent.acceptance, c.isHuman = false → c.id ∈ satisfied := by
  rw [uncovered, sortStrings_eq_nil, map_eq_nil_iff, filter_eq_nil_iff]
  refine forall₂_congr fun c _ => ?_
  cases c.isHuman <;> simp

variable {toLower : Char → Char}

lemma checkRemediation_eq_nil_iff {rm : Remediation} :
    checkRemediation toLower intent rm = [] ↔ rm.validate toLower intent = .ok () := by
  unfold checkRemediation
  cases rm.validate toLower intent with
  | error err => simp
  | ok _ => simp

/-- A plan is accepted exactly when its generations are in order one by one, no two live packages share an
id, and the composed plan is in order. -/
theorem DeliveryPlan.validate_eq_ok_iff {p : DeliveryPlan} :
    p.validate toLower intent = .ok () ↔ p.Accepted toLower intent := by
  have hwalk : (checkGenerations intent 0 {} p.generations).2 = [] ↔ _ :=
    checkGenerations_eq_nil_iff fun path claim h => by simp at h
  simp only [flatten_generations, Nat.zero_add] at hwalk
  have hids : (checkGenerations intent 0 {} p.generations).2 = [] → ∀ id,
      id ∈ (checkGenerations intent 0 {} p.generations).1.ids ↔
        id ∈ p.allPackages.map WorkPackage.id := fun h id => by
    rw [ids_checkGenerations h, flatten_generations]
    simp
  have hsatisfied : ∀ c, c ∈ (checkGenerations intent 0 {} p.generations).1.satisfied ↔
      ∃ wp ∈ p.allPackages, c ∈ addressed intent wp := fun c => by
    rw [satisfied_checkGenerations, flatten_generations]
    simp
  unfold DeliveryPlan.validate
  constructor
  · intro h
    split_ifs at h with hversion hproblems
    simp only [DeliveryPlan.problems, append_eq_nil_iff, ite_eq_left_iff, ite_eq_right_iff,
      cons_ne_nil, imp_false, not_not, uncovered_eq_nil_iff, flatMap_eq_nil_iff,
      checkDependency_eq_nil_iff, checkRemediation_eq_nil_iff, hsatisfied] at hproblems
    obtain ⟨⟨⟨⟨⟨⟨⟨⟨hproject, hpackages⟩, hgens⟩, hsupersession⟩, hdeps⟩, hacyclic⟩, hcovered⟩,
      hfaithful⟩, hremediation⟩ := hproblems
    obtain ⟨hgeneration, hnodup, -⟩ := hwalk.mp hgens
    simp only [hids hgens] at hdeps
    exact ⟨not_not.mp hversion, hproject, hpackages, hgeneration, hnodup, hsupersession, hdeps,
      hacyclic, hcovered, fun hprov => hfaithful (by simp [hprov]), hremediation⟩
  · intro h
    have hgens := hwalk.mpr ⟨h.generation, h.ids_nodup, by simp⟩
    rw [if_neg (not_not.mpr h.version), if_pos]
    simp only [DeliveryPlan.problems, append_eq_nil_iff, ite_eq_left_iff, ite_eq_right_iff,
      cons_ne_nil, imp_false, not_not, uncovered_eq_nil_iff, flatMap_eq_nil_iff,
      checkDependency_eq_nil_iff, checkRemediation_eq_nil_iff, hsatisfied, hids hgens]
    exact ⟨⟨⟨⟨⟨⟨⟨⟨h.project, h.packages_ne⟩, hgens⟩, h.supersession⟩, h.dependency⟩, h.acyclic⟩,
      h.covered⟩, fun hprov => h.faithful (by simpa using hprov)⟩, h.remediation⟩

/-! ## Writer isolation -/

/-- The packages are authorized over one path. -/
def Shares (a b : WorkPackage) : Prop := ∃ path, path ∈ a.paths ∧ path ∈ b.paths

section
variable {p : DeliveryPlan} {pkgs : List WorkPackage}

namespace DeliveryPlan

/-- Of two packages over one path one depends on the other: within a generation by the dependencies of the generation,
and in the whole plan by those of the plan, so that they are never at work at once. -/
def Isolated (p : DeliveryPlan) : Prop :=
  (∀ pkgs ∈ p.generations, ∀ a ∈ pkgs, ∀ b ∈ pkgs, a ≠ b → Shares a b → Ordered pkgs a b) ∧
    ∀ a ∈ p.allPackages, ∀ b ∈ p.allPackages, a ≠ b → Shares a b → Ordered p.allPackages a b

/-- Whenever a package listed between two others of its generation depends on both of them, or both on
it, and the three are authorized over one path, those two are ordered. -/
def Unforked (p : DeliveryPlan) : Prop :=
  ∀ pkgs ∈ p.generations, ∀ a b c, [a, b, c].Sublist pkgs →
    (∃ path, path ∈ a.paths ∧ path ∈ b.paths ∧ path ∈ c.paths) →
    Forks.Forked (DependsOn pkgs) a b c → Ordered pkgs a c

/-- A package that takes a path over from an earlier generation waits for the work there, or the work there for it. -/
def Succeeds (p : DeliveryPlan) : Prop :=
  p.generations.Pairwise fun earlier later => ∀ a ∈ earlier, ∀ b ∈ later, Shares a b → Ordered p.allPackages a b

variable (h : p.Accepted toLower intent)
include h

lemma Accepted.walked (hpkgs : pkgs ∈ p.generations) : ∃ gen, Generation intent gen pkgs := by
  obtain ⟨gen, hgen⟩ := mem_iff_getElem?.mp hpkgs
  exact ⟨gen, h.generation gen pkgs hgen⟩

lemma Accepted.dependsOn (hpkgs : pkgs ∈ p.generations) {a b : WorkPackage} (hab : DependsOn pkgs a b) :
    DependsOn p.allPackages a b := by
  obtain ⟨gen, hwalk⟩ := h.walked hpkgs
  refine Relation.TransGen.mono (fun x y hxy => ?_) _ _ hab
  rw [Worklist.Edge] at hxy ⊢
  by_cases hx : x ∈ pkgs.map WorkPackage.id
  · obtain ⟨wp, hwp, rfl⟩ := mem_map.mp hx
    have hall : wp ∈ p.allPackages := p.flatten_generations ▸ mem_flatten_of_mem hpkgs hwp
    rw [waits_dependencyListing (nodup_of_checkPackages hwalk).1 hwp] at hxy
    rwa [waits_dependencyListing h.ids_nodup hall]
  · rw [waits_dependencyListing_of_notMem hx] at hxy
    cases hxy

lemma Accepted.ordered_iff_unforked :
    (∀ pkgs ∈ p.generations, ∀ a ∈ pkgs, ∀ b ∈ pkgs, a ≠ b → Shares a b → Ordered pkgs a b) ↔ p.Unforked := by
  refine forall₂_congr fun pkgs hpkgs => ?_
  obtain ⟨gen, hwalk⟩ := h.walked hpkgs
  have hnodup := (nodup_of_checkPackages hwalk).1.of_map
  constructor
  · rintro hiso a b c hsub ⟨path, ha, -, hc⟩ -
    refine hiso a (hsub.subset (by simp)) c (hsub.subset (by simp)) ?_ ⟨path, ha, hc⟩
    rintro rfl
    have hthree := hnodup.sublist hsub
    simp at hthree
  · rintro hforks a ha b hb hne ⟨path, hpa, hpb⟩
    have hpair := (Forks.pairwise_comparable_iff (fun _ _ _ => .trans) (isChain_claimants hwalk path)).mpr
      fun a b c hsub hfork => by
        obtain ⟨hsub, hpath⟩ := sublist_claimants_iff.mp hsub
        exact hforks a b c hsub ⟨path, hpath⟩ hfork
    exact (pairwise_claimants_iff hnodup path).mp hpair a ha b hb hne hpa hpb

end DeliveryPlan

end

/-- Corrective work over the file, after the packages named. -/
def repairing (dependsOn : List String) : Remediation where
  projectID := "shop"
  seq := 1
  repairs := [⟨"ac-1", 1⟩]
  authorizedBy := "owner"
  packages := [sharedPackage "repair" dependsOn]

/-- Three packages in a row, each after the one before it, and a repair after them. -/
def chainPlan : DeliveryPlan where
  projectID := "shop"
  packages := [sharedPackage "alpha" [], sharedPackage "beta" ["alpha"], sharedPackage "gamma" ["beta"]]
  remediations := [repairing ["gamma"]]

/-- Three packages of which the second waits for the two others, which do not wait for each other. -/
def forkedPlan : DeliveryPlan where
  projectID := "shop"
  packages := [sharedPackage "alpha" [], sharedPackage "beta" ["alpha", "gamma"], sharedPackage "gamma" []]

def crossingIntent : Intent :=
  { sharedIntent with acceptance := sharedIntent.acceptance ++ [{ id := "ac-2", statement := "It is documented." }] }

def documentation : WorkPackage := { sharedPackage "docs" [] with satisfies := ["ac-2"] }

/-- A repair of what the first package delivered, which does not wait for the second, with which it shares the file. -/
def crossingPlan : DeliveryPlan where
  projectID := "shop"
  packages := [{ sharedPackage "alpha" [] with artifact := "go.mod", authorizedPaths := ["go.mod"] }, documentation]
  remediations := [repairing []]

end DeliveryEngine.Handoff
