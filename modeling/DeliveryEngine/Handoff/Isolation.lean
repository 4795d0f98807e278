import DeliveryEngine.Graph.Forks
import DeliveryEngine.Handoff.Validate

/-!
# The claimants of a path

Validation compares each claimant of a path with the latest one of its generation before it.  A walk without problems
leaves neighbours among the claimants ordered (`isChain_claimants`), which leaves open the pairs on the same side of a
claimant listed between them.
-/

namespace DeliveryEngine.Handoff

open Go List

/-! ## The order of a generation -/

/-- The usable ones of a list of paths, normalized. -/
def normalized (raws : List String) : List String := raws.filterMap (fun raw => (repoRelative raw).toOption)

lemma normalized_cons {raw c : String} (h : repoRelative raw = .ok c) (raws : List String) :
    normalized (raw :: raws) = c :: normalized raws :=
  filterMap_cons_some (by rw [h]; rfl)

/-- The paths a package is authorized over, normalized. -/
def WorkPackage.paths (wp : WorkPackage) : List String := normalized wp.authorizedPaths

/-- A package depends on another of its generation, directly or through a chain. -/
def DependsOn (pkgs : List WorkPackage) (a b : WorkPackage) : Prop :=
  Relation.TransGen (Worklist.Edge (Listing.waits (dependencyListing pkgs))) a.id b.id

variable {pkgs : List WorkPackage}

/-- One of two packages depends on the other. -/
abbrev Ordered (pkgs : List WorkPackage) (a b : WorkPackage) : Prop := Forks.Comparable (DependsOn pkgs) a b

lemma fst_dependencyListing (pkgs : List WorkPackage) :
    (dependencyListing pkgs).map Prod.fst = pkgs.map WorkPackage.id := by
  rw [dependencyListing, map_map]
  rfl

lemma waits_dependencyListing (hnodup : (pkgs.map WorkPackage.id).Nodup) {wp : WorkPackage} (hwp : wp ∈ pkgs) :
    Listing.waits (dependencyListing pkgs) wp.id = wp.dependsOn :=
  Listing.waits_eq (by rwa [fst_dependencyListing]) (mem_map.mpr ⟨wp, hwp, rfl⟩)

lemma waits_dependencyListing_of_notMem {id : String} (hid : id ∉ pkgs.map WorkPackage.id) :
    Listing.waits (dependencyListing pkgs) id = [] :=
  Listing.waits_eq_nil (by rwa [fst_dependencyListing])

lemma reaches_iff (hnodup : (pkgs.map WorkPackage.id).Nodup) (source target : String) :
    reaches pkgs source target = true ↔
      Relation.ReflTransGen (Worklist.Edge (Listing.waits (dependencyListing pkgs))) source target := by
  have hlength : (pkgs.map WorkPackage.id).map (fun id => (Listing.waits (dependencyListing pkgs) id).length) =
      pkgs.map (·.dependsOn.length) := by
    rw [map_map]
    exact map_congr_left fun wp hwp => congrArg List.length (waits_dependencyListing hnodup hwp)
  exact Worklist.reaches_iff hnodup (fun id => waits_dependencyListing_of_notMem)
    (by rw [hlength]; omega) source target

lemma ordered_iff (hnodup : (pkgs.map WorkPackage.id).Nodup) {a b : WorkPackage}
    (hne : a.id ≠ b.id) : Ordered pkgs a b ↔ dependencyOrdered pkgs a.id b.id = true := by
  rw [dependencyOrdered, Bool.or_eq_true, reaches_iff hnodup, reaches_iff hnodup,
    Relation.reflTransGen_iff_eq_or_transGen, Relation.reflTransGen_iff_eq_or_transGen]
  simp only [hne, hne.symm, false_or]
  rfl

/-! ## What a walk without problems establishes -/

variable {wp : WorkPackage}

lemma checkID_eq_nil {label : String} {ids : List String}
    (h : checkID label ids wp = []) : isID wp.id = true ∧ wp.id ∉ ids := by
  unfold checkID at h
  split_ifs at h with hid hmem
  exact ⟨by simpa using hid, hmem⟩

variable {path : String}

section Walk
variable {intent : Intent} {gen : ℕ} {seen : Seen} {i : ℕ}

lemma checkPackage_ids (h : (checkPackage intent gen pkgs i seen wp).2 = []) :
    wp.id ∉ seen.ids ∧ (checkPackage intent gen pkgs i seen wp).1.ids = wp.id :: seen.ids := by
  simp only [checkPackage, append_eq_nil_iff] at h
  obtain ⟨hid, hnew⟩ := checkID_eq_nil h.1.1.1.1.1
  refine ⟨hnew, if_pos ?_⟩
  simp [hid, hnew]

lemma nodup_of_checkPackages {rest : List WorkPackage} (h : (checkPackages intent gen pkgs i seen rest).2 = []) :
    (rest.map WorkPackage.id).Nodup ∧ ∀ wp ∈ rest, wp.id ∉ seen.ids := by
  induction rest generalizing i seen with
  | nil => simp
  | cons wp rest ih =>
    simp only [checkPackages, append_eq_nil_iff] at h
    obtain ⟨hnew, hids⟩ := checkPackage_ids h.1
    obtain ⟨hnodup, hrest⟩ := ih h.2
    rw [hids] at hrest
    exact new_cons hnew hnodup hrest

/-! ## Claims -/

variable {owner : GoMap PathClaim} {claim : PathClaim}

lemma claimPath_eq_ok {raw c : String} (h : claimPath pkgs claim owner raw = .ok c) :
    repoRelative raw = .ok c ∧ ∀ prior, owner.get? c = some prior → prior.gen = claim.gen →
      dependencyOrdered pkgs prior.id claim.id = true := by
  unfold claimPath at h
  split at h
  · cases h
  · next c' hraw =>
    split at h
    · cases h
    · split at h
      · next hfree =>
        cases h
        refine ⟨hraw, fun prior hprior => ?_⟩
        rw [hfree] at hprior
        cases hprior
      · next prior' hprior' =>
        split_ifs at h with hcollision
        cases h
        refine ⟨hraw, fun prior hprior hgen => ?_⟩
        rw [hprior'] at hprior
        cases hprior
        simpa [hgen] using hcollision

/-- Claims without problems take every path of the package, and each path's owner before, if it is of
the same generation, is ordered with the package. -/
lemma claimPaths_problems {raws : List String} (h : (claimPaths pkgs claim owner raws).problems = []) :
    (∀ c, (claimPaths pkgs claim owner raws).owner.get? c =
        if c ∈ normalized raws then some claim else owner.get? c) ∧
      ∀ c ∈ normalized raws, ∀ prior, owner.get? c = some prior → prior.gen = claim.gen →
        dependencyOrdered pkgs prior.id claim.id = true := by
  induction raws generalizing owner with
  | nil => simp [claimPaths, normalized]
  | cons raw raws ih =>
    rw [claimPaths] at h ⊢
    split at h
    · cases h
    · next c hclaim =>
      obtain ⟨hraw, hordered⟩ := claimPath_eq_ok hclaim
      obtain ⟨howner, hrest⟩ := ih h
      rw [normalized_cons hraw]
      refine ⟨fun c' => ?_, forall_mem_cons.mpr ⟨hordered, fun c' hc' prior hprior => ?_⟩⟩
      · rw [howner, GoMap.get?_set]
        by_cases hc' : c' = c <;> simp [hc']
      · -- A path named twice is the package's own the second time.
        by_cases heq : c' = c
        · exact hordered prior (heq ▸ hprior)
        · exact hrest c' hc' prior (by rwa [GoMap.get?_set_of_ne _ _ heq])

/-! ## The claimants of a path -/

/-- The packages authorized over a path, as listed. -/
def claimants (pkgs : List WorkPackage) (path : String) : List WorkPackage :=
  pkgs.filter (fun wp => path ∈ wp.paths)

/-- What the walk keeps of a path: neighbours among its claimants so far are ordered, and the last of
them is its owner. -/
structure Tracked (pkgs : List WorkPackage) (gen : ℕ) (path : String) (walked : List WorkPackage)
    (owner : GoMap PathClaim) : Prop where
  chain : (claimants walked path).IsChain (Ordered pkgs)
  last : ∀ wp ∈ (claimants walked path).getLast?,
    ∃ claim, owner.get? path = some claim ∧ claim.id = wp.id ∧ claim.gen = gen

variable {walked : List WorkPackage}

lemma Tracked.checkPackage (hpkgs : (pkgs.map WorkPackage.id).Nodup) (h : Tracked pkgs gen path walked seen.owner)
    (hfresh : ∀ other ∈ walked, other.id ≠ wp.id)
    (hok : (checkPackage intent gen pkgs i seen wp).2 = []) :
    Tracked pkgs gen path (walked ++ [wp]) (checkPackage intent gen pkgs i seen wp).1.owner := by
  simp only [Handoff.checkPackage, append_eq_nil_iff] at hok
  obtain ⟨howner, hordered⟩ := claimPaths_problems hok.1.1.2
  have happend : claimants (walked ++ [wp]) path = claimants walked path ++ claimants [wp] path := filter_append ..
  by_cases hpath : path ∈ wp.paths
  · have hone : claimants [wp] path = [wp] := by simp [claimants, hpath]
    rw [hone] at happend
    refine ⟨happend ▸ isChain_append.mpr ⟨h.chain, isChain_singleton _, ?_⟩, ?_⟩
    · -- The last claimant before owns the path, so it was compared with this one.
      intro prev hprev cur hcur
      obtain rfl : wp = cur := by simpa using hcur
      obtain ⟨claim, hclaim, hid, hgen⟩ := h.last prev hprev
      have hmem : prev ∈ walked := (mem_filter.mp (mem_of_getLast? hprev)).1
      have hcompared := hordered path hpath claim hclaim hgen
      rw [hid] at hcompared
      exact (ordered_iff hpkgs (hfresh prev hmem)).mpr hcompared
    · intro cur hcur
      rw [happend] at hcur
      obtain rfl : wp = cur := by simpa using hcur
      exact ⟨_, (howner path).trans (if_pos hpath), rfl, rfl⟩
  · have hnone : claimants [wp] path = [] := by simp [claimants, hpath]
    rw [hnone, append_nil] at happend
    refine ⟨happend ▸ h.chain, fun cur hcur => ?_⟩
    rw [happend] at hcur
    obtain ⟨claim, hclaim, hrest⟩ := h.last cur hcur
    exact ⟨claim, ((howner path).trans (if_neg hpath)).trans hclaim, hrest⟩

/-- A walk without problems leaves the claimants of every path ordered neighbour by neighbour. -/
lemma Tracked.checkPackages {rest : List WorkPackage}
    (hpkgs : (pkgs.map WorkPackage.id).Nodup) (h : Tracked pkgs gen path walked seen.owner)
    (hnodup : ((walked ++ rest).map WorkPackage.id).Nodup)
    (hok : (checkPackages intent gen pkgs i seen rest).2 = []) :
    (claimants (walked ++ rest) path).IsChain (Ordered pkgs) := by
  induction rest generalizing walked i seen with
  | nil => simpa using h.chain
  | cons wp rest ih =>
    simp only [Handoff.checkPackages, append_eq_nil_iff] at hok
    have hfresh : ∀ other ∈ walked, other.id ≠ wp.id := by
      rw [map_append, nodup_append] at hnodup
      exact fun other hother => hnodup.2.2 _ (mem_map_of_mem hother) _ (by simp)
    have hnext := ih (h.checkPackage hpkgs hfresh hok.1) (by simpa using hnodup) hok.2
    simpa using hnext

lemma isChain_claimants (hok : (checkPackages intent gen pkgs 0 seen pkgs).2 = []) (path : String) :
    (claimants pkgs path).IsChain (Ordered pkgs) := by
  have hnodup := (nodup_of_checkPackages hok).1
  have hstart : Tracked pkgs gen path [] seen.owner := ⟨by simp [claimants], by simp [claimants]⟩
  exact hstart.checkPackages hnodup hnodup hok

end Walk

lemma pairwise_claimants_iff (hnodup : pkgs.Nodup) (path : String) : (claimants pkgs path).Pairwise (Ordered pkgs) ↔
      ∀ a ∈ pkgs, ∀ b ∈ pkgs, a ≠ b → path ∈ a.paths → path ∈ b.paths → Ordered pkgs a b := by
  constructor
  · intro hpair a ha b hb hne hpa hpb
    have hsymm : Std.Symm (Ordered pkgs) := ⟨fun _ _ => Or.symm⟩
    exact hpair.forall (mem_filter.mpr ⟨ha, decide_eq_true hpa⟩) (mem_filter.mpr ⟨hb, decide_eq_true hpb⟩) hne
  · intro hall
    refine (hnodup.filter _).pairwise_of_forall_ne fun a ha b hb hne => ?_
    obtain ⟨ha, hpa⟩ := mem_filter.mp ha
    obtain ⟨hb, hpb⟩ := mem_filter.mp hb
    exact hall a ha b hb hne (of_decide_eq_true hpa) (of_decide_eq_true hpb)

lemma sublist_claimants_iff {a b c : WorkPackage} : [a, b, c].Sublist (claimants pkgs path) ↔
      [a, b, c].Sublist pkgs ∧ path ∈ a.paths ∧ path ∈ b.paths ∧ path ∈ c.paths := by
  constructor
  · intro hsub
    have hpath : ∀ wp ∈ [a, b, c], path ∈ wp.paths := fun wp hwp =>
      of_decide_eq_true (mem_filter.mp (hsub.subset hwp)).2
    exact ⟨hsub.trans filter_sublist, hpath a (by simp), hpath b (by simp), hpath c (by simp)⟩
  · rintro ⟨hsub, ha, hb, hc⟩
    have hfilter := hsub.filter fun wp => path ∈ wp.paths
    simpa [claimants, ha, hb, hc] using hfilter

/-! ## Packages over one file -/

/-- A package authorized over one file. -/
def sharedPackage (id : String) (dependsOn : List String) : WorkPackage where
  id := id
  title := id
  phase := "build"
  objective := "Extend the application."
  artifact := "src/app.go"
  authorizedPaths := ["src/app.go"]
  gates := ["go test ./..."]
  dependsOn := dependsOn
  satisfies := ["ac-1"]

def sharedIntent : Intent where
  projectID := "shop"
  lifecycle := ["build"]
  acceptance := [{ id := "ac-1", statement := "The application works." }]

end DeliveryEngine.Handoff
