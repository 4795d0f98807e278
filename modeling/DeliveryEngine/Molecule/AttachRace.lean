import DeliveryEngine.Molecule.AttachFence

/-!
# Concurrent attaches

Any number of calls of `attach` take turns operation by operation; a call that takes no further turn has crashed.  As
long as no call creates its root after another one has found a candidate, at most one root that carries the key is ever
live.  Otherwise a call that finds a pending candidate may activate it though the epoch is still open, and a call that
had found none goes on to create its own and to win the epoch (`two_live_roots`).
-/

namespace DeliveryEngine.Molecule

open Beads Formulas Runs List
open Fallible (asks_op asks_forM asks_foldlM asks_when safe_bind safe_then safe_mono safe_pure safe_throw safe_op safe_refuse safe_forM safe_foldlM safe_ite safe_when safe_of_asks)

namespace Race

variable (r : Race)

/-! ## The operations as the calls share them -/

/-- Whether an operation is an idempotency check that finds candidates. -/
def finds (s : Store) : Op → Bool
  | .list filters includeClosed =>
    filters = keyFilters r.key r.rootBeadID && includeClosed = false && s.list filters includeClosed ≠ []
  | _ => false

/-- The store, and a record of whether candidates have been found. -/
def serve (op : Op) (c : Store × Bool) : op.Answer × (Store × Bool) :=
  ((Store.serve op c.1).1, (Store.serve op c.1).2, c.2 || r.finds c.1 op)

/-- A candidate is created only while none has been found: a condition on every create, those after the epoch has
moved included. -/
def guard (c : Store × Bool) : Op → Prop
  | .create b _ => r.Candidate b → c.2 = false
  | _ => True

instance (c : Store × Bool) : (op : Op) → Decidable (r.guard c op)
  | .create b _ => inferInstanceAs (Decidable (r.Candidate b → c.2 = false))
  | .get _ | .list _ _ | .children _ | .update _ _ | .setMetadataBatch _ _ | .compareAndSetMetadataKey _ _ _ _
  | .close _ | .closeAll _ _ | .depAdd _ _ _ | .depRemove _ _ | .depList _ _ => .isTrue trivial

/-- A scene that keeps the invariant. -/
abbrev World (epoch₀ : String) := { w : Scene // r.Inv epoch₀ w }

/-- The calls rely on, and guarantee, that a scene evolves within the invariant. -/
def discipline (epoch₀ : String) : Discipline Op Op.Answer (Store × Bool) (r.World epoch₀) where
  serve := r.serve
  view w := (w.1.store, w.1.found)
  guard := r.guard
  rely w w' := r.Evolves w.1 w'.1
  guarantee w w' := r.Evolves w.1 w'.1
  rely_refl w := Evolves.refl w.1
  rely_trans := Evolves.trans

variable {r} {epoch₀ : String}

/-- An assertion that the other calls respect. -/
def Stable (T : r.World epoch₀ → Prop) : Prop := ∀ {w w'}, r.Evolves w.1 w'.1 → T w → T w'

variable (w : r.World epoch₀)

/-- Where an operation may lead, with the given winner. -/
def Leads (q : Op) (winner : Option String) (w' : r.World epoch₀) : Prop :=
  (r.discipline epoch₀).view w' = (r.serve q ((r.discipline epoch₀).view w)).2 ∧
    r.Evolves w.1 w'.1 ∧ w'.1.winner = winner

lemma moves {w : r.World epoch₀} {q : Op} (winner : Option String)
    (h : r.Moves epoch₀ w.1 ⟨(Store.serve q w.1.store).2, w.1.found || r.finds w.1.store q, winner⟩) :
    ∃ w', Leads w q winner w' :=
  ⟨⟨_, h.1⟩, rfl, h.2, rfl⟩

/-! ## Quiet operations -/

/-- Metadata that candidates and the attach bead do not feel. -/
def QuietMetadata (kvs : Metadata) : Prop :=
  ∀ kv ∈ kvs, kv.1 ∉ protectedKeys ∧ (kv.1 = .moleculeFailed → kv.2 = "true")

variable {b : Bead}

lemma quiet_update {kvs : Metadata} (h : QuietMetadata kvs) {b' : Bead} (hid : b'.id = b.id)
    (hstatus : b'.status = b.status) (hmeta : b'.metadata = b.metadata.update kvs) :
    Quiet b b' where
  id := hid
  status := hstatus
  keys k hk := by
    rw [Bead.meta, hmeta, Bead.meta, Metadata.get_update_of_notMem]
    intro hmem
    obtain ⟨kv, hkv, rfl⟩ := mem_map.mp hmem
    exact (h kv hkv).1 hk
  failed hfailed := by
    rw [Bead.meta, hmeta, Metadata.get_update]
    split_ifs with hmem
    · clear hmeta hfailed
      induction kvs with
      | nil => cases hmem
      | cons kv kvs ih =>
        rw [Metadata.get_cons]
        split_ifs with hk
        · exact (h kv mem_cons_self).2 hk.symm
        · refine ih (fun kv' hkv' => h kv' (mem_cons_of_mem _ hkv')) ?_
          exact (mem_cons.mp hmem).resolve_left hk
    · exact hfailed

lemma Quiet.refl (b : Bead) : Quiet b b := ⟨rfl, rfl, fun _ _ => rfl, fun h => h⟩

variable (r) in
/-- An operation that candidates and the attach bead do not feel. -/
def QuietOp : Op → Prop
  | .create b _ => ¬ r.Candidate b
  | .update _ opts => opts.status = none ∧ QuietMetadata opts.metadata
  | .setMetadataBatch _ kvs => QuietMetadata kvs
  | .get _ | .list _ _ | .children _ | .depAdd _ _ _ | .depRemove _ _ | .depList _ _ => True
  | .compareAndSetMetadataKey _ _ _ _ | .close _ | .closeAll _ _ => False

lemma moves_quiet {op : Op} (hop : r.QuietOp op) (w : r.World epoch₀) : ∃ w', Leads w op w.1.winner w' := by
  refine moves w.1.winner ?_
  have hfound : w.1.found = true → (w.1.found || r.finds w.1.store op) = true := fun h => by rw [h]; rfl
  have hsame : ∀ s' : Store, s'.beads = w.1.store.beads → s'.seq = w.1.store.seq →
      r.Moves epoch₀ w.1 ⟨s', w.1.found || r.finds w.1.store op, w.1.winner⟩ := fun s' hbeads hseq =>
    w.2.quiet Quiet.refl ⟨s'.deps, by rw [map_id', ← hbeads, ← hseq]⟩ hfound rfl
  have hmodify : ∀ (id : String) (f : Bead → Bead), (∀ b, Quiet b (f b)) →
      r.Moves epoch₀ w.1 ⟨w.1.store.modify id f, w.1.found || r.finds w.1.store op, w.1.winner⟩ := by
    intro id f hf
    refine w.2.quiet (fun b => ?_) ⟨w.1.store.deps, rfl⟩ hfound rfl
    split_ifs
    · exact hf b
    · exact Quiet.refl b
  cases op with
  | create b needs =>
    have h := w.2.create b needs fun hcand => absurd hcand hop
    simpa [Store.serve, finds] using h
  | get | list | children | depAdd | depRemove | depList => exact hsame _ rfl rfl
  | update id opts => exact hmodify id _ fun b => quiet_update hop.2 rfl (by simp [UpdateOpts.apply, hop.1]) rfl
  | setMetadataBatch id kvs => exact hmodify id _ fun b => quiet_update hop rfl rfl rfl
  | compareAndSetMetadataKey | close | closeAll => exact hop.elim

/-! ## The quiet parts of `attach` -/

variable {ε : Type}

lemma quietMetadata_activation (b : Bead) : QuietMetadata (deferredRoutingActivationUpdate b).metadata := by
  have hkeys : ∀ kv ∈ (deferredRoutingActivationUpdate b).metadata,
      kv.1 ∈ [Key.deferredAssignee, .deferredRoutedTo, .routedTo, .deferredExecutionRoutedTo,
        .executionRoutedTo, .deferredType, .instantiating] := by
    intro kv hkv
    simp only [deferredRoutingActivationUpdate, restoreRoute, mem_append] at hkv
    rcases hkv with (((h | h) | h) | h) | h <;> split_ifs at h <;> simp at h
    all_goals first
      | (subst h; simp)
      | (rcases h with rfl | rfl <;> simp)
  intro kv hkv
  have hmem := hkeys kv hkv
  simp only [mem_cons, not_mem_nil, or_false] at hmem
  rcases hmem with h | h | h | h | h | h | h <;> rw [h] <;> exact ⟨by decide, nofun⟩

lemma asks_setFailed (id : String) :
    (StoreM.setMetadataBatch (ε := ε) id [(.moleculeFailed, "true"), (.instantiating, "")]).Asks r.QuietOp := by
  refine asks_op fun kv hkv => ?_
  simp only [mem_cons, not_mem_nil, or_false] at hkv
  rcases hkv with rfl | rfl
  · exact ⟨by decide, fun _ => rfl⟩
  · exact ⟨by decide, by decide⟩

lemma asks_activate (id : String) : (activateFencedGraphWorkflowBead id).Asks r.QuietOp := by
  refine (asks_op trivial).bind fun found => ?_
  cases found with
  | none => trivial
  | some b =>
    show Fallible.Asks _ (ite _ _ _)
    split_ifs
    · trivial
    · exact asks_op ⟨rfl, quietMetadata_activation b⟩

variable (ids : List String)

lemma asks_activateAll : (activateAll ids).Asks r.QuietOp := by
  exact asks_forM ids fun id _ => (asks_activate id).bind fun _ => Fallible.asks_refuse _

lemma asks_markFailed : (markFailed ids).Asks r.QuietOp :=
  asks_forM ids fun id _ => (asks_setFailed id).bind fun _ => trivial

lemma asks_markFailedReporting : (markFailedReporting ids).Asks r.QuietOp := by
  refine asks_foldlM ids (fun _ id _ => ?_) none
  exact (asks_setFailed id).bind fun _ => trivial

lemma asks_neutralize (attachBeadID : String) (result : Result) :
    (neutralize attachBeadID result).Asks r.QuietOp := by
  exact (asks_markFailedReporting _).bind fun _ => (Fallible.asks_refuse _).bind fun _ => asks_op trivial

lemma asks_existingAttachIDMapping (recipe : Recipe) (rootBeadID : String) (root : Bead) :
    (existingAttachIDMapping recipe rootBeadID root).Asks r.QuietOp := by
  rw [existingAttachIDMapping]
  split_ifs
  · trivial
  · exact (asks_op trivial).bind fun _ => trivial

variable (st : Progress)

lemma asks_refuse (problem : Option String) : (refuse st problem).Asks r.QuietOp := by
  cases problem with
  | none => trivial
  | some problem => exact (asks_markFailed st.createdIDs).bind fun _ => trivial

variable (parents : IDMapping) (dep : RecipeDep)

lemma asks_setParent (fromID toID : String) : (setParent st parents dep fromID toID).Asks r.QuietOp := by
  rw [setParent]
  split_ifs
  · exact (asks_op ⟨rfl, by simp [QuietMetadata]⟩).bind fun ok => (asks_refuse st _).bind fun _ => trivial
  · trivial

lemma asks_wireDep : (wireDep st parents dep).Asks r.QuietOp := by
  rw [wireDep]
  split
  · split_ifs
    · trivial
    · exact (asks_setParent st parents dep _ _).bind fun _ => (asks_op trivial).bind fun _ => trivial
  · trivial

lemma asks_assignStep (pending : String × String) : (assignStep st pending).Asks r.QuietOp := by
  rw [assignStep]
  split_ifs
  · exact (asks_op ⟨rfl, by simp [QuietMetadata]⟩).bind fun ok => asks_refuse st _
  · trivial

lemma asks_activateStep (step : RecipeStep) : (activateStep st step).Asks r.QuietOp := by
  rw [activateStep]
  split_ifs
  · exact (asks_activate _).bind fun ok => asks_refuse st _
  · trivial

lemma asks_finishInstantiate (recipe : Recipe) (opts : Options) (st : Progress) :
    (finishInstantiate recipe opts st).Asks r.QuietOp := by
  have hwire : (wireDeps recipe st).Asks r.QuietOp :=
    (asks_foldlM _ (fun parents dep _ => asks_wireDep st parents dep) _).bind fun _ => trivial
  refine (asks_when fun _ => hwire).bind fun _ => (asks_when fun _ => ?_).bind fun _ => asks_when fun _ => ?_
  · exact asks_forM _ fun pending _ => asks_assignStep st pending
  · exact asks_forM _ fun step _ => asks_activateStep st step

/-! ## What a call knows -/

/-- What an idempotency check knows of the candidates it listed. -/
structure Listed (r : Race) (all : List Bead) (w : Scene) : Prop where
  known : ∀ b ∈ all, ∃ c, w.store.find? b.id = some c ∧ r.Grown b c
  found : all ≠ [] → w.found = true
  complete : all ≠ [] → ∀ id c, w.store.find? id = some c → r.Candidate c → ∃ b ∈ all, b.id = id ∧ r.Grown b c

variable {all : List Bead}

lemma Listed.evolves {w w' : Scene} (he : r.Evolves w w') (h : r.Listed all w) : r.Listed all w' where
  known b hb := by
    obtain ⟨c, hc, hg⟩ := h.known b hb
    obtain ⟨c', hc', hg'⟩ := he.keep _ _ hc
    exact ⟨c', hc', hg.trans hg'⟩
  found hne := he.found (h.found hne)
  complete hne id c' hc' hcand := by
    obtain ⟨c, hc, hcand, hg⟩ := he.candidate_before (h.found hne) hc' hcand
    obtain ⟨b, hb, hid, hg'⟩ := h.complete hne id c hc hcand
    exact ⟨b, hb, hid, hg'.trans hg⟩

lemma dead_of_standing (h : standing b = .failed) : Dead b := by
  rw [standing] at h
  split_ifs at h with hdead
  exact hdead

lemma claimed_of_standing (h : standing b = .activating) : marker b ≠ attachFencePendingUnclaimed := by
  rw [standing] at h
  split_ifs at h with _ hpending
  exact hpending

lemma mem_sortedByID {st : Standing} : b ∈ sortedByID all st ↔ b ∈ all ∧ standing b = st := by
  rw [sortedByID, mem_insertionSort, mem_filter, decide_eq_true_eq]

/-- Candidates have been found, and but for the winner and the losers left they are dead. -/
def Undecided (r : Race) (winner : Bead) (losers : List Bead) (w : Scene) : Prop :=
  w.found = true ∧ ∀ id c, w.store.find? id = some c → r.Candidate c →
    Dead c ∨ id = winner.id ∨ ∃ b ∈ losers, b.id = id

variable {T : r.World epoch₀ → Prop}

lemma Undecided.stable (hT : Stable T) (winner : Bead) (losers : List Bead) :
    Stable fun w : r.World epoch₀ => T w ∧ r.Undecided winner losers w.1 := by
  rintro w w' he ⟨hw, hfound, hopen⟩
  refine ⟨hT he hw, he.found hfound, fun id c' hc' hcand => ?_⟩
  obtain ⟨c, hc, hcand, hg⟩ := he.candidate_before hfound hc' hcand
  exact (hopen id c hc hcand).imp_left hg.dead

lemma Undecided.mayActivate {winner : Bead} {w : Scene} (h : r.Undecided winner [] w) :
    r.MayActivate winner.id w := by
  refine .inr (.inl ⟨h.1, fun id c hne hc hcand => ?_⟩)
  rcases h.2 id c hc hcand with hdead | hid | ⟨b, hb, -⟩
  · exact hdead
  · exact absurd hid hne
  · cases hb

/-! ## What a call may bring -/

/-- Wherever the recipe carries the key, it carries the marker. -/
def Marked (r : Race) (recipe : Recipe) (vars : List (String × String)) : Prop :=
  ∀ step ∈ recipe.steps, substitute vars (step.meta .idempotencyKey) = r.key →
    step.meta .attachFencePending = attachFencePendingUnclaimed

/-- A call that takes part in the race. -/
structure Call where
  recipe : Recipe
  title : String := ""
  vars : List (String × String) := []

def Call.options (r : Race) (call : Call) : AttachOptions where
  title := call.title
  vars := call.vars
  idempotencyKey := r.key
  expectedEpoch := r.expectedEpoch

/-- Only the root of the recipe carries the key. -/
def Call.KeyOnRoot (r : Race) (call : Call) : Prop :=
  ∀ step ∈ call.recipe.steps.tail,
    substitute (applyVarDefaults call.vars call.recipe.vars) (step.meta .idempotencyKey) ≠ r.key

variable {call : Call}

lemma Call.marked (h : call.KeyOnRoot r) (rootBeadID rootStoreRef : String) :
    r.Marked (stampRecipe call.recipe rootBeadID rootStoreRef r.key true)
      (applyVarDefaults call.vars call.recipe.vars) := by
  intro step hstep hkey
  rw [stampRecipe] at hstep
  cases hsteps : call.recipe.steps with
  | nil =>
    rw [hsteps] at hstep
    cases hstep
  | cons root steps =>
    rw [hsteps] at hstep
    rcases mem_cons.mp hstep with rfl | hstep
    · simp [RecipeStep.meta]
    · obtain ⟨inner, hinner, rfl⟩ := mem_map.mp hstep
      refine absurd ?_ (h inner (by rw [hsteps]; exact hinner))
      rw [← hkey, RecipeStep.meta, RecipeStep.meta]
      split_ifs <;> simp

/-! ## Claims and the epoch -/

lemma moves_same {q : Op} (hstore : (Store.serve q w.1.store).2 = w.1.store) : ∃ w', Leads w q w.1.winner w' := by
  refine moves w.1.winner ?_
  rw [hstore]
  exact w.2.quiet Quiet.refl ⟨w.1.store.deps, by rw [map_id']⟩ (fun h => by rw [h]; rfl) rfl

variable {α : Type} {w : r.World epoch₀} {id : String}

/-- The program returns what is asked for, or fails and keeps an assertion. -/
abbrev Yields (T : r.World epoch₀ → Prop) (p : Fallible Op Op.Answer ε α) (post : α → r.World epoch₀ → Prop)
    (w : r.World epoch₀) : Prop :=
  p.Safe (r.discipline epoch₀) post (fun _ => T) w

/-- The program keeps an assertion, whether it succeeds or fails. -/
abbrev Keeps (T : r.World epoch₀ → Prop) (p : M α) (w : r.World epoch₀) : Prop := Yields T p (fun _ => T) w

lemma safe_get {post : Option Bead → r.World epoch₀ → Prop} {err : Failure → r.World epoch₀ → Prop}
    (h : ∀ w', r.Evolves w.1 w'.1 → post (w'.1.store.find? id) w') :
    Fallible.Safe (r.discipline epoch₀) (StoreM.get id) post err w := by
  refine safe_op fun w' hr _ => ⟨w', ?_, Evolves.refl w'.1, h w' hr⟩
  exact Prod.ext rfl (Bool.or_false w'.1.found).symm

section
variable (hT : Stable T) (hw : T w)
include hT hw

lemma safe_quiet {p : M α} (hp : p.Asks r.QuietOp) : Keeps T p w := by
  refine safe_of_asks hT (fun op w hop hw _ => ?_) hp hw
  obtain ⟨w', hview, hevolves, -⟩ := moves_quiet hop w
  exact ⟨w', hview, hevolves, hT hevolves hw⟩

lemma safe_getBead {post : Bead → r.World epoch₀ → Prop}
    (h : ∀ w' b, T w' → w'.1.store.find? id = some b → post b w') : Yields T (getBead id) post w := by
  refine safe_bind (safe_get fun w' hr => ?_)
  cases hb : w'.1.store.find? id with
  | none => exact safe_throw (hT hr hw)
  | some b => exact safe_pure (h w' b (hT hr hw) hb)

lemma safe_compareAndSet {key : Key} {expected next : String} {post : Option Bool → r.World epoch₀ → Prop}
    (hset : ∀ (w : r.World epoch₀) (b : Bead), T w → w.1.store.find? id = some b → b.meta key = expected →
      ∃ winner, r.Moves epoch₀ w.1 ⟨w.1.store.modify id (Bead.setKey key next), w.1.found, winner⟩ ∧
        ∀ w' : r.World epoch₀, r.Evolves w.1 w'.1 →
          w'.1.store = w.1.store.modify id (Bead.setKey key next) → w'.1.winner = winner → post (some true) w')
    (hmiss : ∀ w won, T w → won ≠ some true → post won w) :
    Yields T (StoreM.compareAndSetMetadataKey (ε := ε) id key expected next) post w := by
  refine safe_op fun w₁ hr _ => ?_
  have hw₁ : T w₁ := hT hr hw
  show ∃ w₂, _ ∧ _ ∧ post (w₁.1.store.compareAndSet id key expected next).1 w₂
  obtain ⟨b, hb, hk, hserve⟩ | ⟨won, hwon, hserve⟩ := w₁.1.store.compareAndSet_cases id key expected next
  · obtain ⟨winner, hmove, hpost⟩ := hset w₁ b hw₁ hb hk
    have hstore : (Store.serve (.compareAndSetMetadataKey id key expected next) w₁.1.store).2 =
        w₁.1.store.modify id (Bead.setKey key next) := congrArg Prod.snd hserve
    obtain ⟨w₂, hview, hevolves, hwinner⟩ := moves (w := w₁)
      (q := .compareAndSetMetadataKey id key expected next) winner (by
        rw [hstore]; simpa [finds] using hmove)
    exact ⟨w₂, hview, hevolves, hserve ▸ hpost w₂ hevolves ((congrArg Prod.fst hview).trans hstore) hwinner⟩
  · obtain ⟨w₂, hview, hevolves, -⟩ := moves_same w₁
      (q := .compareAndSetMetadataKey id key expected next) (congrArg Prod.snd hserve)
    exact ⟨w₂, hview, hevolves, hserve ▸ hmiss w₂ won (hT hevolves hw₁) hwon⟩

/-- The expected epoch is moved on at most once, whoever moves it; the call that moves it on for a root it created is
the winner. -/
lemma safe_advance (root : Option String) :
    Yields (ε := Failure) T (StoreM.compareAndSetMetadataKey r.attachBeadID .controlEpoch (Go.itoa r.expectedEpoch)
      (Go.itoa (r.expectedEpoch + 1))) (fun won w => T w ∧ (won = some true → root.isSome → w.1.winner = root)) w :=
  safe_compareAndSet hT hw (fun w _ hw hp hepoch =>
    ⟨root.or w.1.winner, w.2.advance hp hepoch (root.or w.1.winner), fun _ hevolves _ hwinner =>
      ⟨hT hevolves hw, fun _ hroot => by rw [hwinner, Option.or_of_isSome hroot]⟩⟩)
    fun _ _ hw hwon => ⟨hw, fun h => absurd h hwon⟩

/-! ## Activating and adopting -/

lemma safe_compareAndSetEpoch : Keeps T (compareAndSetEpoch r.attachBeadID r.expectedEpoch) w := by
  refine safe_then (safe_advance hT hw none) fun won w h => ?_
  cases won with
  | none => exact safe_throw h.1
  | some won => exact safe_pure h.1

lemma safe_advanceAttachEpoch : Keeps T (advanceAttachEpoch r.attachBeadID r.expectedEpoch) w := by
  refine safe_then (safe_compareAndSetEpoch hT hw) fun won w hw => ?_
  cases won with
  | true => exact safe_pure hw
  | false =>
    refine safe_bind (safe_getBead hT hw fun w b hw _ => ?_)
    generalize controlEpoch b = epoch
    refine safe_ite (fun _ => ?_) fun _ => safe_pure hw
    exact safe_then (safe_compareAndSetEpoch hT hw) fun _ _ h => safe_pure h

variable {host : Host} (hhost : host.conditionalWrites = .active)
include hhost

/-- A claim moves the marker of a candidate or leaves it; one that succeeds in failing it leaves it dead. -/
lemma safe_claim {source target : String} (hsource : source ≠ attachFencePendingFailed)
    (htarget : target ≠ attachFencePendingUnclaimed)
    (hmay : source = attachFencePendingUnclaimed → target ≠ attachFencePendingFailed →
      ∀ w, T w → r.MayActivate id w.1) :
    Yields T (claimAttachCandidate host id source target)
      (fun won w => T w ∧ (won = true → target = attachFencePendingFailed → DeadAt id w.1)) w := by
  have hwriter : host.conditionalWriterFor = true := by rw [Host.conditionalWriterFor, hhost]
  rw [claimAttachCandidate, if_pos hwriter]
  refine safe_bind (safe_compareAndSet hT hw ?_ ?_)
  · intro w b hw hb hmarker
    refine ⟨w.1.winner, w.2.claim hb hmarker hsource htarget fun h h' => hmay h h' w hw, ?_⟩
    intro w' hevolves hstore _
    refine safe_pure ⟨hT hevolves hw, fun _ hfailed => ?_⟩
    refine ⟨b.setKey .attachFencePending target, ?_, .inr ?_⟩
    · rw [hstore, Store.find?_modify (Bead.setKey_id _ _), hb, Option.map_some, if_pos (Store.id_of_find? hb)]
    · rw [marker, Bead.meta_setKey, if_pos rfl, hfailed]
  · rintro w (- | won) hw hwon
    · exact safe_throw hw
    · exact safe_pure ⟨hw, fun h => absurd (congrArg some h) hwon⟩

lemma safe_clearMarker (id : String) : Keeps T (clearMarker host id) w := by
  refine safe_then (safe_claim hT hw hhost (by decide) (by decide) fun h => absurd h (by decide)) fun won w h => ?_
  cases won with
  | true => exact safe_pure h.1
  | false =>
    refine safe_bind (safe_getBead hT h.1 fun w' b hw' _ => ?_)
    exact safe_refuse (fun _ => hw') fun _ _ => hw'

lemma safe_activateAttachCandidate (hmay : ∀ w, T w → r.MayActivate id w.1) (idMapping : IDMapping) :
    Keeps T (activateAttachCandidate host id idMapping) w := by
  have hclaim : Keeps T (claimForActivation host id) w := by
    refine safe_then (safe_claim hT hw hhost (by decide) (by decide) fun _ _ => hmay) fun won w h => ?_
    cases won with
    | true => exact safe_pure h.1
    | false =>
      refine safe_bind (safe_getBead hT h.1 fun w' b hw' _ => ?_)
      split_ifs
      · exact safe_pure hw'
      · exact safe_pure hw'
      · exact safe_throw hw'
  refine safe_then hclaim fun claimed w hw => ?_
  cases claimed with
  | false => exact safe_pure hw
  | true => exact safe_then (safe_quiet hT hw (asks_activateAll _)) fun _ w hw => safe_clearMarker hT hw hhost id

lemma safe_advanceAttachEpochIfNeeded :
    Keeps T (advanceAttachEpochIfNeeded host r.attachBeadID r.expectedEpoch) w := by
  refine safe_ite (fun _ => safe_bind (safe_getBead hT hw fun w b hw _ => ?_)) fun _ => safe_pure hw
  generalize controlEpoch b = epoch
  refine safe_ite (fun _ => ?_) fun _ => safe_pure hw
  rw [Host.resolveConditionalWriter, hhost]
  exact safe_bind (safe_pure (safe_advanceAttachEpoch hT hw))

variable (recipe : Recipe)

lemma safe_adoptExistingAttach (b : Bead) :
    Keeps T (adoptExistingAttach host recipe r.rootBeadID r.attachBeadID r.expectedEpoch b) w := by
  refine safe_then (safe_quiet hT hw (p := StoreM.depList _ _) (asks_op trivial)) fun deps w hw => ?_
  refine safe_then (safe_quiet hT hw (asks_when fun _ => asks_op trivial)) fun _ w hw => ?_
  refine safe_then (safe_advanceAttachEpochIfNeeded hT hw hhost) fun _ w hw => ?_
  exact safe_then (safe_quiet hT hw (asks_existingAttachIDMapping _ _ _)) fun _ _ h => safe_pure h

lemma safe_recover (hmay : ∀ w, T w → r.MayActivate b.id w.1) :
    Keeps T (recover host recipe r.rootBeadID r.attachBeadID r.expectedEpoch b) w := by
  refine safe_then (safe_quiet hT hw (asks_existingAttachIDMapping _ _ _)) fun m w hw => ?_
  exact safe_then (safe_activateAttachCandidate hT hw hhost hmay m)
    fun _ w hw => safe_adoptExistingAttach hT hw hhost recipe b

lemma safe_dropStaleCandidate (loser : Bead) :
    Yields T (dropStaleCandidate host r.attachBeadID loser) (fun _ w => T w ∧ DeadAt loser.id w.1) w := by
  refine safe_then (safe_claim hT hw hhost (by decide) (by decide) fun _ h => absurd rfl h) fun won w h => ?_
  refine safe_bind (safe_refuse (fun hnone => ?_) fun _ _ => h.1)
  have hwon : won = true := by
    cases won with
    | true => rfl
    | false => cases hnone
  have hdead : T w ∧ DeadAt loser.id w.1 := ⟨h.1, h.2 hwon rfl⟩
  have hstable : Stable fun w : r.World epoch₀ => T w ∧ DeadAt loser.id w.1 :=
    fun he h => ⟨hT he h.1, h.2.evolves he⟩
  refine safe_mono (fun _ _ h => h) (fun _ _ h => h.1) (safe_quiet hstable hdead ?_)
  exact (asks_markFailedReporting _).bind fun _ => (Fallible.asks_refuse _).bind fun _ => asks_op trivial

omit hhost in
lemma safe_listCandidates : Yields (ε := Failure) T (StoreM.list (keyFilters r.key r.rootBeadID) false)
    (fun all w => T w ∧ r.Listed all w.1) w := by
  refine safe_op fun w₁ hr _ => ?_
  obtain ⟨w₂, hview, hevolves, -⟩ := moves_same w₁ (q := .list (keyFilters r.key r.rootBeadID) false) rfl
  have hstore : w₂.1.store = w₁.1.store := congrArg Prod.fst hview
  refine ⟨w₂, hview, hevolves, hT hevolves (hT hr hw), ?_⟩
  show r.Listed (w₁.1.store.list (keyFilters r.key r.rootBeadID) false) w₂.1
  refine ⟨fun b hb => ?_, fun hne => ?_, fun _ id c hc hcand => ?_⟩
  · rw [hstore]
    exact ⟨b, w₁.2.wellFormed.find? (mem_of_mem_filter hb), Grown.refl r b⟩
  · have hfound : w₂.1.found = (w₁.1.found || r.finds w₁.1.store (.list (keyFilters r.key r.rootBeadID) false)) :=
      congrArg Prod.snd hview
    rw [hfound]
    simp [finds, hne]
  · rw [hstore] at hc
    refine ⟨c, mem_filter.mpr ⟨Store.mem_of_find? hc, ?_⟩, Store.id_of_find? hc, Grown.refl r c⟩
    simp [Store.matching, keyFilters, w₁.2.opened id c hc hcand, hcand.1, hcand.2]

lemma safe_dropLosers (winner : Bead) (losers : List Bead) (hopen : r.Undecided winner losers w.1) :
    Yields T (forM losers (dropStaleCandidate host r.attachBeadID)) (fun _ w => T w ∧ r.Undecided winner [] w.1) w := by
  refine safe_forM (fun losers w => T w ∧ r.Undecided winner losers w.1) losers ?_ ⟨hw, hopen⟩
  intro loser rest w h
  refine safe_mono (fun _ w h => ?_) (fun _ _ h => h.1)
    (safe_dropStaleCandidate (Undecided.stable hT winner (loser :: rest)) h hhost loser)
  obtain ⟨⟨hw, hfound, hopen⟩, d, hd, hdead⟩ := h
  refine ⟨hw, hfound, fun id c hc hcand => ?_⟩
  rcases hopen id c hc hcand with hdead' | hid | ⟨b, hb, hid⟩
  · exact .inl hdead'
  · exact .inr (.inl hid)
  · rcases mem_cons.mp hb with rfl | hb
    · rw [hid, hc] at hd
      exact .inl (Option.some.inj hd ▸ hdead)
    · exact .inr (.inr ⟨b, hb, hid⟩)

lemma safe_settle (hlisted : r.Listed all w.1) :
    Keeps T (settle host recipe r.rootBeadID r.attachBeadID r.key r.expectedEpoch all) w := by
  have hL : Stable fun w : r.World epoch₀ => T w ∧ r.Listed all w.1 := fun he h => ⟨hT he h.1, h.2.evolves he⟩
  have hpure : ∀ {p : M AttachResult}, Keeps T p w → Keeps T (p >>= fun result => pure (some result)) w :=
    fun hp => safe_then hp fun _ _ h => safe_pure h
  unfold settle
  cases hlive : all.find? (standing · = .live) with
  | some b => exact hpure (safe_adoptExistingAttach hT hw hhost recipe b)
  | none =>
    cases hactivating : sortedByID all .activating with
    | cons survivor rest =>
      have hmem : survivor ∈ all ∧ standing survivor = .activating := by
        rw [← mem_sortedByID, hactivating]
        exact mem_cons_self
      refine hpure (safe_mono (fun _ _ h => h.1) (fun _ _ h => h.1)
        (safe_recover hL ⟨hw, hlisted⟩ hhost recipe fun w h => .inr (.inr ?_)))
      obtain ⟨c, hc, hg⟩ := h.2.known survivor hmem.1
      exact ⟨c, hc, hg.claimed (claimed_of_standing hmem.2)⟩
    | nil =>
      cases hpending : sortedByID all .pending with
      | cons winner losers =>
        have hne : all ≠ [] := by
          rintro rfl
          cases hpending
        -- no candidate was live or activating, so those that are not pending are dead
        have hopen : r.Undecided winner losers w.1 := by
          refine ⟨hlisted.found hne, fun id c hc hcand => ?_⟩
          obtain ⟨b, hb, rfl, hg⟩ := hlisted.complete hne id c hc hcand
          cases hstanding : standing b with
          | failed => exact .inl (hg.dead (dead_of_standing hstanding))
          | live => exact absurd hstanding (by simpa using find?_eq_none.mp hlive b hb)
          | activating =>
            have hmem := mem_sortedByID.mpr ⟨hb, hstanding⟩
            rw [hactivating] at hmem
            cases hmem
          | pending =>
            have hmem := mem_sortedByID.mpr ⟨hb, hstanding⟩
            rw [hpending, mem_cons] at hmem
            exact .inr (hmem.imp (congrArg Bead.id) fun h => ⟨b, h, rfl⟩)
        refine safe_then (safe_dropLosers hT hw hhost winner losers hopen) fun _ w h => ?_
        have hrecover := safe_recover (Undecided.stable hT winner []) h hhost recipe fun w h => h.2.mayActivate
        exact safe_bind (safe_mono (fun _ _ h => safe_pure h.1) (fun _ _ h => h.1) hrecover)
      | nil =>
        cases all with
        | nil => exact safe_pure hw
        | cons b rest => exact safe_throw hw

/-! ## Creating -/

omit hhost in
lemma safe_create (needs : List (DepType × String)) (hb : r.Candidate b → marker b = attachFencePendingUnclaimed) :
    Keeps T (StoreM.create b needs) w := by
  refine safe_op fun w₁ hr hguard => ?_
  have hcreate := w₁.2.create b needs fun hcand => ⟨hguard hcand, hb hcand⟩
  obtain ⟨w₂, hview, hevolves, -⟩ := moves (w := w₁) (q := .create b needs) w₁.1.winner
    (by simpa [Store.serve, finds] using hcreate)
  exact ⟨w₂, hview, hevolves, hT hevolves (hT hr hw)⟩

variable {check : BeadCheck} {recipe : Recipe} {opts : Options}

omit hhost in
lemma safe_createStep {vars : List (String × String)} (hmarked : r.Marked recipe vars) (st : Progress)
    {step : RecipeStep} (hstep : step ∈ recipe.steps) :
    Keeps T (createStep check recipe opts vars st step) w := by
  have hb : r.Candidate (beadOf recipe opts vars st step) →
      marker (beadOf recipe opts vars st step) = attachFencePendingUnclaimed := by
    intro hcand
    have hkey : substitute vars (step.meta .idempotencyKey) = r.key := by
      rw [← meta_beadOf (k := .idempotencyKey) ⟨by decide, by simp⟩ recipe opts vars st step]
      exact hcand.1
    rw [marker, meta_beadOf (k := .attachFencePending) ⟨by decide, by simp⟩, hmarked step hstep hkey]
    rfl
  refine safe_then (safe_quiet hT hw (asks_refuse st _)) fun _ w hw => ?_
  exact safe_then (safe_create hT hw _ hb) fun _ _ h => safe_pure h

omit hhost in
lemma safe_instantiate (hmarked : r.Marked recipe (applyVarDefaults opts.vars recipe.vars)) :
    Keeps T (instantiate check recipe opts) w := by
  refine safe_bind (safe_refuse (fun _ => ?_) fun _ _ => hw)
  refine safe_then (safe_foldlM _ (fun st step hstep w hw => safe_createStep hT hw hmarked st ?_) _ hw)
    fun st w hw => ?_
  · split_ifs at hstep
    · exact mem_of_mem_take hstep
    · exact hstep
  · exact safe_then (safe_quiet hT hw (asks_finishInstantiate recipe opts st)) fun _ _ h => safe_pure h

lemma safe_fence (result : Result) : Keeps T (fence host true r.attachBeadID r.expectedEpoch result) w := by
  have hwon : Stable fun w : r.World epoch₀ => T w ∧ w.1.winner = some result.rootID :=
    fun he h => ⟨hT he h.1, he.winner _ h.2⟩
  have hadvance : Yields T (advanceAttachEpochFence host true r.attachBeadID r.expectedEpoch result)
      (fun _ w => T w ∧ w.1.winner = some result.rootID) w := by
    refine safe_bind (safe_then (safe_advance hT hw (some result.rootID)) fun won w h => ?_)
    cases won with
    | none => exact safe_throw h.1
    | some won =>
      refine safe_pure ?_
      cases won with
      | true => exact safe_pure ⟨h.1, h.2 rfl rfl⟩
      | false =>
        refine safe_then (safe_claim hT h.1 hhost (by decide) (by decide) fun _ h => absurd rfl h)
          fun claimed w h => ?_
        exact safe_then (safe_quiet hT h.1 (asks_when fun _ => asks_neutralize _ _)) fun _ _ h => safe_throw h
  refine safe_then hadvance fun _ w h => ?_
  exact safe_mono (fun _ _ h => h.1) (fun _ _ h => h.1)
    (safe_activateAttachCandidate hwon h hhost (fun _ h => .inl h.2) result.idMapping)

/-! ## The calls -/

lemma safe_attachNew (hpos : 0 < r.expectedEpoch) (hcall : call.KeyOnRoot r) (parent : Bead) :
    Keeps T (attachNew host call.recipe r.attachBeadID r.rootBeadID parent (call.options r)) w := by
  have hwriter : Yields T (fenceWriter host parent (call.options r)) (fun writer w => writer = true ∧ T w) w := by
    rw [fenceWriter]
    generalize (if parent.meta .controlEpoch = "" then 0 else Go.atoiValue (parent.meta .controlEpoch)) = epoch
    rw [if_pos (show 0 < (call.options r).expectedEpoch from hpos)]
    by_cases hepoch : epoch = (call.options r).expectedEpoch
    · rw [if_pos hepoch, Host.resolveConditionalWriter, hhost]
      exact safe_pure ⟨rfl, hw⟩
    · rw [if_neg hepoch]
      exact safe_throw hw
  refine safe_then hwriter fun writer w h => ?_
  obtain ⟨rfl, hw⟩ := h
  refine safe_bind (safe_refuse (fun _ => ?_) fun _ _ => hw)
  refine safe_then (safe_instantiate hT hw (Call.marked hcall _ _)) fun result w hw => ?_
  refine safe_then (safe_quiet hT hw (p := StoreM.depAdd _ _ _) (asks_op trivial)) fun _ w hw => ?_
  exact safe_then (safe_when (fun _ => safe_fence hT hw hhost result) fun _ => hw) fun _ _ h => safe_pure h

end

lemma safe_attach {host : Host} (hhost : host.conditionalWrites = .active) (hpos : 0 < r.expectedEpoch)
    (hcall : call.KeyOnRoot r) (w : r.World epoch₀) :
    (attach host call.recipe r.attachBeadID (call.options r)).toProgram.Safe (r.discipline epoch₀)
      (fun _ _ => True) w := by
  have hT : Stable fun _ : r.World epoch₀ => True := fun _ _ => trivial
  have hattach : (attach host call.recipe r.attachBeadID (call.options r)).Safe (r.discipline epoch₀)
      (fun _ _ => True) (fun _ _ => True) w := by
    rw [attach]
    split_ifs
    · exact safe_throw trivial
    refine safe_bind (safe_getBead hT trivial fun w parent _ hparent => ?_)
    have hroot : resolveRunID parent.metadata r.attachBeadID = r.rootBeadID := by
      obtain ⟨b, hb, hrun, -⟩ := w.2.parent
      rw [hb] at hparent
      rw [← hrun, Option.some.inj hparent]
    rw [hroot]
    have hexisting : (existingAttach host call.recipe r.rootBeadID r.attachBeadID (call.options r)).Safe
        (r.discipline epoch₀) (fun _ _ => True) (fun _ _ => True) w := by
      rw [existingAttach]
      split_ifs
      · exact safe_pure trivial
      · exact safe_then (safe_listCandidates hT trivial) fun all w h => safe_settle hT h.1 hhost call.recipe h.2
    refine safe_then hexisting fun existing w _ => ?_
    cases existing with
    | some result => exact safe_pure trivial
    | none => exact safe_attachNew hT trivial hhost hpos hcall parent
  refine Program.safe_mono (fun r w h => ?_) hattach
  trivial

/-- The calls of a race, ready to start on a store where none has found a candidate. -/
def pool (r : Race) (host : Host) (calls : List Call) (s : Store) :
    Pool Op Op.Answer (Store × Bool) (Except Failure AttachResult) where
  store := (s, false)
  programs := calls.map fun call => (attach host call.recipe r.attachBeadID (call.options r)).toProgram

/-- Where a race may start: the attach bead is there, and no root carries the key. -/
structure Start (r : Race) (s : Store) (parent : Bead) : Prop where
  wellFormed : s.WellFormed
  attached : s.find? r.attachBeadID = some parent
  run : resolveRunID parent.metadata r.attachBeadID = r.rootBeadID
  fresh : ∀ b ∈ s.beads, ¬ r.Candidate b

lemma Start.inv {s : Store} {parent : Bead} (h : r.Start s parent) :
    r.Inv (parent.meta .controlEpoch) ⟨s, false, none⟩ where
  wellFormed := h.wellFormed
  parent := ⟨parent, h.attached, h.run, .inl rfl, nofun⟩
  opened _ b hb hcand := absurd hcand (h.fresh b (Store.mem_of_find? hb))
  settled _ _ b _ hb _ _ hcand := absurd hcand (h.fresh b (Store.mem_of_find? hb))
  recovered _ b hb hcand := absurd hcand (h.fresh b (Store.mem_of_find? hb))

/-- However the calls take turns and wherever they stop, as long as no call creates its root after another has
found one, at most one root that carries the key is live, and the epoch has moved at most from the expected
one to the next. -/
theorem one_live_root {host : Host} (hhost : host.conditionalWrites = .active) (hpos : 0 < r.expectedEpoch)
    {calls : List Call} (hcalls : ∀ call ∈ calls, call.KeyOnRoot r) {s : Store} {parent : Bead}
    (hstart : r.Start s parent) {schedule : List ℕ}
    (hguard : (r.pool host calls s).Guarded r.serve r.guard schedule) :
    let s' := ((r.pool host calls s).exec r.serve schedule).store.1
    (∀ b ∈ s'.beads, ∀ c ∈ s'.beads, r.Candidate b → r.Candidate c → Live b → Live c → b = c) ∧
    ∀ b, s'.find? r.attachBeadID = some b → b.meta .controlEpoch = parent.meta .controlEpoch ∨
      parent.meta .controlEpoch = Go.itoa r.expectedEpoch ∧
        b.meta .controlEpoch = Go.itoa (r.expectedEpoch + 1) := by
  intro s'
  have hbehind : (r.pool host calls s).Behind (r.discipline (parent.meta .controlEpoch)) ⟨_, hstart.inv⟩ := by
    refine ⟨rfl, fun p hp => ?_⟩
    obtain ⟨call, hcall, rfl⟩ := mem_map.mp hp
    exact safe_attach hhost hpos (hcalls call hcall) _
  obtain ⟨w, ⟨hview, -⟩, -⟩ := hbehind.exec (fun h => h) hguard
  have hstore : w.1.store = s' := congrArg Prod.fst hview
  constructor
  · intro b hb c hc hbc hcc hblive hclive
    rw [← hstore] at hb hc
    have hid : b.id = c.id :=
      w.2.live_unique (w.2.wellFormed.find? hb) (w.2.wellFormed.find? hc) hbc hcc hblive hclive
    exact inj_on_of_nodup_map w.2.wellFormed.nodup hb hc hid
  · intro b hb
    obtain ⟨p, hp, -, hepoch, -⟩ := w.2.parent
    rw [hstore, hb] at hp
    exact Option.some.inj hp ▸ hepoch

/-! ## A race for the second attempt of a loop -/

/-- A control bead at its first epoch. -/
def loopControl : Bead := { id := "gc-1", type := "task", metadata := [(.controlEpoch, "1")] }

def loopStore : Store := { seq := 1, beads := [loopControl] }

def secondAttempt : Race where
  attachBeadID := "gc-1"
  key := "gc-1:attempt:2"
  rootBeadID := "gc-1"
  expectedEpoch := 1

def attemptCall : Call where
  recipe := { name := "attempt.2", steps := [{ id := "attempt.2", isRoot := true }] }

/-- The first and the third call find no candidate.  The first creates its root, the second finds it and claims
it for activation.  The third creates its own, wins the epoch and activates it too. -/
theorem two_live_roots :
    let s' := ((secondAttempt.pool {} [attemptCall, attemptCall, attemptCall] loopStore).exec
      secondAttempt.serve [0, 0, 2, 2, 0, 1, 1, 1, 2, 2, 2, 2]).store.1
    ∃ b ∈ s'.beads, ∃ c ∈ s'.beads, b ≠ c ∧ secondAttempt.Candidate b ∧ secondAttempt.Candidate c ∧
      Live b ∧ Live c := by
  decide +kernel

lemma loopStore_start : secondAttempt.Start loopStore loopControl where
  wellFormed :=
    { nodup := by decide
      unminted := by
        intro n hn hmem
        have hid : mintID n = mintID 1 := (mem_singleton.mp hmem).trans (by decide)
        exact absurd hn (by rw [Store.mintID_injective hid]; decide) }
  attached := by decide
  run := by decide
  fresh := by decide

/-- Two calls create their roots before either looks again; the second loses the epoch. -/
theorem one_live_root_two_calls :
    let s' := ((secondAttempt.pool {} [attemptCall, attemptCall] loopStore).exec
      secondAttempt.serve [0, 0, 1, 1, 0, 1, 0, 1, 0, 1, 0, 1, 0, 1, 0, 1, 0]).store.1
    (∀ b ∈ s'.beads, ∀ c ∈ s'.beads, secondAttempt.Candidate b → secondAttempt.Candidate c →
      Live b → Live c → b = c) ∧
    ∀ b, s'.find? secondAttempt.attachBeadID = some b → b.meta .controlEpoch = loopControl.meta .controlEpoch ∨
      loopControl.meta .controlEpoch = Go.itoa secondAttempt.expectedEpoch ∧
        b.meta .controlEpoch = Go.itoa (secondAttempt.expectedEpoch + 1) := by
  exact one_live_root rfl (by decide) (by simp [Call.KeyOnRoot, attemptCall]) loopStore_start (by decide +kernel)

end Race

end DeliveryEngine.Molecule
