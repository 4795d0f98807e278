import DeliveryEngine.Dispatch.Control

/-!
# Canceling a run

`cancelRun` closes the open members of a run with the outcome `canceled`, and then its root.  A call of the dispatcher
that begins after that leaves the run alone (`gated_call_keeps`).  A call that began before does not look again: the
finalizer reads the members that the cancel has closed, none of them failed, writes `pass` over the root's `canceled`
and closes the source the run was made for (`canceled_run_passes`).
-/

namespace DeliveryEngine.Dispatch

open Beads Option
open Runs (Fallible Pool Program)
open Runs.Fallible (keeps_mapError keeps_op keeps_orElse keeps_pure keeps_throw keeps_when)

/-! ## The cancel -/

variable (rootID : String)

/-- `sourceworkflow.ListWorkflowBeads`. -/
def listWorkflowBeads : M (List Bead) := do
  let rootID := Go.trimSpace rootID
  if rootID = "" then pure []
  else do
    let root ← getBead rootID
    let descendants ← StoreM.list [(.rootBeadID, rootID)] true
    let found := if descendants.any (·.id = root.id) then descendants else root :: descendants
    pure (found.insertionSort fun a b => a.id ≤ b.id)

def orderedOpenWorkflowSubtree (asked : List String := []) : M (List String) := do
  let matched ← listWorkflowBeads rootID
  closeOrder (openDeepestFirst matched asked)

/-- Close the root of a run with its mark, unless it has been closed already. -/
def closeRootWithMarker (rootMeta : Metadata) : M ℕ := StoreM.closeAll [rootID] rootMeta

/-- Close the open beads of a run, the root last and with metadata of its own. -/
def closeWorkflowSubtreeAs (outcome reason : String) (rootExtra : Metadata) : M ℕ := do
  let ordered ← orderedOpenWorkflowSubtree rootID
  let base : Metadata := [(.outcome, outcome), (.closeReason, reason)]
  if ordered = [] then pure 0
  else if rootExtra = [] then StoreM.closeAll ordered base
  else do
    let rootID := Go.trimSpace rootID
    let members ← StoreM.closeAll (ordered.filter (· ≠ rootID)) base
    if rootID ∈ ordered then do
      let root ← closeRootWithMarker rootID (base.update rootExtra)
      pure (members + root)
    else pure members

def runCanceledCloseReason : String := "run canceled via POST /runs/\x7bid\x7d/cancel"

/-- `resolvedWorkflowID`. -/
def resolvedWorkflowID (root : Bead) : String :=
  let workflowID := Go.trimSpace (root.meta .workflowID)
  if workflowID = "" then root.id else workflowID

def matchesWorkflowID (root : Bead) (workflowID : String) : Bool :=
  let workflowID := Go.trimSpace workflowID
  workflowID ≠ "" && (root.id = workflowID || resolvedWorkflowID root = workflowID)

/-- The roots that go by the identifier of a run. -/
def findWorkflowRoots (runID : String) : M (List Bead) := do
  let root ← StoreM.get runID
  let listed ← StoreM.list [(.kind, "workflow"), (.workflowID, runID)] true
  pure ((root.toList ++ listed.filter fun b => root = none ∨ b.id ≠ runID).filter fun b =>
    isWorkflowRoot b && matchesWorkflowID b runID)

structure CancelRunResult where
  found : Bool := false
  terminal : Bool := false
  closed : ℕ := 0
  /-- Whether a root was canceled by this call. -/
  canceled : Bool := false

def cancelRoot (res : CancelRunResult) (root : Bead) : M CancelRunResult :=
  if root.status = .closed then pure { res with found := true }
  else do
    let n ← closeWorkflowSubtreeAs root.id "canceled" runCanceledCloseReason [(.cancelRequested, "true")]
    pure { res with found := true, closed := res.closed + n, canceled := true }

def cancelRun (runID : String) : M CancelRunResult := do
  let roots ← findWorkflowRoots runID
  let res ← roots.foldlM cancelRoot {}
  pure { res with terminal := res.found && !res.canceled }

/-! ## Calls that begin after the cancel -/

/-- The control is held against the given root before it is handled. -/
def GatedBy (root : String) (b : Bead) : Prop := isGated b = true ∧ Go.trimSpace (b.meta .rootBeadID) = root

/-- The store `s` is `s₀`, except that some of the open controls among `calls` that are held against the root have
been closed. -/
structure Undisturbed (root : String) (calls : List String) (s₀ s : Store) : Prop where
  ids : s.beads.map Bead.id = s₀.beads.map Bead.id
  kept : ∀ id b, s₀.find? id = some b → s.find? id = some b ∨
    (id ∈ calls ∧ b.status = .opened ∧ GatedBy root b ∧ ∃ b', s.find? id = some b' ∧ b'.status = .closed)

section
variable {root : String} {calls : List String} {s₀ s : Store} {id : String} {b r : Bead}

lemma Undisturbed.refl (root : String) (calls : List String) (s : Store) : Undisturbed root calls s s where
  ids := rfl
  kept _ _ h := .inl h

lemma find?_isSome_iff : (s.find? id).isSome ↔ id ∈ s.beads.map Bead.id := by simp [Store.find?, List.find?_isSome]

section
variable (h : Undisturbed root calls s₀ s)
include h

lemma Undisturbed.before (hb : s.find? id = some b) : s₀.find? id = some b ∨ b.status = .closed := by
  have hmem : id ∈ s₀.beads.map Bead.id := h.ids ▸ find?_isSome_iff.mp (isSome_of_eq_some hb)
  obtain ⟨b₀, hb₀⟩ := isSome_iff_exists.mp (find?_isSome_iff.mpr hmem)
  obtain heq | ⟨-, -, -, b', hb', hclosed⟩ := h.kept id b₀ hb₀
  · exact .inl (by rw [hb₀, ← heq, hb])
  · rw [hb] at hb'
    exact .inr (some.inj hb' ▸ hclosed)

lemma Undisturbed.root_kept (hr : s₀.find? root = some r) : s.find? root = some r := by
  obtain heq | ⟨-, -, ⟨hgated, hroot⟩, -⟩ := h.kept root r hr
  · exact heq
  · have hid := Store.id_of_find? hr
    simp only [isGated, hroot, hid, ne_eq, not_true_eq_false, decide_false, Bool.and_false] at hgated
    cases hgated

lemma Undisturbed.modify {c : Bead} (hid : id ∈ calls)
    (hc : s₀.find? id = some c) (hopen : c.status = .opened) (hgated : GatedBy root c) {f : Bead → Bead}
    (hf : ∀ b, (f b).id = b.id) (hclosed : ∀ b, (f b).status = .closed) :
    Undisturbed root calls s₀ (s.modify id f) where
  ids := by
    rw [← h.ids, Store.modify, List.map_map]
    refine List.map_congr_left fun b _ => ?_
    rw [Function.comp_apply]
    split_ifs with hb
    · rw [hf]
    · rfl
  kept j b hb := by
    rw [Store.find?_modify hf]
    obtain heq | ⟨hj, hopen', hgated', b', hb', hclosed'⟩ := h.kept j b hb
    · by_cases hji : b.id = id
      · obtain rfl : j = id := (Store.id_of_find? hb).symm.trans hji
        exact .inr ⟨hid, by rwa [some.inj (hb.symm.trans hc)],
          by rwa [some.inj (hb.symm.trans hc)], f b, by rw [heq, map_some, if_pos hji], hclosed b⟩
      · exact .inl (by rw [heq, map_some, if_neg hji])
    · refine .inr ⟨hj, hopen', hgated', _, by rw [hb', map_some], ?_⟩
      split_ifs
      · exact hclosed b'
      · exact hclosed'

end

/-- `KeepsRun` programs leave the run alone. -/
abbrev KeepsRun (root : String) (calls : List String) (s₀ : Store) {α : Type} (p : M α) (post : α → Prop) : Prop :=
  p.Keeps Store.serve (Undisturbed root calls s₀) post

lemma keepsRun_getBead (id : String) :
    KeepsRun root calls s₀ (getBead id) fun b => s₀.find? id = some b ∨ b.status = .closed := by
  refine (keeps_op (q := Op.get id) (P := fun b? => ∀ b, b? = some b → s₀.find? id = some b ∨ b.status = .closed)
    fun s hs => ⟨hs, fun b hb => hs.before hb⟩).bind fun b? hb? => ?_
  cases b? with
  | none => exact keeps_throw _
  | some b => exact keeps_pure (hb? b rfl)

lemma keepsRun_updateMetadataAndClose {c : Bead} (hid : id ∈ calls) (hc : s₀.find? id = some c)
    (hopen : c.status = .opened) (hgated : GatedBy root c) (metadata : Metadata) :
    KeepsRun root calls s₀ (updateMetadataAndClose id metadata) fun _ => True := by
  refine Fallible.Keeps.bind (P := fun _ => True) ?_ fun _ _ => ?_
  · refine (keeps_op (q := Op.update id _) (P := fun _ => True) fun s hs =>
      ⟨hs.modify hid hc hopen hgated (fun _ => rfl) fun _ => rfl, trivial⟩).bind fun found _ => ?_
    exact (keeps_orElse _).mono fun _ _ => trivial
  · refine (keeps_mapError (keepsRun_getBead id)).bind fun b _ => keeps_when fun _ => ?_
    refine (keeps_op (q := Op.close id) (P := fun _ => True) fun s hs =>
      ⟨hs.modify hid hc hopen hgated (Store.closeWith_id []) (Store.closeWith_status []),
        trivial⟩).bind fun found _ => ?_
    exact (keeps_orElse _).mono fun _ _ => trivial

variable (handlers : Handlers) (scanLimit : ℕ)

/-- A call that begins once the root is canceled closes its control, if that is open, and does nothing else:
no handler is reached. -/
lemma gated_call_keeps (hr : s₀.find? root = some r) (hcanceled : rootCanceled r = true) (hid : id ∈ calls)
    (hgated : ∀ c, s₀.find? id = some c → c.status = .opened → GatedBy root c) :
    KeepsRun root calls s₀ (runControlDispatcher handlers scanLimit id) fun _ => True := by
  refine (keepsRun_getBead id).bind fun c hc => ?_
  rw [processControl]
  by_cases hopen : c.status = .opened
  · rw [if_neg (not_not_intro hopen)]
    have hc₀ : s₀.find? id = some c := hc.resolve_right (by rw [hopen]; decide)
    obtain ⟨hgate, hroot⟩ := hgated c hc₀ hopen
    rw [closeOrphanedControl, if_pos hgate, hroot]
    have hread : KeepsRun root calls s₀ (StoreM.get root) fun r? => r? = some r :=
      keeps_op (q := Op.get root) fun s hs => ⟨hs, hs.root_kept hr⟩
    refine Fallible.Keeps.bind (P := fun result => ∃ res, result = some res) ?_ fun result hres => ?_
    · refine hread.bind fun r? hr? => ?_
      subst hr?
      simp only [hcanceled, if_true, closeCanceledControl]
      refine Fallible.Keeps.bind (P := fun _ => True) ?_ fun _ _ => keeps_pure ⟨_, rfl⟩
      refine Fallible.Keeps.bind (P := fun _ => True) ?_ fun _ _ => keeps_pure trivial
      rw [Store.id_of_find? hc₀]
      exact keeps_mapError (keepsRun_updateMetadataAndClose hid hc₀ hopen ⟨hgate, hroot⟩ _)
    · obtain ⟨res, rfl⟩ := hres
      exact keeps_pure trivial
  · rw [if_pos hopen]
    exact keeps_pure trivial

/-- Calls of the dispatcher on controls, none of which has begun. -/
def freshCalls (s : Store) (calls : List String) : Pool Op Op.Answer Store Unit where
  store := s
  programs := calls.map fun id => (runControlDispatcher handlers scanLimit id).discard

/-- Once the root of a run is canceled, calls that begin then leave the run alone, however they interleave and
whatever the handlers do: no bead is created, the root stays as it is, and so does every bead that is not
itself one of the controls, the source beads among them. -/
theorem canceled_run_left_alone (hr : s.find? root = some r) (hcanceled : rootCanceled r = true)
    (hgated : ∀ id ∈ calls, ∀ c, s.find? id = some c → c.status = .opened → GatedBy root c)
    (schedule : List ℕ) :
    let after := ((freshCalls handlers scanLimit s calls).exec Store.serve schedule).store
    after.beads.map Bead.id = s.beads.map Bead.id ∧ after.find? root = some r ∧
      ∀ id ∉ calls, after.find? id = s.find? id := by
  have hkept : Undisturbed root calls s ((freshCalls handlers scanLimit s calls).exec Store.serve schedule).store := by
    refine Pool.exec_keeps (T := Undisturbed root calls s) (.refl root calls s) (fun p hp => ?_) schedule
    obtain ⟨id, hid, rfl⟩ := List.mem_map.mp hp
    exact Fallible.safe_discard (gated_call_keeps handlers scanLimit hr hcanceled hid (hgated id hid) s
      (.refl root calls s))
  refine ⟨hkept.ids, hkept.root_kept hr, fun id hid => ?_⟩
  cases hb : s.find? id with
  | some b => exact (hkept.kept id b hb).resolve_right fun h => hid h.1
  | none =>
    rw [← not_isSome_iff_eq_none, find?_isSome_iff, hkept.ids, ← find?_isSome_iff, hb]
    exact Bool.false_ne_true

end

def noHandlers : Handlers where
  retry _ := pure {}
  ralph _ := pure {}
  check _ := pure {}
  retryEval _ := pure {}
  fanout _ := pure {}
  drain _ := pure {}

def canceledRoot : Bead where
  id := "gc-1"
  status := .closed
  metadata := [(.kind, "workflow"), (.outcome, "canceled"), (.cancelRequested, "true")]

/-- A canceled run in which a loop that was spawned during the cancel is still open. -/
def canceledStore : Store where
  seq := 2
  beads := [canceledRoot,
    { id := "gc-2", metadata := [(.kind, "retry"), (.rootBeadID, "gc-1"), (.rootStoreRef, "city:main")] }]

theorem canceled_run_left_alone_two_calls : (canceledStore.find? "gc-2").map isGated = some true ∧
      let after := ((freshCalls noHandlers 8 canceledStore ["gc-2", "gc-2"]).exec Store.serve
        [0, 1, 1, 0, 1, 0, 1, 0]).store
      after.beads.map Bead.id = canceledStore.beads.map Bead.id ∧ after.find? "gc-1" = some canceledRoot ∧
        ∀ id ∉ ["gc-2", "gc-2"], after.find? id = canceledStore.find? id := by
  refine ⟨by decide +kernel, canceled_run_left_alone noHandlers 8 (by decide +kernel) (by decide +kernel) ?_ _⟩
  intro id hid c hc _
  obtain rfl : id = "gc-2" := by simpa using hid
  obtain rfl := some.inj hc
  exact ⟨by decide +kernel, by decide +kernel⟩

/-! ## A finalizer under way when the run is canceled -/

/-- A run with one member, which a worker is at, made for the source bead `gc-4`. -/
def runStore : Store where
  seq := 4
  beads := [
    { id := "gc-1", metadata := [(.kind, "workflow"), (.sourceBeadID, "gc-4")] },
    { id := "gc-2", status := .inProgress, metadata := [(.rootBeadID, "gc-1"), (.rootStoreRef, "city:main")] },
    { id := "gc-3", metadata := [(.kind, "workflow-finalize"), (.rootBeadID, "gc-1"),
        (.rootStoreRef, "city:main")] },
    { id := "gc-4" }]
  deps := [⟨"gc-3", "gc-2", .blocks⟩]

/-- A call on the finalizer of the run, and a cancel of the run. -/
def finalizeAndCancel : Pool Op Op.Answer Store Unit where
  store := runStore
  programs := [(runControlDispatcher noHandlers 8 "gc-3").discard, (cancelRun "gc-1").discard]

/-- The finalizer reads itself, the run is canceled, and the finalizer goes on: it finds its blocker closed and
not failed. -/
theorem canceled_run_passes :
    let canceled := (finalizeAndCancel.exec Store.serve (0 :: List.replicate 9 1)).store
    let after := (finalizeAndCancel.exec Store.serve (0 :: List.replicate 9 1 ++ List.replicate 40 0)).store
    (canceled.find? "gc-1").map rootCanceled = some true ∧ (after.find? "gc-1").map (·.meta .outcome) = some "pass" ∧
      (canceled.find? "gc-4").map (·.status) = some .opened ∧
      (after.find? "gc-4").map (·.status) = some .closed := by
  decide +kernel

end DeliveryEngine.Dispatch
