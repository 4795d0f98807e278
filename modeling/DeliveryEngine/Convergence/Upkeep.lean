import DeliveryEngine.Convergence.Invariant

/-!
# The operations of a loop, seen by its invariant

A handler asks its store one operation after another.  `Keeps inv p v post` says of a call that starts where the view
is `v`: `inv` holds after each of its operations, however they go, and where the call returns, `post` does.

For each operation there is one rule, which says how the view changes and what the answer tells.
-/

namespace DeliveryEngine.Convergence

open List
open Runs.Fallible (upholds_pure upholds_throw upholds_op upholds_attempt upholds_mapError)
open Op (exec)

/-- A call keeps an assertion about the view, and returns with a postcondition. -/
def Keeps {α : Type} (inv : View → Prop) (p : Call α) (v : View) (post : α → View → Prop := fun _ _ => True) : Prop :=
  ∀ w : World, w.view = v → p.Upholds serve (fun w => inv w.view) (fun a w => post a w.view) w

section
variable {α β : Type} {inv : View → Prop} {v : View} {post : α → View → Prop}

lemma keeps_pure {a : α} (hv : inv v) (h : post a v) : Keeps inv (pure a) v post := by
  rintro w rfl
  exact upholds_pure hv h

lemma keeps_throw (hv : inv v) (e : HandlerError) : Keeps inv (throw e) v post := by
  rintro w rfl
  refine upholds_throw ?_ e
  exact hv

variable {p : Call α} {f : α → Call β}

lemma Keeps.bind {mid : α → View → Prop} {post : β → View → Prop}
    (hp : Keeps inv p v mid) (hf : ∀ a u, inv u → mid a u → Keeps inv (f a) u post) : Keeps inv (p >>= f) v post :=
  fun w hw => (hp w hw).bind fun a w' hinv hmid => hf a w'.view hinv hmid w' rfl

lemma Keeps.next {u : View} {post : β → View → Prop}
    (hp : Keeps inv p v fun _ u' => u' = u) (hf : ∀ a, inv u → Keeps inv (f a) u post) :
    Keeps inv (p >>= f) v post :=
  hp.bind fun a _ hu h => h ▸ hf a (h ▸ hu)

lemma Keeps.reads {said : α → Prop} {post : β → View → Prop}
    (hp : Keeps inv p v fun a u => u = v ∧ said a) (hf : ∀ a, said a → Keeps inv (f a) v post) :
    Keeps inv (p >>= f) v post :=
  hp.bind fun a _ _ h => h.1 ▸ hf a h.2

lemma Keeps.done {a : β} (hp : Keeps inv p v post) : Keeps inv (p >>= fun _ => pure a) v :=
  hp.bind fun _ _ hu _ => keeps_pure hu trivial

lemma Keeps.mono {post' : α → View → Prop} (hp : Keeps inv p v post)
    (h : ∀ a u, post a u → post' a u) : Keeps inv p v post' :=
  fun w hw => (hp w hw).mono fun a w' _ ha => h a w'.view ha

lemma keeps_mapError {f : HandlerError → HandlerError} (hp : Keeps inv p v post) :
    Keeps inv (Runs.Fallible.mapError f p) v post :=
  fun w hw => upholds_mapError (hp w hw)

lemma keeps_attempt {inv' : View → Prop} (hinv : ∀ u, inv' u → inv u) (hp : Keeps inv' p v post) :
    Keeps inv (Runs.Fallible.attempt p) v (fun r u => inv' u ∧ ∀ a, r = .ok a → post a u) :=
  fun w hw => upholds_attempt (fun w : World => hinv w.view) (hp w hw)

/-! ## What the operations do -/

variable {id : WispID} {x : Wisp} {w : World}

lemma find_some (h : w.find id = some x) : x ∈ w.wisps ∧ x.id = id :=
  ⟨mem_of_find?_eq_some h, by simpa using find?_some h⟩

lemma find_none (h : w.find id = none) : ∀ x ∈ w.wisps, x.id ≠ id := by simpa [World.find] using h

variable {n : ℕ}

lemma keyed_some (h : w.keyed n = some x) : x ∈ w.wisps ∧ x.iteration = n :=
  ⟨mem_of_find?_eq_some h, by simpa using find?_some h⟩

lemma keyed_none (h : w.keyed n = none) : ∀ x ∈ w.wisps, x.iteration ≠ n := by simpa [World.keyed] using h

lemma exec_getBead (id : WispID) (w : World) : (exec (.getBead id) w).2 = w ∧
    (∀ x, (exec (.getBead id) w).1 = .ok x → x ∈ w.wisps ∧ x.id = id) ∧
    ((exec (.getBead id) w).1 = .error .notFound → ∀ x ∈ w.wisps, x.id ≠ id) := by
  cases hfind : w.find id with
  | none =>
    simp only [exec, hfind, true_and]
    exact ⟨nofun, fun _ => find_none hfind⟩
  | some x =>
    simp only [exec, hfind, true_and]
    refine ⟨?_, nofun⟩
    rintro y ⟨⟩
    exact find_some hfind

/-- The wisp that a look-up by iteration finds. -/
def Finds (v : View) (n : ℕ) (found : Option WispID) : Prop :=
  match found with
  | some id => ∃ x ∈ v.wisps, x.id = id ∧ x.iteration = n
  | none => ∀ x ∈ v.wisps, x.iteration ≠ n

lemma exec_find (n : ℕ) (w : World) : (exec (.findByIdempotencyKey n) w).2 = w ∧
    ∀ found, (exec (.findByIdempotencyKey n) w).1 = .ok found → Finds w.view n found := by
  refine ⟨rfl, ?_⟩
  rintro found ⟨⟩
  cases hkeyed : w.keyed n with
  | none => exact keyed_none hkeyed
  | some x => exact ⟨x, (keyed_some hkeyed).1, rfl, (keyed_some hkeyed).2⟩

def View.set (v : View) : Write → View
  | .state s => { v with state := s }
  | .activeWisp id => { v with activeWisp := id }
  | .lastProcessedWisp id => { v with lastProcessedWisp := id }
  | .gateOutcome outcome => { v with outcome := outcome }
  | .terminalReason reason => { v with terminalReason := reason }
  | .gateOutcomeWisp id => { v with gateOutcomeWisp := id }
  | _ => v

/-- A write that leaves no note. -/
def Write.plain : Write → Bool
  | .gateOutcomeWisp _ => false
  | _ => true

variable (w : World) {f : Write}

lemma view_write (hf : f.plain) : (w.write f).view = w.view.set f := by
  cases f with
  | gateOutcomeWisp id => cases hf
  | state | iteration | activeWisp | lastProcessedWisp | pendingNextWisp | agentVerdict | agentVerdictWisp
  | gateOutcome | gateExitCode | gateRetryCount | gateStdout | gateStderr | gateDurationMs | gateTruncated
  | terminalReason | terminalActor | waitingReason => rfl

/-- The assertion holds after each of some writes. -/
def Trail (inv : View → Prop) : View → List Write → Prop
  | _, [] => True
  | v, f :: writes => f.plain ∧ inv (v.set f) ∧ Trail inv (v.set f) writes

def View.pour (v : View) (n : ℕ) (hidden : Bool) : View :=
  { v with
    wisps := v.wisps ++ [{ id := v.minted, iteration := n, hidden }]
    minted := v.minted + 1
    history := if hidden then .poured n :: v.history else .activated n :: .poured n :: v.history }

def View.activate (v : View) (x : Wisp) : View :=
  { v with
    wisps := v.wisps.map (changeAt x.id fun y => { y with hidden := false })
    history := .activated x.iteration :: v.history }

def View.close (v : View) (x : Wisp) : View :=
  { v with
    wisps := v.wisps.map (changeAt x.id fun y => { y with status := .closed })
    history := .closed x.iteration :: v.history }

variable {cfg : Config} {care : Care}

lemma Sound.shows_activated {v u : View} (h : Sound cfg care v) {x : Wisp}
    (hx : x ∈ v.wisps) (hu : x.hidden = false ∧ u = v ∨ u = v.activate x) : u.Shows x.id := by
  intro z hz hid
  rcases hu with ⟨hseen, rfl⟩ | rfl
  · exact h.chain.eq_of_id hx hz hid.symm ▸ hseen
  · obtain ⟨y, hy, rfl⟩ := mem_map.mp hz
    rw [changeAt_field Wisp.id x.id (fun y => { y with hidden := false }) fun _ => rfl] at hid
    rw [← hid, changeAt_self]

lemma Sound.pourShown {v : View} (h : Sound cfg care v) (hnone : ∀ x ∈ v.wisps, x.iteration ≠ n) (hpos : 1 ≤ n)
    (hle : n ≤ (closedOf v.wisps).length + 1) (hpermits : care.recovers → Permits cfg n v.history)
    (hactive : v.state = .active → ∀ x ∈ v.wisps, v.activeWisp = some x.id → n = x.iteration + 1 ∧
      v.gateOutcomeWisp = some x.id ∧ cfg.decision x.iteration v.outcome = .iterate)
    (hreason : care.resumes → v.terminalReason = some .approved → v.state = .active) :
    Sound cfg care (v.pour n false) := by
  have hpour := h.pour hnone hpos hle false
    (fun hs x hx ha => ⟨(hactive hs x hx ha).1, fun _ => (hactive hs x hx ha).2⟩) hreason
  refine hpour.note rfl nofun (fun hc i hi => ?_) nofun
  cases hi
  exact (hpermits hc).cons nofun

lemma view_pour (n : ℕ) (hidden : Bool) : (w.pour n hidden).view = w.view.pour n hidden := by
  cases hidden <;> rfl

lemma exec_pour (n : ℕ) (hidden : Bool) (w : World) : ((exec (.pourWisp n hidden) w).2.view = w.view ∨
      (∀ x ∈ w.view.wisps, x.iteration ≠ n) ∧ (exec (.pourWisp n hidden) w).2.view = w.view.pour n hidden) ∧
    ∀ id, (exec (.pourWisp n hidden) w).1 = .ok id → Finds (exec (.pourWisp n hidden) w).2.view n (some id) := by
  cases hkeyed : w.keyed n with
  | some x =>
    simp only [exec, hkeyed, true_or, true_and]
    rintro id ⟨⟩
    exact ⟨x, (keyed_some hkeyed).1, rfl, (keyed_some hkeyed).2⟩
  | none =>
    simp only [exec, hkeyed, view_pour]
    refine ⟨.inr ⟨keyed_none hkeyed, trivial⟩, ?_⟩
    rintro id ⟨⟩
    exact ⟨_, mem_append_right _ (mem_singleton_self _), rfl, rfl⟩

/-- What a pour leaves behind, whether or not its answer came. -/
def Pours (v : View) (n : ℕ) (hidden : Bool) (u : View) : Prop :=
  u = v ∨ (∀ x ∈ v.wisps, x.iteration ≠ n) ∧ u = v.pour n hidden

lemma view_setStatus (hfind : w.find id = some x) (status : MemStore.Status) : (w.setStatus id status).view =
      if x.status = .closed then w.view
      else if status = .closed then w.view.close x
      else { w.view with wisps := w.wisps.map (changeAt x.id fun y => { y with status }) } := by
  obtain ⟨-, rfl⟩ := find_some hfind
  simp only [World.setStatus, hfind]
  by_cases hclosed : x.status = .closed
  · rw [if_pos hclosed, if_pos hclosed]
  · rw [if_neg hclosed, if_neg hclosed]
    by_cases hstatus : status = .closed
    · subst hstatus
      rfl
    · rw [if_neg hstatus, if_neg hstatus]
      rfl

/-! ## Operations of the store -/

variable (hv : inv v)
include hv

lemma keeps_when {c : Bool} {p : Call Unit} {post : Unit → View → Prop} (hp : c = true → Keeps inv p v post)
    (hskip : c = false → post () v) :
    Keeps inv (Runs.Fallible.when c p) v post := by
  cases c with
  | false => exact keeps_pure hv (hskip rfl)
  | true => exact hp rfl

lemma keeps_skip {p : Call Unit} : Keeps inv (Runs.Fallible.when false p) v fun _ u => u = v := keeps_pure hv rfl

variable {op : Op}

lemma keeps_tryOp {post : Except StoreError op.Value → View → Prop} (hrefused : ∀ e, post (.error (.fault e)) v)
    (hserved : ∀ w : World, w.view = v → inv (op.exec w).2.view ∧ post (op.exec w).1 (op.exec w).2.view ∧
      ∀ e, post (.error (.fault e)) (op.exec w).2.view) : Keeps inv (tryOp op) v post := by
  rintro w rfl
  obtain ⟨hinv, hpost, hlost⟩ := hserved w rfl
  refine upholds_op fun fate => ?_
  cases fate with
  | clean => exact ⟨hinv, hpost⟩
  | refused e => exact ⟨hv, hrefused e⟩
  | unacknowledged e => exact ⟨hinv, hlost e⟩

variable {context : String}

lemma keeps_ask {post : op.Value → View → Prop} (hserved : ∀ w : World, w.view = v → inv (op.exec w).2.view ∧
      ∀ value, (op.exec w).1 = .ok value → post value (op.exec w).2.view) :
    Keeps inv (ask context op) v post := by
  have htry : Keeps inv (tryOp op) v fun r u => ∀ value, r = .ok value → post value u :=
    keeps_tryOp hv (fun _ => nofun) fun w hw => ⟨(hserved w hw).1, (hserved w hw).2, fun _ => nofun⟩
  refine htry.bind fun r u hu hr => ?_
  cases r with
  | ok value => exact keeps_pure hu (hr value rfl)
  | error e => exact keeps_throw hu _

lemma keeps_tryRead {said : Except StoreError op.Value → Prop}
    (hread : ∀ w : World, w.view = v → (op.exec w).2 = w ∧ said (op.exec w).1)
    (hfault : ∀ e, said (.error (.fault e))) :
    Keeps inv (tryOp op) v fun r u => u = v ∧ said r := by
  refine keeps_tryOp hv (fun e => ⟨rfl, hfault e⟩) fun w hw => ?_
  obtain ⟨hsame, hsaid⟩ := hread w hw
  rw [hsame, hw]
  exact ⟨hv, ⟨rfl, hsaid⟩, fun e => ⟨rfl, hfault e⟩⟩

lemma keeps_read {said : op.Value → Prop}
    (hread : ∀ w : World, w.view = v → (op.exec w).2 = w ∧ ∀ value, (op.exec w).1 = .ok value → said value) :
    Keeps inv (ask context op) v fun value u => u = v ∧ said value := by
  refine keeps_ask hv fun w hw => ?_
  obtain ⟨hsame, hsaid⟩ := hread w hw
  rw [hsame, hw]
  exact ⟨hv, fun value hvalue => ⟨rfl, hsaid value hvalue⟩⟩

lemma keeps_to {u : View} (hu : inv u) (hserved : ∀ w : World, w.view = v → (op.exec w).2.view = u) :
    Keeps inv (ask context op) v fun _ u' => u' = u := by
  refine keeps_ask hv fun w hw => ?_
  rw [hserved w hw]
  exact ⟨hu, fun _ _ => rfl⟩

/-- What a handler has read of the root bead is what the view shows. -/
structure Reads (root : Meta) (v : View) : Prop where
  state : root.state = v.state
  activeWisp : root.activeWisp = v.activeWisp
  lastProcessedWisp : root.lastProcessedWisp = v.lastProcessedWisp
  gateOutcomeWisp : root.gateOutcomeWisp = v.gateOutcomeWisp
  outcome : root.gate.outcome = v.outcome
  terminalReason : root.terminalReason = v.terminalReason

lemma keeps_getMetadata : Keeps inv (ask context .getMetadata) v fun root u => u = v ∧ Reads root v := by
  refine keeps_read hv fun w hw => ⟨rfl, ?_⟩
  rintro root ⟨⟩
  subst hw
  exact ⟨rfl, rfl, rfl, rfl, rfl, rfl⟩

lemma keeps_getRoot : Keeps inv (ask context .getRoot) v fun _ u => u = v := keeps_to hv hv fun _ hw => hw

lemma keeps_children : Keeps inv (ask context .children) v fun children u => u = v ∧ children = v.wisps := by
  refine keeps_read hv fun w hw => ⟨rfl, ?_⟩
  rintro children ⟨⟩
  exact congrArg View.wisps hw

lemma keeps_tryChildren :
    Keeps inv (tryOp .children) v fun r u => u = v ∧ ∀ children, r = .ok children → children = v.wisps := by
  refine keeps_tryRead hv (fun w hw => ⟨rfl, ?_⟩) fun _ => nofun
  rintro children ⟨⟩
  exact congrArg View.wisps hw

lemma keeps_getBead : Keeps inv (ask context (.getBead id)) v fun x u => u = v ∧ x ∈ v.wisps ∧ x.id = id :=
  keeps_read hv fun w hw => ⟨(exec_getBead id w).1, hw ▸ (exec_getBead id w).2.1⟩

lemma keeps_tryGetBead :
    Keeps inv (tryOp (.getBead id)) v fun r u => u = v ∧ (∀ x, r = .ok x → x ∈ v.wisps ∧ x.id = id) ∧
      (r = .error .notFound → ∀ x ∈ v.wisps, x.id ≠ id) :=
  keeps_tryRead hv (fun w hw => ⟨(exec_getBead id w).1, hw ▸ (exec_getBead id w).2⟩) fun _ => ⟨nofun, nofun⟩

lemma keeps_find : Keeps inv (ask context (.findByIdempotencyKey n)) v fun found u => u = v ∧ Finds v n found :=
  keeps_read hv fun w hw => ⟨rfl, hw ▸ (exec_find n w).2⟩

lemma keeps_tryFind :
    Keeps inv (tryOp (.findByIdempotencyKey n)) v fun r u => u = v ∧ ∀ found, r = .ok found → Finds v n found :=
  keeps_tryRead hv (fun w hw => ⟨rfl, hw ▸ (exec_find n w).2⟩) fun _ => nofun

/-! ## Writes -/

lemma keeps_set (hset : inv (v.set f)) (hf : f.plain := by exact rfl) :
    Keeps inv (set context f) v fun _ u => u = v.set f :=
  keeps_to hv hset fun w hw => hw ▸ view_write w hf

lemma keeps_trySet (hset : inv (v.set f)) (hf : f.plain := by exact rfl) :
    Keeps inv (tryOp (.setMetadata f)) v fun _ u => u = v ∨ u = v.set f := by
  refine keeps_tryOp hv (fun _ => .inl rfl) fun w hw => ?_
  have hview : (exec (.setMetadata f) w).2.view = v.set f := hw ▸ view_write w hf
  rw [hview]
  exact ⟨hset, .inr rfl, fun _ => .inr rfl⟩

lemma keeps_tryPending {id : Option WispID} :
    Keeps inv (tryOp (.setMetadata (.pendingNextWisp id))) v fun _ u => u = v :=
  Keeps.mono (keeps_trySet hv hv) fun _ _ hu => hu.elim (fun h => h) fun h => h

variable {writes : List (String × Write)}

lemma keeps_setAll (htrail : Trail inv v (writes.map Prod.snd)) :
    Keeps inv (setAll writes) v fun _ u => u = (writes.map Prod.snd).foldl View.set v := by
  induction writes generalizing v with
  | nil => exact keeps_pure hv rfl
  | cons f writes ih =>
    obtain ⟨hplain, hset, hrest⟩ := htrail
    refine (keeps_set hv hset hplain).bind fun _ u hu heq => ?_
    subst heq
    exact ih hset hrest

omit hv in
lemma keeps_emit {e : Event} (hv : inv { v with history := .emitted e :: v.history }) :
    Keeps inv (emit e) v fun _ u => u = { v with history := .emitted e :: v.history } := by
  rintro w rfl
  exact upholds_op fun _ => ⟨hv, rfl⟩

variable {reason : String}

lemma keeps_closeRoot : Keeps inv (ask context (.closeRoot reason)) v fun _ u => u = v :=
  keeps_to hv hv fun _ hw => hw

lemma keeps_setGate (hx : x ∈ v.wisps) (honly : ∀ y ∈ v.wisps, y.id = x.id → y = x)
    (hset : inv { v with gateOutcomeWisp := some x.id, history := .persisted x.iteration v.outcome :: v.history }) :
    Keeps inv (set context (.gateOutcomeWisp (some x.id))) v fun _ u =>
      u = { v with gateOutcomeWisp := some x.id, history := .persisted x.iteration v.outcome :: v.history } := by
  refine keeps_to hv hset fun w hw => ?_
  subst hw
  have hfind : w.find x.id = some x := by
    cases hfind : w.find x.id with
    | none => exact absurd rfl (find_none hfind x hx)
    | some y =>
      obtain ⟨hy, hid⟩ := find_some hfind
      rw [honly y hy hid]
  simp only [exec, World.write, hfind]
  rfl

lemma keeps_commit {preMarker : Call Unit} {marker : Option WispID}
    (htrail : Trail inv v (writes.map Prod.snd)) (mid : View → Prop)
    (hpre : Keeps inv preMarker ((writes.map Prod.snd).foldl View.set v) fun _ u => mid u)
    (hmarker : ∀ u, inv u → mid u → ∀ id, marker = some id → inv { u with lastProcessedWisp := some id }) :
    Keeps inv (commit writes preMarker marker) v := by
  refine Keeps.next (keeps_setAll hv htrail) fun _ _ => ?_
  refine hpre.bind fun _ u hu hmid => ?_
  cases marker with
  | none => exact keeps_pure hu trivial
  | some id =>
    have hset : inv (u.set (.lastProcessedWisp (some id))) := hmarker u hu hmid id rfl
    exact (keeps_set hu hset).mono fun _ _ _ => trivial

/-! ## Changes of wisps -/

lemma keeps_tryPour {hidden : Bool} (hpour : (∀ x ∈ v.wisps, x.iteration ≠ n) → inv (v.pour n hidden)) :
    Keeps inv (tryOp (.pourWisp n hidden)) v fun r u => Pours v n hidden u ∧ ∀ id, r = .ok id → Finds u n (some id) := by
  refine keeps_tryOp hv (fun e => ⟨.inl rfl, nofun⟩) fun w hw => ?_
  obtain ⟨hview, hfinds⟩ := exec_pour n hidden w
  rw [hw] at hview
  refine ⟨?_, ⟨hview, hfinds⟩, fun e => ⟨hview, nofun⟩⟩
  rcases hview with hview | ⟨hnone, hview⟩
  · rw [hview]
    exact hv
  · rw [hview]
    exact hpour hnone

lemma keeps_pour {hidden : Bool} (hpour : (∀ x ∈ v.wisps, x.iteration ≠ n) → inv (v.pour n hidden)) :
    Keeps inv (ask context (.pourWisp n hidden)) v fun id u => Pours v n hidden u ∧ Finds u n (some id) := by
  refine (keeps_tryPour hv hpour).bind fun r u hu hr => ?_
  cases r with
  | ok id => exact keeps_pure hu ⟨hr.1, hr.2 id rfl⟩
  | error e => exact keeps_throw hu _

lemma keeps_activate (hactivate : ∀ x ∈ v.wisps, x.id = id → inv (v.activate x)) :
    Keeps inv (ask context (.activateWisp id)) v fun _ u =>
      ∃ x ∈ v.wisps, x.id = id ∧ (x.hidden = false ∧ u = v ∨ u = v.activate x) := by
  refine keeps_ask hv fun w hw => ?_
  subst hw
  cases hfind : w.find id with
  | none =>
    simp only [exec, hfind]
    exact ⟨hv, nofun⟩
  | some x =>
    obtain ⟨hx, hid⟩ := find_some hfind
    simp only [exec, hfind]
    cases hhidden : x.hidden with
    | false =>
      have hsame : w.activate x = w := if_neg (by simp [hhidden])
      rw [hsame]
      exact ⟨hv, fun _ _ => ⟨x, hx, hid, .inl ⟨hhidden, rfl⟩⟩⟩
    | true =>
      have hview : (w.activate x).view = w.view.activate x := congrArg World.view (if_pos hhidden)
      rw [hview]
      exact ⟨hactivate x hx hid, fun _ _ => ⟨x, hx, hid, .inr rfl⟩⟩

lemma keeps_delete (hdelete : inv { v with wisps := v.wisps.filter (·.id ≠ id) }) :
    Keeps inv (ask context (.deleteBead id)) v fun _ u => u = { v with wisps := v.wisps.filter (·.id ≠ id) } := by
  refine keeps_ask hv fun w hw => ?_
  subst hw
  cases hfind : w.find id with
  | none =>
    simp only [exec, hfind]
    exact ⟨hv, nofun⟩
  | some x =>
    simp only [exec, hfind]
    exact ⟨hdelete, fun _ _ => rfl⟩

lemma keeps_close (hclose : ∀ x ∈ v.wisps, x.id = id → x.status ≠ .closed → inv (v.close x)) :
    Keeps inv (ask context (.closeBead id reason)) v fun _ u => ∃ x ∈ u.wisps, x.id = id ∧ x.status = .closed := by
  refine keeps_ask hv fun w hw => ?_
  subst hw
  cases hfind : w.find id with
  | none =>
    simp only [exec, hfind]
    exact ⟨hv, nofun⟩
  | some x =>
    obtain ⟨hx, rfl⟩ := find_some hfind
    simp only [exec, hfind]
    rw [view_setStatus w hfind]
    by_cases hclosed : x.status = .closed
    · rw [if_pos hclosed]
      exact ⟨hv, fun _ _ => ⟨x, hx, rfl, hclosed⟩⟩
    · rw [if_neg hclosed]
      refine ⟨hclose x hx rfl hclosed, fun _ _ => ⟨_, mem_map_of_mem hx, ?_⟩⟩
      rw [changeAt_self]
      exact ⟨rfl, rfl⟩

end

end DeliveryEngine.Convergence
