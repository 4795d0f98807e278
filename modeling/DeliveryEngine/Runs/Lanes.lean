import DeliveryEngine.Runs.Program

/-!
# Calls that keep to their lanes

A call works in a lane, which is known when it begins or found by its first operation, and `view` is the part of the
store that belongs to a lane.  Where no two calls are under way in one lane (`Exclusive`), a call may rely on the lane's
part of the store and leaves the parts of the other lanes alone, so what every call makes true of its own lane is true
of all lanes once all calls have returned (`post_of_returned`).
-/

namespace DeliveryEngine.Runs

open List

/-- The program has nothing left to ask. -/
def Program.isDone {Q : Type} {A : Q → Type} {α : Type} : Program Q A α → Bool
  | .done _ => true
  | .ask _ _ => false

/-- How requests become calls, and which lanes the calls are in. -/
structure Lanes (Q : Type) (A : Q → Type) (σ ρ κ : Type) where
  serve : (q : Q) → σ → A q × σ
  program : ρ → Program Q A Unit
  /-- The lane of a request; a call without one finds it with its first operation. -/
  lane : ρ → Option κ
  /-- The lane that an operation finds. -/
  finds : Q → σ → Option κ

namespace Lanes

structure State (Q : Type) (A : Q → Type) (σ κ : Type) where
  store : σ
  calls : List (Option κ × Program Q A Unit) := []

inductive Event (ρ : Type)
  | start (r : ρ)
  /-- The call that began as number `i` asks its next operation. -/
  | step (i : ℕ)

variable {Q : Type} {A : Q → Type} {σ ρ κ : Type}

def State.underWay (c : State Q A σ κ) (i : ℕ) (call : Option κ × Program Q A Unit) : Prop :=
  c.calls[i]? = some call ∧ call.2.isDone = false

/-- Some call is under way in a lane. -/
def State.busy [DecidableEq κ] (c : State Q A σ κ) (k : κ) : Bool :=
  c.calls.any fun call => call.1 = some k && !call.2.isDone

def State.returned (c : State Q A σ κ) : Bool := c.calls.all (·.2.isDone)

variable (L : Lanes Q A σ ρ κ)

def next (c : State Q A σ κ) : Event ρ → State Q A σ κ
  | .start r => { c with calls := c.calls ++ [(L.lane r, L.program r)] }
  | .step i =>
    match c.calls[i]? with
    | some (lane, .ask q rest) =>
      { store := (L.serve q c.store).2
        calls := c.calls.set i (lane.or (L.finds q c.store), rest (L.serve q c.store).1) }
    | _ => c

def run (c : State Q A σ κ) (events : List (Event ρ)) : State Q A σ κ := events.foldl L.next c

/-- The lane that the next operation of a call finds. -/
def found (c : State Q A σ κ) (i : ℕ) : Option κ :=
  match c.calls[i]? with
  | some (none, .ask q _) => L.finds q c.store
  | _ => none

section
variable [DecidableEq κ] (allowed : σ → ρ → Prop)

/-- The event starts an allowed call, and brings no call into a lane where one is under way. -/
def Admits (c : State Q A σ κ) : Event ρ → Prop
  | .start r => allowed c.store r ∧ ∀ k ∈ L.lane r, c.busy k = false
  | .step i => ∀ k ∈ L.found c i, c.busy k = false

def Exclusive : State Q A σ κ → List (Event ρ) → Prop
  | _, [] => True
  | c, e :: events => L.Admits allowed c e ∧ Exclusive (L.next c e) events

instance [∀ s r, Decidable (allowed s r)] (c : State Q A σ κ) (e : Event ρ) : Decidable (L.Admits allowed c e) :=
  match e with
  | .start r => inferInstanceAs (Decidable (_ ∧ ∀ k ∈ L.lane r, _))
  | .step i => inferInstanceAs (Decidable (∀ k ∈ L.found c i, _))

instance decidableExclusive [∀ s r, Decidable (allowed s r)] :
    ∀ (c : State Q A σ κ) (events : List (Event ρ)), Decidable (L.Exclusive allowed c events)
  | _, [] => .isTrue trivial
  | c, e :: events =>
    have : Decidable (L.Exclusive allowed (L.next c e) events) := decidableExclusive (L.next c e) events
    inferInstanceAs (Decidable (_ ∧ _))

end

/-! ## One lane -/

variable {V : Type} (view : κ → σ → V) (G : σ → Prop)

/-- What a call of a lane relies on and guarantees. -/
def discipline (k : κ) : Discipline Q A σ σ where
  serve := L.serve
  view := id
  guard _ _ := True
  rely s s' := view k s' = view k s ∧ (G s → G s')
  guarantee s s' := (∀ j ≠ k, view j s' = view j s) ∧ (G s → G s')
  rely_refl _ := ⟨rfl, id⟩
  rely_trans h h' := ⟨h'.1.trans h.1, h'.2 ∘ h.2⟩

/-- The call runs safely in its lane, and ends with `post` of the lane's part of the store. -/
def SafeIn (k : κ) (post : V → Prop) (p : Program Q A Unit) (s : σ) : Prop :=
  p.Safe (L.discipline view G k) (fun _ s => post (view k s)) s

/-- What is to be shown of each call by itself. -/
structure Sound (allowed : σ → ρ → Prop) (post : V → Prop) : Prop where
  known : ∀ s r k, G s → allowed s r → L.lane r = some k → post (view k s) → L.SafeIn view G k post (L.program r) s
  /-- A call without a lane asks an operation that finds one. -/
  unknown : ∀ s₀ r, allowed s₀ r → L.lane r = none → ∃ q rest, L.program r = .ask q rest ∧
    ∀ s, G s → ∃ k, L.finds q s = some k ∧ (post (view k s) → (L.discipline view G k).guarantee s (L.serve q s).2 ∧
        L.SafeIn view G k post (rest (L.serve q s).1) (L.serve q s).2)

variable {L view G} {post : V → Prop} {k : κ} {p : Program Q A Unit} {s : σ}

lemma SafeIn.of_view {s' : σ} (h : L.SafeIn view G k post p s)
    (hview : view k s' = view k s) (hG : G s → G s') : L.SafeIn view G k post p s' := by
  cases p with
  | done a =>
    show post (view k s')
    rw [hview]
    exact h
  | ask q rest => exact fun s'' hrely => h s'' ((L.discipline view G k).rely_trans ⟨hview, hG⟩ hrely)

lemma SafeIn.ask {q : Q} {rest : A q → Program Q A Unit} (h : L.SafeIn view G k post (.ask q rest) s) :
    (L.discipline view G k).guarantee s (L.serve q s).2 ∧
      L.SafeIn view G k post (rest (L.serve q s).1) (L.serve q s).2 := by
  obtain ⟨s', hs', hguarantee, hsafe⟩ := h s ⟨rfl, id⟩ trivial
  subst hs'
  exact ⟨hguarantee, hsafe⟩

/-! ## What a program makes of its lane

As long as a program keeps to its lane, all that it needs to know of the store is the lane's part of it. -/

section
variable {α β : Type} {v : V}

variable (L view G k) in
/-- From a store with this part of the lane the program runs safely, and ends with `Q`. -/
def Takes (p : Program Q A α) (v : V) (Q : α → V → Prop) : Prop :=
  ∀ s, G s → view k s = v → p.Safe (L.discipline view G k) (fun a s => G s ∧ Q a (view k s)) s

lemma takes_done {Q : α → V → Prop} {a : α} (h : Q a v) : L.Takes view G k (.done a) v Q := by
  rintro s hG rfl
  exact ⟨hG, h⟩

lemma takes_op {q : Q} {Q : A q → V → Prop}
    (h : ∀ s, G s → view k s = v → (∀ j ≠ k, view j (L.serve q s).2 = view j s) ∧ G (L.serve q s).2 ∧
      Q (L.serve q s).1 (view k (L.serve q s).2)) : L.Takes view G k (Program.op q) v Q := by
  intro s hG hs s' hrely _
  have hG' : G s' := hrely.2 hG
  obtain ⟨hothers, hG'', hQ⟩ := h s' hG' (hrely.1.trans hs)
  exact ⟨_, rfl, ⟨hothers, fun _ => hG''⟩, hG'', hQ⟩

lemma Takes.bind {p : Program Q A α} {f : α → Program Q A β} {Q : β → V → Prop} {P : α → V → Prop}
    (hp : L.Takes view G k p v P) (hf : ∀ a v', P a v' → L.Takes view G k (f a) v' Q) :
    L.Takes view G k (p >>= f) v Q := by
  intro s hG hs
  refine Program.safe_bind (Program.safe_mono (fun a s' h => ?_) (hp s hG hs))
  exact hf a _ h.2 s' h.1 rfl

lemma Takes.mono {p : Program Q A α} {Q Q' : α → V → Prop} (hp : L.Takes view G k p v Q)
    (h : ∀ a v', Q a v' → Q' a v') : L.Takes view G k p v Q' := fun s hG hs =>
  Program.safe_mono (fun a _ hQ => ⟨hQ.1, h a _ hQ.2⟩) (hp s hG hs)

lemma Takes.safeIn (h : L.Takes view G k p (view k s) fun _ => post) (hG : G s) :
    L.SafeIn view G k post p s := Program.safe_mono (fun _ _ h => h.2) (h s hG rfl)

end

/-! ## All lanes -/

variable [DecidableEq κ] {allowed : σ → ρ → Prop} {c : State Q A σ κ}

lemma State.busy_eq_false_iff : c.busy k = false ↔ ∀ i call, c.underWay i call → call.1 ≠ some k := by
  rw [State.busy, any_eq_false]
  constructor
  · intro h i call hcall hk
    have := h call (mem_of_getElem? hcall.1)
    simp [hk, hcall.2] at this
  · intro h call hmem
    obtain ⟨i, hi⟩ := mem_iff_getElem?.mp hmem
    cases hdone : call.2.isDone with
    | true => simp
    | false => simpa using h i call ⟨hi, hdone⟩

variable (L view G) in
/-- Between two events: a lane in which nothing is under way is in order, and the calls under way are safe in lanes
of their own. -/
structure Separate (allowed : σ → ρ → Prop) (post : V → Prop) (c : State Q A σ κ) : Prop where
  shared : G c.store
  idle : ∀ k, c.busy k = false → post (view k c.store)
  safe : ∀ i call, c.underWay i call → ∀ k, call.1 = some k → L.SafeIn view G k post call.2 c.store
  waiting : ∀ i call, c.underWay i call → call.1 = none → ∃ s r, allowed s r ∧ L.lane r = none ∧ call.2 = L.program r
  apart : ∀ i j, i ≠ j → ∀ x y, c.underWay i x → c.underWay j y → ∀ k, x.1 = some k → y.1 ≠ some k

lemma Separate.move (h : L.Separate view G allowed post c) {i : ℕ} {lane : Option κ} {q : Q}
    {rest : A q → Program Q A Unit} (hi : c.calls[i]? = some (lane, .ask q rest))
    (hlane : lane.or (L.finds q c.store) = some k) (hown : ∀ j ≠ i, ∀ call, c.underWay j call → call.1 ≠ some k)
    (hguarantee : (L.discipline view G k).guarantee c.store (L.serve q c.store).2)
    (hsafe : L.SafeIn view G k post (rest (L.serve q c.store).1) (L.serve q c.store).2) :
    L.Separate view G allowed post (L.next c (.step i)) := by
  have hnext : L.next c (.step i) = ⟨(L.serve q c.store).2, c.calls.set i (some k, rest (L.serve q c.store).1)⟩ := by
    simp only [Lanes.next, hi, hlane]
  rw [hnext]
  -- A call under way is the one that moved, or one of the others, unchanged and in another lane.
  have hcases : ∀ j call,
      State.underWay ⟨(L.serve q c.store).2, c.calls.set i (some k, rest (L.serve q c.store).1)⟩ j call →
      j = i ∧ call = (some k, rest (L.serve q c.store).1) ∨ j ≠ i ∧ c.underWay j call := by
    rintro j call ⟨hj, hdone⟩
    rw [getElem?_set] at hj
    split_ifs at hj with hij hlt
    · exact .inl ⟨hij.symm, (Option.some.inj hj).symm⟩
    · exact .inr ⟨Ne.symm hij, hj, hdone⟩
  refine
    { shared := hguarantee.2 h.shared
      idle := fun j hj => ?_
      safe := fun j call hcall k' hk' => ?_
      waiting := fun j call hcall hnone => ?_
      apart := fun a b hab x y hx hy k' hxk hyk => ?_ }
  · rw [State.busy_eq_false_iff] at hj
    by_cases hjk : j = k
    · -- The call that moved has returned, with its postcondition.
      subst hjk
      have hlt : i < c.calls.length := (List.getElem?_eq_some_iff.mp hi).1
      cases hrest : rest (L.serve q c.store).1 with
      | done a =>
        rw [hrest] at hsafe
        exact hsafe
      | ask q' rest' =>
        refine absurd rfl (hj i (some j, .ask q' rest') ⟨?_, rfl⟩)
        rw [getElem?_set, if_pos rfl, if_pos hlt, hrest]
    · rw [hguarantee.1 j hjk]
      refine h.idle j (State.busy_eq_false_iff.mpr fun a call hcall hlane' => ?_)
      by_cases ha : a = i
      · subst ha
        obtain rfl : (lane, Program.ask q rest) = call := Option.some.inj (hi.symm.trans hcall.1)
        have hlane' : lane = some j := hlane'
        rw [hlane'] at hlane
        exact hjk (Option.some.inj hlane)
      · refine hj a call ⟨?_, hcall.2⟩ hlane'
        rw [getElem?_set, if_neg (Ne.symm ha)]
        exact hcall.1
  · obtain ⟨-, rfl⟩ | ⟨hji, hcall⟩ := hcases j call hcall
    · obtain rfl := Option.some.inj hk'
      exact hsafe
    · have hne : k' ≠ k := fun hkk => hown j hji call hcall (hkk ▸ hk')
      exact (h.safe j call hcall k' hk').of_view (hguarantee.1 k' hne) hguarantee.2
  · obtain ⟨-, rfl⟩ | ⟨hji, hcall⟩ := hcases j call hcall
    · cases hnone
    · exact h.waiting j call hcall hnone
  · rcases hcases a x hx with ⟨ha, rfl⟩ | ⟨ha, hx'⟩ <;> rcases hcases b y hy with ⟨hb, rfl⟩ | ⟨hb, hy'⟩
    · exact hab (ha.trans hb.symm)
    · obtain rfl := Option.some.inj hxk
      exact hown b hb y hy' hyk
    · obtain rfl := Option.some.inj hyk
      exact hown a ha x hx' hxk
    · exact h.apart a b hab x y hx' hy' k' hxk hyk

section
variable (hsound : L.Sound view G allowed post)
include hsound

section
variable (h : L.Separate view G allowed post c)
include h

lemma Separate.start {r : ρ} (hadmits : L.Admits allowed c (.start r)) :
    L.Separate view G allowed post (L.next c (.start r)) := by
  obtain ⟨hallowed, hfree⟩ := hadmits
  have hcases : ∀ j call, (L.next c (.start r)).underWay j call →
      c.underWay j call ∨ j = c.calls.length ∧ call = (L.lane r, L.program r) := by
    rintro j call ⟨hj, hdone⟩
    have hj : (c.calls ++ [(L.lane r, L.program r)])[j]? = some call := hj
    rw [getElem?_append] at hj
    split_ifs at hj with hlt
    · exact .inl ⟨hj, hdone⟩
    · have hlen : j - c.calls.length = 0 := by
        have := (List.getElem?_eq_some_iff.mp hj).1
        simpa using this
      rw [hlen] at hj
      exact .inr ⟨by omega, (Option.some.inj hj).symm⟩
  have hfree : ∀ k ∈ L.lane r, ∀ i call, c.underWay i call → call.1 ≠ some k := fun k hk =>
    State.busy_eq_false_iff.mp (hfree k hk)
  refine
    { shared := h.shared
      idle := fun k hk => h.idle k (State.busy_eq_false_iff.mpr fun i call hcall => ?_)
      safe := fun j call hcall k hk => ?_
      waiting := fun j call hcall hnone => ?_
      apart := fun a b hab x y hx hy k hxk hyk => ?_ }
  · refine State.busy_eq_false_iff.mp hk i call ⟨?_, hcall.2⟩
    show (c.calls ++ _)[i]? = _
    rw [getElem?_append_left (List.getElem?_eq_some_iff.mp hcall.1).1]
    exact hcall.1
  · obtain hcall | ⟨-, rfl⟩ := hcases j call hcall
    · exact h.safe j call hcall k hk
    · exact hsound.known c.store r k h.shared hallowed hk (h.idle k (State.busy_eq_false_iff.mpr (hfree k hk)))
  · obtain hcall | ⟨-, rfl⟩ := hcases j call hcall
    · exact h.waiting j call hcall hnone
    · exact ⟨c.store, r, hallowed, hnone, rfl⟩
  · obtain hx | ⟨ha, rfl⟩ := hcases a x hx <;> obtain hy | ⟨hb, rfl⟩ := hcases b y hy
    · exact h.apart a b hab x y hx hy k hxk hyk
    · exact hfree k hyk a x hx hxk
    · exact hfree k hxk b y hy hyk
    · exact hab (ha.trans hb.symm)

lemma Separate.step {i : ℕ} (hadmits : L.Admits allowed c (.step i)) :
    L.Separate view G allowed post (L.next c (.step i)) := by
  match hi : c.calls[i]? with
  | none => simpa only [Lanes.next, hi] using h
  | some (lane, .done a) => simpa only [Lanes.next, hi] using h
  | some (some k, .ask q rest) =>
    have hunder : c.underWay i (some k, .ask q rest) := ⟨hi, rfl⟩
    obtain ⟨hguarantee, hsafe⟩ := (h.safe i _ hunder k rfl).ask
    exact h.move hi rfl (fun j hj call hcall => h.apart i j (Ne.symm hj) _ call hunder hcall k rfl) hguarantee hsafe
  | some (none, .ask q rest) =>
    have hunder : c.underWay i (none, .ask q rest) := ⟨hi, rfl⟩
    obtain ⟨s, r, hallowed, hlane, hprogram⟩ := h.waiting i _ hunder rfl
    obtain ⟨q', rest', hask, hfinds⟩ := hsound.unknown s r hallowed hlane
    obtain ⟨rfl, hrest⟩ : q = q' ∧ HEq rest rest' := by simpa using hprogram.trans hask
    obtain rfl := eq_of_heq hrest
    obtain ⟨k, hk, hmove⟩ := hfinds c.store h.shared
    have hfree : c.busy k = false := hadmits k (by simp [found, hi, hk])
    obtain ⟨hguarantee, hsafe⟩ := hmove (h.idle k hfree)
    exact h.move hi hk (fun j _ => State.busy_eq_false_iff.mp hfree j) hguarantee hsafe

theorem Separate.run {events : List (Event ρ)} (hexclusive : L.Exclusive allowed c events) :
    L.Separate view G allowed post (L.run c events) := by
  induction events generalizing c with
  | nil => exact h
  | cons e events ih =>
    refine ih ?_ hexclusive.2
    cases e with
    | start r => exact h.start hsound hexclusive.1
    | step i => exact h.step hsound hexclusive.1

end

/-- Once all calls have returned, every lane is as its calls leave it. -/
theorem post_of_returned (hG : G s) (hs : ∀ k, post (view k s)) {events : List (Event ρ)}
    (hexclusive : L.Exclusive allowed { store := s } events)
    (hreturned : (L.run { store := s } events).returned = true) :
    G (L.run { store := s } events).store ∧ ∀ k, post (view k (L.run { store := s } events).store) := by
  have hstart : L.Separate view G allowed post { store := s } := by
    refine ⟨hG, fun k _ => hs k, ?_, ?_, ?_⟩
    · rintro i call ⟨hi, -⟩
      simp at hi
    · rintro i call ⟨hi, -⟩
      simp at hi
    · rintro i j - x y ⟨hi, -⟩
      simp at hi
  have hend := hstart.run hsound hexclusive
  refine ⟨hend.shared, fun k => hend.idle k (State.busy_eq_false_iff.mpr fun i call hcall => ?_)⟩
  have hdone := all_eq_true.mp hreturned call (mem_of_getElem? hcall.1)
  rw [hcall.2] at hdone
  cases hdone

end

end Lanes

end DeliveryEngine.Runs
