import DeliveryEngine.Beads.Store
import DeliveryEngine.Runs.Faults

/-!
# Exclusive drain reservations

A drain that wants a member for itself writes its own identifier into the member's reservation key, and clears the key
when it is done.  Both writes are conditional.  A conditional write that fails says nothing by itself, so the claim
reads the key again: its own identifier means that the write did happen, another one that the member is taken, and an
empty key is tried once more.

Operations may fail with or without having happened, and a call that takes no further turn has crashed.
`exclusive_drain_reservation`: at most one drain holds the member, and a release clears no other drain's reservation.
-/

namespace DeliveryEngine.Dispatch

open Beads Runs List

/-- The metadata key that names the drain for which a member is reserved. -/
def exclusiveDrainReservation : Key := .other "gc.exclusive_drain_reservation"

/-- The identifier of a drain's control bead.  A bead's identifier is not empty and has no white space around it. -/
structure ControlID where
  text : String
  trimmed : Go.trimSpace text = text
  nonblank : text ≠ ""

variable {d : ControlID}

namespace ControlID

lemma ext {e : ControlID} (h : d.text = e.text) : d = e := by
  cases d
  cases e
  congr

instance : DecidableEq ControlID := fun d e => decidable_of_iff (d.text = e.text) ⟨ext, congrArg text⟩

end ControlID

/-- How the transport of a store operation fails. -/
inductive Trouble
  | preconditionFailed
  | transport
  deriving DecidableEq

inductive StoreError
  | notFound
  | trouble (t : Trouble)
  deriving DecidableEq

inductive DrainError
  /-- The member is reserved for another drain. -/
  | reserved (controlID memberID owner : String)
  | loading (controlID memberID : String) (e : StoreError)
  | reserving (controlID memberID : String) (e : StoreError)
  | rereading (controlID memberID : String) (e : StoreError)
  /-- The conditional claim kept losing with an empty owner. -/
  | keptLosing (controlID memberID : String)
  | releasing (controlID memberID : String) (e : StoreError)

/-- What a store operation answers over the transport. -/
abbrev DrainAnswer (op : Op) := Except Trouble op.Answer

abbrev DrainCall := Program Op DrainAnswer (Except DrainError Unit)

/-- `CompareAndSetMetadataKey`: whether it swapped, and its error. -/
def swapResult : Except Trouble (Option Bool) → Bool × Option StoreError
  | .ok (some swapped) => (swapped, none)
  | .ok none => (false, some .notFound)
  | .error t => (false, some (.trouble t))

/-- `Get`: the bead, or the error. -/
def getResult : Except Trouble (Option Bead) → Except StoreError Bead
  | .ok (some b) => .ok b
  | .ok none => .error .notFound
  | .error t => .error (.trouble t)

/-- The drain for which a member is reserved. -/
def ownerOf (member : Bead) : String := Go.trimSpace (member.meta exclusiveDrainReservation)

/-- What a claim does once its conditional write has not swapped and the member has been read again: the member
is its own, or another's, or it may try again. -/
def afterLostClaim (control : ControlID) (memberID : String) (casErr : Option StoreError)
    (retry : DrainCall) : Except StoreError Bead → DrainCall
  | .error getErr =>
    match casErr with
    | some e => pure (.error (.reserving control.text memberID e))
    | none => pure (.error (.rereading control.text memberID getErr))
  | .ok current =>
    if ownerOf current = control.text then pure (.ok ())
    else if ownerOf current ≠ "" then pure (.error (.reserved control.text memberID (ownerOf current)))
    else
      match casErr with
      | some e =>
        if e ≠ .trouble .preconditionFailed then pure (.error (.reserving control.text memberID e)) else retry
      | none => retry

/-- Claim the empty reservation, with a number of attempts. -/
def claimDrainReservationCAS (control : ControlID) (memberID : String) : ℕ → Option StoreError → DrainCall
  | 0, some e => pure (.error (.reserving control.text memberID e))
  | 0, none => pure (.error (.keptLosing control.text memberID))
  | attempts + 1, _ =>
    .ask (.compareAndSetMetadataKey memberID exclusiveDrainReservation "" control.text) fun r =>
      if (swapResult r).1 then pure (.ok ())
      else .ask (.get memberID) fun current =>
        afterLostClaim control memberID (swapResult r).2
          (claimDrainReservationCAS control memberID attempts (swapResult r).2) (getResult current)

/-- Reserve a member for a drain with exclusive member access, on a store with a conditional writer.  A member
that does not exist needs no reservation. -/
def reserveDrainMember (control : ControlID) (memberID : String) : DrainCall :=
  .ask (.get memberID) fun r =>
    match getResult r with
    | .error .notFound => pure (.ok ())
    | .error e => pure (.error (.loading control.text memberID e))
    | .ok current =>
      if ownerOf current ≠ "" ∧ ownerOf current ≠ control.text then
        pure (.error (.reserved control.text memberID (ownerOf current)))
      else if ownerOf current = control.text then pure (.ok ())
      else claimDrainReservationCAS control memberID 2 none

/-- Clear a drain's own reservation.  Losing the conditional write is a success: there is nothing of one's own to
clear. -/
def releaseDrainReservation (control : ControlID) (memberID : String) : DrainCall :=
  .ask (.compareAndSetMetadataKey memberID exclusiveDrainReservation control.text "") fun r =>
    match swapResult r with
    | (true, _) => pure (.ok ())
    | (false, none) => pure (.ok ())
    | (false, some (.trouble .preconditionFailed)) => pure (.ok ())
    | (false, some .notFound) => pure (.ok ())
    | (false, some casErr) =>
      -- The write may have happened: what the member says now decides.
      .ask (.get memberID) fun current =>
        match getResult current with
        | .error .notFound => pure (.ok ())
        | .error _ => pure (.error (.releasing control.text memberID casErr))
        | .ok member =>
          if ownerOf member ≠ control.text then pure (.ok ())
          else pure (.error (.releasing control.text memberID casErr))

/-! ## Calls taking turns -/

inductive CallKind
  | reserve
  | release

structure Call where
  control : ControlID
  kind : CallKind

def Call.program (memberID : String) (call : Call) : DrainCall :=
  match call.kind with
  | .reserve => reserveDrainMember call.control memberID
  | .release => releaseDrainReservation call.control memberID

/-- The store behind its transport, what is left of every call, and the drains that hold the member. -/
structure Config where
  world : Faulty Store Trouble
  calls : List (Call × DrainCall)
  holding : List ControlID := []

/-- The text in the member's reservation key; nothing if there is no such member. -/
def reservation (memberID : String) (s : Store) : Option String :=
  (s.find? memberID).map (·.meta exclusiveDrainReservation)

inductive Event
  /-- The call at a place takes a turn. -/
  | turn (i : ℕ)
  /-- The rest of the world changes the store. -/
  | outside (s : Store)

namespace Config

variable (memberID : String)

/-- Who holds the member after a turn of a call that leaves `left` of it: a reservation that returns without an
error holds the member, and a release that changes the key gives it up. -/
def holders (call : Call) (left : DrainCall) (s s' : Store) (holding : List ControlID) : List ControlID :=
  match call.kind, left with
  | .reserve, .done (.ok ()) => call.control :: holding
  | .reserve, _ => holding
  | .release, _ =>
    if reservation memberID s' = reservation memberID s then holding else holding.filter (· ≠ call.control)

def next (c : Config) : Event → Config
  | .turn i =>
    match c.calls[i]? with
    | some (call, .ask op rest) =>
      let r := Faulty.serveFaulty Store.serve op c.world
      { world := r.2
        calls := c.calls.set i (call, rest r.1)
        holding := holders memberID call (rest r.1) c.world.store r.2.store c.holding }
    | _ => c
  | .outside s => { c with world := { c.world with store := s } }

def exec (c : Config) (events : List Event) : Config := events.foldl (next memberID) c

/-- The rest of the world leaves the member's reservation alone. -/
def Permitted : Config → List Event → Prop
  | _, [] => True
  | c, .turn i :: events => (c.next memberID (.turn i)).Permitted events
  | c, .outside s :: events =>
    reservation memberID s = reservation memberID c.world.store ∧ (c.next memberID (.outside s)).Permitted events

/-- The calls before any of them has taken a turn. -/
def start (world : Faulty Store Trouble) (calls : List Call) : Config :=
  { world, calls := calls.map fun call => (call, call.program memberID) }

end Config

/-! ## What a call asks, and what its return says -/

section
variable (control : ControlID) (memberID : String)

/-- A reservation call asks for the member, or claims an empty key; when it returns without an error, its last
answer was that the claim went through, or the member with its own name on it, or that there is no member. -/
inductive Reserves : DrainCall → Prop
  | done (r : Except DrainError Unit) : Reserves (.done r)
  | get {rest : DrainAnswer (.get memberID) → DrainCall} (hrest : ∀ r, Reserves (rest r))
      (hreturn : ∀ r, rest r = .done (.ok ()) →
        r = .ok none ∨ ∃ b, r = .ok (some b) ∧ ownerOf b = control.text) : Reserves (.ask (.get memberID) rest)
  | claim {rest : DrainAnswer (.compareAndSetMetadataKey memberID exclusiveDrainReservation "" control.text) →
        DrainCall} (hrest : ∀ r, Reserves (rest r)) (hreturn : ∀ r, rest r = .done (.ok ()) → r = .ok (some true)) :
      Reserves (.ask (.compareAndSetMetadataKey memberID exclusiveDrainReservation "" control.text) rest)

/-- A release call asks for the member, or clears its own name. -/
inductive Releases : DrainCall → Prop
  | done (r : Except DrainError Unit) : Releases (.done r)
  | get {rest : DrainAnswer (.get memberID) → DrainCall} (hrest : ∀ r, Releases (rest r)) :
      Releases (.ask (.get memberID) rest)
  | clear {rest : DrainAnswer (.compareAndSetMetadataKey memberID exclusiveDrainReservation control.text "") →
        DrainCall} (hrest : ∀ r, Releases (rest r)) :
      Releases (.ask (.compareAndSetMetadataKey memberID exclusiveDrainReservation control.text "") rest)

variable {control memberID}

lemma getResult_eq_ok {r : Except Trouble (Option Bead)} {b : Bead} (h : getResult r = .ok b) :
    r = .ok (some b) := by
  rcases r with t | _ | c
  · cases h
  · cases h
  · cases h
    rfl

lemma swapResult_eq_true {r : Except Trouble (Option Bool)} (h : (swapResult r).1 = true) : r = .ok (some true) := by
  rcases r with t | _ | swapped
  · cases h
  · cases h
  · exact congrArg (Except.ok ∘ some) h

variable {casErr : Option StoreError} {retry : DrainCall}

lemma reserves_afterLostClaim (hretry : Reserves control memberID retry)
    (r : Except StoreError Bead) : Reserves control memberID (afterLostClaim control memberID casErr retry r) := by
  cases r with
  | error e => cases casErr <;> exact .done _
  | ok b =>
    cases casErr with
    | none =>
      rw [afterLostClaim]
      split_ifs
      · exact .done _
      · exact .done _
      · exact hretry
    | some e =>
      rw [afterLostClaim]
      split_ifs
      · exact .done _
      · exact .done _
      · exact .done _
      · exact hretry

lemma afterLostClaim_returns (hretry : retry ≠ .done (.ok ()))
    {r : Except StoreError Bead} (h : afterLostClaim control memberID casErr retry r = .done (.ok ())) :
    ∃ b, r = .ok b ∧ ownerOf b = control.text := by
  cases r with
  | error e => cases casErr <;> cases h
  | ok b =>
    refine ⟨b, rfl, ?_⟩
    by_contra hother
    cases casErr with
    | none =>
      rw [afterLostClaim] at h
      split_ifs at h
      · cases h
      · exact hretry h
    | some e =>
      rw [afterLostClaim] at h
      split_ifs at h
      · cases h
      · cases h
      · exact hretry h

variable (attempts : ℕ) (lastErr : Option StoreError)

lemma claimDrainReservationCAS_ne_ok :
    claimDrainReservationCAS control memberID attempts lastErr ≠ .done (.ok ()) := by
  cases attempts with
  | zero => cases lastErr <;> exact fun h => by cases h
  | succ attempts => exact fun h => by cases h

lemma reserves_claim : Reserves control memberID (claimDrainReservationCAS control memberID attempts lastErr) := by
  induction attempts generalizing lastErr with
  | zero => cases lastErr <;> exact .done _
  | succ attempts ih =>
    refine .claim (fun r => ?_) fun r hr => ?_
    · split_ifs
      · exact .done _
      · refine .get (fun current => reserves_afterLostClaim (ih _) _) fun current h => ?_
        obtain ⟨b, hb, howner⟩ := afterLostClaim_returns (claimDrainReservationCAS_ne_ok _ _) h
        exact .inr ⟨b, getResult_eq_ok hb, howner⟩
    · split_ifs at hr with hswap
      · exact swapResult_eq_true hswap

lemma reserves_reserveDrainMember : Reserves control memberID (reserveDrainMember control memberID) := by
  refine .get (fun r => ?_) fun r hr => ?_
  · split
    · exact .done _
    · exact .done _
    · split_ifs
      · exact .done _
      · exact .done _
      · exact reserves_claim 2 none
  · split at hr
    · next h =>
      rcases r with t | _ | b
      · cases h
      · exact .inl rfl
      · cases h
    · cases hr
    · next b hb =>
      split_ifs at hr with hother hown
      · cases hr
      · exact .inr ⟨b, getResult_eq_ok hb, hown⟩
      · exact absurd hr (claimDrainReservationCAS_ne_ok 2 none)

lemma releases_releaseDrainReservation : Releases control memberID (releaseDrainReservation control memberID) := by
  refine .clear fun r => ?_
  split
  · exact .done _
  · exact .done _
  · exact .done _
  · exact .done _
  · refine .get fun current => ?_
    split
    · exact .done _
    · exact .done _
    · split_ifs <;> exact .done _

end

/-! ## What a turn does to the reservation -/

/-- A conditional write to the reservation key changes it only from the expected text, and swaps only if the key
holds the new text afterwards. -/
lemma reservation_compareAndSet (memberID : String) (s : Store) (expected next : String) :
    let r := s.compareAndSet memberID exclusiveDrainReservation expected next
    (reservation memberID r.2 = reservation memberID s ∨
      reservation memberID s = some expected ∧ reservation memberID r.2 = some next) ∧
    (r.1 = some true → reservation memberID r.2 = some next) := by
  rcases s.compareAndSet_cases memberID exclusiveDrainReservation expected next with
    ⟨b, hb, hk, heq⟩ | ⟨won, hwon, heq⟩
  · have hnext : reservation memberID (s.modify memberID (Bead.setKey exclusiveDrainReservation next)) = some next := by
      rw [reservation, Store.find?_modify (Bead.setKey_id _ _), hb]
      simp [Store.id_of_find? hb]
    rw [heq]
    exact ⟨.inr ⟨by rw [reservation, hb, Option.map_some, hk], hnext⟩, fun _ => hnext⟩
  · rw [heq]
    exact ⟨.inl rfl, fun h => absurd h hwon⟩

variable (memberID : String) (world : Faulty Store Trouble)

lemma reservation_swap (expected next : String) :
    let r := Faulty.serveFaulty Store.serve
      (.compareAndSetMetadataKey memberID exclusiveDrainReservation expected next) world
    (reservation memberID r.2.store = reservation memberID world.store ∨
      reservation memberID world.store = some expected ∧ reservation memberID r.2.store = some next) ∧
    (r.1 = .ok (some true) → reservation memberID r.2.store = some next) := by
  intro r
  have hcas := reservation_compareAndSet memberID world.store expected next
  rcases Faulty.serve_cases Store.serve
    (.compareAndSetMetadataKey memberID exclusiveDrainReservation expected next) world with
    ⟨hok, hstore⟩ | ⟨e, herror, hstore | hstore⟩
  · refine ⟨by rw [hstore]; exact hcas.1, fun hr => ?_⟩
    rw [hstore]
    exact hcas.2 (Except.ok.inj (hok.symm.trans hr))
  · exact ⟨.inl (by rw [hstore]), fun hr => by cases herror.symm.trans hr⟩
  · exact ⟨by rw [hstore]; exact hcas.1, fun hr => by cases herror.symm.trans hr⟩

lemma serve_get :
    let r := Faulty.serveFaulty Store.serve (.get memberID) world
    r.2.store = world.store ∧ (∀ answer, r.1 = .ok answer → answer = world.store.find? memberID) := by
  intro r
  rcases Faulty.serve_cases Store.serve (.get memberID) world with
    ⟨hok, hstore⟩ | ⟨e, herror, hstore | hstore⟩
  · exact ⟨hstore, fun answer hr => (Except.ok.inj (hok.symm.trans hr)).symm⟩
  · exact ⟨hstore, fun answer hr => by cases herror.symm.trans hr⟩
  · exact ⟨hstore, fun answer hr => by cases herror.symm.trans hr⟩

variable {op : Op}

section
variable {memberID : String}

/-- The reservation key names a drain. -/
def Names (memberID : String) (s : Store) (d : ControlID) : Prop :=
  ∃ text, reservation memberID s = some text ∧ Go.trimSpace text = d.text

variable {s : Store}

lemma Names.unique {e : ControlID} (hd : Names memberID s d) (he : Names memberID s e) : d = e := by
  obtain ⟨text, htext, htrim⟩ := hd
  obtain ⟨text', htext', htrim'⟩ := he
  obtain rfl := Option.some.inj (htext.symm.trans htext')
  exact ControlID.ext (htrim.symm.trans htrim')

lemma Names.not_empty (hd : Names memberID s d) : reservation memberID s ≠ some "" := by
  obtain ⟨text, htext, htrim⟩ := hd
  intro hempty
  obtain rfl := Option.some.inj (htext.symm.trans hempty)
  exact d.nonblank (htrim.symm.trans (by decide))

lemma names_of_eq (h : reservation memberID s = some d.text) : Names memberID s d := ⟨d.text, h, d.trimmed⟩

lemma names_congr {s' : Store} (h : reservation memberID s' = reservation memberID s)
    (hd : Names memberID s d) : Names memberID s' d := by
  obtain ⟨text, htext, htrim⟩ := hd
  exact ⟨text, h.trans htext, htrim⟩

variable {control : ControlID} {rest : DrainAnswer op → DrainCall}

/-- A turn of a reservation call writes its own name into an empty key, or nothing; when it returns without an
error, the key names it. -/
lemma Reserves.turn (h : Reserves control memberID (.ask op rest))
    (world : Faulty Store Trouble) (hmember : (reservation memberID world.store).isSome) :
    let r := Faulty.serveFaulty Store.serve op world
    Reserves control memberID (rest r.1) ∧
    (reservation memberID r.2.store = reservation memberID world.store ∨
      reservation memberID world.store = some "" ∧ reservation memberID r.2.store = some control.text) ∧
    (rest r.1 = .done (.ok ()) → Names memberID r.2.store control) := by
  intro r
  cases h with
  | get hrest hreturn =>
    obtain ⟨hstore, hanswer⟩ := serve_get memberID world
    refine ⟨hrest _, .inl (by rw [hstore]), fun hdone => ?_⟩
    rcases hreturn _ hdone with hnone | ⟨b, hb, howner⟩
    · have := hanswer _ hnone
      rw [reservation, ← this] at hmember
      cases hmember
    · have hfind := hanswer _ hb
      exact ⟨b.meta exclusiveDrainReservation, by rw [hstore, reservation, ← hfind]; rfl, howner⟩
  | claim hrest hreturn =>
    obtain ⟨hkey, hswapped⟩ := reservation_swap memberID world "" control.text
    exact ⟨hrest _, hkey, fun hdone => names_of_eq (hswapped (hreturn _ hdone))⟩

lemma Releases.turn (h : Releases control memberID (.ask op rest)) (world : Faulty Store Trouble) :
    let r := Faulty.serveFaulty Store.serve op world
    Releases control memberID (rest r.1) ∧
    (reservation memberID r.2.store = reservation memberID world.store ∨
      reservation memberID world.store = some control.text ∧ reservation memberID r.2.store = some "") := by
  intro r
  cases h with
  | get hrest => exact ⟨hrest _, .inl (by rw [(serve_get memberID world).1])⟩
  | clear hrest => exact ⟨hrest _, (reservation_swap memberID world control.text "").1⟩

end

/-! ## Every run -/

namespace Config

variable {memberID : String}

/-- What is left of a call still is what such a call asks. -/
def Proper (memberID : String) (call : Call) (left : DrainCall) : Prop :=
  match call.kind with
  | .reserve => Reserves call.control memberID left
  | .release => Releases call.control memberID left

/-- The member exists, its reservation key names every drain that holds it, and the calls are what they were. -/
structure Inv (memberID : String) (c : Config) : Prop where
  member : (reservation memberID c.world.store).isSome
  held : ∀ d ∈ c.holding, Names memberID c.world.store d
  proper : ∀ x ∈ c.calls, Proper memberID x.1 x.2

lemma inv_start {world : Faulty Store Trouble} (hmember : (world.store.find? memberID).isSome) (calls : List Call) :
    (start memberID world calls).Inv memberID where
  member := by simpa [start, reservation] using hmember
  held _ hd := absurd hd not_mem_nil
  proper x hx := by
    obtain ⟨call, -, rfl⟩ := mem_map.mp hx
    rw [Proper, Call.program]
    cases call.kind with
    | reserve => exact reserves_reserveDrainMember
    | release => exact releases_releaseDrainReservation

variable {call : Call} {holding : List ControlID} {left : DrainCall}

lemma mem_holders_reserve (hkind : call.kind = .reserve) {s s' : Store}
    (hd : d ∈ holders memberID call left s s' holding) :
    d = call.control ∧ left = .done (.ok ()) ∨ d ∈ holding := by
  unfold holders at hd
  rw [hkind] at hd
  split at hd
  · rcases mem_cons.mp hd with rfl | hd
    · exact .inl ⟨rfl, rfl⟩
    · exact .inr hd
  · exact .inr hd
  · exact .inr (by cases ‹CallKind.reserve = CallKind.release›)

lemma mem_holders_release (hkind : call.kind = .release) {s s' : Store}
    (hd : d ∈ holders memberID call left s s' holding) :
    d ∈ holding ∧ (reservation memberID s' = reservation memberID s ∨ d ≠ call.control) := by
  unfold holders at hd
  rw [hkind] at hd
  split_ifs at hd with hsame
  · exact ⟨hd, .inl hsame⟩
  · exact ⟨mem_of_mem_filter hd, .inr (by simpa using (mem_filter.mp hd).2)⟩

variable {c : Config} (hc : c.Inv memberID)
include hc

/-- What one turn of a proper call does: it stays proper, the member stays, the key names every holder, and a
release changes the key only from its own name. -/
lemma Inv.turn {rest : DrainAnswer op → DrainCall} (hproper : Proper memberID call (.ask op rest)) :
    let r := Faulty.serveFaulty Store.serve op c.world
    Proper memberID call (rest r.1) ∧ (reservation memberID r.2.store).isSome ∧
    (∀ d ∈ holders memberID call (rest r.1) c.world.store r.2.store c.holding, Names memberID r.2.store d) ∧
    (call.kind = .release → reservation memberID r.2.store ≠ reservation memberID c.world.store →
      Names memberID c.world.store call.control) := by
  intro r
  rw [Proper] at hproper ⊢
  cases hkind : call.kind with
  | reserve =>
    rw [hkind] at hproper
    obtain ⟨hleft, hkey, hreturn⟩ := Reserves.turn hproper c.world hc.member
    -- A drain that holds the member keeps the key from being empty, so the claim did not write.
    have hold : ∀ d ∈ c.holding, Names memberID r.2.store d := fun d hd => by
      rcases hkey with hkey | ⟨hempty, -⟩
      · exact names_congr hkey (hc.held d hd)
      · exact absurd hempty (hc.held d hd).not_empty
    refine ⟨hleft, ?_, fun d hd => ?_, fun h => by cases h⟩
    · rcases hkey with hkey | ⟨-, hkey⟩
      · rw [hkey]
        exact hc.member
      · rw [hkey]
        rfl
    · rcases mem_holders_reserve hkind hd with ⟨rfl, hdone⟩ | hd
      · exact hreturn hdone
      · exact hold d hd
  | release =>
    rw [hkind] at hproper
    obtain ⟨hleft, hkey⟩ := Releases.turn hproper c.world
    have hown : reservation memberID r.2.store ≠ reservation memberID c.world.store →
        Names memberID c.world.store call.control := fun hne => by
      rcases hkey with hkey | ⟨hkey, -⟩
      · exact absurd hkey hne
      · exact names_of_eq hkey
    refine ⟨hleft, ?_, fun d hd => ?_, fun _ => hown⟩
    · rcases hkey with hkey | ⟨-, hkey⟩
      · rw [hkey]
        exact hc.member
      · rw [hkey]
        rfl
    · obtain ⟨hd, hkept⟩ := mem_holders_release hkind hd
      by_cases hsame : reservation memberID r.2.store = reservation memberID c.world.store
      · exact names_congr hsame (hc.held d hd)
      · exact absurd ((hc.held d hd).unique (hown hsame)) (hkept.resolve_left hsame)

lemma Inv.next (i : ℕ) : (c.next memberID (.turn i)).Inv memberID := by
  rw [Config.next]
  split
  · next call op rest hi =>
    obtain ⟨hleft, hmember, hheld, -⟩ := hc.turn (hc.proper _ (mem_of_getElem? hi))
    refine ⟨hmember, hheld, fun x hx => ?_⟩
    rcases mem_or_eq_of_mem_set hx with hx | rfl
    · exact hc.proper x hx
    · exact hleft
  · exact hc

lemma Inv.exec {events : List Event} (hevents : c.Permitted memberID events) :
    (c.exec memberID events).Inv memberID := by
  induction events generalizing c with
  | nil => exact hc
  | cons e events ih =>
    cases e with
    | turn i => exact ih (hc.next i) hevents
    | outside s =>
      obtain ⟨hsame, hevents⟩ := hevents
      refine ih ⟨?_, fun d hd => names_congr hsame (hc.held d hd), hc.proper⟩ hevents
      exact (congrArg Option.isSome hsame).trans hc.member

end Config

/-- Any number of drains reserve and release one member, with their calls interleaved operation by operation,
crashing anywhere, over a transport that fails in any way, and beside any writer that leaves the reservation key
alone.  At every point at most one drain has a reservation that was returned to it and that no release of its own
has cleared, and a release that changes the key finds its own drain's name in it. -/
theorem exclusive_drain_reservation {memberID : String} {world : Faulty Store Trouble}
    (hmember : (world.store.find? memberID).isSome) (calls : List Call) {events : List Event}
    (hevents : (Config.start memberID world calls).Permitted memberID events) :
    let c := (Config.start memberID world calls).exec memberID events
    (∀ d ∈ c.holding, ∀ e ∈ c.holding, d = e) ∧
    ∀ i call left, c.calls[i]? = some (call, left) → call.kind = .release →
      reservation memberID (c.next memberID (.turn i)).world.store ≠ reservation memberID c.world.store →
      ∃ text, reservation memberID c.world.store = some text ∧ Go.trimSpace text = call.control.text := by
  intro c
  have hc : c.Inv memberID := (Config.inv_start hmember calls).exec hevents
  refine ⟨fun d hd e he => (hc.held d hd).unique (hc.held e he), fun i call left hi hkind hne => ?_⟩
  cases left with
  | done r =>
    refine absurd ?_ hne
    rw [Config.next, hi]
  | ask op rest =>
    obtain ⟨-, -, -, hown⟩ := hc.turn (hc.proper _ (mem_of_getElem? hi))
    refine hown hkind fun hsame => hne ?_
    rw [Config.next, hi]
    exact hsame

/-- Two drains race for a member, and the one that lost the claim reads the other's name. -/
theorem exclusive_drain_reservation_two_drains :
    let d : ControlID := ⟨"gc-2", by decide, by decide⟩
    let e : ControlID := ⟨"gc-3", by decide, by decide⟩
    let world : Faulty Store Trouble := ⟨{ seq := 3, beads := [{ id := "gc-1" }] }, [.clean, .clean, .unacknowledged .transport]⟩
    let start := Config.start "gc-1" world [⟨d, .reserve⟩, ⟨e, .reserve⟩, ⟨d, .release⟩]
    let c := start.exec "gc-1" [.turn 0, .turn 1, .turn 0, .turn 1, .turn 0, .turn 1]
    c.holding = [d] ∧ (∀ x ∈ c.holding, ∀ y ∈ c.holding, x = y) ∧
      reservation "gc-1" (c.next "gc-1" (.turn 2)).world.store ≠ reservation "gc-1" c.world.store := by
  intro d e world start c
  refine ⟨by decide +kernel, ?_, by decide +kernel⟩
  exact (exclusive_drain_reservation (by decide) [⟨d, .reserve⟩, ⟨e, .reserve⟩, ⟨d, .release⟩] (by trivial)).1

end DeliveryEngine.Dispatch
