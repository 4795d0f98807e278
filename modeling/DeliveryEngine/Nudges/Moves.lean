import DeliveryEngine.Nudges.Queue
import DeliveryEngine.Runs.Flow
import Mathlib.Algebra.Order.Group.Multiset
import Mathlib.Tactic.Abel

/-!
# Where a nudge can go

An operation treats every nudge of the queue by itself.  For each of them this module says once what it can do to a
nudge in a bucket (`Upkeep` for the maintenance passes, then one relation per operation) and when a nudge leaves the
queue, as a `Flow` of the queue's entries.  Sorting a bucket changes no entry.

Everything that is later said about runs of the queue is read off these relations.
-/

namespace DeliveryEngine.Nudges

open Go List
open Runs
open Multiset (coe_eq_coe coe_add coe_nil cons_coe)

inductive Bucket
  | pending
  | inFlight
  | dead

/-- A nudge and the bucket it is in. -/
abbrev Entry := Bucket × Item

def tagged (b : Bucket) (items : List Item) : List Entry := items.map (Prod.mk b)

variable (b : Bucket)

@[simp] lemma tagged_nil : tagged b [] = [] := rfl

@[simp] lemma tagged_cons (x : Item) (items : List Item) : tagged b (x :: items) = (b, x) :: tagged b items := rfl

lemma tagged_append (items items' : List Item) :
    tagged b (items ++ items') = tagged b items ++ tagged b items' := map_append

variable {x : Item} {items : List Item}

@[simp] lemma mem_tagged {b c : Bucket} : (c, x) ∈ tagged b items ↔ c = b ∧ x ∈ items := by
  simp [tagged, and_comm, eq_comm]

/-- The id a nudge keeps on all its ways. -/
def Entry.id (a : Entry) : String := a.2.id

variable (moves : Entry → Entry → Prop) (leaves : Entry → Prop)

/-- Entries that move and leave as told, by their ids. -/
abbrev Flows (l l' : List Entry) : Prop := Flow Entry.id moves leaves l l'

namespace State

variable (s : State)

def entries : List Entry := tagged .pending s.pending ++ (tagged .inFlight s.inFlight ++ tagged .dead s.dead)

def ids : List String := s.entries.map Entry.id

variable {s : State}

@[simp] lemma mem_entries_pending : (Bucket.pending, x) ∈ s.entries ↔ x ∈ s.pending := by simp [entries]

@[simp] lemma mem_entries_inFlight : (Bucket.inFlight, x) ∈ s.entries ↔ x ∈ s.inFlight := by
  simp [entries]

@[simp] lemma mem_entries_dead : (Bucket.dead, x) ∈ s.entries ↔ x ∈ s.dead := by simp [entries]

lemma sortBucket_perm (first second : Item → Time) (items : List Item) :
    (sortBucket first second items).Perm items := perm_insertionSort _ _

lemma entries_sort (s : State) : s.sort.entries.Perm s.entries :=
  ((sortBucket_perm _ _ _).map _).append (((sortBucket_perm _ _ _).map _).append ((sortBucket_perm _ _ _).map _))

lemma exists?_iff {id : String} : s.exists? id = true ↔ id ∈ s.ids := by
  simp only [exists?, any_eq_true, decide_eq_true_eq, ids, mem_map, Prod.exists, mem_append]
  constructor
  · rintro ⟨x, (hx | hx) | hx, rfl⟩
    · exact ⟨.pending, x, mem_entries_pending.mpr hx, rfl⟩
    · exact ⟨.inFlight, x, mem_entries_inFlight.mpr hx, rfl⟩
    · exact ⟨.dead, x, mem_entries_dead.mpr hx, rfl⟩
  · rintro ⟨b, x, hx, rfl⟩
    cases b with
    | pending => exact ⟨x, .inl (.inl (mem_entries_pending.mp hx)), rfl⟩
    | inFlight => exact ⟨x, .inl (.inr (mem_entries_inFlight.mp hx)), rfl⟩
    | dead => exact ⟨x, .inr (mem_entries_dead.mp hx), rfl⟩

end State

/-! ## Entries as a multiset -/

section
variable {moves : Entry → Entry → Prop} {leaves : Entry → Prop}

lemma flow_entries {p f d : List Entry} {s s' : State} (hp : Flows moves leaves (tagged .pending s.pending) p)
    (hf : Flows moves leaves (tagged .inFlight s.inFlight) f)
    (hd : Flows moves leaves (tagged .dead s.dead) d) (h : (p : Multiset Entry) + (f + d) = s'.entries) :
    Flows moves leaves s.entries s'.entries :=
  (hp.append (hf.append hd)).perm (.refl _) (coe_eq_coe.mp h)

lemma flow_rest (hstay : ∀ a, moves a a) (l : List Entry) : Flows moves leaves l l := .refl fun a _ => hstay a

end

lemma coe_entries (s : State) : (s.entries : Multiset Entry) =
    tagged .pending s.pending + (tagged .inFlight s.inFlight + tagged .dead s.dead) := rfl

lemma coe_entries_sort (s : State) : (s.sort.entries : Multiset Entry) = s.entries := coe_eq_coe.mpr s.entries_sort

/-! ## Passes over a bucket -/

variable (r : Sifted) (b : Bucket)

/-- The entries a pass over a bucket leaves. -/
def Sifted.entries : List Entry := tagged b r.kept ++ (tagged .pending r.pending ++ tagged .dead r.dead)

lemma coe_sifted : (r.entries b : Multiset Entry) =
    tagged b r.kept + (tagged .pending r.pending + tagged .dead r.dead) := rfl

/-- What a pass may do with a nudge of a bucket. -/
def Fate.Allowed (b : Bucket) (x : Item) : Fate → Prop
  | .stay => moves (b, x) (b, x)
  | .toPending y => y.id = x.id ∧ moves (b, x) (.pending, y)
  | .toDead y => y.id = x.id ∧ moves (b, x) (.dead, y)
  | .gone => leaves (b, x)

section Passes
variable {moves : Entry → Entry → Prop} {leaves : Entry → Prop} {b} {fate : Item → Fate}

lemma flow_single {a a' : Entry} (hid : a'.id = a.id) (h : moves a a') : Flows moves leaves [a] [a'] where
  keys := by
    rw [map_singleton, map_singleton, hid]
  back c hc := by
    cases mem_singleton.mp hc
    exact ⟨a, mem_singleton_self a, h⟩
  forth c hc := by
    cases mem_singleton.mp hc
    exact .inr ⟨a', mem_singleton_self a', h⟩

lemma flow_leave {a : Entry} (h : leaves a) : Flows moves leaves [a] [] where
  keys := nil_subperm
  back _ hc := by cases hc
  forth c hc := by
    cases mem_singleton.mp hc
    exact .inl h

lemma flow_sift (hstay : ∀ x, moves (b, x) (b, x)) (h : ∀ x, (fate x).Allowed moves leaves b x)
    (stop : ℕ → Bool) (i : ℕ) (items : List Item) :
    Flows moves leaves (tagged b items) ((sift stop fate i items).entries b) := by
  induction items generalizing i with
  | nil => exact .refl (by simp)
  | cons x rest ih =>
    unfold sift
    split
    · refine .of_perm ?_ ?_
      · intro a ha
        obtain ⟨y, -, rfl⟩ := mem_map.mp ha
        exact hstay y
      · simp [Sifted.entries]
    · have hallowed := h x
      generalize fate x = fx at hallowed
      cases fx with
      | stay => exact (flow_single rfl hallowed).append (ih (i + 1))
      | toPending y =>
        obtain ⟨hid, hmove⟩ := hallowed
        have hx : Flows moves leaves [(b, x)] [(.pending, y)] := flow_single hid hmove
        refine (hx.append (ih (i + 1))).perm (.refl _) ?_
        simp only [Sifted.entries, tagged_cons, cons_append, nil_append]
        exact perm_middle.symm
      | toDead y =>
        obtain ⟨hid, hmove⟩ := hallowed
        have hx : Flows moves leaves [(b, x)] [(.dead, y)] := flow_single hid hmove
        refine (hx.append (ih (i + 1))).perm (.refl _) ?_
        simp only [Sifted.entries, tagged_cons, cons_append, nil_append, ← append_assoc]
        exact perm_middle.symm
      | gone => exact (flow_leave hallowed).append (ih (i + 1))

variable {stop : ℕ → Bool} {i : ℕ}

lemma sift_pending_eq_nil (h : ∀ x y, fate x ≠ .toPending y) : (sift stop fate i items).pending = [] := by
  induction items generalizing i with
  | nil => rfl
  | cons x rest ih =>
    unfold sift
    split
    · rfl
    · cases hfate : fate x with
      | toPending y => exact absurd hfate (h x y)
      | stay | toDead | gone => exact ih

lemma sift_dead_eq_nil (h : ∀ x y, fate x ≠ .toDead y) : (sift stop fate i items).dead = [] := by
  induction items generalizing i with
  | nil => rfl
  | cons x rest ih =>
    unfold sift
    split
    · rfl
    · cases hfate : fate x with
      | toDead y => exact absurd hfate (h x y)
      | stay | toPending | gone => exact ih

lemma fate_of_mem_kept (hstop : ∀ j < items.length, stop (i + j) = false) (hx : x ∈ (sift stop fate i items).kept) :
    fate x = .stay := by
  induction items generalizing i with
  | nil => cases hx
  | cons y rest ih =>
    have hrest := ih (i := i + 1) fun j hj => by
      have := hstop (j + 1) (by simpa using hj)
      rwa [Nat.add_assoc, Nat.add_comm 1 j]
    have hhere : stop i = false := hstop 0 (Nat.zero_lt_succ _)
    unfold sift at hx
    rw [hhere] at hx
    cases hfate : fate y with
    | stay =>
      simp only [hfate] at hx
      rcases mem_cons.mp hx with rfl | hx
      · exact hfate
      · exact hrest hx
    | toPending | toDead | gone =>
      simp only [hfate] at hx
      exact hrest hx

end Passes

/-! ## Maintenance -/

/-- What the maintenance passes do to a nudge. -/
inductive Upkeep (e : Env) : Entry → Entry → Prop
  | stay (a : Entry) : Upkeep e a a
  /-- It has expired. -/
  | expire {b : Bucket} {x : Item} (alive : b ≠ .dead) (expired : x.expired e.now = true) :
      Upkeep e (b, x) (.dead, x.expire e.now)
  /-- Its lease has run out. -/
  | recover {x : Item} (fresh : x.expired e.now = false) (ended : x.leaseUntil.isZero = true ∨ x.leaseUntil.ns ≤ e.now.ns) :
      Upkeep e (.inFlight, x) (.pending, { x.unclaim with deliverAfter := e.now })

/-- A dead nudge leaves when its bead is confirmed terminal and its retention has passed. -/
def Pruned (e : Env) (a : Entry) : Prop := a.1 = .dead ∧ confirmedTerminal e a.2 = true ∧ pastRetention e a.2 = true

abbrev Maintains (e : Env) (l l' : List Entry) : Prop := Flows (Upkeep e) (Pruned e) l l'

namespace Upkeep

variable {e : Env} {a b c : Entry}

lemma trans (h₁ : Upkeep e a b) (h₂ : Upkeep e b c) : Upkeep e a c := by
  cases h₁ with
  | stay => exact h₂
  | expire alive expired =>
    cases h₂ with
    | stay => exact .expire alive expired
    | expire dead _ => exact absurd rfl dead
  | recover fresh ended =>
    cases h₂ with
    | stay => exact .recover fresh ended
    | expire _ expired =>
      -- The expiry is not changed by the way back.
      exact absurd (expired.symm.trans fresh) (by simp)

lemma id_eq (h : Upkeep e a b) : b.id = a.id := by cases h <;> rfl

lemma pruned (h : Upkeep e a b) (hb : Pruned e b) : Pruned e a := by
  cases h with
  | stay => exact hb
  | expire alive expired =>
    obtain ⟨-, -, hpast⟩ := hb
    simp only [pastRetention, Item.expire, Time.add, Bool.and_eq_true, Time.before_iff,
      defaultQueuedNudgeDeadRetention] at hpast
    have : (0 : ℤ) < Duration.hour := by decide
    omega
  | recover fresh ended => cases hb.1

end Upkeep

section
variable (e : Env) (deadline : Time) (s : State)

lemma flow_recover : Maintains e s.entries (recoverExpiredInFlightNudges e deadline s).entries := by
  have hallowed : ∀ x, (recoverFate e x).Allowed (Upkeep e) (Pruned e) .inFlight x := by
    intro x
    unfold recoverFate
    split_ifs with hexpired hover
    · exact ⟨rfl, .expire (by simp) hexpired⟩
    · refine ⟨rfl, .recover (by simpa using hexpired) ?_⟩
      simpa [Bool.or_eq_true, Time.after] using hover
    · exact .stay _
  have hsift := flow_sift (fun _ => .stay _) hallowed (late e deadline .recover) 0 s.inFlight
  refine flow_entries (flow_rest .stay _) hsift (flow_rest .stay _) ?_
  rw [recoverExpiredInFlightNudges, coe_entries_sort]
  simp only [coe_entries, coe_sifted, tagged_append, ← coe_add]
  abel

lemma flow_pruneExpired : Maintains e s.entries (pruneExpiredQueuedNudges e deadline s).entries := by
  have hallowed : ∀ x, (pruneExpiredFate e x).Allowed (Upkeep e) (Pruned e) .pending x := by
    intro x
    unfold pruneExpiredFate
    split_ifs with hexpired
    · exact ⟨rfl, .expire (by simp) hexpired⟩
    · exact .stay _
  have hsift := flow_sift (fun _ => .stay _) hallowed (late e deadline .pruneExpired) 0 s.pending
  have hnone : ∀ i, (sift (late e deadline .pruneExpired) (pruneExpiredFate e) i s.pending).pending = [] :=
    fun i => sift_pending_eq_nil fun x y => by
      unfold pruneExpiredFate
      split <;> simp
  refine flow_entries hsift (flow_rest .stay _) (flow_rest .stay _) ?_
  rw [pruneExpiredQueuedNudges, coe_entries_sort]
  simp only [coe_entries, coe_sifted, hnone, tagged_append, tagged_nil, ← coe_add, coe_nil]
  abel

lemma flow_pruneDead : Maintains e s.entries (pruneDeadQueuedNudges e deadline s).entries := by
  have hallowed : ∀ x, (pruneDeadFate e x).Allowed (Upkeep e) (Pruned e) .dead x := by
    intro x
    unfold pruneDeadFate
    split_ifs with hgone
    · exact ⟨rfl, by simpa using hgone⟩
    · exact .stay _
  have hsift := flow_sift (fun _ => .stay _) hallowed (late e deadline .pruneDead) 0 s.dead
  have hpending : ∀ i, (sift (late e deadline .pruneDead) (pruneDeadFate e) i s.dead).pending = [] :=
    fun i => sift_pending_eq_nil fun x y => by
      unfold pruneDeadFate
      split <;> simp
  have hdead : ∀ i, (sift (late e deadline .pruneDead) (pruneDeadFate e) i s.dead).dead = [] :=
    fun i => sift_dead_eq_nil fun x y => by
      unfold pruneDeadFate
      split <;> simp
  refine flow_entries (flow_rest .stay _) (flow_rest .stay _) hsift ?_
  simp only [pruneDeadQueuedNudges, coe_entries, coe_sifted, hpending, hdead, tagged_nil, coe_nil]
  abel

lemma Upkeep.flow_trans {l l' l'' : List Entry} (h : Maintains e l l')
    (h' : Maintains e l' l'') : Maintains e l l'' :=
  h.trans h' (fun _ _ _ => Upkeep.trans) (fun _ h => h) fun _ _ => Upkeep.pruned

lemma flow_maintain : Maintains e s.entries (maintain e deadline s).entries :=
  Upkeep.flow_trans e (Upkeep.flow_trans e (flow_recover e deadline s) (flow_pruneExpired e deadline _))
    (flow_pruneDead e deadline _)

end

/-! ## The operations after maintenance -/

/-- A due nudge is claimed. -/
inductive Claimed (e : Env) : Entry → Entry → Prop
  | stay (a : Entry) : Claimed e a a
  | claim {x : Item} (due : due e x = true) : Claimed e (.pending, x) (.inFlight, x.claim e)

/-- A claim is given up. -/
inductive Released (ids : List String) : Entry → Entry → Prop
  | stay (a : Entry) : Released ids a a
  | release {x : Item} (mem : x.id ∈ ids) : Released ids (.inFlight, x) (.pending, x.unclaim)

/-- Where a nudge goes after a failed delivery. -/
def failedEntry (e : Env) (cause : Cause) (x : Item) : Entry :=
  (if (failedQueuedNudge e cause x).2 then .dead else .pending, (failedQueuedNudge e cause x).1)

/-- A delivery has failed. -/
inductive Failed (e : Env) (cause : Cause) (ids : List String) : Entry → Entry → Prop
  | stay (a : Entry) : Failed e cause ids a a
  | fail {b : Bucket} {x : Item} (alive : b ≠ .dead) (mem : x.id ∈ ids) :
      Failed e cause ids (b, x) (failedEntry e cause x)

/-- Another nudge takes the place. -/
inductive Superseded (e : Env) (new : Item) : Entry → Entry → Prop
  | stay (a : Entry) : Superseded e new a a
  | supersede {b : Bucket} {x : Item} (alive : b ≠ .dead) (same : supersedes new x = true) :
      Superseded e new (b, x) (.dead, x.supersede e.now)

/-- A nudge that waits or is in flight is acknowledged. -/
def Acked (ids : List String) (a : Entry) : Prop := a.1 ≠ .dead ∧ a.id ∈ ids

section Operations
variable {moves : Entry → Entry → Prop} {leaves : Entry → Prop} {p : Item → Bool}

lemma flow_part {b : Bucket} {f : Item → List Entry} (hstay : ∀ x, moves (b, x) (b, x))
    (hflow : ∀ x, p x = true → Flows moves leaves [(b, x)] (f x)) (items : List Item) :
    Flows moves leaves (tagged b items) (tagged b (items.filter fun x => !p x) ++ (items.filter p).flatMap f) := by
  induction items with
  | nil => exact .refl (by simp)
  | cons x rest ih =>
    cases hp : p x with
    | false =>
      have hx : Flows moves leaves [(b, x)] [(b, x)] := flow_single rfl (hstay x)
      refine (hx.append ih).perm (.refl _) ?_
      simp [hp]
    | true =>
      refine ((hflow x hp).append ih).perm (.refl _) ?_
      simp only [filter_cons, hp, Bool.not_true, Bool.false_eq_true, if_false, if_true, flatMap_cons]
      exact perm_append_comm_assoc _ _ _

lemma flow_split {b : Bucket} {f : Item → Entry} (hstay : ∀ x, moves (b, x) (b, x))
    (hid : ∀ x, (f x).id = x.id) (hmove : ∀ x, p x = true → moves (b, x) (f x)) (items : List Item) :
    Flows moves leaves (tagged b items) (tagged b (items.filter fun x => !p x) ++ (items.filter p).map f) := by
  rw [map_eq_flatMap]
  exact flow_part hstay (fun x hx => flow_single (hid x) (hmove x hx)) items

variable (e : Env)

lemma flow_claim (wanted : Item → Bool) (s : State) : Flows (Claimed e) (fun _ => False) s.entries (State.sort
      { s with
        pending := s.pending.filter fun x => !(wanted x && due e x)
        inFlight := s.inFlight ++ (s.pending.filter fun x => wanted x && due e x).map (Item.claim e) }).entries := by
  have hsplit : Flows (Claimed e) (fun _ => False) (tagged .pending s.pending) _ :=
    flow_split (p := fun x => wanted x && due e x) (f := fun x => (.inFlight, x.claim e))
      (fun x => .stay _) (fun x => rfl) (fun x hx => .claim (Bool.and_eq_true .. ▸ hx).2) s.pending
  refine flow_entries hsplit (flow_rest .stay _) (flow_rest .stay _) ?_
  rw [coe_entries_sort]
  simp only [coe_entries, tagged_append, ← coe_add]
  simp only [tagged, map_map, Function.comp_def]
  abel

variable (ids : List String)

lemma flow_release (s : State) : Flows (Released ids) (fun _ => False) s.entries (State.sort
      { s with
        pending := s.pending ++ (s.inFlight.filter (·.id ∈ ids)).map Item.unclaim
        inFlight := s.inFlight.filter (·.id ∉ ids) }).entries := by
  have hsplit : Flows (Released ids) (fun _ => False) (tagged .inFlight s.inFlight) _ :=
    flow_split (p := fun x => x.id ∈ ids) (f := fun x => (.pending, x.unclaim)) (fun x => .stay _) (fun x => rfl)
      (fun x hx => .release (of_decide_eq_true hx)) s.inFlight
  refine flow_entries (flow_rest .stay _) hsplit (flow_rest .stay _) ?_
  rw [coe_entries_sort]
  simp only [coe_entries, tagged_append, ← coe_add]
  simp only [tagged, map_map, Function.comp_def, decide_not]
  abel

lemma flow_ack (s : State) : Flows (fun a b => a = b) (Acked ids) s.entries (State.entries
      { s with pending := s.pending.filter (·.id ∉ ids), inFlight := s.inFlight.filter (·.id ∉ ids) }) := by
  have hdrop : ∀ b ≠ .dead, ∀ items : List Item, Flows (fun a b => a = b) (Acked ids) (tagged b items)
      (tagged b (items.filter (·.id ∉ ids))) := by
    intro b hb items
    have h : Flows (fun a b => a = b) (Acked ids) (tagged b items) _ :=
      flow_part (p := fun x => x.id ∈ ids) (f := fun _ => []) (fun x => rfl)
        (fun x hx => flow_leave ⟨hb, of_decide_eq_true hx⟩) items
    rw [flatMap_eq_nil_iff.mpr fun _ _ => rfl, append_nil] at h
    simpa only [decide_not] using h
  exact (hdrop .pending (by simp) s.pending).append
    ((hdrop .inFlight (by simp) s.inFlight).append (.refl fun a _ => rfl))

variable (cause : Cause)

lemma coe_map_failedEntry (items : List Item) : ((items.map (failedEntry e cause) : List Entry) : Multiset Entry) =
      tagged .pending (((items.map (failedQueuedNudge e cause)).filter (!·.2)).map Prod.fst) +
        tagged .dead (((items.map (failedQueuedNudge e cause)).filter (·.2)).map Prod.fst) := by
  induction items with
  | nil => rfl
  | cons x rest ih =>
    simp only [map_cons, ← cons_coe, ih, failedEntry]
    cases h : (failedQueuedNudge e cause x).2 with
    | false => simp [h, tagged, ← cons_coe]
    | true => simp [h, tagged, ← cons_coe]

lemma failedQueuedNudge_id (x : Item) : (failedQueuedNudge e cause x).1.id = x.id := by
  unfold failedQueuedNudge
  dsimp only
  split
  · rfl
  · split <;> rfl

lemma flow_fail (s : State) : Flows (Failed e cause ids) (fun _ => False) s.entries (State.sort
      { pending := s.pending.filter (·.id ∉ ids) ++ ((((s.pending.filter (·.id ∈ ids) ++
          s.inFlight.filter (·.id ∈ ids)).map (failedQueuedNudge e cause)).filter (!·.2)).map Prod.fst),
        inFlight := s.inFlight.filter (·.id ∉ ids),
        dead := s.dead ++ ((((s.pending.filter (·.id ∈ ids) ++
          s.inFlight.filter (·.id ∈ ids)).map (failedQueuedNudge e cause)).filter (·.2)).map Prod.fst) }).entries := by
  have hsplit : ∀ b ≠ .dead, ∀ items : List Item, Flows (Failed e cause ids) (fun _ => False)
      (tagged b items) (tagged b (items.filter (·.id ∉ ids)) ++ (items.filter (·.id ∈ ids)).map (failedEntry e cause)) := by
    intro b hb items
    have h : Flows (Failed e cause ids) (fun _ => False) (tagged b items) _ :=
      flow_split (p := fun x => x.id ∈ ids) (f := failedEntry e cause) (fun x => .stay _)
        (failedQueuedNudge_id e cause) (fun x hx => .fail hb (of_decide_eq_true hx)) items
    simpa only [decide_not] using h
  refine flow_entries (hsplit .pending (by simp) _) (hsplit .inFlight (by simp) _) (flow_rest .stay _) ?_
  rw [coe_entries_sort]
  simp only [coe_entries, tagged_append, ← coe_add, coe_map_failedEntry, map_append, filter_append]
  abel

lemma flow_supersede {s s' : State} (h : supersedeExisting e x s = .ok s') :
    Flows (Superseded e x) (fun _ => False) s.entries s'.entries := by
  have hallowed : ∀ b ≠ .dead, ∀ y, (supersedeFate e x y).Allowed (Superseded e x) (fun _ => False) b y := by
    intro b hb y
    unfold supersedeFate
    split_ifs with hsame
    · exact ⟨rfl, .supersede hb hsame⟩
    · exact .stay _
  have hnone : ∀ stop i items, (sift stop (supersedeFate e x) i items).pending = [] :=
    fun stop i items => sift_pending_eq_nil fun y z => by
      unfold supersedeFate
      split <;> simp
  have hp := flow_sift (fun _ => .stay _) (hallowed .pending (by simp)) (late e e.enqueueDeadline .supersedePending) 0 s.pending
  have hf := flow_sift (fun _ => .stay _) (hallowed .inFlight (by simp)) (late e e.enqueueDeadline .supersedeInFlight) 0 s.inFlight
  unfold supersedeExisting at h
  dsimp only at h
  split at h
  · cases h
  · cases h
    refine flow_entries hp hf (flow_rest .stay _) ?_
    simp only [coe_entries, coe_sifted, hnone, tagged_append, tagged_nil, ← coe_add, coe_nil]
    abel

end Operations

end DeliveryEngine.Nudges
