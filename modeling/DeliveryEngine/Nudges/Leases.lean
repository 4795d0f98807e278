import DeliveryEngine.Nudges.Conservation
import Mathlib.Logic.Relation

/-!
# Who holds a nudge

Deliverers claim due nudges and settle each claim once.  A claim is good for a lease; when it has run out, another
deliverer may claim the nudge.  A settlement names its nudge by id alone, so one that comes after its lease has run out
settles whatever claim there is by then (`settled_for_another`).  `held_by_one` says that this is the only way for a
nudge to be claimed on a running lease.  Every running lease is `Guarded` by an entry of the queue: the nudge in flight,
or the dead nudge, which is kept for longer than a lease can run.
-/

namespace DeliveryEngine.Nudges

open Go List
open Runs

/-! ## Deliverers -/

/-- A claim of a nudge that its deliverer has not settled. -/
structure Hold where
  /-- Which claim of the run it was. -/
  claim : ℕ
  deliverer : ℕ
  id : String
  leaseUntil : Time
  deriving DecidableEq

/-- The queue, the clock, and the claims that are not settled. -/
structure World where
  queue : State := {}
  clock : Time
  holds : List Hold := []
  /-- How many claims were made. -/
  claims : ℕ := 0

/-- How a deliverer settles. -/
inductive Settling
  | ack
  | release
  | fail (cause : Cause)

def Settling.op (how : Settling) (e : Env) (ids : List String) : Op :=
  match how with
  | ack => .ack e ids
  | release => .release e ids
  | fail cause => .fail e cause ids

/-- The lease is running. -/
def Hold.Runs (h : Hold) (clock : Time) : Prop := clock.ns < h.leaseUntil.ns

instance (h : Hold) (clock : Time) : Decidable (h.Runs clock) := inferInstanceAs (Decidable (_ < _))

variable (permitted : World → List Hold → Prop)

namespace World

variable (w : World)

/-- The nudges a claim hands out. -/
def claimed (e : Env) (wanted : Item → Bool) : List Item :=
  match (claimDueQueuedNudges e wanted w.queue).1 with
  | .ok items => items
  | .error _ => []

def claim (w : World) (d : ℕ) (e : Env) (wanted : Item → Bool) : World where
  queue := ((Op.claim e wanted).run w.queue).2
  clock := w.clock
  holds := w.holds ++ (w.claimed e wanted).map fun x => ⟨w.claims, d, x.id, x.leaseUntil⟩
  claims := w.claims + 1

/-- A deliverer settles some of its claims.  They stay its own when the operation fails. -/
def settle (e : Env) (how : Settling) (settled : List Hold) : World :=
  match (how.op e (settled.map Hold.id)).run w.queue with
  | (.error _, _) => w
  | (.ok _, queue) => { w with queue := queue, holds := w.holds.filter (· ∉ settled) }

/-- One turn of a run in which settlements are made only where they are permitted. -/
inductive Turn (permitted : World → List Hold → Prop) : World → World → Prop
  | tick (w : World) (t : Time) (later : w.clock.ns ≤ t.ns) : Turn permitted w { w with clock := t }
  | enqueue (w : World) (e : Env) (saved : Except String String) (x : Item) (now : e.now = w.clock) :
      Turn permitted w { w with queue := ((Op.enqueue e saved x).run w.queue).2 }
  | claim (w : World) (d : ℕ) (e : Env) (wanted : Item → Bool) (now : e.now = w.clock) :
      Turn permitted w (w.claim d e wanted)
  | settle (w : World) (d : ℕ) (e : Env) (how : Settling) (settled : List Hold) (now : e.now = w.clock)
      (own : ∀ h ∈ settled, h ∈ w.holds ∧ h.deliverer = d) (allowed : permitted w settled) :
      Turn permitted w (w.settle e how settled)

/-- The states of runs that start with an empty queue, at an instant not before the zero time. -/
def Reached : Prop := ∃ clock : Time, 0 ≤ clock.ns ∧ Relation.ReflTransGen (Turn permitted) { clock := clock } w

/-- No other claim of a nudge that is settled is on a running lease. -/
def Undisputed (settled : List Hold) : Prop :=
  ∀ h ∈ settled, ∀ h' ∈ w.holds, h' ∉ settled → h'.id = h.id → ¬ h'.Runs w.clock

end World

/-! ## What stands behind a running lease -/

/-- The entry keeps the nudge of a hold from being claimed while its lease is running. -/
def Guards (h : Hold) : Entry → Prop
  | (.pending, _) => False
  | (.inFlight, x) => x.id = h.id ∧ x.leaseUntil = h.leaseUntil
  | (.dead, x) => x.id = h.id ∧ h.leaseUntil.ns ≤ x.deadAt.ns + defaultQueuedNudgeClaimTTL

variable {h : Hold}

lemma Guards.id_eq {a : Entry} (ha : Guards h a) : a.id = h.id := by
  obtain ⟨b, x⟩ := a
  cases b with
  | pending => exact ha.elim
  | inFlight => exact ha.1
  | dead => exact ha.1

/-- The hold is of a running lease at the instant of an operation. -/
structure Running (e : Env) (h : Hold) : Prop where
  nonneg : 0 ≤ e.now.ns
  runs : e.now.ns < h.leaseUntil.ns
  lease_le : h.leaseUntil.ns ≤ e.now.ns + defaultQueuedNudgeClaimTTL

variable {op : Op}

section
variable {e : Env} {a b : Entry}

lemma Guards.upkeep (hrun : Running e h) (ha : Guards h a) (hab : Upkeep e a b) : Guards h b := by
  cases hab with
  | stay => exact ha
  | @expire c x alive expired =>
    cases c with
    | pending => exact ha.elim
    | inFlight => exact ⟨ha.1, hrun.lease_le⟩
    | dead => exact absurd rfl alive
  | @recover x fresh ended =>
    have hlease : x.leaseUntil.ns = h.leaseUntil.ns := congrArg Time.ns ha.2
    have hnow := hrun.nonneg
    have hruns := hrun.runs
    rcases ended with hzero | hle
    · have hz : x.leaseUntil.ns = 0 := of_decide_eq_true hzero
      omega
    · omega

lemma Guards.not_pruned (hrun : Running e h) (ha : Guards h a) : ¬ Pruned e a := by
  obtain ⟨b, x⟩ := a
  rintro ⟨hdead, -, hpast⟩
  cases hdead
  have hruns := hrun.runs
  have hle := ha.2
  simp only [pastRetention, Time.add, Bool.and_eq_true, Time.before_iff] at hpast
  have hretention : (0 : ℤ) ≤ defaultQueuedNudgeDeadRetention - defaultQueuedNudgeClaimTTL := by decide
  omega

lemma Guards.moves (hrun : Running op.env h) (ha : Guards h a) (hab : op.Moves a b)
    (hids : ∀ e ids how, op = Settling.op how e ids → h.id ∉ ids) : Guards h b := by
  cases op with
  | enqueue e saved x =>
    obtain ⟨beadID, hab⟩ := hab
    cases hab with
    | stay => exact ha
    | @supersede c y alive same =>
      cases c with
      | pending => exact ha.elim
      | inFlight => exact ⟨ha.1, hrun.lease_le⟩
      | dead => exact absurd rfl alive
  | claim e wanted =>
    cases hab with
    | stay => exact ha
    | claim due => exact ha.elim
  | ack e ids =>
    cases hab
    exact ha
  | release e ids =>
    cases hab with
    | stay => exact ha
    | release mem => exact absurd (ha.1 ▸ mem) (hids e ids .release rfl)
  | fail e cause ids =>
    cases hab with
    | stay => exact ha
    | @fail c x alive mem =>
      have hid : x.id = h.id := ha.id_eq
      exact absurd (hid ▸ mem) (hids e ids (.fail cause) rfl)

lemma Guards.not_leaves (ha : Guards h a)
    (hids : ∀ e ids how, op = Settling.op how e ids → h.id ∉ ids) : ¬ op.Leaves a := by
  intro hleave
  cases op with
  | ack e ids => exact hids e ids .ack rfl (ha.id_eq ▸ hleave.2)
  | enqueue | claim | release | fail => exact hleave

end

lemma guarded_run (hrun : Running op.env h) {s : State} (hs : ∃ a ∈ s.entries, Guards h a)
    (hids : ∀ e ids how, op = Settling.op how e ids → h.id ∉ ids) :
    ∃ b ∈ (op.run s).2.entries, Guards h b := by
  have hflow : ∀ m l, Maintains op.env s.entries m → Flows op.Moves op.Leaves m l → ∃ b ∈ l, Guards h b := by
    intro m l hupkeep hown
    obtain ⟨a, ha, hguards⟩ := hs
    obtain ⟨b, hb, hab⟩ := (hupkeep.forth a ha).resolve_left (hguards.not_pruned hrun)
    have hb' := hguards.upkeep hrun hab
    obtain ⟨c, hc, hbc⟩ := (hown.forth b hb).resolve_left (hb'.not_leaves hids)
    exact ⟨c, hc, hb'.moves hrun hbc hids⟩
  rcases op.does s with hsame | ⟨m, hupkeep, hown⟩ |
    ⟨e, saved, x, beadID, -, m, rest, hupkeep, hown, -, hentries⟩
  · rwa [hsame]
  · exact hflow _ _ hupkeep hown
  · obtain ⟨b, hb, hguards⟩ := hflow _ _ hupkeep hown
    exact ⟨b, hentries.mem_iff.mpr (mem_cons_of_mem _ hb), hguards⟩

/-! ## Runs -/

namespace World

/-- Every running lease is guarded. -/
structure Guarded (w : World) : Prop where
  nonneg : 0 ≤ w.clock.ns
  nodup : w.queue.ids.Nodup
  lease_le : ∀ h ∈ w.holds, h.leaseUntil.ns ≤ w.clock.ns + defaultQueuedNudgeClaimTTL
  guards : ∀ h ∈ w.holds, h.Runs w.clock → ∃ a ∈ w.queue.entries, Guards h a

variable {w : World} {e : Env}

lemma Guarded.running (hw : w.Guarded) (now : e.now = w.clock)
    (hh : h ∈ w.holds) (hruns : h.Runs w.clock) : Running e h := by
  refine ⟨?_, ?_, ?_⟩ <;> rw [now]
  · exact hw.nonneg
  · exact hruns
  · exact hw.lease_le h hh

lemma Guarded.run (hw : w.Guarded) (now : op.env.now = w.clock) {holds : List Hold}
    {n : ℕ} (hsub : ∀ h ∈ holds, h ∈ w.holds)
    (hids : ∀ h ∈ holds, h.Runs w.clock → ∀ e ids how, op = Settling.op how e ids → h.id ∉ ids) :
    Guarded ⟨(op.run w.queue).2, w.clock, holds, n⟩ where
  nonneg := hw.nonneg
  nodup := op.nodup_run hw.nodup
  lease_le h hh := hw.lease_le h (hsub h hh)
  guards h hh hruns := guarded_run (hw.running now (hsub h hh) hruns) (hw.guards h (hsub h hh) hruns)
    (hids h hh hruns)

lemma env_op (how : Settling) (e : Env) (ids : List String) : (how.op e ids).env = e := by cases how <;> rfl

lemma ids_of_op_eq {how how' : Settling} {e' : Env} {ids ids' : List String}
    (h : how.op e ids = how'.op e' ids') : ids = ids' := by
  cases how <;> cases how' <;> cases h <;> rfl

lemma claimed_inFlight {wanted : Item → Bool} {x : Item} (hx : x ∈ w.claimed e wanted) :
    (Bucket.inFlight, x) ∈ ((Op.claim e wanted).run w.queue).2.entries ∧
      x.leaseUntil = e.now.add defaultQueuedNudgeClaimTTL := by
  refine ⟨State.mem_entries_inFlight.mpr (mem_sortBucket.mpr (mem_append_right _ hx)), ?_⟩
  obtain ⟨y, -, rfl⟩ := mem_map.mp hx
  rfl

lemma Guarded.claim (hw : w.Guarded) (d : ℕ) (wanted : Item → Bool)
    (now : e.now = w.clock) : (w.claim d e wanted).Guarded := by
  have hnow : (Op.claim e wanted).env.now = w.clock := now
  have hold : Guarded ⟨((Op.claim e wanted).run w.queue).2, w.clock, w.holds, w.claims⟩ :=
    hw.run hnow (fun h hh => hh) fun h _ _ e' ids how heq => by cases how <;> cases heq
  refine ⟨hold.nonneg, hold.nodup, ?_, ?_⟩
  · intro h hh
    rcases mem_append.mp hh with hh | hh
    · exact hold.lease_le h hh
    · obtain ⟨x, hx, rfl⟩ := mem_map.mp hh
      rw [(claimed_inFlight hx).2, now]
      exact le_refl _
  · intro h hh hruns
    rcases mem_append.mp hh with hh | hh
    · exact hold.guards h hh hruns
    · obtain ⟨x, hx, rfl⟩ := mem_map.mp hh
      exact ⟨_, (claimed_inFlight hx).1, rfl, rfl⟩

lemma Guarded.turn {w' : World} (hw : w.Guarded) (ht : Turn Undisputed w w') : w'.Guarded := by
  cases ht with
  | tick t later =>
    refine ⟨le_trans hw.nonneg later, hw.nodup, fun h hh => (hw.lease_le h hh).trans ?_, fun h hh hruns => ?_⟩
    · exact Int.add_le_add_right later _
    · exact hw.guards h hh (lt_of_le_of_lt later hruns)
  | enqueue e saved x now =>
    have hnow : (Op.enqueue e saved x).env.now = w.clock := now
    exact hw.run hnow (fun h hh => hh) fun h _ _ e' ids how heq => by cases how <;> cases heq
  | claim d e wanted now => exact hw.claim d wanted now
  | settle d e how settled now own allowed =>
    unfold World.settle
    split
    · exact hw
    · next answer queue hrun =>
      have hqueue : queue = ((how.op e (settled.map Hold.id)).run w.queue).2 := by rw [hrun]
      rw [hqueue]
      refine hw.run ((congrArg Env.now (env_op how e _)).trans now) (fun h hh => (mem_filter.mp hh).1) ?_
      -- A hold that goes on is of another nudge than those that are settled.
      intro h hh hruns e' ids how' heq hmem
      rw [← ids_of_op_eq heq] at hmem
      obtain ⟨h', hh', hid⟩ := mem_map.mp hmem
      obtain ⟨hheld, hother⟩ := mem_filter.mp hh
      exact allowed h' hh' h hheld (of_decide_eq_true hother) hid.symm hruns

lemma Reached.guarded (h : Reached Undisputed w) : w.Guarded := by
  obtain ⟨clock, hclock, hrun⟩ := h
  induction hrun with
  | refl => exact ⟨hclock, nodup_nil, by simp, by simp⟩
  | tail _ hturn ih => exact ih.turn hturn

end World

open World

/-- In every run in which no settlement is of a nudge that another claim has on a running lease, no claim returns a
nudge that is on a running lease. -/
theorem held_by_one {w : World} (hw : Reached Undisputed w) {e : Env} (now : e.now = w.clock) (wanted : Item → Bool) :
    ∀ x ∈ w.claimed e wanted, ∀ h ∈ w.holds, h.id = x.id → ¬ h.Runs w.clock := by
  intro x hx h hh hid hruns
  have hguarded := hw.guarded
  obtain ⟨y, hy, rfl⟩ := mem_map.mp hx
  have hflow := Op.flow_maintained e e.noMaintenanceDeadline w.queue
  -- The guard of the lease is still there after the claim's maintenance, and has the id of a pending nudge.
  obtain ⟨a, ha, hguards⟩ := hguarded.guards h hh hruns
  have hrunning := hguarded.running now hh hruns
  obtain ⟨b, hb, hab⟩ := (hflow.forth a ha).resolve_left (hguards.not_pruned hrunning)
  have hb' := hguards.upkeep hrunning hab
  have hpending : (Bucket.pending, y) ∈ (maintain e e.noMaintenanceDeadline w.queue.sort).entries :=
    State.mem_entries_pending.mpr (mem_filter.mp hy).1
  have hsame : b = (.pending, y) :=
    inj_on_of_nodup_map (hflow.nodup hguarded.nodup) hb hpending (hb'.id_eq.trans hid)
  rw [hsame] at hb'
  exact hb'

/-! ## A nudge claimed while it is held -/

/-- The nudge of the runs below. -/
def lateNudge : Item := { id := "n1", agent := "a" }

/-- The nudge is enqueued at second 1 and claimed by the first deliverer. -/
def heldByFirst : World :=
  World.claim { queue := ((Op.enqueue (sampleEnv 1) (.ok "b1") lateNudge).run {}).2, clock := (sampleEnv 1).now }
    1 (sampleEnv 1) fun _ => true

lemma reached_heldByFirst : Reached permitted heldByFirst := by
  refine ⟨(sampleEnv 1).now, by decide, ?_⟩
  have henqueue : Turn permitted { clock := (sampleEnv 1).now } _ :=
    .enqueue _ (sampleEnv 1) (.ok "b1") lateNudge rfl
  exact (Relation.ReflTransGen.single henqueue).tail (.claim _ 1 (sampleEnv 1) _ rfl)

/-- The first deliverer releases its claim, and a second one claims the nudge. -/
def handedOver : World :=
  (heldByFirst.settle (sampleEnv 1) .release heldByFirst.holds).claim 2 (sampleEnv 1) fun _ => true

lemma reached_handedOver : Reached Undisputed handedOver := by
  obtain ⟨clock, hclock, hrun⟩ := reached_heldByFirst Undisputed
  have hown : ∀ h ∈ heldByFirst.holds, h ∈ heldByFirst.holds ∧ h.deliverer = 1 := by decide +kernel
  have hreleased := hrun.tail (.settle _ 1 (sampleEnv 1) .release _ rfl hown fun _ _ _ hh' hnot => absurd hh' hnot)
  exact ⟨clock, hclock, hreleased.tail (.claim _ 2 (sampleEnv 1) _ rfl)⟩

/-- While the second deliverer's lease is running, another claim returns nothing that is held. -/
theorem held_by_one_first :
    Reached Undisputed handedOver ∧ (sampleEnv 1).now = handedOver.clock ∧ handedOver.holds.map Hold.deliverer = [2] ∧
      ∀ x ∈ handedOver.claimed (sampleEnv 1) (fun _ => true), ∀ h ∈ handedOver.holds, h.id = x.id →
        ¬ h.Runs handedOver.clock :=
  ⟨reached_handedOver, by decide +kernel, by decide +kernel, held_by_one reached_handedOver (by decide +kernel) _⟩

/-- At second 130 the first lease has run out, and a second deliverer has claimed the nudge. -/
def heldBySecond : World :=
  World.claim { heldByFirst with clock := (sampleEnv 130).now } 2 (sampleEnv 130) fun _ => true

/-- At second 140 the first deliverer has released its claim. -/
def releasedByFirst : World :=
  World.settle { heldBySecond with clock := (sampleEnv 140).now } (sampleEnv 140) .release
    (heldBySecond.holds.filter (·.deliverer = 1))

lemma reached_releasedByFirst : Reached (fun _ _ => True) releasedByFirst := by
  obtain ⟨clock, hclock, hrun⟩ := reached_heldByFirst fun _ _ => True
  have hlater := hrun.tail (.tick _ (sampleEnv 130).now (by decide))
  have hsecond := hlater.tail (.claim _ 2 (sampleEnv 130) (fun _ => true) rfl)
  have hlate := hsecond.tail (.tick _ (sampleEnv 140).now (by decide))
  refine ⟨clock, hclock, hlate.tail (.settle _ 1 (sampleEnv 140) .release _ rfl ?_ trivial)⟩
  intro h hh
  obtain ⟨hmem, hown⟩ := mem_filter.mp hh
  exact ⟨hmem, of_decide_eq_true hown⟩

/-- The first deliverer releases after its lease has run out, and with that releases the nudge the second deliverer
holds: a third deliverer is handed it while the second lease is running and is not settled. -/
theorem settled_for_another :
    Reached (fun _ _ => True) releasedByFirst ∧ (sampleEnv 140).now = releasedByFirst.clock ∧
      ∃ x ∈ releasedByFirst.claimed (sampleEnv 140) (fun _ => true), ∃ h ∈ releasedByFirst.holds,
        h.deliverer ≠ 3 ∧ h.id = x.id ∧ h.Runs releasedByFirst.clock :=
  ⟨reached_releasedByFirst, by decide +kernel, by decide +kernel⟩

end DeliveryEngine.Nudges
