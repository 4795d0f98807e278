import DeliveryEngine.Go.Result
import DeliveryEngine.Nudges.Operations

/-!
# No nudge is lost

Over any run of the queue's operations no id is in the queue twice, an operation that fails changes nothing, and a
nudge leaves only when it is acknowledged or when it is dead, its bead is confirmed terminal and its retention has
passed.  All of this is read off what an operation can do to one nudge (`Op.does`).  A claim looks at the expiry of a
nudge in its pruning pass alone, so it hands out an expired nudge when that pass was cut short by the deadline; and a
nudge whose reference has an empty id supersedes nothing.
-/

namespace DeliveryEngine.Nudges

open Go List
open Runs

/-! ## Runs -/

variable (op : Op) (a : Entry)

namespace Op

/-- The queue after a run that starts with an empty one. -/
def runs (ops : List Op) : State := ops.foldl (fun s op => (op.run s).2) {}

/-- What is enqueued has not been tried. -/
def Untried : Op → Prop
  | enqueue _ _ x => x.attempts = 0
  | _ => True

/-- Why an operation may take an entry out of the queue: it is dead and pruned, or not dead and acknowledged. -/
def Removes : Prop := Pruned op.env a ∨ ∃ e ids, op = ack e ids ∧ Acked ids a

end Op

/-! ## What an operation does to an entry -/

/-- A nudge that is not dead may be tried again; none was tried too often. -/
def Within : Prop :=
  a.2.attempts ≤ defaultQueuedNudgeMaxAttempts ∧ (a.1 ≠ .dead → a.2.attempts < defaultQueuedNudgeMaxAttempts)

/-- The id stays, a dead nudge stays as it is, and the attempts stay within their bound. -/
structure Lawful (a b : Entry) : Prop where
  id_eq : b.id = a.id
  dead : a.1 = .dead → b = a
  within : Within a → Within b

namespace Lawful

lemma refl : Lawful a a := ⟨rfl, fun _ => rfl, fun h => h⟩

lemma trans {a b c : Entry} (h₁ : Lawful a b) (h₂ : Lawful b c) : Lawful a c where
  id_eq := h₂.id_eq.trans h₁.id_eq
  dead ha := by
    have hb := h₁.dead ha
    rw [h₂.dead (by rw [hb, ha]), hb]
  within h := h₂.within (h₁.within h)

lemma of_attempts {b c : Bucket} {x y : Item} (hb : b ≠ .dead) (hid : y.id = x.id) (h : y.attempts = x.attempts) :
    Lawful (b, x) (c, y) where
  id_eq := hid
  dead hd := absurd hd hb
  within hw := by
    have hlt := hw.2 hb
    exact ⟨by rw [h]; exact hlt.le, fun _ => by rw [h]; exact hlt⟩

end Lawful

variable {a b : Entry} {e : Env}

lemma Upkeep.lawful (h : Upkeep e a b) : Lawful a b := by
  cases h with
  | stay => exact .refl _
  | expire alive _ => exact .of_attempts alive rfl rfl
  | recover _ _ => exact .of_attempts (by simp) rfl rfl

lemma Claimed.lawful (h : Claimed e a b) : Lawful a b := by
  cases h with
  | stay => exact .refl _
  | claim _ => exact .of_attempts (by simp) rfl rfl

variable {ids : List String}

lemma Released.lawful (h : Released ids a b) : Lawful a b := by
  cases h with
  | stay => exact .refl _
  | release _ => exact .of_attempts (by simp) rfl rfl

lemma Superseded.lawful {new : Item} (h : Superseded e new a b) : Lawful a b := by
  cases h with
  | stay => exact .refl _
  | supersede alive _ => exact .of_attempts alive rfl rfl

lemma Failed.lawful {cause : Cause} (h : Failed e cause ids a b) : Lawful a b := by
  cases h with
  | stay => exact .refl _
  | @fail c x alive _ =>
    refine ⟨failedQueuedNudge_id e cause x, fun hd => absurd hd alive, fun hw => ?_⟩
    have hlt := hw.2 alive
    have hattempts : (failedQueuedNudge e cause x).1.attempts = x.attempts + 1 := by
      unfold failedQueuedNudge
      dsimp only
      split
      · rfl
      · split <;> rfl
    refine ⟨?_, fun hdead => ?_⟩
    · rw [failedEntry, hattempts]
      exact hlt
    · rw [failedEntry, hattempts]
      by_contra hnot
      refine hdead ?_
      rw [failedEntry, if_pos]
      unfold failedQueuedNudge
      split
      · rfl
      · rw [if_pos (.inl (not_lt.mp hnot))]

lemma Upkeep.not_dead (h : Upkeep e a b) (hb : b.1 ≠ .dead) : a.1 ≠ .dead := by
  intro ha
  rw [h.lawful.dead ha] at hb
  exact hb ha

variable {s : State} {x : Item}

namespace Op

variable {op : Op}

lemma Moves.lawful (h : op.Moves a b) : Lawful a b := by
  cases op with
  | enqueue e saved x => exact h.choose_spec.lawful
  | claim e wanted => exact Claimed.lawful h
  | ack e ids =>
    cases h
    exact .refl a
  | release e ids => exact Released.lawful h
  | fail e cause ids => exact Failed.lawful h

lemma Leaves.removes (hab : Upkeep op.env a b) (h : op.Leaves b) : op.Removes a := by
  cases op with
  | ack e ids => exact .inr ⟨e, ids, rfl, hab.not_dead h.1, hab.id_eq ▸ h.2⟩
  | enqueue | claim | release | fail => exact h.elim

lemma flow_lawful {l m l' : List Entry} (h : Maintains op.env l m)
    (h' : Flows op.Moves op.Leaves m l') : Flows Lawful op.Removes l l' :=
  h.trans h' (fun _ _ _ hab hbc => hab.lawful.trans (Moves.lawful hbc)) (fun _ => .inl) fun _ _ => Leaves.removes

lemma flow_run (s : State) : ∃ l, Flows Lawful op.Removes s.entries l ∧
    ((op.run s).2.entries = l ∨ ∃ e saved x beadID, op = enqueue e saved x ∧ x.id ∉ l.map Entry.id ∧
      (op.run s).2.entries.Perm ((.pending, x.savedAs beadID) :: l)) := by
  rcases op.does s with hsame | ⟨m, hupkeep, hown⟩ |
    ⟨e, saved, x, beadID, hop, m, rest, hupkeep, hown, hfresh, hentries⟩
  · exact ⟨s.entries, .refl fun a _ => .refl a, .inl (by rw [hsame])⟩
  · exact ⟨_, flow_lawful hupkeep hown, .inl rfl⟩
  · exact ⟨rest.entries, flow_lawful hupkeep hown, .inr ⟨e, saved, x, beadID, hop, hfresh, hentries⟩⟩

lemma nodup_run (h : s.ids.Nodup) : (op.run s).2.ids.Nodup := by
  obtain ⟨l, hflow, heq | ⟨e, saved, x, beadID, -, hfresh, hentries⟩⟩ := op.flow_run s
  · rw [State.ids, heq]
    exact hflow.nodup h
  · refine (hentries.map Entry.id).nodup_iff.mpr (nodup_cons.mpr ⟨?_, hflow.nodup h⟩)
    rwa [Entry.id, savedAs_id]

/-- No id is in the queue twice, and no nudge was tried more often than it may be. -/
structure Sound (s : State) : Prop where
  nodup : s.ids.Nodup
  within : ∀ a ∈ s.entries, Within a

lemma sound_empty : Sound {} := ⟨nodup_nil, by simp [State.entries]⟩

lemma within_savedAs (h : x.attempts = 0) (beadID : String) : Within (.pending, x.savedAs beadID) := by
  have hattempts : (x.savedAs beadID).attempts = 0 := by
    unfold Item.savedAs
    split <;> exact h
  exact ⟨by rw [hattempts]; decide, fun _ => by rw [hattempts]; decide⟩

lemma Sound.run (h : Sound s) (hop : op.Untried) : Sound (op.run s).2 := by
  have hwithin : ∀ l, Flows Lawful op.Removes s.entries l → ∀ a ∈ l, Within a := by
    intro l hflow a ha
    obtain ⟨b, hb, hmove⟩ := hflow.back a ha
    exact hmove.within (h.within b hb)
  refine ⟨op.nodup_run h.nodup, ?_⟩
  obtain ⟨l, hflow, rfl | ⟨e, saved, x, beadID, rfl, -, hentries⟩⟩ := op.flow_run s
  · exact hwithin _ hflow
  · intro a ha
    rcases mem_cons.mp (hentries.mem_iff.mp ha) with rfl | ha
    · exact within_savedAs hop beadID
    · exact hwithin l hflow a ha

lemma sound_runs {ops : List Op} (h : ∀ op ∈ ops, op.Untried) : Sound (runs ops) := by
  suffices hgen : ∀ s, Sound s → Sound (ops.foldl (fun s op => (op.run s).2) s) from hgen {} sound_empty
  induction ops with
  | nil => exact fun s hs => hs
  | cons op ops ih =>
    intro s hs
    exact ih (fun op' hop' => h op' (mem_cons_of_mem _ hop')) _ (hs.run (h op mem_cons_self))

lemma stays_or_removed (s : State) (ha : a ∈ s.entries) : op.Removes a ∨ ∃ b ∈ (op.run s).2.entries, Lawful a b := by
  obtain ⟨l, hflow, rfl | ⟨e, saved, x, beadID, -, -, hentries⟩⟩ := op.flow_run s
  · exact hflow.forth a ha
  · refine (hflow.forth a ha).imp_right ?_
    rintro ⟨b, hb, hmove⟩
    exact ⟨b, hentries.mem_iff.mpr (mem_cons_of_mem _ hb), hmove⟩

/-- What has the id of a dead nudge after an operation is that nudge, or was enqueued by the operation after the
dead one was pruned. -/
lemma dead_stays (hs : Sound s) (op : Op) (hx : x ∈ s.dead) (hb : b ∈ (op.run s).2.entries) (hid : b.id = x.id) :
    b = (.dead, x) ∨ Pruned op.env (.dead, x) ∧
      ∃ e saved y beadID, op = enqueue e saved y ∧ b = (.pending, y.savedAs beadID) := by
  have hmem : (Bucket.dead, x) ∈ s.entries := State.mem_entries_dead.mpr hx
  -- An entry that came from an old one came from the one entry with its id.
  have hold : ∀ l, Flows Lawful op.Removes s.entries l → b ∈ l → b = (.dead, x) := by
    intro l hflow hbl
    obtain ⟨a, ha, hmove⟩ := hflow.back b hbl
    have hax : a = (.dead, x) := inj_on_of_nodup_map hs.nodup ha hmem (hmove.id_eq.symm.trans hid)
    rw [← hax]
    exact hmove.dead (by rw [hax])
  obtain ⟨l, hflow, rfl | ⟨e, saved, y, beadID, hop, hfresh, hentries⟩⟩ := op.flow_run s
  · exact .inl (hold _ hflow hb)
  · rcases mem_cons.mp (hentries.mem_iff.mp hb) with hnew | hbl
    · refine .inr ⟨?_, e, saved, y, beadID, hop, hnew⟩
      -- The dead one is not among what was there when the new one was stored.
      rcases hflow.forth _ hmem with hremoved | ⟨c, hc, hmove⟩
      · refine hremoved.resolve_right ?_
        rintro ⟨e', ids, hack, -⟩
        cases hop.symm.trans hack
      · refine absurd (mem_map.mpr ⟨c, hc, hmove.id_eq.trans ?_⟩) hfresh
        have hyid : b.id = y.id := by
          rw [hnew]
          exact savedAs_id y beadID
        exact hid.symm.trans hyid
    · exact .inl (hold l hflow hbl)

lemma unchanged_of_error {err : String} (h : (op.run s).1 = .error err) : (op.run s).2 = s := by
  have hstate : ∀ {α : Type} (f : α → Answer) (change : State → Except String (α × State)),
      (withState change s).1.map f = .error err → (withState change s).2 = s := by
    intro α f change herr
    unfold withState at herr ⊢
    split
    · rfl
    · next heq =>
      rw [heq] at herr
      cases herr
  -- An operation that is given no ids does not fail.
  have hids : ∀ {α : Type} {ids : List String} {a : α} (change : State → Except String (α × State)),
      (if ids = [] then (.ok a, s) else withState change s).1.map (fun _ => Answer.settled) = .error err →
        (if ids = [] then (.ok a, s) else withState change s).2 = s := by
    intro α ids a change herr
    split at herr
    · cases herr
    · next hne =>
      rw [if_neg hne]
      exact hstate _ _ herr
  cases op with
  | claim e wanted =>
    simp only [run, claimDueQueuedNudges] at h ⊢
    exact hstate _ _ h
  | release | fail | ack =>
    exact hids _ h
  | enqueue e saved x =>
    cases saved with
    | error err' => rfl
    | ok beadID => exact hstate _ _ h

end Op

/-! ## What a claim hands out -/

variable {items : List Item}

lemma mem_sortBucket {first second : Item → Time} :
    x ∈ State.sortBucket first second items ↔ x ∈ items := (State.sortBucket_perm first second items).mem_iff

lemma not_expired_of_maintain {deadline : Time} (hstop : ∀ i, late e deadline .pruneExpired i = false)
    (hx : x ∈ (maintain e deadline s).pending) : x.expired e.now = false := by
  have hkept := fate_of_mem_kept (fun j _ => hstop (0 + j)) (mem_sortBucket.mp hx)
  unfold pruneExpiredFate at hkept
  split at hkept
  · cases hkept
  · next hexp => simpa using hexp

lemma claimed_due {wanted : Item → Bool} (h : (claimDueQueuedNudges e wanted s).1 = .ok items) (hx : x ∈ items) :
    (x.deliverAfter.isZero = true ∨ x.deliverAfter.ns ≤ e.now.ns) ∧
      ((∀ i, late e e.noMaintenanceDeadline .pruneExpired i = false) → x.expired e.now = false) := by
  cases h
  obtain ⟨y, hy, rfl⟩ := mem_map.mp hx
  obtain ⟨hmem, hdue⟩ := mem_filter.mp hy
  refine ⟨?_, fun hstop => ?_⟩
  · have hdue' := (Bool.and_eq_true .. ▸ hdue).2
    simpa [due, Item.claim, Time.after, Bool.or_eq_true] using hdue'
  · have hfresh : y.expired e.now = false := not_expired_of_maintain hstop hmem
    exact hfresh

/-! ## What an enqueue leaves -/

/-- The supersession passes of an enqueue end before its deadline. -/
def Env.WithinBudget (e : Env) : Prop :=
  ∀ i, late e e.enqueueDeadline .supersedePending i = false ∧ late e e.enqueueDeadline .supersedeInFlight i = false

lemma not_supersedes_of_mem (hbudget : e.WithinBudget) {s t : State}
    (h : supersedeExisting e x s = .ok t) {y : Item} (hy : y ∈ t.pending ∨ y ∈ t.inFlight) :
    supersedes x y = false := by
  have hstay : supersedeFate e x y = .stay := by
    unfold supersedeExisting at h
    dsimp only at h
    split at h
    · cases h
    · cases h
      rcases hy with hy | hy
      · exact fate_of_mem_kept (fun j _ => (hbudget (0 + j)).1) hy
      · exact fate_of_mem_kept (fun j _ => (hbudget (0 + j)).2) hy
  unfold supersedeFate at hstay
  split at hstay
  · cases hstay
  · next hnot => simpa using hnot

lemma savedAs_subject (x : Item) (beadID : String) : (x.savedAs beadID).agent = x.agent ∧
    (x.savedAs beadID).source = x.source ∧ (x.savedAs beadID).reference = x.reference := by
  unfold Item.savedAs
  split <;> exact ⟨rfl, rfl, rfl⟩

lemma only_one_of_enqueued (hbudget : e.WithinBudget) {saved : Except String String}
    (h : (enqueueQueuedNudge e saved x s).1 = .ok true) {r : Reference}
    (hr : x.reference = some r) (hid : r.id ≠ "") :
    ∃ beadID, x.savedAs beadID ∈ (enqueueQueuedNudge e saved x s).2.pending ∧
      ∀ z, z ∈ (enqueueQueuedNudge e saved x s).2.pending ∨ z ∈ (enqueueQueuedNudge e saved x s).2.inFlight →
        z.agent = x.agent → z.source = x.source → z.reference = some r → z = x.savedAs beadID := by
  cases saved with
  | error err => cases h
  | ok beadID =>
    simp only [enqueueQueuedNudge, withState] at h ⊢
    split at h
    · cases h
    · next stored s' hstore =>
      rcases storeNudge_cases hstore with ⟨rfl, -⟩ | ⟨-, -, t, ht, rfl⟩
      · cases h
      · refine ⟨beadID, mem_sortBucket.mpr (mem_append_right _ (mem_singleton_self _)), ?_⟩
        intro z hz hagent hsource href
        obtain ⟨hagent', hsource', href'⟩ := savedAs_subject x beadID
        have hsup : supersedes (x.savedAs beadID) z = true := by
          simp [supersedes, href', hr, hid, hagent', hsource', hagent, hsource, href]
        have hnot : ¬ (z ∈ t.pending ∨ z ∈ t.inFlight) := fun hmem => by
          rw [not_supersedes_of_mem hbudget ht hmem] at hsup
          cases hsup
        rcases hz with hz | hz
        · rcases mem_append.mp (mem_sortBucket.mp hz) with hz | hz
          · exact absurd (.inl hz) hnot
          · exact mem_singleton.mp hz
        · exact absurd (.inr (mem_sortBucket.mp hz)) hnot

/-! ## Conservation -/

/-- What the queue guarantees of an operation, in the state `s` it is run in. -/
structure Conserved (op : Op) (s : State) : Prop where
  nodup : s.ids.Nodup
  attempts_le : ∀ a ∈ s.entries, a.2.attempts ≤ defaultQueuedNudgeMaxAttempts
  error_unchanged : ∀ err, (op.run s).1 = .error err → (op.run s).2 = s
  /-- A nudge that is neither acknowledged nor, dead and past its retention, confirmed terminal stays. -/
  leaves : ∀ a ∈ s.entries, op.Removes a ∨ ∃ b ∈ (op.run s).2.entries, b.id = a.id ∧ (a.1 = .dead → b = a)
  /-- What has the id of a dead nudge is that nudge, or was enqueued after the dead one left. -/
  dead_stays : ∀ x ∈ s.dead, ∀ b ∈ (op.run s).2.entries, b.id = x.id → b = (.dead, x) ∨
    Pruned op.env (.dead, x) ∧ ∃ e saved y beadID, op = .enqueue e saved y ∧ b = (.pending, y.savedAs beadID)
  claimed_due : ∀ items, (op.run s).1 = .ok (.claimed items) → ∀ x ∈ items,
    (x.deliverAfter.isZero = true ∨ x.deliverAfter.ns ≤ op.env.now.ns) ∧
      ((∀ i, late op.env op.env.noMaintenanceDeadline .pruneExpired i = false) → x.expired op.env.now = false)
  only_one : ∀ e saved x r, op = .enqueue e saved x → (op.run s).1 = .ok (.enqueued true) → e.WithinBudget →
    x.reference = some r → r.id ≠ "" → ∃ beadID, x.savedAs beadID ∈ (op.run s).2.pending ∧
      ∀ z, z ∈ (op.run s).2.pending ∨ z ∈ (op.run s).2.inFlight →
        z.agent = x.agent → z.source = x.source → z.reference = some r → z = x.savedAs beadID

/-- After every run that starts with an empty queue and enqueues nudges that were not tried, every operation keeps
what the queue guarantees, whatever the clock reads and whatever the bead store answers. -/
theorem queue_conserves {ops : List Op} (hops : ∀ op ∈ ops, op.Untried) (op : Op) : Conserved op (Op.runs ops) := by
  have hsound := Op.sound_runs hops
  refine ⟨hsound.nodup, fun a ha => (hsound.within a ha).1, fun err => Op.unchanged_of_error, ?_,
    fun x hx b hb => Op.dead_stays hsound op hx hb, ?_, ?_⟩
  · intro a ha
    refine (op.stays_or_removed _ ha).imp_right ?_
    rintro ⟨b, hb, hmove⟩
    exact ⟨b, hb, hmove.id_eq, hmove.dead⟩
  · intro items hitems x hx
    cases op with
    | claim e wanted =>
      cases hitems
      exact claimed_due rfl hx
    | enqueue | ack | release | fail =>
      obtain ⟨_, -, hanswer⟩ := map_eq_ok.mp hitems
      cases hanswer
  · rintro e saved x r rfl hstored hbudget hr hid
    refine only_one_of_enqueued hbudget ?_ hr hid
    obtain ⟨stored, hres, hanswer⟩ := map_eq_ok.mp hstored
    cases hanswer
    exact hres

/-- An instant some seconds after the zero time, with a clock that stands still and a store that confirms
everything. -/
def sampleEnv (seconds : ℤ) : Env where
  now := Time.zero.add (seconds * Duration.second)
  started := Time.zero.add (seconds * Duration.second)
  clk _ _ := Time.zero.add (seconds * Duration.second)
  hasFront := true
  find _ := .ok (some "expired")
  findAgain _ := .ok (some "expired")
  terminalize _ := none

def sampleNudge (id bead : String) : Item :=
  { id := id, agent := "a", source := "s", reference := some ⟨"bead", bead⟩,
    expiresAt := Time.zero.add (10 * Duration.second) }

/-- Two nudges about one bead are enqueued; the second is stored and is the only one left for it. -/
theorem queue_conserves_pair : (∀ op ∈ [Op.enqueue (sampleEnv 1) (.ok "b1") (sampleNudge "n1" "x")], op.Untried) ∧
      Conserved (.enqueue (sampleEnv 1) (.ok "b2") (sampleNudge "n2" "x"))
        (Op.runs [.enqueue (sampleEnv 1) (.ok "b1") (sampleNudge "n1" "x")]) := by
  have hops : ∀ op ∈ [Op.enqueue (sampleEnv 1) (.ok "b1") (sampleNudge "n1" "x")], op.Untried := by
    intro op hop
    cases mem_singleton.mp hop
    rfl
  exact ⟨hops, queue_conserves hops _⟩

/-- A clock that runs past the deadline during the pruning pass of a claim. -/
def slowEnv : Env := { sampleEnv 20 with clk := fun _ _ => Time.zero.add (48 * Duration.hour) }

/-- A claim whose pruning pass is stopped by its deadline hands out a nudge that expired ten seconds before.  And of
two nudges with the same agent and source whose references have no id, the second is stored beside the first. -/
theorem expired_claimed_and_blank_kept : (∃ x, (claimDueQueuedNudges slowEnv (fun _ => true)
        (Op.runs [.enqueue (sampleEnv 1) (.ok "b1") (sampleNudge "n1" "x")])).1 = .ok [x] ∧
      x.expired slowEnv.now = true) ∧
    (enqueueQueuedNudge (sampleEnv 1) (.ok "b2") (sampleNudge "n2" "")
        (Op.runs [.enqueue (sampleEnv 1) (.ok "b1") (sampleNudge "n1" "")])).1 = .ok true ∧
      (enqueueQueuedNudge (sampleEnv 1) (.ok "b2") (sampleNudge "n2" "")
        (Op.runs [.enqueue (sampleEnv 1) (.ok "b1") (sampleNudge "n1" "")])).2.pending =
        [(sampleNudge "n1" "").savedAs "b1", (sampleNudge "n2" "").savedAs "b2"] := by
  refine ⟨⟨((sampleNudge "n1" "x").savedAs "b1").claim slowEnv, ?_, ?_⟩, ?_, ?_⟩ <;> decide +kernel

end DeliveryEngine.Nudges
