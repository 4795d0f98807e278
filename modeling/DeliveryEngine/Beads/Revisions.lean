import DeliveryEngine.Beads.MemStore

/-!
# What a revision says of a bead

Every write that changes a bead of the store in memory moves its revision, so a revision names one content of the
bead for ever (`revision_fence`).  `Later` is what one operation, and then any sequence of them, can make of the
beads: each is one of the old beads as it was, or with a higher revision, or it has an identifier that is new.
-/

namespace DeliveryEngine.MemStore

open List
open Beads (Metadata Key Dep DepType)

variable {f : Bead → State} {a : Bead} {α : Type}

namespace State

/-- Identifiers are distinct, and all of them have been minted. -/
structure WellFormed (s : State) : Prop where
  nodup : (s.beads.map Bead.id).Nodup
  minted : ∀ b ∈ s.beads, ∃ n ≤ s.seq, b.id = s.mintID n

/-- A later state of a store: no bead went back, and an identifier that was given is given to no other bead. -/
structure Later (s s' : State) : Prop where
  idPrefix : s'.idPrefix = s.idPrefix
  seq : s.seq ≤ s'.seq
  beads : ∀ b ∈ s'.beads, (∃ a ∈ s.beads, a.id = b.id ∧ (a = b ∨ a.revision < b.revision)) ∨
    ∃ n, s.seq < n ∧ b.id = s.mintID n

/-- The second state is later, and well-formed if the first is. -/
def Advances (s s' : State) : Prop := s.WellFormed → s'.WellFormed ∧ s.Later s'

variable {s s' s'' : State}

lemma mintID_congr (h : s'.idPrefix = s.idPrefix) (n : ℕ) : s'.mintID n = s.mintID n := by rw [mintID, mintID, h]

lemma mintID_injective (s : State) : Function.Injective s.mintID := Go.itoa_append_injective _

variable {b : Bead} {id : String}

lemma mem_of_get (h : s.get id = some b) : b ∈ s.beads := mem_of_find?_eq_some h

lemma id_of_get (h : s.get id = some b) : b.id = id := by simpa using find?_some h

lemma WellFormed.eq_of_id (hs : s.WellFormed) (ha : a ∈ s.beads) (hb : b ∈ s.beads) (h : a.id = b.id) : a = b :=
  inj_on_of_nodup_map hs.nodup ha hb h

lemma WellFormed.get (hs : s.WellFormed) (hb : b ∈ s.beads) : s.get b.id = some b := by
  obtain ⟨c, hc⟩ : ∃ c, s.get b.id = some c := Option.isSome_iff_exists.mp (find?_isSome.mpr ⟨b, hb, by simp⟩)
  rw [hc, hs.eq_of_id (mem_of_get hc) hb (id_of_get hc)]

/-! ## Later states -/

lemma Later.refl (s : State) : s.Later s where
  idPrefix := rfl
  seq := le_refl _
  beads b hb := .inl ⟨b, hb, rfl, .inl rfl⟩

lemma Later.trans (h : s.Later s') (h' : s'.Later s'') : s.Later s'' where
  idPrefix := h'.idPrefix.trans h.idPrefix
  seq := h.seq.trans h'.seq
  beads c hc := by
    rcases h'.beads c hc with ⟨b, hb, hid, hbc⟩ | ⟨n, hn, hid⟩
    · rcases h.beads b hb with ⟨a, ha, haid, hab⟩ | ⟨n, hn, hbid⟩
      · refine .inl ⟨a, ha, haid.trans hid, ?_⟩
        rcases hab with rfl | hab
        · exact hbc
        · rcases hbc with rfl | hbc
          · exact .inr hab
          · exact .inr (hab.trans hbc)
      · exact .inr ⟨n, hn, hid.symm.trans hbid⟩
    · exact .inr ⟨n, h.seq.trans_lt hn, hid.trans (mintID_congr h.idPrefix n)⟩

lemma Later.eq_or_lt (h : s.Later s') (hs : s.WellFormed) (ha : a ∈ s.beads)
    (hb : b ∈ s'.beads) (hid : a.id = b.id) : a = b ∨ a.revision < b.revision := by
  rcases h.beads b hb with ⟨c, hc, hcid, hcb⟩ | ⟨n, hn, hbid⟩
  · obtain rfl := hs.eq_of_id ha hc (hid.trans hcid.symm)
    exact hcb
  · obtain ⟨m, hm, haid⟩ := hs.minted a ha
    have := s.mintID_injective (haid.symm.trans (hid.trans hbid))
    omega

lemma Later.exists_of_id (h : s.Later s') (hs : s.WellFormed) (ha : a ∈ s.beads)
    (h' : s'.Later s'') (hb : b ∈ s''.beads) (hid : a.id = b.id) : ∃ c ∈ s'.beads, c.id = a.id := by
  rcases h'.beads b hb with ⟨c, hc, hcid, -⟩ | ⟨n, hn, hbid⟩
  · exact ⟨c, hc, hcid.trans hid.symm⟩
  · obtain ⟨m, hm, haid⟩ := hs.minted a ha
    have := s.mintID_injective (haid.symm.trans (hid.trans (hbid.trans (mintID_congr h.idPrefix n))))
    have := h.seq
    omega

lemma Advances.refl (s : State) : s.Advances s := fun hs => ⟨hs, .refl s⟩

lemma Advances.trans (h : s.Advances s') (h' : s'.Advances s'') : s.Advances s'' := fun hs =>
  ⟨(h' (h hs).1).1, (h hs).2.trans (h' (h hs).1).2⟩

/-! ## What each change does -/

variable {beads : List Bead}

lemma advances_of_rows (deps : List Dep) (hids : (beads.map Bead.id).Sublist (s.beads.map Bead.id))
    (hrows : ∀ b ∈ beads, ∃ a ∈ s.beads, a.id = b.id ∧ (a = b ∨ a.revision < b.revision)) :
    s.Advances { s with beads := beads, deps := deps } := by
  intro hs
  refine ⟨⟨hids.nodup hs.nodup, fun b hb => ?_⟩, ⟨rfl, le_refl _, fun b hb => .inl (hrows b hb)⟩⟩
  obtain ⟨a, ha, haid, -⟩ := hrows b hb
  obtain ⟨n, hn, hid⟩ := hs.minted a ha
  exact ⟨n, hn, haid.symm.trans hid⟩

lemma map_id_changeFirst {f : Bead → Bead} (hf : ∀ b, (f b).id = b.id) (id : String) (beads : List Bead) :
    (changeFirst id f beads).map Bead.id = beads.map Bead.id := by
  induction beads with
  | nil => rfl
  | cons b beads ih =>
    rw [changeFirst]
    split_ifs with h
    · simp [hf]
    · simp [ih]

lemma mem_changeFirst {f : Bead → Bead}
    (h : b ∈ changeFirst id f beads) : b ∈ beads ∨ ∃ a ∈ beads, a.id = id ∧ b = f a := by
  induction beads with
  | nil => exact .inl h
  | cons a beads ih =>
    rw [changeFirst] at h
    split_ifs at h with hid
    · rcases mem_cons.mp h with rfl | h
      · exact .inr ⟨a, mem_cons_self, hid, rfl⟩
      · exact .inl (mem_cons_of_mem _ h)
    · rcases mem_cons.mp h with rfl | h
      · exact .inl mem_cons_self
      · rcases ih h with h | ⟨c, hc, hcid, hb⟩
        · exact .inl (mem_cons_of_mem _ h)
        · exact .inr ⟨c, mem_cons_of_mem _ hc, hcid, hb⟩

/-- A write to a bead: the identifier stays, the revision moves. -/
def Writes (f : Bead → Bead) : Prop := ∀ b, (f b).id = b.id ∧ (f b).revision = b.revision + 1

variable (now : Go.Time)

lemma writes_apply (opts : UpdateOpts) : Writes (opts.apply now) := fun _ => ⟨rfl, rfl⟩

lemma writes_release : Writes (Bead.release now) := fun _ => ⟨rfl, rfl⟩

lemma writes_close (metadata : Metadata) : Writes (Bead.close now metadata) := fun _ => ⟨rfl, rfl⟩

lemma writes_reopen : Writes (Bead.reopen now) := fun _ => ⟨rfl, rfl⟩

lemma writes_setMetadata (kvs : Metadata) : Writes (Bead.setMetadata now kvs) := fun _ => ⟨rfl, rfl⟩

lemma advances_change {f : Bead → Bead} (hf : Writes f) (id : String) : s.Advances (s.change id f) := by
  refine advances_of_rows s.deps (by rw [map_id_changeFirst fun b => (hf b).1]) fun b hb => ?_
  rcases mem_changeFirst hb with hb | ⟨a, ha, -, rfl⟩
  · exact ⟨b, hb, rfl, .inl rfl⟩
  · exact ⟨a, ha, (hf a).1.symm, .inr (by rw [(hf a).2]; omega)⟩

variable (id : String)

lemma advances_remove : s.Advances (s.remove id) :=
  advances_of_rows s.deps (eraseP_sublist.map _) fun b hb => ⟨b, mem_of_mem_eraseP hb, rfl, .inl rfl⟩

lemma advances_deps (deps : List Dep) : s.Advances { s with deps } :=
  advances_of_rows deps (List.Sublist.refl _) fun b hb => ⟨b, hb, rfl, .inl rfl⟩

lemma advances_closeAll (ids : List String) (metadata : Metadata) : s.Advances (s.closeAll now ids metadata).2 := by
  have hwrites := writes_close now metadata
  refine advances_of_rows s.deps ?_ fun b hb => ?_
  · have hids : (s.beads.map fun b => if closesIn ids b then b.close now metadata else b).map Bead.id =
        s.beads.map Bead.id := by
      rw [map_map]
      refine map_congr_left fun b _ => ?_
      rw [Function.comp_apply]
      split_ifs
      · exact (hwrites b).1
      · rfl
    rw [hids]
  · obtain ⟨a, ha, rfl⟩ := mem_map.mp hb
    refine ⟨a, ha, ?_⟩
    split_ifs
    · exact ⟨(hwrites a).1.symm, .inr (by rw [(hwrites a).2]; omega)⟩
    · exact ⟨rfl, .inl rfl⟩

lemma advances_create (b : Bead) : s.Advances (s.create now b) := by
  intro hs
  have hfresh : ∀ a ∈ s.beads, a.id ≠ s.mintID (s.seq + 1) := fun a ha heq => by
    obtain ⟨n, hn, hid⟩ := hs.minted a ha
    have := s.mintID_injective (hid.symm.trans heq)
    omega
  refine ⟨⟨?_, fun c hc => ?_⟩, ⟨rfl, Nat.le_succ _, fun c hc => ?_⟩⟩
  · simpa [create, newBead, nodup_append, hs.nodup] using hfresh
  · rcases mem_append.mp hc with hc | hc
    · obtain ⟨n, hn, hid⟩ := hs.minted c hc
      exact ⟨n, Nat.le_succ_of_le hn, hid⟩
    · obtain rfl := mem_singleton.mp hc
      exact ⟨s.seq + 1, le_refl _, rfl⟩
  · rcases mem_append.mp hc with hc | hc
    · exact .inl ⟨c, hc, rfl, .inl rfl⟩
    · obtain rfl := mem_singleton.mp hc
      exact .inr ⟨s.seq + 1, Nat.lt_succ_self _, rfl⟩

lemma advances_onBead {f : Bead → Except Failure α × State} (verb id : String)
    (hf : ∀ b, s.get id = some b → s.Advances (f b).2) : s.Advances (s.onBead verb id f).2 := by
  rw [onBead]
  split
  · exact .refl s
  · next b hb => exact hf b hb

lemma advances_unless {c : Prop} [Decidable c] {r : Except Failure α} {u : Except Failure α × State}
    (h : s.Advances u.2) : s.Advances (if c then (r, s) else u).2 := by
  split_ifs
  · exact .refl s
  · exact h

lemma advances_update (opts : UpdateOpts) : s.Advances (s.update now id opts).2 :=
  advances_onBead _ _ fun _ _ => advances_change (writes_apply now opts) id

lemma advances_releaseIfCurrent (id expectedAssignee : String) :
    s.Advances (s.releaseIfCurrent now id expectedAssignee).2 := by
  rw [releaseIfCurrent]
  split
  · exact .refl s
  · exact advances_unless (advances_change (writes_release now) id)

lemma advances_close : s.Advances (s.close now id).2 :=
  advances_onBead _ _ fun _ _ => advances_unless (advances_change (writes_close now []) id)

lemma advances_setMetadataBatch (kvs : Metadata) : s.Advances (s.setMetadataBatch now id kvs).2 :=
  advances_unless (advances_onBead _ _ fun _ _ => advances_change (writes_setMetadata now kvs) id)

lemma advances_ifMatch (verb id : String) (expected : ℤ) (hf : ∀ b, s.Advances (f b)) :
    s.Advances (s.ifMatch verb id expected f).2 :=
  advances_unless (advances_onBead _ _ fun b _ => advances_unless (hf b))

lemma advances_closeIfMatch (expected : ℤ) : s.Advances (s.closeIfMatch now id expected).2 := by
  refine advances_ifMatch _ _ _ fun b => ?_
  split_ifs
  · exact .refl s
  · exact advances_change (writes_close now []) id

end State

open State

/-! ## Operations and runs -/

lemma TxOp.advances (op : TxOp) (now : Go.Time) (s : State) : s.Advances (op.serve now s).2 := by
  cases op with
  | create b => exact advances_create now b
  | update id opts => exact advances_update now id opts
  | setMetadataBatch id kvs => exact advances_setMetadataBatch now id kvs
  | close id => exact advances_close now id

lemma TxBody.advances (body : TxBody) (s : State) : s.Advances (body.run (fun q s => q.2.serve q.1 s) s).2 := by
  induction body generalizing s with
  | done a => exact .refl s
  | ask q next ih => exact (q.2.advances q.1 s).trans (ih _ _)

lemma Op.advances (op : Op) (now : Go.Time) (s : State) : s.Advances (op.serve now s).2 := by
  cases op with
  | create b => exact advances_create now b
  | update id opts => exact advances_update now id opts
  | releaseIfCurrent id expectedAssignee => exact advances_releaseIfCurrent now id expectedAssignee
  | close id => exact advances_close now id
  | reopen id => exact advances_onBead _ _ fun _ _ => advances_unless (advances_change (writes_reopen now) id)
  | closeAll ids metadata => exact advances_closeAll now ids metadata
  | setMetadata id key value => exact advances_onBead _ _ fun _ _ => advances_change (writes_setMetadata now _) id
  | setMetadataBatch id kvs => exact advances_setMetadataBatch now id kvs
  | updateIfMatch id expected opts =>
    exact advances_unless (advances_ifMatch _ _ _ fun _ => advances_change (writes_apply now opts) id)
  | closeIfMatch id expected => exact advances_closeIfMatch now id expected
  | deleteIfMatch id expected => exact advances_ifMatch _ _ _ fun _ => advances_remove id
  | compareAndSetMetadataKey id key expected next =>
    exact advances_unless (advances_onBead _ _ fun _ _ => advances_unless (advances_change (writes_setMetadata now _) id))
  | delete id => exact advances_onBead _ _ fun _ _ => advances_remove id
  | depAdd issueID dependsOnID type => exact advances_deps _
  | depRemove issueID dependsOnID => exact advances_deps _
  | tx body => exact TxBody.advances body s

lemma run_advances (calls : List (Go.Time × Op)) (s : State) : s.Advances (run s calls) := by
  induction calls generalizing s with
  | nil => exact .refl s
  | cons call calls ih => exact (call.2.advances call.1 s).trans (ih _)

lemma run_append (s : State) (calls more : List (Go.Time × Op)) :
    run s (calls ++ more) = run (run s calls) more := foldl_append

/-- A store that nothing has been put into. -/
def State.empty (idPrefix : String) (disableConditionalWrites : Bool) : State :=
  { idPrefix, disableConditionalWrites }

lemma State.wellFormed_empty (idPrefix : String) (disabled : Bool) : (State.empty idPrefix disabled).WellFormed where
  nodup := nodup_nil
  minted _ hb := absurd hb not_mem_nil

/-! ## Conditional writes -/

namespace State

variable {s : State} {id verb : String}

lemma onBead_error {f : Bead → Except Failure α × State} (hf : ∀ b, (∃ e, (f b).1 = .error e) → (f b).2 = s)
    (h : ∃ e, (s.onBead verb id f).1 = .error e) : (s.onBead verb id f).2 = s := by
  rw [onBead] at h ⊢
  split at h
  · rfl
  · exact hf _ h

variable {expected : ℤ}

lemma ifMatch_error (h : ∃ e, (s.ifMatch verb id expected f).1 = .error e) :
    (s.ifMatch verb id expected f).2 = s := by
  rw [ifMatch] at h ⊢
  split_ifs at h ⊢ with hd
  · rfl
  · refine onBead_error (fun b hb => ?_) h
    split_ifs at hb ⊢
    · rfl
    · simp at hb

lemma get_of_ifMatch_ok (h : (s.ifMatch verb id expected f).1 = .ok ()) :
    ∃ b, s.get id = some b ∧ b.revision = expected := by
  rw [ifMatch, onBead] at h
  split_ifs at h
  split at h
  · cases h
  · next b hb =>
    split_ifs at h with hrev
    exact ⟨b, hb, not_not.mp hrev⟩

variable {now : Go.Time} {opts : UpdateOpts}

lemma get_of_updateIfMatch_ok (h : (s.updateIfMatch now id expected opts).1 = .ok ()) :
    ∃ b, s.get id = some b ∧ b.revision = expected := by
  rw [updateIfMatch] at h
  split_ifs at h
  exact get_of_ifMatch_ok h

lemma updateIfMatch_error (h : ∃ e, (s.updateIfMatch now id expected opts).1 = .error e) :
    (s.updateIfMatch now id expected opts).2 = s := by
  rw [updateIfMatch] at h ⊢
  split_ifs at h ⊢
  · rfl
  · exact ifMatch_error h

lemma compareAndSetMetadataKey_refused {key : Key} {expected next : String}
    (h : (s.compareAndSetMetadataKey now id key expected next).1 ≠ .ok true) :
    (s.compareAndSetMetadataKey now id key expected next).2 = s := by
  rw [compareAndSetMetadataKey, onBead] at h ⊢
  split_ifs at h ⊢ with hd
  · rfl
  · split at h
    · rfl
    · split_ifs at h ⊢ with hk
      · rfl
      · exact absurd rfl h

lemma releaseIfCurrent_refused {expectedAssignee : String}
    (h : (s.releaseIfCurrent now id expectedAssignee).1 ≠ .ok true) :
    (s.releaseIfCurrent now id expectedAssignee).2 = s := by
  rw [releaseIfCurrent] at h ⊢
  split at h
  · rfl
  · split_ifs at h ⊢
    · rfl
    · exact absurd rfl h

end State

/-- A bead found later with the revision it was read with is the bead that was read, at every point between. -/
lemma get_between {s : State} (hs : s.WellFormed) (ha : a ∈ s.beads) {calls : List (Go.Time × Op)}
    (hlater : ∃ b, (run s calls).get a.id = some b ∧ b.revision = a.revision)
    {earlier : List (Go.Time × Op)} (hearlier : earlier <+: calls) : (run s earlier).get a.id = some a := by
  obtain ⟨rest, rfl⟩ := hearlier
  obtain ⟨b, hb, hrev⟩ := hlater
  obtain ⟨hs₁, h₁⟩ := run_advances earlier s hs
  obtain ⟨-, h₂⟩ := run_advances rest (run s earlier) hs₁
  rw [run_append] at hb
  have hid := id_of_get hb
  obtain ⟨c, hc, hcid⟩ := h₁.exists_of_id hs ha h₂ (mem_of_get hb) hid.symm
  -- The revision of `c` lies between two equal ones, so `c` is both beads.
  rcases h₁.eq_or_lt hs ha hc hcid.symm with rfl | hlt
  · exact hs₁.get hc
  · rcases h₂.eq_or_lt hs₁ hc (mem_of_get hb) (hcid.trans hid.symm) with rfl | hlt' <;> omega

/-- What a revision is worth on a store in memory, for every sequence of operations from a store that was well-formed
(`before`) and every further one (`calls`); what a read returns is a bead of the state it reads.

Of two reads of one identifier the later has no lower revision, and with an equal one it returns the same bead.
A conditional update or close succeeds with the revision of an earlier read only if the bead has been the one
that was read ever since.  A conditional write that is refused leaves the store as it is. -/
theorem revision_fence (start : State) (hstart : start.WellFormed) (before calls : List (Go.Time × Op)) :
    let s := run start before
    let s' := run s calls
    (∀ a ∈ s.beads, ∀ b ∈ s'.beads, a.id = b.id → a.revision ≤ b.revision ∧ (a.revision = b.revision → a = b)) ∧
    (∀ a ∈ s.beads, ∀ now, ((∃ opts, (s'.updateIfMatch now a.id a.revision opts).1 = .ok ()) ∨
        (s'.closeIfMatch now a.id a.revision).1 = .ok ()) →
      ∀ earlier, earlier <+: calls → (run s earlier).get a.id = some a) ∧
    (∀ now id expected opts, (∃ e, (s'.updateIfMatch now id expected opts).1 = .error e) →
      (s'.updateIfMatch now id expected opts).2 = s') ∧
    (∀ now id expected, (∃ e, (s'.closeIfMatch now id expected).1 = .error e) →
      (s'.closeIfMatch now id expected).2 = s') ∧
    (∀ id expected, (∃ e, (s'.deleteIfMatch id expected).1 = .error e) → (s'.deleteIfMatch id expected).2 = s') ∧
    (∀ now id key expected next, (s'.compareAndSetMetadataKey now id key expected next).1 ≠ .ok true →
      (s'.compareAndSetMetadataKey now id key expected next).2 = s') ∧
    (∀ now id expectedAssignee, (s'.releaseIfCurrent now id expectedAssignee).1 ≠ .ok true →
      (s'.releaseIfCurrent now id expectedAssignee).2 = s') := by
  intro s s'
  have hs : s.WellFormed := (run_advances before start hstart).1
  have hlater : s.Later s' := (run_advances calls s hs).2
  refine ⟨fun a ha b hb hid => ?_, fun a ha now hok earlier hearlier => ?_, fun _ _ _ _ => updateIfMatch_error,
    fun _ _ _ => ifMatch_error, fun _ _ => ifMatch_error, fun _ _ _ _ _ => compareAndSetMetadataKey_refused,
    fun _ _ _ => releaseIfCurrent_refused⟩
  · rcases hlater.eq_or_lt hs ha hb hid with rfl | hlt
    · exact ⟨le_refl _, fun _ => rfl⟩
    · exact ⟨hlt.le, fun heq => absurd heq hlt.ne⟩
  · refine get_between hs ha ?_ hearlier
    rcases hok with ⟨opts, hok⟩ | hok
    · exact get_of_updateIfMatch_ok hok
    · exact get_of_ifMatch_ok hok

/-- A store that was filled with a bead. -/
def seeded : State := { seq := 1, beads := [{ id := "gc-1", revision := 3 }] }

lemma wellFormed_seeded : seeded.WellFormed where
  nodup := by decide
  minted b hb := ⟨1, le_rfl, by rw [mem_singleton.mp hb]; decide⟩

/-- The bead is written, and a write that expects it as it was is refused and changes nothing. -/
theorem revision_fence_seeded :
    let s := run seeded [(.zero, .close "gc-1")]
    seeded.WellFormed ∧ (∃ e, (s.closeIfMatch .zero "gc-1" 3).1 = .error e) ∧ (s.closeIfMatch .zero "gc-1" 3).2 = s :=
  have hrefused : ∃ e, ((run seeded [(.zero, .close "gc-1")]).closeIfMatch .zero "gc-1" 3).1 = .error e := ⟨_, rfl⟩
  ⟨wellFormed_seeded, hrefused,
    (revision_fence seeded wellFormed_seeded [] [(.zero, .close "gc-1")]).2.2.2.1 .zero "gc-1" 3 hrefused⟩

/-- An identifier belongs to one bead for ever: whatever the operations on a well-formed store, a bead that is gone
does not come back under it, and no two beads share it. -/
theorem identifier_not_reused (start : State) (hstart : start.WellFormed) (before calls more : List (Go.Time × Op)) :
    let s := run start before
    let s' := run s calls
    let s'' := run s' more
    (∀ a ∈ s.beads, s'.get a.id = none → s''.get a.id = none) ∧ (s''.beads.map Bead.id).Nodup := by
  intro s s' s''
  have hs : s.WellFormed := (run_advances before start hstart).1
  obtain ⟨hs', hlater⟩ := run_advances calls s hs
  obtain ⟨hs'', hlater'⟩ := run_advances more s' hs'
  refine ⟨fun a ha hgone => ?_, hs''.nodup⟩
  cases hback : s''.get a.id with
  | none => rfl
  | some b =>
    obtain ⟨c, hc, hid⟩ := hlater.exists_of_id hs ha hlater' (mem_of_get hback) (id_of_get hback).symm
    rw [← hid, hs'.get hc] at hgone
    cases hgone

/-- The bead is deleted, and what is created later has another identifier. -/
theorem identifier_not_reused_deleted :
    let s := run seeded [(.zero, .delete "gc-1")]
    seeded.WellFormed ∧ s.get "gc-1" = none ∧ ∀ more, (run s more).get "gc-1" = none :=
  ⟨wellFormed_seeded, by decide, fun more => (identifier_not_reused seeded wellFormed_seeded []
    [(.zero, .delete "gc-1")] more).1 _ mem_cons_self (by decide)⟩

end DeliveryEngine.MemStore
