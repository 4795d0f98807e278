import DeliveryEngine.Molecule.Attach

/-!
# What concurrent attaches keep

Calls of `attach` that share an attach bead, a key and an expected epoch share the roots that carry the key, the
*candidates*.  `Race.Inv` is what every operation of every call keeps, and `Race.Evolves` what one call may assume of
the others.  That no candidate appears once candidates have been found is not the code's: it is the condition
`Race.guard` under which the operations are allowed.
-/

namespace DeliveryEngine.Molecule

open Beads Formulas Runs Option

/-! ## Candidates -/

/-- A root counts as live once its marker is claimed for activation or cleared. -/
def Live (b : Bead) : Prop :=
  b.meta .moleculeFailed ≠ "true" ∧ (marker b = "" ∨ marker b = attachFencePendingActivating)

instance (b : Bead) : Decidable (Live b) := inferInstanceAs (Decidable (_ ∧ _))

/-- A root that was marked or claimed as failed. -/
def Dead (b : Bead) : Prop := b.meta .moleculeFailed = "true" ∨ marker b = attachFencePendingFailed

/-- A root whose marker has left `true`, and not for `failed`. -/
def Activated (b : Bead) : Prop := marker b ≠ attachFencePendingUnclaimed ∧ marker b ≠ attachFencePendingFailed

variable {b : Bead}

lemma Live.activated (h : Live b) : Activated b := by rcases h.2 with hm | hm <;> rw [Activated, hm] <;> decide

lemma Live.not_dead (h : Live b) : ¬ Dead b := by
  rintro (hfailed | hmarker)
  · exact h.1 hfailed
  · exact h.activated.2 hmarker

/-- What the calls share. -/
structure Race where
  attachBeadID : String
  key : String
  rootBeadID : String
  expectedEpoch : ℤ

namespace Race

variable (r : Race)

/-- A root under the workflow root that carries the key. -/
def Candidate (b : Bead) : Prop := b.meta .idempotencyKey = r.key ∧ b.meta .rootBeadID = r.rootBeadID

instance (b : Bead) : Decidable (r.Candidate b) := inferInstanceAs (Decidable (_ ∧ _))

/-- How a bead may have changed. -/
structure Grown (b b' : Bead) : Prop where
  candidate : r.Candidate b' ↔ r.Candidate b
  dead : Dead b → Dead b'
  claimed : marker b ≠ attachFencePendingUnclaimed → marker b' ≠ attachFencePendingUnclaimed

lemma Grown.refl (b : Bead) : r.Grown b b := ⟨Iff.rfl, id, id⟩

variable {r} in
lemma Grown.trans {c d : Bead} (h : r.Grown b c) (h' : r.Grown c d) : r.Grown b d :=
  ⟨h'.candidate.trans h.candidate, h'.dead ∘ h.dead, h'.claimed ∘ h.claimed⟩

/-! ## The invariant -/

/-- The store, whether a call has found candidates, and which candidate won the epoch. -/
structure Scene where
  store : Store
  found : Bool
  winner : Option String

variable (epoch₀ : String) (w : Scene)

/-- The attach bead: it stays in its run, and its epoch moves at most from the expected one to the next,
and has moved when a candidate won it. -/
def Parent : Prop :=
  ∃ b, w.store.find? r.attachBeadID = some b ∧ resolveRunID b.metadata r.attachBeadID = r.rootBeadID ∧
    (b.meta .controlEpoch = epoch₀ ∨
      epoch₀ = Go.itoa r.expectedEpoch ∧ b.meta .controlEpoch = Go.itoa (r.expectedEpoch + 1)) ∧
    (w.winner.isSome → b.meta .controlEpoch ≠ Go.itoa r.expectedEpoch)

structure Inv (epoch₀ : String) (w : Scene) : Prop where
  wellFormed : w.store.WellFormed
  parent : r.Parent epoch₀ w
  opened : ∀ id b, w.store.find? id = some b → r.Candidate b → b.status ≠ .closed
  /-- An activated candidate won the epoch, or all others are dead. -/
  settled : ∀ i j b c, w.store.find? i = some b → w.store.find? j = some c → i ≠ j →
    r.Candidate b → r.Candidate c → Activated b → Dead c ∨ w.winner = some i
  /-- A candidate was activated by winning the epoch, or by a call that had found it. -/
  recovered : ∀ i b, w.store.find? i = some b → r.Candidate b → Activated b → w.winner = some i ∨ w.found = true

/-- How operations move a scene. -/
structure Evolves (w w' : Scene) : Prop where
  keep : ∀ id b, w.store.find? id = some b → ∃ b', w'.store.find? id = some b' ∧ r.Grown b b'
  born : ∀ id b', w.store.find? id = none → w'.store.find? id = some b' → r.Candidate b' → w.found = false
  found : w.found = true → w'.found = true
  winner : ∀ c, w.winner = some c → w'.winner = some c

/-- A move of a scene that the calls allow each other. -/
def Moves (w' : Scene) : Prop := r.Inv epoch₀ w' ∧ r.Evolves w w'

variable {r}

lemma Evolves.refl (w : Scene) : r.Evolves w w where
  keep _ b hb := ⟨b, hb, Grown.refl r b⟩
  born _ _ hnone hsome := by rw [hnone] at hsome; cases hsome
  found h := h
  winner _ h := h

lemma Evolves.trans {w₁ w₂ w₃ : Scene} (h : r.Evolves w₁ w₂) (h' : r.Evolves w₂ w₃) : r.Evolves w₁ w₃ where
  keep id b hb := by
    obtain ⟨b₂, hb₂, hg⟩ := h.keep id b hb
    obtain ⟨b₃, hb₃, hg'⟩ := h'.keep id b₂ hb₂
    exact ⟨b₃, hb₃, hg.trans hg'⟩
  born id b₃ hnone hsome hcand := by
    cases hb₂ : w₂.store.find? id with
    | none =>
      have hfound := h'.born id b₃ hb₂ hsome hcand
      by_contra hne
      rw [h.found (by simpa using hne)] at hfound
      cases hfound
    | some b₂ =>
      obtain ⟨b₃', hb₃, hg⟩ := h'.keep id b₂ hb₂
      obtain rfl := some.inj (hb₃.symm.trans hsome)
      exact h.born id b₂ hnone hb₂ (hg.candidate.mp hcand)
  found := h'.found ∘ h.found
  winner c := h'.winner c ∘ h.winner c

variable {epoch₀ : String} {w : Scene}

lemma Inv.live_unique (hw : r.Inv epoch₀ w) {i j : String} {c : Bead}
    (hb : w.store.find? i = some b) (hc : w.store.find? j = some c) (hbc : r.Candidate b)
    (hcc : r.Candidate c) (hblive : Live b) (hclive : Live c) : i = j := by
  by_contra hne
  have hi : w.winner = some i := (hw.settled i j b c hb hc hne hbc hcc hblive.activated).resolve_left hclive.not_dead
  have hj : w.winner = some j :=
    (hw.settled j i c b hc hb (Ne.symm hne) hcc hbc hclive.activated).resolve_left hblive.not_dead
  exact hne (some.inj (hi.symm.trans hj))

/-! ## Changes to the beads that are there -/

variable {w' : Scene}

/-- A change of each bead keeps the invariant when beads grow, the attach bead keeps its clause, and a
candidate is activated only as a winner or when all others are dead. -/
lemma Inv.change (hw : r.Inv epoch₀ w) (g : Bead → Bead) (hwf : w'.store.WellFormed)
    (hfind : ∀ id, w'.store.find? id = (w.store.find? id).map g)
    (hgrown : ∀ id b, w.store.find? id = some b → r.Grown b (g b) ∧ (b.status ≠ .closed → (g b).status ≠ .closed))
    (hparent : r.Parent epoch₀ w') (hfound : w.found = true → w'.found = true)
    (hwinner : ∀ c, w.winner = some c → w'.winner = some c)
    (hactivate : ∀ id b, w.store.find? id = some b → r.Candidate b → ¬ Activated b → Activated (g b) →
      w'.winner = some id ∨ w'.found = true ∧ ∀ j c, j ≠ id → w.store.find? j = some c → r.Candidate c → Dead c) :
    r.Moves epoch₀ w w' := by
  have hback : ∀ id b', w'.store.find? id = some b' → ∃ b, w.store.find? id = some b ∧ b' = g b := by
    intro id b' hb'
    rw [hfind, map_eq_some_iff] at hb'
    obtain ⟨b, hb, rfl⟩ := hb'
    exact ⟨b, hb, rfl⟩
  refine ⟨⟨hwf, hparent, ?_, ?_, ?_⟩, ⟨?_, ?_, hfound, hwinner⟩⟩
  · intro id b' hb' hcand
    obtain ⟨b, hb, rfl⟩ := hback id b' hb'
    exact (hgrown id b hb).2 (hw.opened id b hb ((hgrown id b hb).1.candidate.mp hcand))
  · intro i j b' c' hb' hc' hne hbc hcc hact
    obtain ⟨b, hb, rfl⟩ := hback i b' hb'
    obtain ⟨c, hc, rfl⟩ := hback j c' hc'
    have hbc := (hgrown i b hb).1.candidate.mp hbc
    have hcc := (hgrown j c hc).1.candidate.mp hcc
    by_cases hold : Activated b
    · exact (hw.settled i j b c hb hc hne hbc hcc hold).imp (hgrown j c hc).1.dead (hwinner i)
    · rcases hactivate i b hb hbc hold hact with hwon | ⟨-, hdead⟩
      · exact .inr hwon
      · exact .inl ((hgrown j c hc).1.dead (hdead j c (Ne.symm hne) hc hcc))
  · intro i b' hb' hbc hact
    obtain ⟨b, hb, rfl⟩ := hback i b' hb'
    have hbc := (hgrown i b hb).1.candidate.mp hbc
    by_cases hold : Activated b
    · exact (hw.recovered i b hb hbc hold).imp (hwinner i) hfound
    · exact (hactivate i b hb hbc hold hact).imp_right And.left
  · intro id b hb
    exact ⟨g b, by rw [hfind, hb, map_some], (hgrown id b hb).1⟩
  · intro id b' hnone hsome
    obtain ⟨b, hb, -⟩ := hback id b' hsome
    rw [hnone] at hb
    cases hb

/-- The keys that decide about candidates and about the attach bead. -/
def protectedKeys : List Key :=
  [.idempotencyKey, .rootBeadID, .attachFencePending, .controlEpoch, .workflowID, .moleculeID]

/-- A change that candidates and the attach bead do not feel, but that it may mark a bead as failed. -/
structure Quiet (b b' : Bead) : Prop where
  id : b'.id = b.id
  status : b'.status = b.status
  keys : ∀ k ∈ protectedKeys, b'.meta k = b.meta k
  failed : b.meta .moleculeFailed = "true" → b'.meta .moleculeFailed = "true"

variable {b' : Bead}

lemma Quiet.marker (h : Quiet b b') : marker b' = marker b := h.keys _ (by decide)

lemma Quiet.grown (h : Quiet b b') : r.Grown b b' where
  candidate := by
    rw [Candidate, Candidate, h.keys .idempotencyKey (by decide), h.keys .rootBeadID (by decide)]
  dead hb := hb.imp h.failed fun hm => h.marker.trans hm
  claimed hm := by rwa [h.marker]

lemma Quiet.activated (h : Quiet b b') : Activated b' ↔ Activated b := by
  rw [Activated, Activated, h.marker]

lemma resolveRunID_congr {m m' : Metadata} (id : String) (hworkflow : m'.get .workflowID = m.get .workflowID)
    (hmolecule : m'.get .moleculeID = m.get .moleculeID) (hroot : m'.get .rootBeadID = m.get .rootBeadID) :
    resolveRunID m' id = resolveRunID m id := by
  simp only [resolveRunID, List.map_cons, List.map_nil, hworkflow, hmolecule, hroot]

variable {g : Bead → Bead}

lemma Parent.quiet (h : r.Parent epoch₀ w) (hfind : ∀ id, w'.store.find? id = (w.store.find? id).map g)
    (hg : ∀ b, w.store.find? r.attachBeadID = some b → Quiet b (g b))
    (hwinner : w'.winner = w.winner) : r.Parent epoch₀ w' := by
  obtain ⟨b, hb, hrun, hepoch, hwon⟩ := h
  have hq := hg b hb
  have hsame : (g b).meta .controlEpoch = b.meta .controlEpoch := hq.keys _ (by decide)
  refine ⟨g b, by rw [hfind, hb, map_some], ?_, ?_, ?_⟩
  · rw [resolveRunID_congr _ (hq.keys .workflowID (by decide)) (hq.keys .moleculeID (by decide))
      (hq.keys .rootBeadID (by decide)), hrun]
  · rwa [hsame]
  · rwa [hsame, hwinner]

lemma Inv.quiet (hw : r.Inv epoch₀ w) (hg : ∀ b, Quiet b (g b))
    (hstore : ∃ deps, w'.store = ⟨w.store.seq, w.store.beads.map g, deps⟩)
    (hfound : w.found = true → w'.found = true) (hwinner : w'.winner = w.winner) : r.Moves epoch₀ w w' := by
  obtain ⟨deps, hstore⟩ := hstore
  have hid : ∀ b, (g b).id = b.id := fun b => (hg b).id
  have hfind : ∀ id, w'.store.find? id = (w.store.find? id).map g := fun id => by rw [hstore, Store.find?_map hid]
  refine hw.change g (hstore ▸ hw.wellFormed.map hid deps) hfind
    (fun _ b _ => ⟨(hg b).grown, fun h => (hg b).status ▸ h⟩) (hw.parent.quiet hfind (fun b _ => hg b) hwinner)
    hfound (fun c h => hwinner.trans h) fun _ b _ _ hnot hact => absurd ((hg b).activated.mp hact) hnot

/-! ## A new bead -/

/-- A new bead keeps the invariant when, if it is a candidate at all, it is unclaimed and no candidate has
been found. -/
lemma Inv.create (hw : r.Inv epoch₀ w) (b : Bead) (needs : List (DepType × String))
    (hb : r.Candidate b → w.found = false ∧ marker b = attachFencePendingUnclaimed) :
    r.Moves epoch₀ w { w with store := w.store.create b needs } := by
  have hfind := Store.find?_create hw.wellFormed b needs
  have hold : ∀ {id c}, w.store.find? id = some c → (w.store.create b needs).find? id = some c := by
    intro id c hc
    rw [hfind, if_neg, hc]
    rintro rfl
    rw [hw.wellFormed.fresh] at hc
    cases hc
  have hnew : ∀ {id c}, (w.store.create b needs).find? id = some c →
      (id = mintID (w.store.seq + 1) ∧ c = w.store.newBead b) ∨ w.store.find? id = some c := by
    intro id c hc
    rw [hfind] at hc
    split_ifs at hc with hid
    · exact .inl ⟨hid, (some.inj hc).symm⟩
    · exact .inr hc
  -- the new bead is not activated
  have hunclaimed : r.Candidate (w.store.newBead b) → ¬ Activated (w.store.newBead b) :=
    fun hc hact => hact.1 (hb hc).2
  refine ⟨⟨hw.wellFormed.create b needs, ?_, ?_, ?_, ?_⟩, ⟨?_, ?_, fun h => h, fun _ h => h⟩⟩
  · obtain ⟨p, hp, hrest⟩ := hw.parent
    exact ⟨p, hold hp, hrest⟩
  · intro id c hc hcand
    rcases hnew hc with ⟨-, rfl⟩ | hc
    · exact (by decide : Status.opened ≠ .closed)
    · exact hw.opened id c hc hcand
  · intro i j c d hc hd hne hcc hdc hact
    rcases hnew hc with ⟨-, rfl⟩ | hc
    · exact absurd hact (hunclaimed hcc)
    rcases hnew hd with ⟨-, rfl⟩ | hd
    · -- a candidate that is activated before any was found has won
      refine .inr ((hw.recovered i c hc hcc hact).resolve_right fun hfound => ?_)
      rw [(hb hdc).1] at hfound
      cases hfound
    · exact hw.settled i j c d hc hd hne hcc hdc hact
  · intro i c hc hcc hact
    rcases hnew hc with ⟨-, rfl⟩ | hc
    · exact absurd hact (hunclaimed hcc)
    · exact hw.recovered i c hc hcc hact
  · exact fun id c hc => ⟨c, hold hc, Grown.refl r c⟩
  · intro id c hnone hsome hcand
    rcases hnew hsome with ⟨-, rfl⟩ | hc
    · exact (hb hcand).1
    · rw [hnone] at hc
      cases hc

/-! ## The epoch and the markers -/

/-- A candidate may be activated: it won the epoch, or all others are dead, or it has been claimed. -/
def MayActivate (r : Race) (id : String) (w : Scene) : Prop :=
  w.winner = some id ∨
  (w.found = true ∧ ∀ j c, j ≠ id → w.store.find? j = some c → r.Candidate c → Dead c) ∨
  ∃ b, w.store.find? id = some b ∧ marker b ≠ attachFencePendingUnclaimed

def DeadAt (id : String) (w : Scene) : Prop := ∃ b, w.store.find? id = some b ∧ Dead b

lemma DeadAt.evolves {id : String} (h : r.Evolves w w') (hd : DeadAt id w) : DeadAt id w' := by
  obtain ⟨b, hb, hdead⟩ := hd
  obtain ⟨b', hb', hg⟩ := h.keep id b hb
  exact ⟨b', hb', hg.dead hdead⟩

lemma Evolves.candidate_before (h : r.Evolves w w') (hfound : w.found = true) {id : String}
    (hb' : w'.store.find? id = some b') (hcand : r.Candidate b') :
    ∃ b, w.store.find? id = some b ∧ r.Candidate b ∧ r.Grown b b' := by
  cases hb : w.store.find? id with
  | none =>
    rw [h.born id b' hb hb' hcand] at hfound
    cases hfound
  | some b =>
    obtain ⟨b'', hb'', hg⟩ := h.keep id b hb
    obtain rfl := some.inj (hb''.symm.trans hb')
    exact ⟨b, rfl, hg.candidate.mp hcand, hg⟩

/-- Moving the marker of one bead from `source` to `target` keeps the invariant, when that activates a
candidate only if it may be. -/
lemma Inv.claim (hw : r.Inv epoch₀ w) {id source target : String} (hb : w.store.find? id = some b)
    (hmarker : marker b = source) (hsource : source ≠ attachFencePendingFailed)
    (htarget : target ≠ attachFencePendingUnclaimed)
    (hmay : source = attachFencePendingUnclaimed → target ≠ attachFencePendingFailed → r.MayActivate id w) :
    r.Moves epoch₀ w { w with store := w.store.modify id (Bead.setKey .attachFencePending target) } := by
  have hfind := Store.find?_modify (s := w.store) (Bead.setKey_id .attachFencePending target) id
  have hmark : ∀ c, marker (Bead.setKey .attachFencePending target c) = target := fun c => by
    rw [marker, Bead.meta_setKey, if_pos rfl]
  refine hw.change _ (hw.wellFormed.modify (Bead.setKey_id _ _) id) hfind ?_ ?_ (fun h => h) (fun _ h => h) ?_
  · intro j c hc
    split_ifs with hid
    · obtain rfl : b = c := some.inj (hb.symm.trans (by rw [← hid, Store.id_of_find? hc]; exact hc))
      refine ⟨⟨?_, ?_, fun _ => by rwa [hmark]⟩, fun h => h⟩
      · simp [Candidate]
      · rintro (hfailed | hm)
        · exact .inl (by simpa using hfailed)
        · exact absurd (hmarker.symm.trans hm) hsource
    · exact ⟨Grown.refl r c, fun h => h⟩
  · obtain ⟨p, hp, hrun, hepoch, hwon⟩ := hw.parent
    refine ⟨_, by rw [hfind, hp, map_some], ?_⟩
    split_ifs
    · refine ⟨?_, by simpa using hepoch, by simpa using hwon⟩
      rw [← hrun]
      exact resolveRunID_congr _ (by simp [Bead.setKey]) (by simp [Bead.setKey]) (by simp [Bead.setKey])
    · exact ⟨hrun, hepoch, hwon⟩
  · intro j c hc hcand hnot hact
    split_ifs at hact with hid
    · obtain rfl : j = id := by rw [← hid, Store.id_of_find? hc]
      obtain rfl : b = c := some.inj (hb.symm.trans hc)
      -- not activated and not failed, so the marker was unclaimed
      have hunclaimed : source = attachFencePendingUnclaimed := by
        by_contra hne
        exact hnot ⟨by rwa [hmarker], by rwa [hmarker]⟩
      rcases hmay hunclaimed hact.2 with hwon | hdead | ⟨d, hd, hclaimed⟩
      · exact .inl hwon
      · exact .inr hdead
      · rw [hb] at hd
        obtain rfl := some.inj hd
        exact absurd (hmarker.trans hunclaimed) hclaimed
    · exact absurd hact hnot

/-- Moving the epoch on keeps the invariant, whoever is said to have won it: nobody had before. -/
lemma Inv.advance (hw : r.Inv epoch₀ w) {p : Bead} (hp : w.store.find? r.attachBeadID = some p)
    (hepoch : p.meta .controlEpoch = Go.itoa r.expectedEpoch) (winner : Option String) :
    r.Moves epoch₀ w { w with
      store := w.store.modify r.attachBeadID (Bead.setKey .controlEpoch (Go.itoa (r.expectedEpoch + 1)))
      winner := winner } := by
  have hfind := Store.find?_modify (s := w.store)
    (Bead.setKey_id .controlEpoch (Go.itoa (r.expectedEpoch + 1))) r.attachBeadID
  have hnext : Go.itoa (r.expectedEpoch + 1) ≠ Go.itoa r.expectedEpoch := fun h => by
    have := Go.itoa_injective h
    omega
  obtain ⟨p', hp', hrun, hold, hwon⟩ := hw.parent
  obtain rfl := some.inj (hp'.symm.trans hp)
  have hnone : w.winner = none := by
    by_contra hne
    exact hwon (isSome_iff_ne_none.mpr hne) hepoch
  have hgrown : ∀ c : Bead, marker (if c.id = r.attachBeadID
      then Bead.setKey .controlEpoch (Go.itoa (r.expectedEpoch + 1)) c else c) = marker c := by
    intro c
    split_ifs <;> simp [marker]
  refine hw.change _ (hw.wellFormed.modify (Bead.setKey_id _ _) _) hfind ?_ ?_ (fun h => h)
    (fun c h => by rw [hnone] at h; cases h) ?_
  · intro j c _
    split_ifs
    · exact ⟨⟨by simp [Candidate], fun h => by simpa [Dead, marker] using h, fun h => by simpa [marker] using h⟩,
        fun h => h⟩
    · exact ⟨Grown.refl r c, fun h => h⟩
  · refine ⟨_, by rw [hfind, hp, map_some], ?_⟩
    rw [if_pos (Store.id_of_find? hp)]
    refine ⟨?_, .inr ⟨?_, by simp⟩, fun _ => by simpa using hnext⟩
    · rw [← hrun]
      exact resolveRunID_congr _ (by simp [Bead.setKey]) (by simp [Bead.setKey]) (by simp [Bead.setKey])
    · rcases hold with hsame | ⟨hinitial, -⟩
      · exact hsame.symm.trans hepoch
      · exact hinitial
  · intro j c _ _ hnot hact
    rw [Activated, hgrown] at hact
    exact absurd hact hnot

end Race

end DeliveryEngine.Molecule
