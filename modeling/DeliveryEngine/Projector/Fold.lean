import DeliveryEngine.Projector.State

/-!
# Folding events into the projection

`State.apply` folds one event of the city's log into the task it is about.  Some events may be folded a second time:
the first start and the first finish of a task win, and a start opens an attempt only when its sequence number is
beyond the last one that did.  A finish has no such guard, and marks the most recent attempt as the one that succeeded.
`foldl_apply_replay_iff` says when a replay is harmless all the same.
-/

namespace DeliveryEngine.Projector

open Go List

/-! ## Events -/

/-- The types of event the projector folds. -/
inductive EventName
  | started
  | finished
  | failed
  deriving DecidableEq

instance : Vocabulary EventName where
  all := [.started, .finished, .failed]
  text
    | .started => "work.started"
    | .finished => "work.finished"
    | .failed => "work.failed"
  mem_all := by rintro ⟨⟩ <;> decide
  nodup := by decide

abbrev EventType := Named EventName

/-- The projector's view of an event envelope. -/
structure Event where
  /-- The ordering and cursor authority. -/
  seq : ℕ
  type : EventType
  ts : Time
  subject : String := ""

variable (id : String) (ev : Event)

namespace Event

def IsStart : Prop := ev.type = .known .started ∧ ev.subject = id

def IsFinish : Prop := ev.type = .known .finished ∧ ev.subject = id

end Event

/-! ## The fold -/

/-- The attempt a start opens: failed until a terminal fact says otherwise. -/
def openedAttempt (ts : Time) : Attempt :=
  { date := ts, outcome := "failed", summary := "execution attempt observed on the event bus" }

/-- The attempts with the most recent one recorded as the one that finished. -/
def markSucceeded (attempts : List Attempt) : List Attempt :=
  match attempts.getLast? with
  | none => attempts
  | some last => attempts.dropLast ++ [{ last with outcome := "succeeded" }]

variable (s : State)

namespace Task

/-- Record that the most recent attempt is the one that finished. -/
def markLastAttemptSucceeded (t : Task) : Task := { t with attempts := markSucceeded t.attempts }

/-- A time that is kept once it is known. -/
def firstWrite (old new : Time) : Time := if old.isZero then new else old

/-- Fold an event into the task it is about. -/
def apply (t : Task) (ev : Event) : Task :=
  match ev.type with
  | .known .started =>
    let opens : Bool := t.lastStartSeq < ev.seq
    { t with
      actualStart := firstWrite t.actualStart ev.ts
      status :=
        if t.status = .known .planned ∨ t.status = .known .blocked then .known .active
        else t.status
      attempts := if opens then t.attempts ++ [openedAttempt ev.ts] else t.attempts
      lastStartSeq := if opens then ev.seq else t.lastStartSeq }
  | .known .finished =>
    { t with actualFinish := firstWrite t.actualFinish ev.ts }.markLastAttemptSucceeded
  | .known .failed => { t with actualFinish := firstWrite t.actualFinish ev.ts }
  | .other _ _ => t

end Task

namespace State

/-- Fold one event into the state.  An event about nothing, or about an unknown task, is ignored. -/
def apply (s : State) (ev : Event) : State :=
  if ev.subject = "" then s
  else
    match s.tasks.get? ev.subject with
    | none => s
    | some t => { s with tasks := s.tasks.set ev.subject (t.apply ev) }

/-- Join the bead store's terminal record onto a task: the authoritative finish. -/
def setTerminalFinish (taskID : String) (closedAt : Time) : State :=
  match s.tasks.get? taskID with
  | none => s
  | some t =>
    if closedAt.isZero then s
    else
      { s with
        tasks := s.tasks.set taskID { t with actualFinish := closedAt }.markLastAttemptSucceeded }

end State

/-! ## The fold at one task -/

/-- The events about a task. -/
def eventsOf (es : List Event) : List Event := es.filter (fun ev => ev.subject ≠ "" ∧ ev.subject = id)

variable {es : List Event} {ev : Event}

lemma mem_eventsOf {id : String} : ev ∈ eventsOf id es ↔ ev ∈ es ∧ ev.subject ≠ "" ∧ ev.subject = id := by
  rw [eventsOf, mem_filter, decide_eq_true_iff]

lemma State.get?_apply (id : String) : (s.apply ev).tasks.get? id =
      (s.tasks.get? id).map (fun t => (eventsOf id [ev]).foldl Task.apply t) := by
  unfold State.apply
  by_cases hblank : ev.subject = ""
  · simp [hblank, eventsOf]
  · rw [if_neg hblank]
    by_cases hid : ev.subject = id
    · subst hid
      cases hget : s.tasks.get? ev.subject with
      | none => simp [hget]
      | some t => simp [eventsOf, hblank]
    · have hother : eventsOf id [ev] = [] := by simp [eventsOf, hid]
      rw [hother]
      split
      · simp
      · rw [GoMap.get?_set_of_ne _ _ (Ne.symm hid)]
        simp

lemma State.get?_foldl_apply (es : List Event) (id : String) : (es.foldl State.apply s).tasks.get? id =
      (s.tasks.get? id).map (fun t => (eventsOf id es).foldl Task.apply t) := by
  induction es generalizing s with
  | nil => simp [eventsOf]
  | cons ev es ih =>
    have hsplit : eventsOf id (ev :: es) = eventsOf id [ev] ++ eventsOf id es := by
      rw [eventsOf, ← singleton_append, filter_append]
      rfl
    rw [foldl_cons, ih, State.get?_apply, Option.map_map, hsplit]
    simp only [foldl_append, Function.comp_def]

/-! ## What a task remembers of an event -/

variable (attempts : List Attempt)

lemma markSucceeded_markSucceeded : markSucceeded (markSucceeded attempts) = markSucceeded attempts := by
  cases h : attempts.getLast? with
  | none => simp [markSucceeded, h]
  | some last => simp [markSucceeded, h]

lemma markSucceeded_concat_ne (ts : Time) :
    markSucceeded (attempts ++ [openedAttempt ts]) ≠ attempts ++ [openedAttempt ts] := by
  simp [markSucceeded, openedAttempt]

variable {p : List Event}

namespace Task

variable {t : Task}

lemma markLastAttemptSucceeded_eq_self : t.markLastAttemptSucceeded = t ↔ markSucceeded t.attempts = t.attempts := by
  unfold markLastAttemptSucceeded
  constructor
  · intro h
    exact congrArg Task.attempts h
  · intro h
    rw [h]

@[simp] lemma markLastAttemptSucceeded_idem (t : Task) :
    t.markLastAttemptSucceeded.markLastAttemptSucceeded = t.markLastAttemptSucceeded := by
  rw [markLastAttemptSucceeded_eq_self]
  exact markSucceeded_markSucceeded t.attempts

/-- A task that has folded an event: folding it again can only mark the last attempt. -/
def Knows (t : Task) (ev : Event) : Prop :=
  match ev.type with
  | .known .started =>
    firstWrite t.actualStart ev.ts = t.actualStart ∧ t.status ≠ .known .planned ∧
      t.status ≠ .known .blocked ∧ ev.seq ≤ t.lastStartSeq
  | .known .finished => firstWrite t.actualFinish ev.ts = t.actualFinish
  | .known .failed => firstWrite t.actualFinish ev.ts = t.actualFinish
  | .other _ _ => True

lemma firstWrite_firstWrite (old new : Time) : firstWrite (firstWrite old new) new = firstWrite old new := by
  unfold firstWrite
  split <;> simp_all

lemma firstWrite_keeps {old ts : Time} (h : firstWrite old ts = old) (new : Time) :
    firstWrite (firstWrite old new) ts = firstWrite old new := by
  unfold firstWrite at h ⊢
  by_cases hold : old.isZero = true
  · -- The event's own time is the zero time, which says nothing.
    rw [if_pos hold] at h
    subst h
    rw [if_pos hold]
    split
    · next hnew =>
      simp only [Time.isZero, decide_eq_true_eq] at hold hnew
      cases ts
      cases new
      simp_all
    · rfl
  · simp [hold]

lemma knows_apply (t : Task) (ev : Event) : (t.apply ev).Knows ev := by
  unfold apply Knows
  split
  · refine ⟨firstWrite_firstWrite _ _, ?_, ?_, ?_⟩ <;> dsimp only <;> split
    · simp
    · next h => exact fun hplanned => h (.inl hplanned)
    · simp
    · next h => exact fun hblocked => h (.inr hblocked)
    · exact le_refl _
    · next h => simpa using h
  · exact firstWrite_firstWrite _ _
  · exact firstWrite_firstWrite _ _
  · trivial

lemma Knows.apply (h : t.Knows ev) (new : Event) : (t.apply new).Knows ev := by
  unfold Knows at h ⊢
  split at h
  case h_1 =>
    obtain ⟨hstart, hplanned, hblocked, hseq⟩ := h
    unfold Task.apply
    split
    · refine ⟨firstWrite_keeps hstart _, ?_, ?_, ?_⟩
      · simp [hplanned, hblocked]
      · simp [hplanned, hblocked]
      · dsimp only
        split
        · next hlt => exact le_of_lt (lt_of_le_of_lt hseq (by simpa using hlt))
        · exact hseq
    · exact ⟨hstart, hplanned, hblocked, hseq⟩
    · exact ⟨hstart, hplanned, hblocked, hseq⟩
    · exact ⟨hstart, hplanned, hblocked, hseq⟩
  case h_2 | h_3 =>
    unfold Task.apply
    split
    · exact h
    · exact firstWrite_keeps h _
    · exact firstWrite_keeps h _
    · exact h
  case h_4 => trivial

lemma Knows.foldl (h : t.Knows ev) (es : List Event) : (es.foldl Task.apply t).Knows ev := by
  induction es generalizing t with
  | nil => exact h
  | cons new es ih => exact ih (h.apply new)

lemma knows_foldl (h : ev ∈ es) : (es.foldl Task.apply t).Knows ev := by
  induction es generalizing t with
  | nil => cases h
  | cons e es ih =>
    rcases mem_cons.mp h with rfl | htail
    · exact (knows_apply t ev).foldl es
    · exact ih htail

lemma Knows.apply_eq (h : t.Knows ev) :
    t.apply ev = if ev.type = .known .finished then t.markLastAttemptSucceeded else t := by
  unfold Knows at h
  split at h <;> rename_i htype
  · obtain ⟨hstart, hplanned, hblocked, hseq⟩ := h
    have hnot : ¬ t.lastStartSeq < ev.seq := not_lt.mpr hseq
    simp [Task.apply, htype, hstart, hplanned, hblocked, hnot]
  · simp [Task.apply, htype, h]
  · simp [Task.apply, htype, h]
  · simp [Task.apply, htype]

lemma foldl_known (h : ∀ ev ∈ p, t.Knows ev) : p.foldl Task.apply t =
      if ∃ ev ∈ p, ev.type = .known .finished then t.markLastAttemptSucceeded else t := by
  induction p generalizing t with
  | nil => simp
  | cons ev p ih =>
    obtain ⟨hev, hp⟩ := forall_mem_cons.mp h
    rw [foldl_cons, ih fun e he => (hp e he).apply ev, hev.apply_eq]
    by_cases htype : ev.type = .known .finished <;>
      by_cases hrest : ∃ e ∈ p, e.type = .known .finished <;> simp [htype, hrest]

/-! ## The last attempt of a folded task -/

lemma lastStartSeq_apply (t : Task) (ev : Event) :
    (t.apply ev).lastStartSeq = t.lastStartSeq ∨ t.lastStartSeq < ev.seq ∧ (t.apply ev).lastStartSeq = ev.seq := by
  unfold Task.apply
  split
  · by_cases hlt : t.lastStartSeq < ev.seq <;> simp [hlt]
  · exact .inl rfl
  · exact .inl rfl
  · exact .inl rfl

lemma lastStartSeq_foldl (t : Task) (es : List Event) : (es.foldl Task.apply t).lastStartSeq = t.lastStartSeq ∨
      ∃ ev ∈ es, t.lastStartSeq < ev.seq ∧ (es.foldl Task.apply t).lastStartSeq = ev.seq := by
  induction es generalizing t with
  | nil => exact .inl rfl
  | cons ev es ih =>
    rcases ih (t.apply ev), lastStartSeq_apply t ev with ⟨hrest | ⟨e, he, hlt, hrest⟩, hstep | ⟨hlt', hstep⟩⟩
    · exact .inl (hrest.trans hstep)
    · exact .inr ⟨ev, mem_cons_self, hlt', hrest.trans hstep⟩
    · exact .inr ⟨e, mem_cons_of_mem _ he, hstep ▸ hlt, hrest⟩
    · exact .inr ⟨e, mem_cons_of_mem _ he, hlt'.trans (hstep ▸ hlt), hrest⟩

/-- Among the events, every start beyond a sequence number has a finish after it. -/
def Closed (seq : ℕ) (es : List Event) : Prop :=
  ∀ st ∈ es, st.type = .known .started → seq < st.seq → ∃ fin ∈ es, fin.type = .known .finished ∧ st.seq < fin.seq

/-- Once a finish has been folded, the last attempt is marked exactly when every start that opened one
has a finish after it. -/
lemma marked_foldl_iff (hes : es.Pairwise fun a b => a.seq < b.seq) (hfin : ∃ ev ∈ es, ev.type = .known .finished) :
    (es.foldl Task.apply t).markLastAttemptSucceeded = es.foldl Task.apply t ↔ Closed t.lastStartSeq es := by
  -- The last event decides: a finish marks, a start that opens an attempt leaves it open, and any
  -- other event leaves both sides as they were.
  induction es using List.reverseRecOn with
  | nil => simp at hfin
  | append_singleton es ev ih =>
    obtain ⟨hinit, -, hlast⟩ := pairwise_append.mp hes
    have hbefore : ∀ e ∈ es, e.seq < ev.seq := fun e he => hlast e he ev (by simp)
    have hopens_iff : (es.foldl Task.apply t).lastStartSeq < ev.seq ↔ t.lastStartSeq < ev.seq := by
      rcases lastStartSeq_foldl t es with heq | ⟨e, he, hlt, heq⟩
      · rw [heq]
      · rw [heq]
        exact iff_of_true (hbefore e he) (hlt.trans (hbefore e he))
    rw [foldl_append, foldl_cons, foldl_nil]
    generalize es.foldl Task.apply t = u at ih hopens_iff ⊢
    have hstay : ev.type ≠ .known .finished → (u.apply ev).attempts = u.attempts →
        (ev.type = .known .started → ¬ t.lastStartSeq < ev.seq) →
        ((u.apply ev).markLastAttemptSucceeded = u.apply ev ↔ Closed t.lastStartSeq (es ++ [ev])) := by
      intro hne hattempts hquiet
      have hfin' : ∃ e ∈ es, e.type = .known .finished := by
        obtain ⟨e, he, htype⟩ := hfin
        rcases mem_append.mp he with he | he
        · exact ⟨e, he, htype⟩
        · exact absurd (mem_singleton.mp he ▸ htype) hne
      rw [markLastAttemptSucceeded_eq_self, hattempts, ← markLastAttemptSucceeded_eq_self, ih hinit hfin']
      constructor
      · intro hclosed st hst htype hlt
        rcases mem_append.mp hst with hst | hst
        · obtain ⟨fin, hfin, hft⟩ := hclosed st hst htype hlt
          exact ⟨fin, mem_append_left _ hfin, hft⟩
        · obtain rfl := mem_singleton.mp hst
          exact absurd hlt (hquiet htype)
      · intro hclosed st hst htype hlt
        obtain ⟨fin, hfin, hft, hseq⟩ := hclosed st (mem_append_left _ hst) htype hlt
        rcases mem_append.mp hfin with hfin | hfin
        · exact ⟨fin, hfin, hft, hseq⟩
        · exact absurd (mem_singleton.mp hfin ▸ hft) hne
    cases htype : ev.type with
    | known name =>
      cases name with
      | started =>
        by_cases hopens : t.lastStartSeq < ev.seq
        · -- The start opens an attempt, and nothing follows it.
          have hattempts : (u.apply ev).attempts = u.attempts ++ [openedAttempt ev.ts] := by
            simp [Task.apply, htype, hopens_iff, hopens]
          rw [markLastAttemptSucceeded_eq_self, hattempts]
          refine iff_of_false (markSucceeded_concat_ne _ _) fun hclosed => ?_
          obtain ⟨fin, hfin, hft, hseq⟩ := hclosed ev (by simp) htype hopens
          rcases mem_append.mp hfin with hfin | hfin
          · exact absurd (hbefore fin hfin) (not_lt.mpr (le_of_lt hseq))
          · rw [mem_singleton.mp hfin] at hseq
            exact absurd hseq (lt_irrefl _)
        · exact hstay (by simp [htype]) (by simp [Task.apply, htype, hopens_iff, hopens]) fun _ => hopens
      | finished =>
        have hmarked : u.apply ev =
            { u with actualFinish := firstWrite u.actualFinish ev.ts }.markLastAttemptSucceeded := by
          simp [Task.apply, htype]
        rw [hmarked]
        refine iff_of_true (markLastAttemptSucceeded_idem _) fun st hst hst' _ => ?_
        rcases mem_append.mp hst with hst | hst
        · exact ⟨ev, by simp, htype, hbefore st hst⟩
        · rw [mem_singleton.mp hst, htype] at hst'
          cases hst'
      | failed => exact hstay (by simp [htype]) (by simp [Task.apply, htype]) (by simp [htype])
    | other name unlisted => exact hstay (by simp [htype]) (by simp [Task.apply, htype]) (by simp [htype])

end Task

/-! ## Replay -/

/-- Every start in the log that opens an attempt of a task with a replayed finish has a finish of the
task after it. -/
def Replayable (es p : List Event) : Prop :=
  ∀ id t, id ≠ "" → s.tasks.get? id = some t → (∃ ev ∈ p, ev.IsFinish id) →
    ∀ st ∈ es, st.IsStart id → t.lastStartSeq < st.seq → ∃ fin ∈ es, fin.IsFinish id ∧ st.seq < fin.seq

lemma eventsOf_subset {id : String} (h : p ⊆ es) : eventsOf id p ⊆ eventsOf id es := by
  intro ev hev
  rw [mem_eventsOf] at hev ⊢
  exact ⟨h hev.1, hev.2⟩

lemma Task.foldl_replay_iff {t : Task} (hes : es.Pairwise fun a b => a.seq < b.seq) (hp : p ⊆ es) :
    p.foldl Task.apply (es.foldl Task.apply t) = es.foldl Task.apply t ↔
      ((∃ ev ∈ p, ev.type = .known .finished) → Closed t.lastStartSeq es) := by
  rw [foldl_known fun ev hev => knows_foldl (hp hev)]
  by_cases hfin : ∃ ev ∈ p, ev.type = .known .finished
  · obtain ⟨ev, hev, htype⟩ := hfin
    rw [if_pos ⟨ev, hev, htype⟩, marked_foldl_iff hes ⟨ev, hp hev, htype⟩]
    exact ⟨fun h _ => h, fun h => h ⟨ev, hev, htype⟩⟩
  · simp [hfin]

/-- Folding a part of the log a second time changes no task exactly when the part is replayable. -/
theorem foldl_apply_replay_iff (s : State) (es p : List Event)
    (hes : es.Pairwise (fun a b => a.seq < b.seq)) (hp : p <+: es ∨ p <:+ es) :
    (p.foldl State.apply (es.foldl State.apply s)).tasks = (es.foldl State.apply s).tasks ↔ Replayable s es p := by
  have hsub : p ⊆ es := hp.elim List.IsPrefix.subset List.IsSuffix.subset
  have htask : ∀ id t, s.tasks.get? id = some t → ((p.foldl State.apply (es.foldl State.apply s)).tasks.get? id =
          (es.foldl State.apply s).tasks.get? id ↔
        ((∃ ev ∈ eventsOf id p, ev.type = .known .finished) → Task.Closed t.lastStartSeq (eventsOf id es))) := by
    intro id t ht
    rw [State.get?_foldl_apply, State.get?_foldl_apply, ht, Option.map_some, Option.map_some, Option.some_inj]
    exact Task.foldl_replay_iff (List.Pairwise.filter _ hes) (eventsOf_subset hsub)
  constructor
  · intro heq id t hid ht hfin st hst hstart hlt
    obtain ⟨ev, hev, hevfin⟩ := hfin
    have hclosed := (htask id t ht).mp (by rw [heq])
      ⟨ev, mem_eventsOf.mpr ⟨hev, hevfin.2.symm ▸ hid, hevfin.2⟩, hevfin.1⟩
    obtain ⟨fin, hfin, hft, hseq⟩ := hclosed st (mem_eventsOf.mpr ⟨hst, hstart.2.symm ▸ hid, hstart.2⟩) hstart.1 hlt
    rw [mem_eventsOf] at hfin
    exact ⟨fin, hfin.1, ⟨hft, hfin.2.2⟩, hseq⟩
  · intro hreplay
    refine Finmap.ext_lookup fun id => ?_
    cases ht : s.tasks.get? id with
    | none =>
      have hnone : ∀ l : List Event, (l.foldl State.apply s).tasks.lookup id = none := fun l => by
        have h := State.get?_foldl_apply s l id
        rwa [ht] at h
      rw [← foldl_append, hnone, hnone]
    | some t =>
      refine (htask id t ht).mpr ?_
      rintro ⟨ev, hev, hevfin⟩ st hst hstart hlt
      rw [mem_eventsOf] at hev hst
      obtain ⟨fin, hfin, hft, hseq⟩ := hreplay id t (hev.2.2 ▸ hev.2.1) ht
        ⟨ev, hev.1, hevfin, hev.2.2⟩ st hst.1 ⟨hstart, hst.2.2⟩ hlt
      exact ⟨fin, mem_eventsOf.mpr ⟨hfin, hft.2.symm ▸ hst.2.2 ▸ hst.2.1, hft.2⟩, hft.1, hseq⟩

/-- A project with one planned package. -/
def plannedState : State :=
  { project := { projectID := "demo" }
    tasks := (∅ : GoMap Task).set "wp-a"
      { taskID := "wp-a", status := .known .planned, completionGateStatus := .known .notMet } }

/-- A package started and finished. -/
def firstTry : List Event :=
  [{ seq := 1, type := .known .started, ts := ⟨10⟩, subject := "wp-a" },
    { seq := 2, type := .known .finished, ts := ⟨20⟩, subject := "wp-a" }]

/-- The package is started once more. -/
def secondTry : List Event := firstTry ++ [{ seq := 3, type := .known .started, ts := ⟨30⟩, subject := "wp-a" }]

/-- A log in which every start has a finish after it can be folded again from its beginning. -/
theorem foldl_apply_replay_iff_finished :
    (firstTry.foldl State.apply (firstTry.foldl State.apply plannedState)).tasks =
      (firstTry.foldl State.apply plannedState).tasks := by
  refine (foldl_apply_replay_iff plannedState firstTry firstTry (by decide) (.inl (prefix_refl _))).mpr ?_
  intro id t _ _ hfin st hst hstart _
  obtain ⟨fin, hmem, hfin⟩ := hfin
  refine ⟨fin, hmem, hfin, ?_⟩
  have hall : ∀ st ∈ firstTry, st.type = .known .started →
      ∀ fin ∈ firstTry, fin.type = .known .finished → st.seq < fin.seq := by decide
  exact hall st hst hstart.1 fin hmem hfin.1

/-- A replayed finish marks the attempt that a later start has opened. -/
theorem replayed_finish_marks_later_attempt :
    secondTry.Pairwise (fun a b => a.seq < b.seq) ∧ firstTry <+: secondTry ∧
      (firstTry.foldl State.apply (secondTry.foldl State.apply plannedState)).tasks ≠
        (secondTry.foldl State.apply plannedState).tasks := by
  refine ⟨by decide, ⟨_, rfl⟩, fun heq => ?_⟩
  have houtcomes := congrArg (fun m : GoMap Task => (m.get? "wp-a").map fun t => t.attempts.map Attempt.outcome) heq
  revert houtcomes
  decide

end DeliveryEngine.Projector
