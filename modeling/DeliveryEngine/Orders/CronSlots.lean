import DeliveryEngine.Orders.Cron

/-!
# A slot is served once while the wall clock does not go back

The guard against serving a slot twice compares with the last run only.  While the wall clock goes forward this is
enough: every slot served is later than the minute of the last run, and not later than the minute it is served at, so
the slots served go up (`due_slot`), and none is served twice (`servedSlots_nodup`).

When the wall clock is set back it shows an hour again.  A schedule with two minutes in that hour serves the first of
them, then the second, and then the first again, which the last run does not show any more: `served_again`.
-/

namespace DeliveryEngine.Orders

open Go List
open Duration (minute)
open Time (civil add zero unix)

/-! ## Minutes as numbers -/

lemma minute_eq : minute = 60000000000 := by decide

def WallMinute.number (w : WallMinute) : ℤ := minuteOf w.start

lemma start_wallMinute (r : Time) : (wallMinute r).start = truncateMinute r := by
  have hdate := Time.daysOfDate_dateOfDays (r.ns / 86400000000000 + 306)
  simp only [WallMinute.start, wallMinute, Time.ofCivil, civil, hdate, truncateMinute, minuteOf, minute_eq]
  congr 1
  omega

lemma minuteOf_truncateMinute (t : Time) : minuteOf (truncateMinute t) = minuteOf t := by
  simp only [minuteOf, truncateMinute, minute_eq]
  omega

@[simp] lemma number_wallMinute (r : Time) : (wallMinute r).number = minuteOf r := by
  rw [WallMinute.number, start_wallMinute, minuteOf_truncateMinute]

lemma wallMinute_eq_iff {r r' : Time} : wallMinute r = wallMinute r' ↔ minuteOf r = minuteOf r' := by
  constructor
  · intro h
    rw [← number_wallMinute, h, number_wallMinute]
  · intro h
    have hday : r.ns / 86400000000000 = r'.ns / 86400000000000 := by
      simp only [minuteOf, minute_eq] at h
      omega
    simp only [minuteOf, minute_eq] at h
    simp only [wallMinute, civil, hday, WallMinute.mk.injEq, true_and]
    omega

lemma minuteOf_add (t : Time) (k : ℤ) : minuteOf (t.add (k * minute)) = minuteOf t + k := by
  simp only [minuteOf, add, minute_eq]
  omega

lemma minuteOf_mono {t u : Time} (h : t.ns ≤ u.ns) : minuteOf t ≤ minuteOf u := by
  simp only [minuteOf, minute_eq]
  omega

lemma minuteOf_reading (loc : Location) (t : Time) :
    minuteOf (loc.reading t) = minuteOf t + loc.offsetAt (minuteOf t) := minuteOf_add t _

lemma minuteOf_prev (t : Time) : minuteOf (t.add (-minute)) = minuteOf t - 1 := by
  have h := minuteOf_add t (-1)
  rwa [show (-1 : ℤ) * minute = -minute by decide] at h

lemma mem_minutesFrom {start t : Time} {count : ℕ} (h : t ∈ minutesFrom start count) :
    ∃ i : ℕ, i < count ∧ t = start.add ((i : ℤ) * minute) := by
  obtain ⟨i, hi, rfl⟩ := mem_map.mp h
  exact ⟨i, mem_range.mp hi, rfl⟩

lemma mem_minutesUpTo {start last t : Time} (h : t ∈ minutesUpTo start last) : start.ns ≤ t.ns ∧ t.ns ≤ last.ns := by
  obtain ⟨i, hi, rfl⟩ := mem_minutesFrom h
  simp only [add, minute_eq] at hi ⊢
  omega

lemma mem_minutesBefore {start stop t : Time} (h : t ∈ minutesBefore start stop) :
    start.ns ≤ t.ns ∧ t.ns < stop.ns := by
  obtain ⟨i, hi, rfl⟩ := mem_minutesFrom h
  simp only [add, minute_eq] at hi ⊢
  omega

/-! ## What is served -/

/-- The offset does not go down from one minute to another. -/
def NoFallBack (loc : Location) (first last : ℤ) : Prop :=
  ∀ m n, first ≤ m → m ≤ n → n ≤ last → loc.offsetAt m ≤ loc.offsetAt n

lemma NoFallBack.reading_le {loc : Location} {first last : ℤ} (h : NoFallBack loc first last) {t u : Time}
    (ht : first ≤ minuteOf t) (htu : minuteOf t ≤ minuteOf u) (hu : minuteOf u ≤ last) :
    minuteOf (loc.reading t) + (minuteOf u - minuteOf t) ≤ minuteOf (loc.reading u) := by
  rw [minuteOf_reading, minuteOf_reading]
  have := h _ _ ht htu hu
  omega

section
variable {s : Schedule} {loc : Location} {now last t : Time}

lemma gap_number {before after w : Time} (h : matchInWallGap s before after = some w) :
    minuteOf before < minuteOf w ∧ minuteOf w < minuteOf after := by
  have hmem := mem_minutesBefore (mem_of_find?_eq_some h)
  simp only [start_wallMinute, truncateMinute, add, minute_eq] at hmem
  simp only [minuteOf, minute_eq] at hmem ⊢
  omega

lemma caughtUpAt_slot {r : TriggerResult} (h : caughtUpAt s loc last t = some r) :
    ∃ slot ∈ r.slot, slot.number ≤ minuteOf (loc.reading t) ∧
      (slot.number = minuteOf (loc.reading t) ∨ minuteOf (loc.reading (t.add (-minute))) < slot.number) := by
  unfold caughtUpAt at h
  dsimp only at h
  split at h
  · next w hgap =>
    cases h
    refine ⟨_, rfl, ?_⟩
    split at hgap
    · have hw := gap_number hgap
      rw [number_wallMinute]
      exact ⟨hw.2.le, .inr hw.1⟩
    · cases hgap
  · split at h
    · cases h
      exact ⟨_, rfl, by rw [number_wallMinute], .inl (number_wallMinute _)⟩
    · cases h

lemma minuteOf_catchupStart_of_zero (now : Time) (hlast : last.isZero = true) :
    minuteOf (now.add (-neverRunCatchupLookback)) ≤ minuteOf (catchupStart now last) := by
  unfold catchupStart
  simp only [hlast, if_true]
  split <;> rw [minuteOf_truncateMinute]

lemma minuteOf_catchupStart (now : Time) (hlast : last.isZero = false) :
    minuteOf last + 1 ≤ minuteOf (catchupStart now last) := by
  have hnext : minuteOf ((truncateMinute last).add minute) = minuteOf last + 1 := by
    have h := minuteOf_add (truncateMinute last) 1
    rwa [show (1 : ℤ) * minute = minute by decide, minuteOf_truncateMinute] at h
  unfold catchupStart
  simp only [hlast, Bool.false_eq_true, if_false]
  split
  · next hbefore =>
    rw [← hnext]
    exact minuteOf_mono (Time.before_iff.mp hbefore).le
  · rw [hnext]

lemma due_slot {first final : ℤ} (hloc : NoFallBack loc first final) (hnow : minuteOf now ≤ final)
    (hlast : last.isZero = true ∧ first ≤ minuteOf (now.add (-neverRunCatchupLookback)) ∨
      last.isZero = false ∧ first ≤ minuteOf last ∧ last.ns ≤ now.ns)
    (hdue : (decideCron s loc now last).due = true) :
    ∃ slot ∈ (decideCron s loc now last).slot, slot.number ≤ minuteOf (loc.reading now) ∧
      (last.isZero = false → minuteOf (loc.reading last) < slot.number) := by
  unfold decideCron at hdue ⊢
  split
  · next hmatch =>
    rw [if_pos hmatch] at hdue
    split
    · next hsame =>
      rw [if_pos hsame] at hdue
      cases hdue
    · next hother =>
      refine ⟨_, rfl, by rw [number_wallMinute], fun hrun => ?_⟩
      -- The minute shown is not before that of the last run, and is another one.
      rcases hlast with ⟨hzero, -⟩ | ⟨-, hfirst, hle⟩
      · rw [hzero] at hrun
        cases hrun
      · have hmono := hloc.reading_le hfirst (minuteOf_mono hle) hnow
        have hminutes := minuteOf_mono hle
        rw [number_wallMinute]
        refine lt_of_le_of_ne (by omega) fun heq => hother ?_
        simp [hrun, wallMinute_eq_iff.mpr heq]
  · next hmatch =>
    rw [if_neg hmatch] at hdue
    split
    · next r hfound =>
      obtain ⟨t, ht, hcaught⟩ := exists_of_findSome?_eq_some hfound
      obtain ⟨slot, hslot, hle, hor⟩ := caughtUpAt_slot hcaught
      obtain ⟨hstart, hend⟩ := mem_minutesUpTo ht
      have hstart' := minuteOf_mono hstart
      have hend' := minuteOf_mono hend
      refine ⟨slot, hslot, ?_, fun hrun => ?_⟩
      · refine hle.trans ?_
        have hfirst : first ≤ minuteOf t := by
          rcases hlast with ⟨hzero, hfirst⟩ | ⟨hrun, hfirst, -⟩
          · have := minuteOf_catchupStart_of_zero now hzero
            omega
          · have := minuteOf_catchupStart now hrun
            omega
        have := hloc.reading_le hfirst hend' hnow
        omega
      · have hfirst : first ≤ minuteOf last := by
          rcases hlast with ⟨hzero, -⟩ | ⟨-, hfirst, -⟩
          · rw [hzero] at hrun
            cases hrun
          · exact hfirst
        have hnext := minuteOf_catchupStart now hrun
        rcases hor with heq | hgap
        · have := hloc.reading_le (t := last) (u := t) hfirst (by omega) (by omega)
          omega
        · have hprev := minuteOf_prev t
          have := hloc.reading_le (t := last) (u := t.add (-minute)) hfirst (by omega) (by omega)
          omega
    · next hnone =>
      rw [hnone] at hdue
      cases hdue

end

/-! ## Whole runs -/

/-- What is known of the last run when the evaluations go on: there was none, or it is in the range and not after
them. -/
def RanBefore (first : ℤ) (last : Time) (instants : List Time) : Prop :=
  last.isZero = true ∨ last.isZero = false ∧ first ≤ minuteOf last ∧ ∀ t ∈ instants, last.ns ≤ t.ns

lemma servedSlots_increasing {schedule : String} {loc : Location} {first final : ℤ} (hloc : NoFallBack loc first final)
    {instants : List Time} (hsorted : instants.Pairwise fun t u => t.ns ≤ u.ns)
    (hfirst : ∀ t ∈ instants, first ≤ minuteOf (t.add (-neverRunCatchupLookback)))
    (hfinal : ∀ t ∈ instants, minuteOf t ≤ final) (hzero : ∀ t ∈ instants, t.isZero = false) {last : Time}
    (hlast : RanBefore first last instants) :
    (servedSlots schedule loc last instants).Pairwise (fun a b => a.number < b.number) ∧
      ∀ slot ∈ servedSlots schedule loc last instants,
        last.isZero = false → minuteOf (loc.reading last) < slot.number := by
  induction instants generalizing last with
  | nil => exact ⟨.nil, by simp [servedSlots]⟩
  | cons now rest ih =>
    obtain ⟨hnow, hsorted⟩ := pairwise_cons.mp hsorted
    have ih' := @ih hsorted (fun t ht => hfirst t (mem_cons_of_mem _ ht))
      (fun t ht => hfinal t (mem_cons_of_mem _ ht)) fun t ht => hzero t (mem_cons_of_mem _ ht)
    have hskip : RanBefore first last rest := hlast.imp_right fun h =>
      ⟨h.1, h.2.1, fun t ht => h.2.2 t (mem_cons_of_mem _ ht)⟩
    unfold servedSlots
    dsimp only
    split
    · next hdue =>
      cases hparse : Schedule.parse schedule with
      | error err =>
        rw [checkCron, hparse] at hdue
        cases hdue
      | ok s =>
        have hcheck : checkCron schedule (.ok loc) now (.ok last) = decideCron s loc now last := by
          rw [checkCron, hparse]
        rw [hcheck] at hdue ⊢
        have hrange := hfirst now mem_cons_self
        obtain ⟨slot, hslot, hle, hlt⟩ := due_slot hloc (hfinal now mem_cons_self)
          (hlast.imp (fun h => ⟨h, hrange⟩) fun h => ⟨h.1, h.2.1, h.2.2 now mem_cons_self⟩) hdue
        rw [hslot, Option.toList_some]
        -- The run goes on from this evaluation, which the slot does not come after.
        have hearlier : (now.add (-neverRunCatchupLookback)).ns ≤ now.ns := by
          have hpos : (0 : ℤ) ≤ neverRunCatchupLookback := by decide
          simp only [add]
          omega
        have hminute : first ≤ minuteOf now := hrange.trans (minuteOf_mono hearlier)
        obtain ⟨hup, hafter⟩ := ih' (.inr ⟨hzero now mem_cons_self, hminute, hnow⟩)
        have hrest : ∀ later ∈ servedSlots schedule loc now rest, slot.number < later.number := fun later h =>
          lt_of_le_of_lt hle (hafter later h (hzero now mem_cons_self))
        refine ⟨pairwise_cons.mpr ⟨hrest, hup⟩, fun later h hrun => ?_⟩
        rcases mem_cons.mp h with rfl | h
        · exact hlt hrun
        · exact (hlt hrun).trans (hrest later h)
    · exact ih' hskip

/-- For every schedule and every location whose offset does not go down from 25 hours before the first evaluation to
the last one, and every non-decreasing sequence of evaluations, none of them at the zero time: no two due results serve
the same wall-clock minute. -/
theorem servedSlots_nodup (schedule : String) {loc : Location} {first final : ℤ} (hloc : NoFallBack loc first final)
    {instants : List Time} (hsorted : instants.Pairwise fun t u => t.ns ≤ u.ns)
    (hfirst : ∀ t ∈ instants, first ≤ minuteOf (t.add (-neverRunCatchupLookback)))
    (hfinal : ∀ t ∈ instants, minuteOf t ≤ final) (hzero : ∀ t ∈ instants, t.isZero = false) :
    (servedSlots schedule loc zero instants).Nodup := by
  have hnever : RanBefore first zero instants := .inl rfl
  have hup : (servedSlots schedule loc zero instants).Pairwise _ :=
    (servedSlots_increasing hloc hsorted hfirst hfinal hzero hnever).1
  exact hup.imp fun hlt heq => absurd (congrArg WallMinute.number heq) hlt.ne

/-- New York around 2025-11-02: at 06:00 UTC the clocks go back from four to five hours behind. -/
def newYork : Location := { base := -240, transitions := [(1064961000, -300)] }

/-- Twice an hour, in the hour from one o'clock. -/
def halfHours : String := "0,30 1 * * *"

/-- On the day before, each of the two minutes is served once, however late the evaluation. -/
theorem servedSlots_nodup_dayBefore : NoFallBack newYork 1064956000 1064960999 ∧ (servedSlots halfHours newYork zero
        [unix 1761973200, unix 1761973230, unix 1761975000, unix 1761975300]).Nodup := by
  have hloc : NoFallBack newYork 1064956000 1064960999 := by
    intro m n _ hmn hn
    simp only [newYork, Location.offsetAt, foldl_cons, foldl_nil]
    rw [if_neg (by omega), if_neg (by omega)]
  exact ⟨hloc, servedSlots_nodup _ hloc (by decide) (by decide) (by decide) (by decide)⟩

/-- Evaluated at 01:00 and 01:30 of summer time and at 01:00 of winter time, the order is due three times, and twice
for 01:00 of that day. -/
theorem served_again : servedSlots halfHours newYork zero [unix 1762059600, unix 1762061400, unix 1762063200] =
      [⟨2025, 11, 2, 1, 0⟩, ⟨2025, 11, 2, 1, 30⟩, ⟨2025, 11, 2, 1, 0⟩] := by
  decide +kernel

end DeliveryEngine.Orders
