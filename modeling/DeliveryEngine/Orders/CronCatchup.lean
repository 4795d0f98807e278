import DeliveryEngine.Orders.CronSlots

/-!
# Catching up serves exactly what was missed

While the wall clock does not go back, an order that has run is due exactly when a minute after that of its last run,
up to the current one, shows a reading that matches, or was reached over a skipped reading that matches
(`checkCron_due_iff`).  The zero time stands for an order that has never run, so a run at that instant is not caught
up with: `never_run_lookback`.
-/

namespace DeliveryEngine.Orders

open Go List
open Duration (minute hour)

/-- The first instant of a minute. -/
def minuteStart (m : ℤ) : Time := ⟨m * minute⟩

@[simp] lemma minuteOf_minuteStart (m : ℤ) : minuteOf (minuteStart m) = m := by
  simp only [minuteOf, minuteStart, minute_eq]
  omega

lemma add_minuteStart (m k : ℤ) : (minuteStart m).add (k * minute) = minuteStart (m + k) :=
  congrArg Time.mk (Int.add_mul m k _).symm

lemma mem_minutesFrom_minuteStart {m : ℤ} {count : ℕ} {t : Time} :
    t ∈ minutesFrom (minuteStart m) count ↔ ∃ n, m ≤ n ∧ n < m + count ∧ t = minuteStart n := by
  constructor
  · intro h
    obtain ⟨i, hi, rfl⟩ := mem_minutesFrom h
    exact ⟨m + i, by omega, by omega, add_minuteStart m i⟩
  · rintro ⟨n, hmn, hn, rfl⟩
    refine mem_map.mpr ⟨(n - m).toNat, mem_range.mpr (by omega), ?_⟩
    rw [add_minuteStart]
    exact congrArg minuteStart (by omega)

lemma matchesAt_congr (s : Schedule) {r r' : Time} (h : minuteOf r = minuteOf r') : s.matchesAt r = s.matchesAt r' := by
  have hwall := wallMinute_eq_iff.mpr h
  have hday : r.ns / (24 * hour) = r'.ns / (24 * hour) := by
    simp only [minuteOf, minute_eq, show 24 * hour = 86400000000000 by decide] at h ⊢
    omega
  simp only [wallMinute, WallMinute.mk.injEq] at hwall
  simp only [Schedule.matchesAt, weekday, hwall, hday]

variable {s : Schedule} {loc : Location} {now last : Time}

/-- Some reading of a minute strictly between two others matches. -/
def MatchBetween (s : Schedule) (m n : ℤ) : Prop := ∃ w, m < w ∧ w < n ∧ s.matchesAt (minuteStart w) = true

lemma isSome_matchInWallGap {before after : Time} :
    (matchInWallGap s before after).isSome = true ↔ MatchBetween s (minuteOf before) (minuteOf after) := by
  have hstart : (wallMinute before).start.add minute = minuteStart (minuteOf before + 1) := by
    rw [start_wallMinute, ← add_minuteStart]
    rfl
  have hcount : -(((minuteStart (minuteOf before + 1)).ns - (wallMinute after).start.ns) / minute) =
      minuteOf after - (minuteOf before + 1) := by
    simp only [start_wallMinute, truncateMinute, minuteStart, minute_eq]
    omega
  rw [matchInWallGap, hstart, find?_isSome, minutesBefore]
  constructor
  · rintro ⟨t, ht, hmatch⟩
    obtain ⟨n, hn, hn', rfl⟩ := mem_minutesFrom_minuteStart.mp ht
    exact ⟨n, by omega, by omega, hmatch⟩
  · rintro ⟨n, hn, hn', hmatch⟩
    exact ⟨_, mem_minutesFrom_minuteStart.mpr ⟨n, by omega, by omega, rfl⟩, hmatch⟩

/-- The number of the minute that the wall clock shows in a minute. -/
def Location.shows (loc : Location) (m : ℤ) : ℤ := m + loc.offsetAt m

/-- What makes a minute one to catch up with. -/
def Missed (s : Schedule) (loc : Location) (m : ℤ) : Prop :=
  s.matchesAt (minuteStart (loc.shows m)) = true ∨ MatchBetween s (loc.shows (m - 1)) (loc.shows m)

lemma minuteOf_reading_minuteStart (m : ℤ) : minuteOf (loc.reading (minuteStart m)) = loc.shows m := by
  rw [minuteOf_reading, minuteOf_minuteStart, Location.shows]

lemma isSome_caughtUpAt {m : ℤ} (hother : minuteOf (loc.reading last) ≠ loc.shows m) :
    (caughtUpAt s loc last (minuteStart m)).isSome = true ↔ Missed s loc m := by
  have hprev : (minuteStart m).add (-minute) = minuteStart (m - 1) := by
    have h := add_minuteStart m (-1)
    rwa [show (-1 : ℤ) * minute = -minute by decide] at h
  have hwall : wallMinute (loc.reading last) ≠ wallMinute (loc.reading (minuteStart m)) := by
    rwa [Ne, wallMinute_eq_iff, minuteOf_reading_minuteStart]
  have hmatch : s.matchesAt (loc.reading (minuteStart m)) = s.matchesAt (minuteStart (loc.shows m)) :=
    matchesAt_congr s (by rw [minuteOf_reading_minuteStart, minuteOf_minuteStart])
  -- Where the offset does not go up no reading is skipped.
  have hgap : (if loc.zone (minuteStart (m - 1)) < loc.zone (minuteStart m) then
        matchInWallGap s (loc.reading (minuteStart (m - 1))) (loc.reading (minuteStart m)) else none).isSome = true ↔
      MatchBetween s (loc.shows (m - 1)) (loc.shows m) := by
    split
    · rw [isSome_matchInWallGap, minuteOf_reading_minuteStart, minuteOf_reading_minuteStart]
    · next hzone =>
      simp only [Location.zone, minuteOf_minuteStart] at hzone
      refine iff_of_false Bool.false_ne_true fun ⟨w, hw, hw', _⟩ => ?_
      simp only [Location.shows] at hw hw'
      omega
  unfold caughtUpAt
  dsimp only
  rw [hprev, hmatch, Missed, ← hgap]
  split
  · next hsome => simp [hsome]
  · next hnone => simp [hnone, hwall]

lemma due_of_caughtUpAt {t : Time} {r : TriggerResult} (h : caughtUpAt s loc last t = some r) : r.due = true := by
  unfold caughtUpAt at h
  dsimp only at h
  split at h
  · cases h
    rfl
  · split at h <;> cases h
    rfl

lemma catchupStart_eq (hrun : last.isZero = false) (hyear : now.ns - last.ns ≤ maxCatchupLookback) :
    catchupStart now last = minuteStart (minuteOf last + 1) := by
  have hstart : (truncateMinute last).add minute = minuteStart (minuteOf last + 1) := add_minuteStart _ 1
  have hfloor : minuteOf (now.add (-maxCatchupLookback)) ≤ minuteOf last := by
    refine minuteOf_mono ?_
    show now.ns + -maxCatchupLookback ≤ last.ns
    omega
  simp only [catchupStart, hrun, Bool.false_eq_true, if_false, hstart]
  refine if_neg fun hbefore => ?_
  rw [Time.before_iff] at hbefore
  simp only [minuteStart, truncateMinute, minute_eq] at hbefore
  omega

/-- For every five-field schedule, every location whose offset does not go down from the last run to now, and every
last run at most 366 days before now: the order is due exactly when there is something to catch up with since. -/
theorem checkCron_due_iff {schedule : String} (hparse : Schedule.parse schedule = .ok s) (hrun : last.isZero = false)
    (hle : last.ns ≤ now.ns) (hyear : now.ns - last.ns ≤ maxCatchupLookback)
    (hloc : NoFallBack loc (minuteOf last) (minuteOf now)) :
    (checkCron schedule (.ok loc) now (.ok last)).due = true ↔
      ∃ m, minuteOf last < m ∧ m ≤ minuteOf now ∧ Missed s loc m := by
  have hminutes := minuteOf_mono hle
  have hlater : ∀ m, minuteOf last < m → m ≤ minuteOf now → minuteOf (loc.reading last) < loc.shows m := by
    intro m hm hm'
    have := hloc _ m (le_refl _) hm.le hm'
    rw [minuteOf_reading, Location.shows]
    omega
  rw [checkCron, hparse]
  dsimp only
  unfold decideCron
  split
  · next hmatch =>
    have hnow : minuteOf (loc.reading now) = loc.shows (minuteOf now) := minuteOf_reading loc now
    by_cases hsame : minuteOf last = minuteOf now
    · have hwall : wallMinute (loc.reading last) = wallMinute (loc.reading now) := by
        rw [wallMinute_eq_iff, minuteOf_reading, hsame, minuteOf_reading]
      rw [if_pos (by simp [hrun, hwall])]
      refine iff_of_false Bool.false_ne_true ?_
      rintro ⟨m, hm, hm', -⟩
      omega
    · have hlt := hlater _ (lt_of_le_of_ne hminutes hsame) (le_refl _)
      rw [if_neg (by simp [wallMinute_eq_iff, hnow, hlt.ne])]
      refine iff_of_true rfl ⟨_, lt_of_le_of_ne hminutes hsame, le_refl _, .inl ?_⟩
      rwa [matchesAt_congr s ((minuteOf_minuteStart _).trans hnow.symm)]
  · rw [catchupStart_eq hrun hyear]
    have hcount : (now.ns - (minuteStart (minuteOf last + 1)).ns) / minute + 1 = minuteOf now - minuteOf last := by
      simp only [minuteStart, minuteOf, minute_eq]
      omega
    have hfound : ((minutesUpTo (minuteStart (minuteOf last + 1)) now).findSome? (caughtUpAt s loc last)).isSome = true ↔
        ∃ m, minuteOf last < m ∧ m ≤ minuteOf now ∧ Missed s loc m := by
      rw [findSome?_isSome_iff, minutesUpTo]
      constructor
      · rintro ⟨t, ht, hcaught⟩
        obtain ⟨m, hm, hm', rfl⟩ := mem_minutesFrom_minuteStart.mp ht
        have hm'' : m ≤ minuteOf now := by omega
        exact ⟨m, by omega, hm'', (isSome_caughtUpAt (hlater m (by omega) hm'').ne).mp hcaught⟩
      · rintro ⟨m, hm, hm', hmissed⟩
        exact ⟨_, mem_minutesFrom_minuteStart.mpr ⟨m, by omega, by omega, rfl⟩,
          (isSome_caughtUpAt (hlater m hm hm').ne).mpr hmissed⟩
    rw [← hfound]
    split
    · next r hr =>
      obtain ⟨t, -, hcaught⟩ := exists_of_findSome?_eq_some hr
      simp [hr, due_of_caughtUpAt hcaught]
    · next hnone => simp [hnone]

/-- New York around 2025-03-09: at 07:00 UTC the clocks go forward from five to four hours behind. -/
def newYorkSpring : Location := { base := -300, transitions := [(1064618340, -240)] }

/-- Half past two did not come that day, and is caught up with an hour after the order last ran. -/
theorem checkCron_due_iff_skipped : NoFallBack newYorkSpring 1064618310 1064618370 ∧
      (checkCron "30 2 * * *" (.ok newYorkSpring) (Time.unix 1741505400) (.ok (Time.unix 1741501800))).due = true := by
  have hloc : NoFallBack newYorkSpring 1064618310 1064618370 := by
    intro m n _ hmn _
    simp only [newYorkSpring, Location.offsetAt, foldl_cons, foldl_nil]
    split_ifs <;> omega
  refine ⟨hloc, (checkCron_due_iff rfl rfl (by decide) (by decide) hloc).mpr ⟨1064618340, by decide, by decide, .inr ?_⟩⟩
  exact ⟨1064618070, by decide, by decide, by decide +kernel⟩

/-- An order whose last run is recorded at the zero time counts as one that has never run: two days later noon of the
first day is out of reach. -/
theorem never_run_lookback :
    let now : Time := minuteStart 2880
    (checkCron "0 12 1 * *" (.ok { base := 0 }) now (.ok .zero)).due = false ∧
      minuteOf .zero < 720 ∧ 720 ≤ minuteOf now ∧ Missed ⟨"0", "12", "1", "*", "*"⟩ { base := 0 } 720 := by
  refine ⟨by decide +kernel, by decide, by decide, .inl (by decide +kernel)⟩

end DeliveryEngine.Orders
