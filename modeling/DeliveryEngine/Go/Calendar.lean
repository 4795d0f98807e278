import DeliveryEngine.Go.Time
import Mathlib.Tactic.ByContra

/-!
# The calendar and its inverse

`Time.civil` reads an instant as a date and a time of day; `Time.ofCivil` is `time.Date` in UTC, which goes back
(`ofCivil_civil`).  The year within an era is found by a division that only roughly counts leap days.  It is right
because it never decreases and is right on the first and the last day of each of the four hundred years.
-/

namespace DeliveryEngine.Go.Time

/-! ## Years of an era -/

/-- The year of a day of the era. -/
def yearOf (doe : ℕ) : ℕ := (doe - doe / 1460 + doe / 36524 - doe / 146096) / 365

/-- The first day of a year of the era. -/
def yearStart (y : ℕ) : ℕ := 365 * y + y / 4 - y / 100

lemma yearOf_mono {a b : ℕ} (h : a ≤ b) (hb : b < 146097) : yearOf a ≤ yearOf b := by
  exact Nat.div_le_div_right (by omega)

lemma yearOf_yearStart : ∀ y < 400, yearOf (yearStart y) = y ∧ yearOf (yearStart (y + 1) - 1) = y := by
  decide +kernel

variable {doe : ℕ}

lemma yearOf_lt (h : doe < 146097) : yearOf doe < 400 := by
  rw [yearOf]
  omega

lemma yearStart_yearOf_le (h : doe < 146097) : yearStart (yearOf doe) ≤ doe := by
  by_contra hlt
  have hy := yearOf_lt h
  rw [Nat.not_le] at hlt
  cases hyear : yearOf doe with
  | zero =>
    rw [hyear] at hlt
    exact absurd hlt (Nat.not_lt_zero _)
  | succ y =>
    rw [hyear] at hlt hy
    have hmono := yearOf_mono (show doe ≤ yearStart (y + 1) - 1 by omega) (by
      simp only [yearStart]
      omega)
    rw [(yearOf_yearStart y (by omega)).2] at hmono
    omega

/-- A day comes before the next year starts.  The last day of the era is the leap day that the count of
years leaves over. -/
lemma lt_yearStart_succ (h : doe < 146097) : doe < yearStart (yearOf doe + 1) ∨ doe = 146096 ∧ yearOf doe = 399 := by
  have hy := yearOf_lt h
  by_cases hlast : yearOf doe = 399
  · rw [hlast, show yearStart (399 + 1) = 146096 by decide]
    omega
  · refine .inl (Nat.not_le.mp fun hle => ?_)
    have hmono := yearOf_mono hle h
    rw [(yearOf_yearStart (yearOf doe + 1) (by omega)).1] at hmono
    omega

lemma yearStart_succ : ∀ y < 400, yearStart (y + 1) ≤ yearStart y + 366 ∧ (yearStart (y + 1) = yearStart y + 366 →
        (y + 1) % 4 = 0 ∧ ((y + 1) % 100 ≠ 0 ∨ (y + 1) % 400 = 0)) := by
  decide +kernel

lemma dayOfYear_le (h : doe < 146097) : doe - yearStart (yearOf doe) ≤ 365 ∧ (doe - yearStart (yearOf doe) = 365 →
        (yearOf doe + 1) % 4 = 0 ∧ ((yearOf doe + 1) % 100 ≠ 0 ∨ (yearOf doe + 1) % 400 = 0)) := by
  have hy := yearOf_lt h
  rcases lt_yearStart_succ h with hhigh | ⟨hdoe, hyear⟩
  · obtain ⟨hle, hleap⟩ := yearStart_succ (yearOf doe) hy
    exact ⟨by omega, fun heq => hleap (by omega)⟩
  · rw [hdoe]
    decide

/-! ## Days of a year -/

/-- The month of a day of a year that starts in March. -/
def monthOf (doy : ℕ) : ℕ :=
  let mp := (5 * doy + 2) / 153
  if mp < 10 then mp + 3 else mp - 9

/-- The day of the month of a day of such a year. -/
def dayOf (doy : ℕ) : ℕ := doy - (153 * ((5 * doy + 2) / 153) + 2) / 5 + 1

def dayOfYear (month day : ℕ) : ℕ := (153 * (if month ≤ 2 then month + 9 else month - 3) + 2) / 5 + day - 1

lemma dayOfYear_monthOf : ∀ doy < 366, dayOfYear (monthOf doy) (dayOf doy) = doy := by decide +kernel

lemma monthOf_valid : ∀ doy < 366, 1 ≤ monthOf doy ∧ monthOf doy ≤ 12 ∧ dayOf doy ≤
      if monthOf doy = 2 then if doy = 365 then 29 else 28
      else 30 + (monthOf doy + monthOf doy / 8) % 2 := by
  decide +kernel

/-! ## Dates -/

/-- The day number of a date, counted from 0000-03-01. -/
def daysOfDate (year : ℤ) (month day : ℕ) : ℤ :=
  let y := if month ≤ 2 then year - 1 else year
  y / 400 * 146097 + (yearStart (y % 400).toNat + dayOfYear month day : ℕ)

def isLeap (year : ℤ) : Bool := year % 4 = 0 ∧ (year % 100 ≠ 0 ∨ year % 400 = 0)

def daysIn (month : ℕ) (year : ℤ) : ℕ :=
  if month = 2 then if isLeap year then 29 else 28 else 30 + (month + month / 8) % 2

variable (z : ℤ)

/-- A day number is a day of a year of an era, and its date is read off from that.  January and February
belong to the next year. -/
lemma dateOfDays_eq : ∃ doe doy, doe < 146097 ∧ z = z / 146097 * 146097 + (doe : ℕ) ∧
      doy = doe - yearStart (yearOf doe) ∧
      dateOfDays z = (z / 146097 * 400 + yearOf doe + (if monthOf doy ≤ 2 then 1 else 0), monthOf doy, dayOf doy) :=
  ⟨(z % 146097).toNat, _, by omega, by omega, rfl, rfl⟩

lemma daysOfDate_dateOfDays : daysOfDate (dateOfDays z).1 (dateOfDays z).2.1 (dateOfDays z).2.2 = z := by
  obtain ⟨doe, doy, hdoe, hz, hdoy, hdate⟩ := dateOfDays_eq z
  have hy := yearOf_lt hdoe
  have hlow := yearStart_yearOf_le hdoe
  have hday := dayOfYear_monthOf doy (by have := (dayOfYear_le hdoe).1; omega)
  have hyear : (if monthOf doy ≤ 2 then
      z / 146097 * 400 + (yearOf doe : ℤ) + (if monthOf doy ≤ 2 then 1 else 0) - 1
      else z / 146097 * 400 + (yearOf doe : ℤ) + (if monthOf doy ≤ 2 then 1 else 0)) =
      z / 146097 * 400 + yearOf doe := by
    split <;> omega
  have hera : (z / 146097 * 400 + (yearOf doe : ℤ)) / 400 = z / 146097 := by omega
  have hyoe : ((z / 146097 * 400 + (yearOf doe : ℤ)) % 400).toNat = yearOf doe := by omega
  simp only [hdate, daysOfDate, hyear, hera, hyoe, hday]
  omega

lemma dateOfDays_valid : (1 ≤ (dateOfDays z).2.1 ∧ (dateOfDays z).2.1 ≤ 12) ∧ 1 ≤ (dateOfDays z).2.2 ∧
      (dateOfDays z).2.2 ≤ daysIn (dateOfDays z).2.1 (dateOfDays z).1 := by
  obtain ⟨doe, doy, hdoe, hz, hdoy, hdate⟩ := dateOfDays_eq z
  obtain ⟨hle, hleap⟩ := dayOfYear_le hdoe
  obtain ⟨hlow, hhigh, hday⟩ := monthOf_valid doy (by omega)
  simp only [hdate]
  refine ⟨⟨hlow, hhigh⟩, Nat.succ_pos _, Nat.le_trans hday ?_⟩
  rw [daysIn]
  by_cases hfeb : monthOf doy = 2
  · rw [if_pos hfeb, if_pos hfeb]
    by_cases hlast : doy = 365
    · have hleapYear : isLeap (z / 146097 * 400 + (yearOf doe : ℤ) + if monthOf doy ≤ 2 then 1 else 0) = true := by
        rw [isLeap, decide_eq_true_iff]
        omega
      simp only [if_pos hlast, if_pos hleapYear, Nat.le_refl]
    · have hfebruary : ∀ leap : Bool, 28 ≤ if leap = true then 29 else 28 := by decide
      rw [if_neg hlast]
      exact hfebruary _
  · simp only [if_neg hfeb, Nat.le_refl]

/-! ## Instants -/

/-- `time.Date` in UTC, for fields within their ranges. -/
def ofCivil (c : Civil) : Time :=
  ⟨(daysOfDate c.year c.month c.day - 306) * 86400000000000 +
    ((3600 * c.hour + 60 * c.minute + c.sec) * 1000000000 + c.nsec : ℕ)⟩

theorem ofCivil_civil (t : Time) : ofCivil t.civil = t := by
  have hdate := daysOfDate_dateOfDays (t.ns / 86400000000000 + 306)
  simp only [ofCivil, civil, hdate]
  congr 1
  omega

theorem civil_valid (t : Time) : (1 ≤ t.civil.month ∧ t.civil.month ≤ 12) ∧
      (1 ≤ t.civil.day ∧ t.civil.day ≤ daysIn t.civil.month t.civil.year) ∧
      t.civil.hour < 24 ∧ t.civil.minute < 60 ∧ t.civil.sec < 60 ∧ t.civil.nsec < 1000000000 := by
  have hdate := dateOfDays_valid (t.ns / 86400000000000 + 306)
  refine ⟨hdate.1, hdate.2, ?_⟩
  simp only [civil]
  omega

end DeliveryEngine.Go.Time
