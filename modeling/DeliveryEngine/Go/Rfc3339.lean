import DeliveryEngine.Go.Calendar
import Mathlib.Tactic.Ring

/-!
# Instants as texts

`rfc3339Nano` is how an instant is written where it will be read again, with its fraction of a second and
in UTC, and `parseRFC3339` is `time.Parse` for that layout.  `parse_rfc3339Nano` says that the instant is
read back, provided that its year has four digits.
-/

namespace DeliveryEngine.Go

open List
open Duration (digitsValue padded fraction)

/-! ## Numerals of a fixed width -/

/-- A numeral of the given width off the front of a text, and what follows. -/
def takeDigits (width : ℕ) (cs : List Char) : Option (ℕ × List Char) :=
  if (cs.take width).length = width ∧ (cs.take width).all Char.isDigit then
    some (digitsValue (cs.take width), cs.drop width)
  else none

/-- The numeral a padded text is: its width, its digits and its value. -/
structure IsNumeral (width n : ℕ) (cs : List Char) : Prop where
  length : cs.length = width
  digits : ∀ c ∈ cs, c.isDigit = true
  value : digitsValue cs = n

variable (cs : List Char)

lemma digitsValue_append (ds : List Char) : digitsValue (cs ++ ds) =
      digitsValue cs * 10 ^ ds.length + digitsValue ds := by
  have hfold : ∀ (ds : List Char) (init : ℕ), ds.foldl (fun n c => 10 * n + (c.toNat - '0'.toNat)) init =
        init * 10 ^ ds.length + digitsValue ds := by
    intro ds
    induction ds with
    | nil => simp [digitsValue]
    | cons d ds ih =>
      intro init
      rw [digitsValue, foldl_cons, foldl_cons, ih, ih, length_cons]
      ring
  rw [digitsValue, foldl_append, hfold]
  rfl

lemma digitsValue_replicate (k : ℕ) : digitsValue (List.replicate k '0') = 0 := by
  induction k with
  | zero => rfl
  | succ k ih => exact ih

lemma padded_toList (width n : ℕ) : (padded width n).toList =
      List.replicate (width - (Nat.toDigits 10 n).length) '0' ++ Nat.toDigits 10 n := by
  simp [padded, Nat.toString_eq_repr, Nat.repr_eq_ofList_toDigits]

variable {width n : ℕ}

lemma isDigit_of_mem_padded {c : Char} (hc : c ∈ (padded width n).toList) : c.isDigit = true := by
  rw [padded_toList] at hc
  rcases mem_append.mp hc with h | h
  · rw [eq_of_mem_replicate h]
    decide
  · exact Nat.isDigit_of_mem_toDigits (by decide) (by decide) h

lemma isNumeral_padded (hwidth : 0 < width) (hn : n < 10 ^ width) : IsNumeral width n (padded width n).toList where
  length := by
    have hlen : (Nat.toDigits 10 n).length ≤ width := (Nat.length_toDigits_le_iff (by decide) hwidth).mpr hn
    rw [padded_toList, length_append, length_replicate]
    omega
  digits _ := isDigit_of_mem_padded
  value := by
    rw [padded_toList, digitsValue_append, digitsValue_replicate, Nat.zero_mul, Nat.zero_add]
    exact Nat.ofDigitChars_ten_toDigits

lemma IsNumeral.takeDigits {cs : List Char} (h : IsNumeral width n cs)
    (rest : List Char) : takeDigits width (cs ++ rest) = some (n, rest) := by
  have htake : (cs ++ rest).take width = cs := by rw [← h.length, take_left]
  have hdrop : (cs ++ rest).drop width = rest := by rw [← h.length, drop_left]
  rw [Go.takeDigits, htake, hdrop, if_pos ⟨h.length, all_eq_true.mpr h.digits⟩, h.value]

namespace Time

/-! ## The layout -/

variable (t : Time)

/-- `t.UTC().Format(time.RFC3339Nano)`. -/
def rfc3339Nano : String := rfc3339Prefix t.civil ++ fraction 9 t.civil.nsec ++ "Z"

/-- Whether the year has the four digits that the layout gives it. -/
def hasFourDigitYear : Bool := 0 ≤ t.civil.year ∧ t.civil.year ≤ 9999

/-- A character off the front of a text. -/
def expect (c : Char) : List Char → Option (List Char)
  | [] => none
  | d :: cs => if d = c then some cs else none

lemma expect_cons (c : Char) (cs : List Char) : expect c (c :: cs) = some cs := if_pos rfl

/-- An hour, which may have one digit only. -/
def takeHour : Option (ℕ × List Char) := (takeDigits 2 cs).orElse (fun _ => takeDigits 1 cs)

/-- A fraction of a second in nanoseconds, if the text has one.  Digits beyond the nanosecond are cut
off. -/
def takeFraction : ℕ × List Char :=
  match cs with
  | [] => (0, [])
  | c :: cs =>
    let digits := cs.takeWhile Char.isDigit
    if (c = '.' ∨ c = ',') ∧ digits ≠ [] then
      (digitsValue (digits.take 9) * 10 ^ (9 - (digits.take 9).length), cs.dropWhile Char.isDigit)
    else (0, c :: cs)

/-- The offset from UTC that ends a text, in seconds. -/
def zoneOffset : Option ℤ :=
  match cs with
  | ['Z'] => some 0
  | [] => none
  | sign :: cs =>
    (takeDigits 2 cs).bind (fun (hour, cs) =>
      (expect ':' cs).bind (fun cs =>
        (takeDigits 2 cs).bind (fun (minute, cs) =>
          let offset : ℤ := 3600 * hour + 60 * minute
          if cs ≠ [] ∨ 24 < hour ∨ 60 < minute then none
          else if sign = '+' then some offset
          else if sign = '-' then some (-offset)
          else none)))

/-- `time.Parse` for RFC 3339. -/
def parseRFC3339 : Option Time := do
  let (year, cs) ← takeDigits 4 cs
  let cs ← expect '-' cs
  let (month, cs) ← takeDigits 2 cs
  let cs ← expect '-' cs
  let (day, cs) ← takeDigits 2 cs
  let cs ← expect 'T' cs
  let (hour, cs) ← takeHour cs
  let cs ← expect ':' cs
  let (minute, cs) ← takeDigits 2 cs
  let cs ← expect ':' cs
  let (sec, cs) ← takeDigits 2 cs
  let (nsec, cs) := takeFraction cs
  let offset ← zoneOffset cs
  if (1 ≤ month ∧ month ≤ 12) ∧ (1 ≤ day ∧ day ≤ daysIn month year) ∧ hour < 24 ∧ minute < 60 ∧ sec < 60 then
    some ((ofCivil ⟨year, month, day, hour, minute, sec, nsec⟩).add (-offset * Duration.second))
  else none

example : ["2024-02-29T23:59:59.5Z", "2023-02-29T00:00:00Z", "2024-01-01T01:00:00+01:00",
    "2024-01-01T1:00:00,25Z", "2024-01-01"].map (fun s => (parseRFC3339 s.toList).map rfc3339Nano) =
    [some "2024-02-29T23:59:59.5Z", none, some "2024-01-01T00:00:00Z", some "2024-01-01T01:00:00.25Z", none] := by
  decide +kernel

/-! ## Reading an instant back -/

lemma exists_append_replicate : ∃ k, cs = (cs.reverse.dropWhile (· = '0')).reverse ++ List.replicate k '0' := by
  refine ⟨(cs.reverse.takeWhile (· = '0')).length, ?_⟩
  have hzeros : cs.reverse.takeWhile (· = '0') = List.replicate (cs.reverse.takeWhile (· = '0')).length '0' := by
    rw [eq_replicate_iff]
    exact ⟨rfl, fun c hc => by simpa using all_eq_true.mp (all_takeWhile) c hc⟩
  have hsplit := congrArg List.reverse (takeWhile_append_dropWhile (p := (· = '0')) (l := cs.reverse))
  rw [reverse_append, reverse_reverse, hzeros, reverse_replicate] at hsplit
  exact hsplit.symm

lemma takeFraction_fraction {n : ℕ} (hn : n < 10 ^ 9) :
    takeFraction ((fraction 9 n).toList ++ ['Z']) = (n, ['Z']) := by
  obtain ⟨hlen, hdigits, hvalue⟩ := isNumeral_padded (by decide) hn
  obtain ⟨k, hk⟩ := exists_append_replicate (padded 9 n).toList
  rw [fraction]
  generalize (((padded 9 n).toList.reverse.dropWhile (· = '0')).reverse) = core at *
  rw [hk] at hlen hdigits hvalue
  rw [digitsValue_append, digitsValue_replicate, length_replicate] at hvalue
  rw [length_append, length_replicate] at hlen
  cases core with
  | nil =>
    have hzero : n = 0 := by simpa [digitsValue] using hvalue.symm
    rw [hzero]
    decide
  | cons d ds =>
    have hcore : ∀ c ∈ d :: ds, c.isDigit = true := fun c hc => hdigits c (mem_append_left _ hc)
    have htake : (d :: ds ++ ['Z']).takeWhile Char.isDigit = d :: ds := by
      rw [takeWhile_append_of_pos hcore]
      simp
    have hdrop : (d :: ds ++ ['Z']).dropWhile Char.isDigit = ['Z'] := by
      rw [dropWhile_append_of_pos hcore]
      rfl
    have hshort : (d :: ds).take 9 = d :: ds := take_of_length_le (by omega)
    have htext : ("." ++ String.ofList (d :: ds)).toList ++ ['Z'] = '.' :: (d :: ds ++ ['Z']) := by simp
    simp only [htext, takeFraction, htake, hdrop, hshort]
    rw [← hvalue, show 9 - (d :: ds).length = k by omega]
    rfl

lemma rfc3339Nano_toList : t.rfc3339Nano.toList = (padded 4 t.civil.year.toNat).toList ++ '-' ::
        ((padded 2 t.civil.month).toList ++ '-' :: ((padded 2 t.civil.day).toList ++ 'T' ::
            ((padded 2 t.civil.hour).toList ++ ':' :: ((padded 2 t.civil.minute).toList ++ ':' ::
                ((padded 2 t.civil.sec).toList ++ ((fraction 9 t.civil.nsec).toList ++ ['Z'])))))) := by
  simp [rfc3339Nano, rfc3339Prefix]

lemma mem_fraction {c : Char} (hc : c ∈ (fraction width n).toList) : c.isDigit = true ∨ c = '.' := by
  rw [fraction] at hc
  split at hc
  · cases hc
  · simp only [String.toList_append, String.toList_ofList, mem_append] at hc
    rcases hc with hc | hc
    · exact .inr (mem_singleton.mp hc)
    · rw [mem_reverse] at hc
      exact .inl (isDigit_of_mem_padded (mem_reverse.mp ((dropWhile_sublist _).subset hc)))

lemma mem_rfc3339Nano : ∀ c ∈ t.rfc3339Nano.toList, c.isDigit = true ∨ c ∈ ['-', 'T', ':', '.', 'Z'] := by
  have hpad : ∀ width n, ∀ c ∈ (padded width n).toList,
      c.isDigit = true ∨ c ∈ ['-', 'T', ':', '.', 'Z'] := fun _ _ _ h => .inl (isDigit_of_mem_padded h)
  rw [rfc3339Nano_toList]
  simp only [forall_mem_append, forall_mem_cons]
  refine ⟨hpad _ _, .inr (by decide), hpad _ _, .inr (by decide), hpad _ _, .inr (by decide),
    hpad _ _, .inr (by decide), hpad _ _, .inr (by decide), hpad _ _, fun c hc => ?_,
    .inr (by decide), fun c hc => absurd hc not_mem_nil⟩
  rcases mem_fraction hc with hdigit | rfl
  · exact .inl hdigit
  · exact .inr (by decide)

theorem parse_rfc3339Nano {t : Time} (ht : t.hasFourDigitYear = true) :
    parseRFC3339 t.rfc3339Nano.toList = some t := by
  obtain ⟨hmonth, hday, hhour, hminute, hsec, hnsec⟩ := t.civil_valid
  rw [hasFourDigitYear, decide_eq_true_iff] at ht
  have hdayle : t.civil.day ≤ 31 := by
    have hall : daysIn t.civil.month t.civil.year ≤ 31 := by
      rw [daysIn]
      split_ifs <;> omega
    omega
  have year : IsNumeral 4 t.civil.year.toNat _ := isNumeral_padded (by decide) (by omega)
  have month : IsNumeral 2 t.civil.month _ := isNumeral_padded (by decide) (by omega)
  have day : IsNumeral 2 t.civil.day _ := isNumeral_padded (by decide) (by omega)
  have hour : IsNumeral 2 t.civil.hour _ := isNumeral_padded (by decide) (by omega)
  have minute : IsNumeral 2 t.civil.minute _ := isNumeral_padded (by decide) (by omega)
  have sec : IsNumeral 2 t.civil.sec _ := isNumeral_padded (by decide) (by omega)
  have hyear : ((t.civil.year.toNat : ℕ) : ℤ) = t.civil.year := by omega
  rw [rfc3339Nano_toList, parseRFC3339]
  simp only [takeHour, year.takeDigits, month.takeDigits, day.takeDigits, hour.takeDigits,
    minute.takeDigits, sec.takeDigits, expect_cons, takeFraction_fraction hnsec, Option.bind_eq_bind,
    Option.bind_some, Option.orElse_some, zoneOffset, hyear]
  rw [if_pos ⟨hmonth, hday, hhour, hminute, hsec⟩]
  rw [ofCivil_civil]
  simp [add]

end Time

end DeliveryEngine.Go
