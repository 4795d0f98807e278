import DeliveryEngine.Go.Json.Read

/-!
# Integers in text

`strconv.Itoa` and `strconv.Atoi`.  Where Go drops the error of `Atoi` it keeps the number returned beside
it: zero for a text that is no numeral, the nearest 64-bit integer for a numeral out of range.
-/

namespace DeliveryEngine.Go

/-- `strconv.Itoa`. -/
def itoa (n : ℤ) : String := String.ofList (Json.decimal n)

/-- `strconv.Atoi`, with its error. -/
def atoi (s : String) : Option ℤ := Json.parseInt s.toList

/-- The number `strconv.Atoi` returns, its error dropped. -/
def atoiValue (s : String) : ℤ :=
  let (neg, digits) := Json.splitSign s.toList
  if digits = [] ∨ digits.any (fun c => !c.isDigit) then 0
  else if neg then max (-2 ^ 63) (-(Duration.digitsValue digits : ℤ))
  else min (2 ^ 63 - 1) (Duration.digitsValue digits : ℤ)

private lemma toDigits_injective : Function.Injective (Nat.toDigits 10) := fun m n h => by
  rw [← Json.digitsValue_toDigits m, h, Json.digitsValue_toDigits]

lemma itoa_injective : Function.Injective itoa := by
  intro m n h
  have hdecimal : Json.decimal m = Json.decimal n := by
    rw [← String.toList_ofList (l := Json.decimal m), ← String.toList_ofList (l := Json.decimal n)]
    exact congrArg String.toList h
  have hdigit : ∀ k : ℕ, '-' ∉ Nat.toDigits 10 k := fun k hmem =>
    absurd (Nat.isDigit_of_mem_toDigits (by decide) (by decide) hmem) (by decide)
  simp only [Json.decimal] at hdecimal
  split_ifs at hdecimal with hm hn hn
  · have := toDigits_injective (List.cons.inj hdecimal).2
    omega
  · exact absurd (hdecimal ▸ List.mem_cons_self) (hdigit n.natAbs)
  · exact absurd (hdecimal.symm ▸ List.mem_cons_self) (hdigit m.natAbs)
  · have := toDigits_injective hdecimal
    omega

lemma itoa_append_injective (pre : String) : Function.Injective fun n : ℕ => pre ++ itoa n := by
  intro m n h
  have htext : (itoa m).toList = (itoa n).toList := by
    have := congrArg String.toList h
    simpa only [String.toList_append, List.append_cancel_left_eq] using this
  exact_mod_cast itoa_injective (String.toList_injective htext)

end DeliveryEngine.Go
