import Mathlib.Algebra.Order.Ring.Nat

/-!
# Go's instants and durations

`time.Time` is an instant, here the number of nanoseconds since its zero value, the first moment
of year one in UTC; `time.Duration` is a signed number of nanoseconds.  `Time.rfc3339` is the
calendar text the source prints instants as, `Duration.text` is `Duration.String`, and
`Duration.parse` is `time.ParseDuration`.
-/

namespace DeliveryEngine.Go

/-- A signed number of nanoseconds. -/
abbrev Duration := ℤ

namespace Duration

def microsecond : Duration := 1000
def millisecond : Duration := 1000 * microsecond
def second : Duration := 1000 * millisecond
def minute : Duration := 60 * second
def hour : Duration := 60 * minute

variable (d : Duration)

/-- The number of whole milliseconds, rounded toward zero. -/
def milliseconds : ℤ := d.tdiv millisecond

/-- `Duration.Round` to the nearest multiple of an even unit, half away from zero. -/
def round (unit : Duration) : Duration := (if 0 ≤ d then d + unit / 2 else d - unit / 2).tdiv unit * unit

/-- A decimal numeral padded with zeros on the left. -/
def padded (width n : ℕ) : String :=
  let digits := toString n
  String.ofList (List.replicate (width - digits.length) '0') ++ digits

/-- The fraction `n / 10 ^ width` as a point and digits, without trailing zeros and empty when it
is zero. -/
def fraction (width n : ℕ) : String :=
  match ((padded width n).toList.reverse.dropWhile (· = '0')).reverse with
  | [] => ""
  | digits => "." ++ String.ofList digits

/-- The text of a positive duration: the largest unit below a second, or hours, minutes and
seconds with the fraction on the seconds. -/
def positiveText (n : ℕ) : String :=
  if n < 1000 then toString n ++ "ns"
  else if n < 1000000 then toString (n / 1000) ++ fraction 3 (n % 1000) ++ "µs"
  else if n < 1000000000 then toString (n / 1000000) ++ fraction 6 (n % 1000000) ++ "ms"
  else
    let s := n / 1000000000
    let seconds := toString (s % 60) ++ fraction 9 (n % 1000000000) ++ "s"
    if s < 60 then seconds
    else if s < 3600 then toString (s / 60) ++ "m" ++ seconds
    else toString (s / 3600) ++ "h" ++ toString (s / 60 % 60) ++ "m" ++ seconds

/-- `Duration.String`. -/
def text : String :=
  if d = 0 then "0s"
  else if d < 0 then "-" ++ positiveText d.natAbs
  else positiveText d.natAbs

example : text (90 * second + 500 * millisecond) = "1m30.5s" := by decide

/-- The number of nanoseconds in a named unit. -/
def unitNs (name : List Char) : Option ℕ :=
  match String.ofList name with
  | "ns" => some 1
  | "us" | "µs" | "μs" => some 1000
  | "ms" => some 1000000
  | "s" => some 1000000000
  | "m" => some 60000000000
  | "h" => some 3600000000000
  | _ => none

/-- The number a string of digits spells. -/
def digitsValue (digits : List Char) : ℕ := digits.foldl (fun n c => 10 * n + (c.toNat - '0'.toNat)) 0

/-- One number with its unit off the front, in nanoseconds.  Digits after the point beyond the
nanosecond are cut off. -/
def parseTerm (cs : List Char) : Option (ℕ × List Char) :=
  let whole := cs.takeWhile Char.isDigit
  let rest := cs.dropWhile Char.isDigit
  let (frac, rest) :=
    match rest with
    | '.' :: rest => (rest.takeWhile Char.isDigit, rest.dropWhile Char.isDigit)
    | rest => ([], rest)
  let isUnit (c : Char) : Bool := !(c = '.' || c.isDigit)
  if whole = [] ∧ frac = [] then none
  else
    (unitNs (rest.takeWhile isUnit)).bind (fun unit =>
      let v := digitsValue whole * unit + digitsValue frac * unit / 10 ^ frac.length
      if v ≤ 2 ^ 63 then some (v, rest.dropWhile isUnit) else none)

/-- The sum of the terms, each of which uses up some of the text. -/
def parseTerms : ℕ → ℕ → List Char → Option ℕ
  | _, d, [] => some d
  | 0, _, _ => none
  | fuel + 1, d, cs =>
    (parseTerm cs).bind (fun (v, rest) =>
      if d + v ≤ 2 ^ 63 then parseTerms fuel (d + v) rest else none)

/-- `time.ParseDuration`. -/
def parse (s : String) : Option Duration :=
  let (neg, cs) :=
    match s.toList with
    | '-' :: cs => (true, cs)
    | '+' :: cs => (false, cs)
    | cs => (false, cs)
  if cs = ['0'] then some 0
  else if cs = [] then none
  else
    (parseTerms cs.length 0 cs).bind (fun d =>
      if neg then some (-d) else if d < 2 ^ 63 then some (d : ℤ) else none)

example : parse "1m30.5s" = some (90 * second + 500 * millisecond) := by decide

end Duration

/-- An instant, in nanoseconds since the zero time. -/
structure Time where
  ns : ℤ
  deriving DecidableEq

namespace Time

/-- The zero value of `time.Time`: 0001-01-01T00:00:00Z. -/
def zero : Time := ⟨0⟩

instance : Inhabited Time := ⟨zero⟩

variable (t : Time)

/-- `Time.IsZero`. -/
def isZero : Bool := t.ns = 0

/-- `Time.Add`. -/
def add (d : Duration) : Time := ⟨t.ns + d⟩

/-- `Time.Sub`. -/
def sub (u : Time) : Duration := t.ns - u.ns

/-- `Time.After`. -/
def after (u : Time) : Bool := u.ns < t.ns

/-- `Time.Before`. -/
def before (u : Time) : Bool := t.ns < u.ns

@[simp] lemma after_iff {t u : Time} : t.after u = true ↔ u.ns < t.ns := decide_eq_true_iff

@[simp] lemma before_iff {t u : Time} : t.before u = true ↔ t.ns < u.ns := decide_eq_true_iff

/-- `time.Unix(sec, 0)`.  The seconds from year one to 1970 are added in 64 bits. -/
def unix (sec : ℤ) : Time := ⟨((sec + 62135596800 + 2 ^ 63) % 2 ^ 64 - 2 ^ 63) * 1000000000⟩

/-- A calendar date and time of day in UTC. -/
structure Civil where
  year : ℤ
  month : ℕ
  day : ℕ
  hour : ℕ
  minute : ℕ
  sec : ℕ
  nsec : ℕ

/-- Year, month and day of a day number counted from 0000-03-01, in eras of four hundred years
that start on the first of March so that the leap day is the last of its year. -/
def dateOfDays (z : ℤ) : ℤ × ℕ × ℕ :=
  let era := z / 146097
  let doe := (z % 146097).toNat
  let yoe := (doe - doe / 1460 + doe / 36524 - doe / 146096) / 365
  let doy := doe - (365 * yoe + yoe / 4 - yoe / 100)
  let mp := (5 * doy + 2) / 153
  let day := doy - (153 * mp + 2) / 5 + 1
  let month := if mp < 10 then mp + 3 else mp - 9
  (era * 400 + yoe + if month ≤ 2 then 1 else 0, month, day)

/-- The calendar fields of an instant.  The zero time is day 306 of the count that starts on
0000-03-01. -/
def civil : Civil :=
  let (year, month, day) := dateOfDays (t.ns / 86400000000000 + 306)
  let inDay := (t.ns % 86400000000000).toNat
  let s := inDay / 1000000000
  ⟨year, month, day, s / 3600, s / 60 % 60, s % 60, inDay % 1000000000⟩

/-- The date and the time of day to the second, as RFC 3339 writes them. -/
def rfc3339Prefix (c : Civil) : String :=
  Duration.padded 4 c.year.toNat ++ "-" ++ Duration.padded 2 c.month ++ "-" ++
    Duration.padded 2 c.day ++ "T" ++ Duration.padded 2 c.hour ++ ":" ++
    Duration.padded 2 c.minute ++ ":" ++ Duration.padded 2 c.sec

/-- `t.UTC().Format(time.RFC3339)`. -/
def rfc3339 : String := rfc3339Prefix t.civil ++ "Z"

example : rfc3339 ⟨0⟩ = "0001-01-01T00:00:00Z" := by decide

end Time

end DeliveryEngine.Go
