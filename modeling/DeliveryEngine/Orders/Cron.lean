import DeliveryEngine.Go.Calendar
import DeliveryEngine.Go.Strconv

/-!
# Cron triggers

`checkCron` decides whether an order with a five-field schedule is due.  The fields are matched against the wall
clock of a location, minute by minute.  An order is due when the current minute matches, or when a minute since its
last run matched and no evaluation landed on it; a minute the wall clock skipped counts as such a minute.

A location is given by its offset from UTC, in whole minutes, and by the minutes at which the offset changes.  What
the wall clock shows at an instant is its `reading`, an instant that is read as if in UTC.
-/

namespace DeliveryEngine.Orders

open Go
open Duration (minute hour)

/-! ## The wall clock -/

structure Location where
  /-- The offset before the first transition, in minutes. -/
  base : ℤ
  /-- The minutes, counted from the zero time, at which the offset changes, and the offset from then on. -/
  transitions : List (ℤ × ℤ) := []

/-- The minute an instant is in, counted from the zero time. -/
def minuteOf (t : Time) : ℤ := t.ns / minute

/-- `Time.Truncate(time.Minute)`. -/
def truncateMinute (t : Time) : Time := ⟨minuteOf t * minute⟩

namespace Location

variable (loc : Location)

def offsetAt (minute : ℤ) : ℤ :=
  loc.transitions.foldl (fun offset tr => if tr.1 ≤ minute then tr.2 else offset) loc.base

/-- The offset at an instant: the second result of `Time.Zone`, in minutes. -/
def zone (t : Time) : ℤ := loc.offsetAt (minuteOf t)

/-- What the wall clock shows at an instant. -/
def reading (t : Time) : Time := t.add (loc.zone t * minute)

end Location

/-- A wall-clock reading to the minute, as `wallMinuteLayout` prints it. -/
structure WallMinute where
  year : ℤ
  month : ℕ
  day : ℕ
  hour : ℕ
  minute : ℕ
  deriving DecidableEq

def wallMinute (reading : Time) : WallMinute :=
  let c := reading.civil
  ⟨c.year, c.month, c.day, c.hour, c.minute⟩

def WallMinute.start (w : WallMinute) : Time := Time.ofCivil ⟨w.year, w.month, w.day, w.hour, w.minute, 0, 0⟩

/-- `Time.Weekday`, with Sunday as zero.  The zero time is a Monday. -/
def weekday (reading : Time) : ℤ := (reading.ns / (24 * hour) + 1) % 7

/-! ## Schedules -/

/-- Whether a part of a field, between commas, matches a value. -/
def cronPartMatches (part : String) (value : ℤ) : Bool :=
  let part := trimSpace part
  if hasPrefix part "*/" then
    match atoi (String.ofList (part.toList.drop 2)) with
    | some step => 0 < step && value % step = 0
    | none => false
  else
    match atoi part with
    | some n => n = value
    | none => false

def cronFieldMatches (field : String) (value : ℤ) : Bool :=
  field = "*" || (splitOn field ',').any (cronPartMatches · value)

structure Schedule where
  minute : String
  hour : String
  dom : String
  month : String
  dow : String

/-- The five fields of a schedule. -/
def Schedule.parse (text : String) : Except String Schedule :=
  match fields text with
  | [minute, hour, dom, month, dow] => .ok ⟨minute, hour, dom, month, dow⟩
  | fs => .error (s!"bad cron schedule: want 5 fields, got {fs.length}")

def Schedule.matchesAt (s : Schedule) (reading : Time) : Bool :=
  let c := reading.civil
  cronFieldMatches s.minute c.minute && cronFieldMatches s.hour c.hour && cronFieldMatches s.dom c.day &&
    cronFieldMatches s.month c.month && cronFieldMatches s.dow (weekday reading)

variable (start : Time)

/-- A number of minutes from an instant on. -/
def minutesFrom (count : ℕ) : List Time := (List.range count).map fun (i : ℕ) => start.add ((i : ℤ) * minute)

/-- The minutes of a loop that starts at an instant and goes on while it is not past another. -/
def minutesUpTo (last : Time) : List Time := minutesFrom start ((last.ns - start.ns) / minute + 1).toNat

/-- The minutes of a loop that starts at an instant and goes on while it is before another. -/
def minutesBefore (stop : Time) : List Time := minutesFrom start (-((start.ns - stop.ns) / minute)).toNat

/-- `matchesInWallGap`: the first reading strictly between two readings that matches. -/
def matchInWallGap (s : Schedule) (before after : Time) : Option Time :=
  (minutesBefore ((wallMinute before).start.add minute) (wallMinute after).start).find? s.matchesAt

/-! ## The trigger -/

structure TriggerResult where
  due : Bool
  reason : String
  lastRun : Time := Time.zero
  /-- The wall-clock minute that matched, which the source does not return. -/
  slot : Option WallMinute := none

def maxCatchupLookback : Duration := 366 * (24 * hour)
def neverRunCatchupLookback : Duration := 25 * hour

section
variable (s : Schedule) (loc : Location) (now last : Time)

def dueFor (reason : String) (slot : WallMinute) : TriggerResult := ⟨true, reason, last, some slot⟩

/-- Where the catch-up scan starts. -/
def catchupStart : Time :=
  let lookback := if last.isZero then neverRunCatchupLookback else maxCatchupLookback
  let start :=
    if last.isZero then truncateMinute (now.add (-neverRunCatchupLookback))
    else (truncateMinute last).add minute
  let floor := truncateMinute (now.add (-lookback))
  if start.before floor then floor else start

/-- What the scan finds at a minute: a match among the readings skipped before it, or the minute itself. -/
def caughtUpAt (t : Time) : Option TriggerResult :=
  let prev := t.add (-minute)
  let gap := if loc.zone prev < loc.zone t then matchInWallGap s (loc.reading prev) (loc.reading t) else none
  match gap with
  | some w => some (dueFor last "cron: caught up occurrence skipped by DST spring-forward" (wallMinute w))
  | none =>
    if s.matchesAt (loc.reading t) && wallMinute (loc.reading last) ≠ wallMinute (loc.reading t) then
      some (dueFor last "cron: caught up missed occurrence" (wallMinute (loc.reading t)))
    else none

/-- The decision of `checkCron`, once the schedule, the location and the last run are known. -/
def decideCron : TriggerResult :=
  if s.matchesAt (loc.reading now) then
    if !last.isZero && wallMinute (loc.reading last) = wallMinute (loc.reading now) then
      ⟨false, "cron: already run this minute", last, none⟩
    else dueFor last "cron: schedule matched" (wallMinute (loc.reading now))
  else
    match (minutesUpTo (catchupStart now last) now).findSome? (caughtUpAt s loc last) with
    | some r => r
    | none => ⟨false, "cron: schedule not matched", last, none⟩

end

/-- `checkCron`, given the location of the order and its last run. -/
def checkCron (schedule : String) (loc : Except String Location) (now : Time) (last : Except String Time) :
    TriggerResult :=
  match Schedule.parse schedule with
  | .error err => ⟨false, err, Time.zero, none⟩
  | .ok s =>
    match loc with
    | .error err => ⟨false, "bad tz: " ++ err, Time.zero, none⟩
    | .ok loc =>
      match last with
      | .error err => ⟨false, "error querying last run: " ++ err, Time.zero, none⟩
      | .ok last => decideCron s loc now last

/-- The slots served over a sequence of evaluations, the last run being the latest evaluation that was due. -/
def servedSlots (schedule : String) (loc : Location) : Time → List Time → List WallMinute
  | _, [] => []
  | last, now :: rest =>
    let r := checkCron schedule (.ok loc) now (.ok last)
    if r.due then r.slot.toList ++ servedSlots schedule loc now rest else servedSlots schedule loc last rest

end DeliveryEngine.Orders
