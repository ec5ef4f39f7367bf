/-!
Moments: dates, and dates with a time of day.

A moment with an offset says where it stands on the common time line, so two
of them are the same when their `instant` is, whatever their offsets are. One
without an offset is the same only as one written with the same parts. A date
is never the same as a date with a time.
-/

set_option autoImplicit false

namespace TypedApi

/-- A date, or a date with a time of day. -/
structure Moment where
  year : Nat
  month : Nat
  day : Nat
  /-- Hour, minute, second and microsecond. -/
  time : Option (Nat × Nat × Nat × Nat) := none
  /-- Distance from the reference zone in minutes. -/
  offset : Option Int := none
deriving DecidableEq, Repr, Inhabited

namespace Moment

/-! ## The calendar -/

/-- Whether a year has a leap day. -/
def isLeap (year : Nat) : Bool :=
  year % 4 = 0 && (year % 100 ≠ 0 || year % 400 = 0)

/-- The count of days in a month. -/
def daysIn (year month : Nat) : Nat :=
  if month = 2 then (if isLeap year then 29 else 28)
  else if [4, 6, 9, 11].contains month then 30
  else 31

/-- The count of days in the months of a year before one of them. -/
def daysBeforeMonth (year month : Nat) : Nat :=
  (List.range (month - 1)).foldl (fun days m => days + daysIn year (m + 1)) 0

/-- The number of a day, counted from the first of January of the year one. -/
def dayNumber (m : Moment) : Nat :=
  let before := m.year - 1
  before * 365 + before / 4 - before / 100 + before / 400 + daysBeforeMonth m.year m.month + m.day

/-- The place on the common time line, in microseconds; only a moment with an offset has one. -/
def instant? (m : Moment) : Option Int :=
  match m.time, m.offset with
  | some (hour, minute, second, micro), some offset =>
    let minutes : Int := ((m.dayNumber * 24 + hour) * 60 + minute : Nat) - offset
    some ((minutes * 60 + second) * 1000000 + micro)
  | _, _ => none

/-- Whether two moments are the same. -/
def same (a b : Moment) : Bool :=
  match a.instant?, b.instant? with
  | some x, some y => x = y
  | _, _ => a = b

/-! ## Written forms -/

/-- A number with at least the given count of digits. -/
def padded (width n : Nat) : String :=
  let digits := Nat.toDigits 10 n
  String.ofList (List.replicate (width - digits.length) '0' ++ digits)

/-- The date. -/
def dateText (m : Moment) : String :=
  padded 4 m.year ++ "-" ++ padded 2 m.month ++ "-" ++ padded 2 m.day

/-- A time of day, with microseconds if there are any. -/
def timeText : Nat × Nat × Nat × Nat → String
  | (hour, minute, second, micro) =>
    padded 2 hour ++ ":" ++ padded 2 minute ++ ":" ++ padded 2 second ++
      (if micro = 0 then "" else "." ++ padded 6 micro)

/-- The distance from the reference zone, as in `+02:00`. -/
def offsetText (minutes : Int) : String :=
  (if minutes < 0 then "-" else "+") ++
    padded 2 (minutes.natAbs / 60) ++ ":" ++ padded 2 (minutes.natAbs % 60)

/-- A moment as it is written: the date, then the time of day if there is one. -/
def text (m : Moment) : String :=
  match m.time with
  | none => m.dateText
  | some time => m.dateText ++ " " ++ timeText time ++ ((m.offset.map offsetText).getD "")

/-- A moment in the standard form: a letter stands between date and time, and another for the
reference zone. -/
def standardText (m : Moment) : String :=
  match m.time with
  | none => m.dateText
  | some time =>
    m.dateText ++ "T" ++ timeText time ++
      (match m.offset with
      | none => ""
      | some 0 => "Z"
      | some minutes => offsetText minutes)

/-- A moment shown as the expression that builds it. -/
def shown (m : Moment) : String :=
  let date := [m.year, m.month, m.day]
  match m.time with
  | none => "datetime.date(" ++ ", ".intercalate (date.map toString) ++ ")"
  | some (hour, minute, second, micro) =>
    let time := [hour, minute] ++ (if second = 0 && micro = 0 then [] else [second]) ++
      (if micro = 0 then [] else [micro])
    let zone :=
      match m.offset with
      | none => ""
      | some 0 => ", tzinfo=datetime.timezone.utc"
      | some minutes =>
        let day : Nat := (minutes % 1440).toNat
        ", tzinfo=datetime.timezone(datetime.timedelta(" ++
          (if minutes < 0 then "days=-1, " else "") ++ "seconds=" ++ toString (day * 60) ++ "))"
    "datetime.datetime(" ++ ", ".intercalate ((date ++ time).map toString) ++ zone ++ ")"

/-! ## Laws -/

/-- Every moment is the same as itself. -/
theorem same_self (m : Moment) : m.same m = true := by
  unfold same
  cases m.instant? <;> simp

/-- Sameness does not depend on the order. -/
theorem same_comm (a b : Moment) : a.same b = b.same a := by
  unfold same
  cases a.instant? <;> cases b.instant? <;> simp [eq_comm]

end Moment

end TypedApi
