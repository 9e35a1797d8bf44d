import SchemaDesk.Number.Shortest
import SchemaDesk.Problem.Basic

/-!
# Points in time

A date and a time of day, with an offset from universal time where one is known.  Two written forms
are used: the one with dashes and colons, and a short one that can stand in a file name.

An offset is given in minutes, which need not be whole, and kept in whole microseconds.
-/

namespace SchemaDesk

/-- A date and a time of day; the offset is in microseconds. -/
structure Timestamp where
  year : Nat
  month : Nat
  day : Nat
  hour : Nat := 0
  minute : Nat := 0
  second : Nat := 0
  microsecond : Nat := 0
  offset : Option Int := none
  deriving DecidableEq, Repr

namespace Timestamp

/-- Whether a year has 366 days. -/
def isLeapYear (year : Nat) : Bool :=
  year % 4 = 0 && (year % 100 ≠ 0 || year % 400 = 0)

/-- The number of days of a month. -/
def daysIn (year month : Nat) : Nat :=
  match month with
  | 2 => if isLeapYear year then 29 else 28
  | 4 | 6 | 9 | 11 => 30
  | _ => 31

/-- Whether there is such a date and time. -/
def exists? (t : Timestamp) : Bool :=
  1 ≤ t.year && t.year ≤ 9999 && 1 ≤ t.month && t.month ≤ 12 && 1 ≤ t.day &&
    t.day ≤ daysIn t.year t.month && t.hour < 24 && t.minute < 60 && t.second < 60 &&
    t.microsecond < 1000000

/-- Whether a number fits a machine word, as the parts of a timestamp have to. -/
def fitsWord (n : Int) : Bool :=
  -2147483648 ≤ n && n ≤ 2147483647

/-- A part of a timestamp: an integer that fits a machine word. -/
def part (v : Value) : Except Failure Int := do
  let n ← match v with
    | .bool b => .ok (if b then 1 else 0)
    | .int i => .ok i
    | _ => .error .wrongType
  if fitsWord n then .ok n else .error .tooLarge

/-- The timestamp of the given parts, from the year on: the date has to be complete, and there are
at most four parts of the time.  Every part is read before they are counted, unless there are more
than eight.  Fails where there is no such time. -/
def ofParts (parts : List Value) (offset : Option Int) : Except Failure Timestamp := do
  if 8 < parts.length then .error .wrongType
  let numbers ← (parts.take 7).mapM part
  match numbers with
  | year :: month :: day :: rest =>
      if 7 < parts.length then .error .wrongType
      else if numbers.any (· < 0) then .error .badNumber
      else
        let nth (i : Nat) : Nat := (rest[i]?.getD 0).toNat
        let t : Timestamp :=
          { year := year.toNat, month := month.toNat, day := day.toNat, hour := nth 0,
            minute := nth 1, second := nth 2, microsecond := nth 3, offset }
        if t.exists? then .ok t else .error .badNumber
  | _ => .error .wrongType

/-! ## Offsets -/

/-- The microseconds of a minute. -/
def minuteMicros : Nat := 60000000

/-- The microseconds of a day. -/
def dayMicros : Nat := 86400000000

/-- The most days that a span of time can have. -/
def maxSpanDays : Int := 999999999

/-- Minutes in microseconds.  The fraction of a minute is multiplied in floating point, and the
whole rounded to the nearest microsecond, a half to the even one. -/
def microsOf (minutes : Binary64) : Except Failure Int :=
  match minutes with
  | .nan => .error .badNumber
  | .infinite _ => .error .tooLarge
  | .finite negative mantissa exponent =>
      let (num, den) := Binary64.magnitude mantissa exponent
      let (n, d) := match Binary64.ofRatio false (minuteMicros * (num % den)) den with
        | .finite _ m e => Binary64.magnitude m e
        | _ => (0, 1)
      let micros := Binary64.roundDiv (num / den * minuteMicros * d + n) d
      .ok (if negative then -(micros : Int) else micros)

/-- The offset that a number of minutes stands for, in microseconds; null stands for none.  It has
to be less than a day, and a span of time at all. -/
def offsetOf (v : Value) : Except Failure (Option Int) := do
  let micros ← match v with
    | .null => return none
    | .bool b => .ok (if b then (minuteMicros : Int) else 0)
    | .int i => .ok (i * minuteMicros)
    | .float x => microsOf x
    | _ => .error .wrongType
  let days := micros / dayMicros
  if days < -maxSpanDays || maxSpanDays < days then .error .tooLarge
  else if micros.natAbs < dayMicros then .ok (some micros)
  else .error .badNumber

/-- A number padded with zeros to a width. -/
def padded (width n : Nat) : String :=
  let digits := Nat.toDigits 10 n
  String.ofList (List.replicate (width - digits.length) '0' ++ digits)

/-- An offset as hours and minutes with a sign; seconds and their fraction only where there are
some. -/
def offsetText (micros : Int) : String :=
  let n := micros.natAbs
  let seconds := n / 1000000 % 60
  let fraction := n % 1000000
  (if micros < 0 then "-" else "+") ++ padded 2 (n / minuteMicros / 60) ++ ":" ++
    padded 2 (n / minuteMicros % 60) ++
    (if seconds = 0 && fraction = 0 then "" else ":" ++ padded 2 seconds) ++
    (if fraction = 0 then "" else "." ++ padded 6 fraction)

/-- The date, a `T`, and the time; fractions of a second only where there are some. -/
def text (t : Timestamp) : String :=
  padded 4 t.year ++ "-" ++ padded 2 t.month ++ "-" ++ padded 2 t.day ++ "T" ++
    padded 2 t.hour ++ ":" ++ padded 2 t.minute ++ ":" ++ padded 2 t.second ++
    (if t.microsecond = 0 then "" else "." ++ padded 6 t.microsecond) ++
    (t.offset.map offsetText).getD ""

/-- The date and the time as digits, for file names.  Years before 1000 are not padded. -/
def fileText (t : Timestamp) : String :=
  toString t.year ++ padded 2 t.month ++ padded 2 t.day ++ "_" ++
    padded 2 t.hour ++ padded 2 t.minute ++ padded 2 t.second

example : text ⟨2024, 2, 29, 0, 0, 0, 999999, some (-86340000000)⟩ =
    "2024-02-29T00:00:00.999999-23:59" := by decide +kernel

end Timestamp

end SchemaDesk
