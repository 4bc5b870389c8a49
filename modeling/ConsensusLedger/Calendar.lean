/-!
Dates of the proleptic Gregorian calendar, and the times of day that a date goes with. Days are
counted from 1970-01-01. Years run from −262143 to 262142.
-/

namespace ConsensusLedger

/-- A day of the proleptic Gregorian calendar. -/
structure Date where
  year : Int
  month : Nat
  day : Nat
  deriving DecidableEq, Repr

namespace Date

/-- The date of a day, given by its distance from 1970-01-01. Years are counted from March, so that
the leap day comes last, in eras of 400 years. -/
def ofDay (n : Int) : Date :=
  let shifted := n + 719468
  let era := shifted / 146097
  let dayOfEra := (shifted % 146097).toNat
  let yearOfEra := (dayOfEra - dayOfEra / 1460 + dayOfEra / 36524 - dayOfEra / 146096) / 365
  let dayOfYear := dayOfEra - (365 * yearOfEra + yearOfEra / 4 - yearOfEra / 100)
  let monthFromMarch := (5 * dayOfYear + 2) / 153
  let month := if monthFromMarch < 10 then monthFromMarch + 3 else monthFromMarch - 9
  { year := era * 400 + yearOfEra + if month ≤ 2 then 1 else 0
    month := month
    day := dayOfYear - (153 * monthFromMarch + 2) / 5 + 1 }

def inRange (d : Date) : Bool := -262143 ≤ d.year && d.year ≤ 262142

/-- A number with at least `width` digits. -/
def padded (width n : Nat) : String :=
  let digits := toString n
  String.ofList (List.replicate (width - digits.length) '0') ++ digits

/-- Year, month and day. A year outside 0 to 9999 has a sign. -/
def text (d : Date) : String :=
  let year :=
    if 0 ≤ d.year ∧ d.year ≤ 9999 then padded 4 d.year.toNat
    else (if d.year < 0 then "-" else "+") ++ padded 4 d.year.natAbs
  s!"{year}-{padded 2 d.month}-{padded 2 d.day}"

end Date

/-- Whether nanoseconds go with a second of time. A billion or more mark a leap second, which only
the last second of a minute can have. -/
def nanosFit (second : Int) (nanos : Nat) : Bool :=
  nanos < 1000000000 || (nanos < 2000000000 && second % 60 = 59)

/-- The date of a second counted from 1970-01-01T00:00:00Z, if the calendar has that time. -/
def dateOf? (second : Int) (nanos : Nat) : Option Date :=
  let d := Date.ofDay (second / 86400)
  if d.inRange && nanosFit second nanos then some d else none

/-- Date and time of day with nanoseconds. A leap second shows as second 60. -/
def dateTime? (second : Int) (nanos : Nat) : Option String :=
  (dateOf? second nanos).map fun d =>
    let s := (second % 86400).toNat
    let leap := nanos / 1000000000
    s!"{d.text}T{Date.padded 2 (s / 3600)}:{Date.padded 2 (s / 60 % 60)}:" ++
      s!"{Date.padded 2 (s % 60 + leap)}.{Date.padded 9 (nanos % 1000000000)}Z"

end ConsensusLedger
