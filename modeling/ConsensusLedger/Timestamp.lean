import ConsensusLedger.Calendar

/-!
Consensus timestamps: a count of seconds since the epoch and nanoseconds. Timestamps are ordered by
seconds, then nanoseconds, which is the order of the instants as long as the nanoseconds stay below
one second.
-/

namespace ConsensusLedger

structure Timestamp where
  seconds : Int64
  nanos : UInt32
  deriving DecidableEq, Repr, Inhabited

/-- The sum of two seconds counts, held at the nearest bound when it leaves the range. -/
def saturatingAdd (a b : Int64) : Int64 :=
  let n := a.toInt + b.toInt
  if n < Int64.minValue.toInt then Int64.minValue
  else if Int64.maxValue.toInt < n then Int64.maxValue
  else Int64.ofInt n

/-- The difference of two seconds counts, held at the nearest bound when it leaves the range. -/
def saturatingSub (a b : Int64) : Int64 :=
  let n := a.toInt - b.toInt
  if n < Int64.minValue.toInt then Int64.minValue
  else if Int64.maxValue.toInt < n then Int64.maxValue
  else Int64.ofInt n

namespace Timestamp

def perSecond : Nat := 1000000000

def ofSeconds (seconds : Int64) : Timestamp := ⟨seconds, 0⟩

/-- The timestamp a number of nanoseconds after the epoch. Seconds beyond 64 bits wrap. -/
def ofNanos (total : Int) : Timestamp :=
  ⟨Int64.ofInt (total / perSecond), UInt32.ofNat (total % perSecond).toNat⟩

def toNanos (t : Timestamp) : Int := t.seconds.toInt * perSecond + t.nanos.toNat

/-- The timestamp with the given parts, where nanoseconds of a second or more carry over. -/
def normalized (seconds : Int64) (nanos : UInt32) : Timestamp := ofNanos (toNanos ⟨seconds, nanos⟩)

instance : Ord Timestamp := ⟨compareLex (compareOn seconds) (compareOn nanos)⟩

instance : Std.TransOrd Timestamp :=
  inferInstanceAs (Std.TransCmp (compareLex (compareOn seconds) (compareOn nanos)))

instance : Std.LawfulEqOrd Timestamp where
  compare_self := Std.ReflCmp.compare_self
  eq_of_compare {a b} h := by
    obtain ⟨h1, h2⟩ := Ordering.then_eq_eq.1 h
    cases a
    cases b
    simp only [Timestamp.mk.injEq]
    exact ⟨Std.LawfulEqCmp.eq_of_compare h1, Std.LawfulEqCmp.eq_of_compare h2⟩

def isAfter (t u : Timestamp) : Bool := compare u t = .lt

def minusNanos (t : Timestamp) (shift : UInt64) : Timestamp := ofNanos (t.toNanos - shift.toNat)

def plusNanos (t : Timestamp) (shift : UInt64) : Timestamp := ofNanos (t.toNanos + shift.toNat)

/-- Moves the seconds only, and holds them at the bounds of their range. -/
def plusSeconds (t : Timestamp) (seconds : Int64) : Timestamp :=
  ⟨saturatingAdd t.seconds seconds, t.nanos⟩

/-- The calendar day in UTC, if the calendar has this time. -/
def date? (t : Timestamp) : Option Date := dateOf? t.seconds.toInt t.nanos.toNat

/-- Both times are in the calendar, on the same day. -/
def sameDay (t u : Timestamp) : Bool :=
  match t.date?, u.date? with
  | some a, some b => a = b
  | _, _ => false

/-- Seconds, a point, and the nanoseconds in at least nine digits. -/
def text (t : Timestamp) : String := s!"{t.seconds}.{Date.padded 9 t.nanos.toNat}"

instance : ToString Timestamp := ⟨text⟩

end Timestamp

end ConsensusLedger
