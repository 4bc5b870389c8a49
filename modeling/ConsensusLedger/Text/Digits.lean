/-!
Numbers from digits.
-/

namespace ConsensusLedger.Text

def digitValue? (base : Nat) (c : Char) : Option Nat :=
  let n := c.toNat
  let v :=
    if 0x30 ≤ n ∧ n ≤ 0x39 then some (n - 0x30)
    else if 0x41 ≤ n ∧ n ≤ 0x5a then some (n - 0x41 + 10)
    else if 0x61 ≤ n ∧ n ≤ 0x7a then some (n - 0x61 + 10)
    else none
  v.filter (· < base)

def isDigit (base : Nat) (c : Char) : Bool := (digitValue? base c).isSome

def appendDigits? (base : Nat) (n : Nat) : List Char → Option Nat
  | [] => some n
  | c :: rest =>
    match digitValue? base c with
    | some d => appendDigits? base (base * n + d) rest
    | none => none

/-- The number that digits stand for. There has to be a digit. -/
def number? (base : Nat) (digits : List Char) : Option Nat :=
  if digits.isEmpty then none else appendDigits? base 0 digits

/-- The integer of a decimal text with an optional sign. -/
def integer? : List Char → Option Int
  | '-' :: digits => (number? 10 digits).map fun n => -(n : Int)
  | '+' :: digits => (number? 10 digits).map fun n => (n : Int)
  | digits => (number? 10 digits).map fun n => (n : Int)

def charOf? (n : Nat) : Option Char :=
  if n < 0xd800 ∨ (0xdfff < n ∧ n < 0x110000) then some (Char.ofNat n) else none

end ConsensusLedger.Text
