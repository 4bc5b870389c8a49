import ConsensusLedger.Entity
import ConsensusLedger.Json.Reader
import ConsensusLedger.Text.Hex
import ConsensusLedger.Timestamp

/-!
Consensus events. An event is a line of JSON that carries a signed transaction in hexadecimal, its
consensus time and the member that submitted it.
-/

namespace ConsensusLedger

/-- A transaction as consensus ordered it. -/
structure Delivery where
  bytes : List UInt8
  time : Timestamp
  member : MemberId
  deriving DecidableEq, Repr

inductive EventError where
  | malformed
  | hex (fault : Text.HexFault)
  | nanos (n : UInt32)
  deriving DecidableEq, Repr

def EventError.message : EventError → String
  | malformed => "Malformed event"
  | hex fault => s!"Transaction bytes are not hex: {fault.message}"
  | nanos n => s!"Consensus nanos out of range: {n}"

structure Event where
  transaction : String
  seconds : Int64
  nanos : UInt32
  member : MemberId
  deriving DecidableEq, Repr

namespace Event

open Json

/-- An event from its written fields; a missing field is `none`. Nanoseconds may be missing. -/
def ofFields? (transaction seconds nanos member : Option Value) : Option Event := do
  let transaction ← (← transaction).text?
  let seconds ← (← seconds).intWithin? (-0x8000000000000000) 0x7fffffffffffffff
  let nanos ← match nanos with
    | some v => v.intWithin? 0 0xffffffff
    | none => some 0
  let member ← (← member).intWithin? 0 0xffffffffffffffff
  return ⟨transaction, Int64.ofInt seconds, UInt32.ofNat nanos.toNat, UInt64.ofNat member.toNat⟩

def fieldNames : List String := ["signed_txn", "consensus_seconds", "consensus_nanos", "member"]

/-- An event is an object whose fields have readable names and do not repeat, or an array of the
four fields. Other fields of an object do not matter. -/
def ofValue? : Value → Option Event
  | .object fields =>
    let named (name : String) : List Value :=
      (fields.filter fun f => f.1 = some name).map (·.2)
    if fields.any (·.1.isNone) || fieldNames.any (fun name => 1 < (named name).length) then none
    else
      let field (name : String) := (named name).head?
      ofFields? (field "signed_txn") (field "consensus_seconds") (field "consensus_nanos")
        (field "member")
  | .array [transaction, seconds, nanos, member] =>
    ofFields? (some transaction) (some seconds) (some nanos) (some member)
  | _ => none

def decode (e : Event) : Except EventError Delivery :=
  if Timestamp.perSecond ≤ e.nanos.toNat then .error (.nanos e.nanos)
  else
    match Text.unhex e.transaction with
    | .error fault => .error (.hex fault)
    | .ok bytes => .ok ⟨bytes, .normalized e.seconds e.nanos, e.member⟩

end Event

def Delivery.ofLine (line : String) : Except EventError Delivery :=
  match (Json.read? line).bind Event.ofValue? with
  | none => .error .malformed
  | some e => e.decode

end ConsensusLedger
