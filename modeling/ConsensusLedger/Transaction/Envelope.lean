import ConsensusLedger.Digest.Sha2
import ConsensusLedger.Text.Hex
import ConsensusLedger.Transaction.Wire

/-!
A transaction as it is handled: the bytes it came as, read once, together with who pays for it. It
either was delivered by the network or was triggered by a schedule that became ready.
-/

namespace ConsensusLedger

structure Envelope where
  signedBytes : List UInt8
  bodyBytes : List UInt8
  body : TransactionBody
  signatures : SignatureMap
  hash : Octets 48
  /-- The account that is charged. -/
  payer : AccountId
  /-- The schedule that triggered the transaction, if one did. -/
  schedule : Option ScheduleId

namespace Envelope

def ofSigned (bytes : List UInt8) : Except ParseError Envelope := do
  let signed ← SignedTransaction.ofBytes bytes
  let body ← TransactionBody.ofBytes signed.bodyBytes
  return {
    signedBytes := bytes
    bodyBytes := signed.bodyBytes
    body := body
    signatures := signed.signatures
    hash := Digest.sha384 bytes
    payer := body.id.payer
    schedule := none }

/-- The inner transaction of a schedule. It runs under the scheduled form of `id` and has no
signatures of its own, for its signers were witnessed on the schedule. -/
def ofScheduled (scheduledBody : List UInt8) (id : TransactionId) (payer : AccountId)
    (schedule : ScheduleId) : Except ParseError Envelope := do
  let inner ← TransactionBody.ofBytes scheduledBody
  let body := { inner with id := id.asScheduled }
  let signedBytes := (SignedTransaction.mk body.toBytes []).toBytes
  return {
    signedBytes := signedBytes
    bodyBytes := body.toBytes
    body := body
    signatures := []
    hash := Digest.sha384 signedBytes
    payer := payer
    schedule := some schedule }

def id (e : Envelope) : TransactionId := e.body.id

def function (e : Envelope) : Function := e.body.function

def canTrigger (e : Envelope) : Bool := e.function.canTrigger

def summary (e : Envelope) : String :=
  "\x7b " ++ s!"txn_id: {e.id}, function: {e.function.name}, node: {e.body.nodeAccount}, " ++
    s!"memo: {Text.quoted e.body.memo}, sigs: {e.signatures.length}, " ++
    s!"hash: {Text.hex (e.hash.val.take 8)}" ++ " \x7d"

end Envelope

end ConsensusLedger
