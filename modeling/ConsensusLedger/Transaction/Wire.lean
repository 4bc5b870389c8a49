import ConsensusLedger.Transaction.Basic
import ConsensusLedger.Wire.Entities

/-!
Written forms of transactions.
-/

namespace ConsensusLedger

open Wire

def TransactionId.codec : Codec TransactionId :=
  (EntityId.codec.pair (Timestamp.codec.pair Codec.bool)).imap
    (fun (payer, start, scheduled) => ⟨payer, start, scheduled⟩)
    (fun id => (id.payer, id.validStart, id.scheduled))

def SignaturePair.codec : Codec SignaturePair :=
  (Codec.octets.pair Codec.octets).imap (fun (p, s) => ⟨p, s⟩) (fun x => (x.keyPrefix, x.signature))

def SignatureMap.codec : Codec SignatureMap := Codec.list SignaturePair.codec

def AccountAmount.codec : Codec AccountAmount :=
  (EntityId.codec.pair Codec.i64).imap (fun (account, amount) => ⟨account, amount⟩)
    (fun x => (x.account, x.amount))

def FreezeWindow.codec : Codec FreezeWindow :=
  (Codec.u8.pair (Codec.u8.pair (Codec.u8.pair Codec.u8))).imap
    (fun (sh, sm, eh, em) => ⟨sh, sm, eh, em⟩)
    (fun w => (w.startHour, w.startMinute, w.endHour, w.endMinute))

namespace TransactionData

def createCodec :
    Codec (List UInt8 × Option AccountId × Option Key × String × SignatureMap) :=
  Codec.octets.pair ((Codec.option EntityId.codec).pair
    ((Codec.option Key.codec).pair (Codec.text.pair SignatureMap.codec)))

def write : TransactionData → List UInt8
  | cryptoTransfer transfers => tag 0 ++ (Codec.list AccountAmount.codec).write transfers
  | scheduleCreate body payer adminKey memo sigs =>
    tag 1 ++ createCodec.write (body, payer, adminKey, memo, sigs)
  | scheduleSign id sigs => tag 2 ++ (EntityId.codec.pair SignatureMap.codec).write (id, sigs)
  | scheduleDelete id => tag 3 ++ EntityId.codec.write id
  | freeze window => tag 4 ++ FreezeWindow.codec.write window

def read : Reader TransactionData := fun bytes => do
  let (t, rest) ← (Codec.number 4).read bytes
  match t with
  | 0 =>
    let (transfers, rest) ← (Codec.list AccountAmount.codec).read rest
    return (cryptoTransfer transfers, rest)
  | 1 =>
    let ((body, payer, adminKey, memo, sigs), rest) ← createCodec.read rest
    return (scheduleCreate body payer adminKey memo sigs, rest)
  | 2 =>
    let ((id, sigs), rest) ← (EntityId.codec.pair SignatureMap.codec).read rest
    return (scheduleSign id sigs, rest)
  | 3 =>
    let (id, rest) ← EntityId.codec.read rest
    return (scheduleDelete id, rest)
  | 4 =>
    let (window, rest) ← FreezeWindow.codec.read rest
    return (freeze window, rest)
  | t => throw (.badVariant t 5)

def codec : Codec TransactionData := ⟨write, read⟩

end TransactionData

def TransactionBody.codec : Codec TransactionBody :=
  (TransactionId.codec.pair (EntityId.codec.pair (Codec.u64.pair
    (Codec.i64.pair (Codec.text.pair TransactionData.codec))))).imap
    (fun (id, node, fee, duration, memo, data) => ⟨id, node, fee, duration, memo, data⟩)
    (fun b => (b.id, b.nodeAccount, b.offeredFee, b.validDuration, b.memo, b.data))

def SignedTransaction.codec : Codec SignedTransaction :=
  (Codec.octets.pair SignatureMap.codec).imap (fun (body, sigs) => ⟨body, sigs⟩)
    (fun t => (t.bodyBytes, t.signatures))

inductive ParseError where
  | malformedEnvelope (fault : Fault)
  | malformedBody (fault : Fault)
  deriving DecidableEq, Repr

def ParseError.message : ParseError → String
  | malformedEnvelope f => s!"Malformed signed transaction: {f.message}"
  | malformedBody f => s!"Malformed transaction body: {f.message}"

namespace TransactionBody

def toBytes (b : TransactionBody) : List UInt8 := codec.write b

def ofBytes (bytes : List UInt8) : Except ParseError TransactionBody :=
  (codec.decode bytes).mapError .malformedBody

end TransactionBody

namespace SignedTransaction

def toBytes (t : SignedTransaction) : List UInt8 := codec.write t

def ofBytes (bytes : List UInt8) : Except ParseError SignedTransaction :=
  (codec.decode bytes).mapError .malformedEnvelope

end SignedTransaction

end ConsensusLedger
