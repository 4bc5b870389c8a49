import ConsensusLedger.Digest.Sha2
import ConsensusLedger.Json.Writer
import ConsensusLedger.Status
import ConsensusLedger.Transaction.Wire

/-!
Records: the outcome of one handled transaction, as it is streamed. The written form of a streamed
record is what the running hash absorbs; record files hold it as a line of JSON.
-/

namespace ConsensusLedger

structure Receipt where
  status : Status
  /-- The schedule that was created or found. -/
  schedule : Option ScheduleId
  /-- The identifier of the transaction that was triggered. -/
  scheduledId : Option TransactionId
  deriving DecidableEq, Repr

structure Record where
  receipt : Receipt
  hash : Octets 48
  time : Timestamp
  id : TransactionId
  memo : String
  fee : UInt64
  /-- Changes of balances, fees included. -/
  transfers : List AccountAmount
  /-- The schedule that triggered the transaction. -/
  scheduleRef : Option ScheduleId
  deriving DecidableEq, Repr

namespace Record

open Wire

def status (r : Record) : Status := r.receipt.status

/-- The position of a code among all codes. -/
def statusTag (s : Status) : Nat := Status.all.idxOf s

def receiptBytes (r : Receipt) : List UInt8 :=
  tag (statusTag r.status) ++ (Codec.option EntityId.codec).write r.schedule ++
    (Codec.option TransactionId.codec).write r.scheduledId

def toBytes (r : Record) : List UInt8 :=
  receiptBytes r.receipt ++ Codec.octets.write r.hash.val ++ Timestamp.codec.write r.time ++
    TransactionId.codec.write r.id ++ Codec.text.write r.memo ++ Codec.u64.write r.fee ++
    (Codec.list AccountAmount.codec).write r.transfers ++
    (Codec.option EntityId.codec).write r.scheduleRef

private def entityJson (id : EntityId) : String :=
  Json.object [("shard", toString id.shard), ("realm", toString id.realm), ("num", toString id.num)]

private def timeJson (t : Timestamp) : String :=
  Json.object [("seconds", toString t.seconds), ("nanos", toString t.nanos)]

private def idJson (id : TransactionId) : String :=
  Json.object [("payer", entityJson id.payer), ("valid_start", timeJson id.validStart),
    ("scheduled", Json.bool id.scheduled)]

private def amountJson (a : AccountAmount) : String :=
  Json.object [("account", entityJson a.account), ("amount", toString a.amount)]

def json (r : Record) : String :=
  Json.object [
    ("receipt", Json.object [
      ("status", Json.string r.receipt.status.label),
      ("schedule_id", Json.optional entityJson r.receipt.schedule),
      ("scheduled_transaction_id", Json.optional idJson r.receipt.scheduledId)]),
    ("transaction_hash", Json.array (r.hash.val.map toString)),
    ("consensus_timestamp", timeJson r.time),
    ("transaction_id", idJson r.id),
    ("memo", Json.string r.memo),
    ("transaction_fee", toString r.fee),
    ("transfers", Json.array (r.transfers.map amountJson)),
    ("schedule_ref", Json.optional entityJson r.scheduleRef)]

end Record

/-- What is streamed for a handled transaction. -/
structure StreamObject where
  record : Record
  signedBytes : List UInt8
  time : Timestamp
  deriving DecidableEq, Repr

namespace StreamObject

/-- The bytes that the running hash absorbs. -/
def content (o : StreamObject) : List UInt8 :=
  o.record.toBytes ++ Wire.Codec.octets.write o.signedBytes ++ Timestamp.codec.write o.time

def chain (seed : Octets 48) (objects : List StreamObject) : Octets 48 :=
  Digest.chain seed (objects.map content)

end StreamObject

structure StreamedRecord where
  object : StreamObject
  runningHash : Octets 48
  deriving DecidableEq, Repr

def StreamedRecord.line (s : StreamedRecord) : String :=
  Json.object [
    ("consensus_time", Json.string s.object.time.text),
    ("record", s.object.record.json),
    ("signed_txn", Json.string (Text.hex s.object.signedBytes)),
    ("running_hash", Json.string (Text.hex s.runningHash.val))]

end ConsensusLedger
