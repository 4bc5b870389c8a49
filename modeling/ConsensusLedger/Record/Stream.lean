import ConsensusLedger.Record.File

/-!
The record stream. Every appended object moves the running hash on and is offered to the sinks; a
sink that refuses it changes nothing else.
-/

namespace ConsensusLedger

/-- Where streamed records go. -/
inductive RecordSink where
  /-- Keeps the latest records, oldest first, up to a capacity of at least one. -/
  | memory (capacity : UInt64) (kept : List StreamedRecord)
  | files (files : RecordFiles)
  /-- Keeps nothing, and refuses the records for which there is an error. -/
  | guarded (refusal : StreamedRecord → Option StreamError)

namespace RecordSink

/-- The latest records when one more is added. -/
def keep (capacity : UInt64) (kept : List StreamedRecord) (s : StreamedRecord) :
    List StreamedRecord :=
  (if kept.length = max capacity.toNat 1 then kept.drop 1 else kept) ++ [s]

/-- Offers a record to a sink. The answer names a file that was opened. -/
def accept (s : StreamedRecord) : RecordSink → Except StreamError (Option String) × RecordSink
  | memory capacity kept => (.ok none, memory capacity (keep capacity kept s))
  | files f =>
    let (r, f) := f.accept s
    (r, files f)
  | guarded refusal =>
    match refusal s with
    | some e => (.error e, guarded refusal)
    | none => (.ok none, guarded refusal)

end RecordSink

abbrev SinkReport := Except StreamError (Option String)

/-- A running record stream. The counts go without a bound; in 64-bit words they would be the same
for fewer than 2^64 objects and fewer than 2^64 failures. -/
structure RecordEmitter where
  head : Octets 48
  appended : Nat
  sinkFailures : Nat
  sinks : List RecordSink

namespace RecordEmitter

/-- A stream without sinks whose running hash starts from a seed. -/
def ofSeed (seed : Octets 48) : RecordEmitter := ⟨seed, 0, 0, []⟩

def addSink (e : RecordEmitter) (s : RecordSink) : RecordEmitter :=
  { e with sinks := e.sinks ++ [s] }

/-- Appends an object. The answer is the running hash after it and what each sink did with it. -/
def append (e : RecordEmitter) (o : StreamObject) : Octets 48 × List SinkReport × RecordEmitter :=
  let head := Digest.link e.head o.content
  let results := e.sinks.map (RecordSink.accept ⟨o, head⟩)
  let reports := results.map (·.1)
  (head, reports,
    { head := head
      appended := e.appended + 1
      sinkFailures := e.sinkFailures + (reports.filter fun r => !r.isOk).length
      sinks := results.map (·.2) })

/-- The records that the first memory sink keeps. -/
def kept (e : RecordEmitter) : List StreamedRecord :=
  (e.sinks.findSome? fun
    | .memory _ kept => some kept
    | _ => none).getD []

/-- The records that the first memory sink keeps, without their running hashes. -/
def records (e : RecordEmitter) : List Record := e.kept.map (·.object.record)

/-- The files of the first file sink. -/
def files? (e : RecordEmitter) : Option RecordFiles :=
  e.sinks.findSome? fun
    | .files f => some f
    | _ => none

end RecordEmitter

/-- A record stream. One that is out of order refuses every object. -/
inductive RecordStream where
  | emitter (e : RecordEmitter)
  | outOfOrder (error : StreamError)

namespace RecordStream

/-- The running hash after the last appended object. -/
def head : RecordStream → Octets 48
  | emitter e => e.head
  | outOfOrder _ => Octets.replicate 48 0

def append (o : StreamObject) :
    RecordStream → Except StreamError (Octets 48 × List SinkReport) × RecordStream
  | emitter e =>
    let (head, reports, e) := e.append o
    (.ok (head, reports), emitter e)
  | outOfOrder error => (.error error, outOfOrder error)

end RecordStream

end ConsensusLedger
