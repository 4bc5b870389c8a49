import ConsensusLedger.Record.Basic

/-!
Rolling record files. Consensus time is cut into windows of a fixed number of seconds; the records
of a window go to one file, which is named after the time of the first of them.
-/

namespace ConsensusLedger

inductive StreamError where
  | encode (reason : String)
  | io (path reason : String)
  deriving DecidableEq, Repr

def StreamError.message : StreamError → String
  | encode reason => s!"Record encoding failed: {reason}"
  | io path reason => s!"Record file {Text.quoted path}: {reason}"

structure RecordFiles where
  directory : String
  period : UInt64
  /-- Whether the directory can be written to. -/
  writable : Bool
  /-- The window being written, and its file. -/
  current : Option (Int × String)
  /-- The lines of each file, in the order of creation. -/
  files : List (String × List String)

namespace RecordFiles

def empty (directory : String) (period : UInt64) (writable : Bool) : RecordFiles :=
  ⟨directory, period, writable, none, []⟩

/-- The length of a window: at least a second, and within the range of seconds. -/
def windowLength (period : UInt64) : Int := min (max period.toNat 1) (0x7fffffffffffffff)

/-- The second at which the window of a time begins. It is a 64-bit second itself, except for a time
less than one window after the lowest of these, -2^63: there the subtraction leaves the range of
64-bit seconds, and no such time is accounted for. -/
def windowOf (f : RecordFiles) (time : Timestamp) : Int :=
  time.seconds.toInt - time.seconds.toInt % windowLength f.period

/-- Date and time, with underscores for colons; a time without a date is written in seconds. -/
def fileName (time : Timestamp) : String :=
  let name :=
    match dateTime? time.seconds.toInt time.nanos.toNat with
    | some s => String.ofList (s.toList.map fun c => if c = ':' then '_' else c)
    | none => time.text
  name ++ ".rcd.jsonl"

def addLine (files : List (String × List String)) (name line : String) :
    List (String × List String) :=
  if files.any (·.1 = name) then
    files.map fun f => if f.1 = name then (f.1, f.2 ++ [line]) else f
  else files ++ [(name, [line])]

/-- Adds a record to the file of its window, which is opened when the window changes. The answer
names a file that was opened. -/
def accept (f : RecordFiles) (s : StreamedRecord) :
    Except StreamError (Option String) × RecordFiles :=
  let time := s.object.time
  let window := f.windowOf time
  match f.current.filter (·.1 = window) with
  | some (_, name) => (.ok none, { f with files := addLine f.files name s.line })
  | none =>
    if f.writable then
      let name := fileName time
      (.ok (some name),
        { f with current := some (window, name), files := addLine f.files name s.line })
    else (.error (.io f.directory "the directory cannot be written to"), { f with current := none })

end RecordFiles

end ConsensusLedger
