import ConsensusLedger.Fee.Schedule
import ConsensusLedger.Handling.Notice

/-!
The consensus clock. Every handled transaction moves it on; it keeps the exchange rates that were in
force when the current UTC day began, and the alert about inconsistent state signatures. Each report
of a differing state raises the alert; the first few of an alert are answered with the hashes of the
local state.
-/

namespace ConsensusLedger

/-- Tracks reports of a replica whose signed state differs. From the first report until the alert is
relaxed, a limited number of reports are answered with the state's hashes. -/
structure StateAlert where
  /-- The consensus time of the latest report since the alert was last relaxed. -/
  reported : Option Timestamp
  remainingRounds : UInt32
  rounds : UInt32
  deriving DecidableEq, Repr

namespace StateAlert

def quiet (rounds : UInt32) : StateAlert := ⟨none, 0, rounds⟩

/-- There was a report since the alert was last relaxed. -/
def isOngoing (a : StateAlert) : Bool := a.reported.isSome

def alert (a : StateAlert) (time : Timestamp) : StateAlert :=
  { a with
    reported := some time
    remainingRounds := if a.isOngoing then a.remainingRounds else a.rounds }

def relax (a : StateAlert) : StateAlert := { a with reported := none, remainingRounds := 0 }

def shouldDump (a : StateAlert) : Bool := 0 < a.remainingRounds

/-- One round fewer, down to none. -/
def countRound (a : StateAlert) : StateAlert :=
  { a with remainingRounds := if a.remainingRounds = 0 then 0 else a.remainingRounds - 1 }

/-- Takes note of a report, and says whether it is to be answered with the state's hashes. -/
def notify (a : StateAlert) (time : Timestamp) : Bool × StateAlert :=
  let a := a.alert time
  if a.shouldDump then (true, a.countRound) else (false, a)

/-- Takes in a report. The hashes are looked at only when the answer's first part is set. -/
def receive (a : StateAlert) (r : StateReport)
    (hashes : Except ProcessingError StateHashes) : Bool × List Notice × StateAlert :=
  match a.notify r.time with
  | (false, a) => (false, [], a)
  | (true, a) =>
    match hashes with
    | .ok h => (true, [.stateDiffers r h], a)
    | .error e => (true, [.stateUnknown r e], a)

end StateAlert

structure Clock where
  lastHandled : Option Timestamp
  midnightRates : ExchangeRates
  alert : StateAlert
  /-- Seconds after a report before the alert is relaxed. -/
  resetPeriod : Int64
  deriving DecidableEq, Repr

namespace Clock

def start (rates : ExchangeRates) (rounds : UInt32) (resetPeriod : Int64) : Clock :=
  ⟨none, rates, .quiet rounds, resetPeriod⟩

/-- Any time will do for the first transaction, and only a later one for the others. -/
def isAfterLastHandled (c : Clock) (time : Timestamp) : Bool :=
  match c.lastHandled with
  | none => true
  | some last => time.isAfter last

/-- Whether a time falls on another UTC day than the last transaction. -/
def isNewDay (c : Clock) (now : Timestamp) : Bool :=
  match c.lastHandled with
  | none => false
  | some last => !last.sameDay now

/-- Moves on to a time. On a new UTC day the rates in force become the midnight rates; the answer
says so. -/
def advance (c : Clock) (now : Timestamp) (rates : ExchangeRates) : Bool × Clock :=
  if c.isNewDay now then (true, { c with lastHandled := some now, midnightRates := rates })
  else (false, { c with lastHandled := some now })

def isRelaxDue (c : Clock) (now : Timestamp) : Bool :=
  match c.alert.reported with
  | none => false
  | some time => now.isAfter (time.plusSeconds c.resetPeriod)

def relaxIfDue (c : Clock) (now : Timestamp) : Bool × Clock :=
  if c.isRelaxDue now then (true, { c with alert := c.alert.relax }) else (false, c)

end Clock

end ConsensusLedger
