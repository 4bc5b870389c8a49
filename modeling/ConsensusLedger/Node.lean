import ConsensusLedger.Config.Basic
import ConsensusLedger.Delivery.Feed
import ConsensusLedger.Pipeline.Processor

/-!
A node: the processor as a configuration starts it, and its run over a feed of deliveries.
-/

namespace ConsensusLedger

inductive StartError where
  | config (error : ConfigError)
  | genesis (error : GenesisError)
  deriving DecidableEq, Repr

def StartError.message : StartError → String
  | config e => e.message
  | genesis e => e.message

/-- A processor, and the rules it goes by. -/
structure Node where
  rules : Rules
  processor : Processor

namespace NodeConfig

/-- The members by their number; of two with the same one the later counts. -/
def addressBook (c : NodeConfig) : AddressBook :=
  Table.ofList (c.network.members.map fun m => (m.id, ⟨m.stake, .ofNum m.account⟩))

/-- The accounts that the genesis has to have: the one that fees go to, and those of the members. -/
def requiredAccounts (c : NodeConfig) : List AccountId :=
  .ofNum c.processing.fundingAccount :: c.network.members.map fun m => .ofNum m.account

/-- The first number for schedules, above those of all accounts. -/
def firstScheduleNum (c : NodeConfig) : UInt64 :=
  addCapped (c.genesis.accounts.foldl (fun n a => max n a.num) 0) 1

/-- The record stream, with files if they are asked for, then a memory of the latest records. -/
def recordEmitter (c : NodeConfig) (seed : Octets 48) : RecordEmitter :=
  let emitter := RecordEmitter.ofSeed seed
  let emitter :=
    if c.records.enabled then
      emitter.addSink (.files (.empty c.records.directory c.records.period true))
    else emitter
  emitter.addSink (.memory c.records.capacity [])

def rules (c : NodeConfig) : Rules :=
  { Rules.standard c.processing c.addressBook with
    verification := ⟨Ed25519.verifies, c.parallelThreshold.toNat⟩
    fees := c.fees }

end NodeConfig

namespace Node

def start (c : NodeConfig) : Except StartError Node :=
  match c.validate with
  | .error e => .error (.config e)
  | .ok () =>
    match c.genesis.build c.requiredAccounts with
    | .error e => .error (.genesis e)
    | .ok genesis =>
      .ok
        { rules := c.rules
          processor := .start c.processing c.rates genesis.ledger
            (.empty c.scheduleLifetime c.firstScheduleNum)
            (.emitter (c.recordEmitter genesis.seed)) }

structure Tally where
  delivered : Nat
  /-- Deliveries that brought no record. -/
  dropped : Nat
  records : Nat
  deriving DecidableEq, Repr

def Tally.zero : Tally := ⟨0, 0, 0⟩

def Tally.count (t : Tally) (records : List Record) : Tally :=
  ⟨t.delivered + 1, t.dropped + if records.isEmpty then 1 else 0, t.records + records.length⟩

def deliver (n : Node) (d : Delivery) : Handled (List Record) :=
  n.processor.incorporate n.rules d.bytes d.time d.member

def run (n : Node) (t : Tally) : List Delivery → Tally × Node
  | [] => (t, n)
  | d :: rest =>
    let done := n.deliver d
    run { n with processor := done.processor } (t.count done.answer) rest

end Node

end ConsensusLedger
