import ConsensusLedger.Genesis
import ConsensusLedger.Pipeline.Rules

/-!
The configuration of a node. Every setting has a default; by default a node is the only member of
its network.
-/

namespace ConsensusLedger

structure TelemetryConfig where
  serviceName : String := "ledger-core"
  logLevel : String := "info"
  jsonLogs : Bool := false
  /-- Whether a log line names the place that it comes from. -/
  sourceLocation : Bool := false
  deriving DecidableEq, Repr

structure RecordStreamConfig where
  /-- Whether records are written to files. -/
  enabled : Bool := false
  directory : String := "data/recordStreams"
  /-- Seconds in the window of a file. -/
  period : UInt64 := 2
  /-- The number of records kept in memory. -/
  capacity : UInt64 := 5000
  deriving DecidableEq, Repr

structure MemberConfig where
  id : MemberId
  stake : UInt64
  account : UInt64
  deriving DecidableEq, Repr

structure NetworkConfig where
  /-- The member that this node is. -/
  self : MemberId := 0
  members : List MemberConfig := [⟨0, 1, 3⟩]
  deriving DecidableEq, Repr

structure NodeConfig where
  telemetry : TelemetryConfig := {}
  processing : ProcessingConfig := {}
  /-- The lifetime of schedules in seconds. -/
  scheduleLifetime : Int64 := 1800
  /-- From so many claimed signatures on, they are verified in parallel. -/
  parallelThreshold : UInt64 := 8
  records : RecordStreamConfig := {}
  fees : FeeSchedule := {}
  rates : ExchangeRates := .standard
  network : NetworkConfig := {}
  genesis : GenesisConfig := {}
  /-- The number of deliveries that may wait. -/
  deliveryCapacity : UInt64 := 1024
  deriving DecidableEq, Repr

inductive ConfigFault where
  | durations (min max : Int64)
  | historySeconds
  | scheduleLifetime
  | recordCapacity
  | recordPeriod
  | deliveryCapacity
  | worthlessRate
  | noStake
  | selfUnknown (self : MemberId)
  deriving DecidableEq, Repr

namespace ConfigFault

def field : ConfigFault → String
  | durations .. => "processing.min_txn_duration_secs"
  | historySeconds => "processing.cache_records_ttl_secs"
  | scheduleLifetime => "schedules.scheduled_tx_expiry_secs"
  | recordCapacity => "record_stream.queue_capacity"
  | recordPeriod => "record_stream.log_period_secs"
  | deliveryCapacity => "delivery.channel_capacity"
  | worthlessRate => "exchange_rates"
  | noStake => "network.members"
  | selfUnknown _ => "network.self_id"

def reason : ConfigFault → String
  | durations min max => s!"need 0 < min ({min}) <= max ({max})"
  | worthlessRate => "hbar_equiv must be positive"
  | noStake => "no member has stake"
  | selfUnknown self => s!"member {self} is not in the address book"
  | _ => "must be positive"

end ConfigFault

/-- Why there is no configuration. -/
inductive ConfigError where
  | unreadable (path : String)
  | malformed
  | invalidEnv (name value : String)
  | invalid (fault : ConfigFault)
  deriving DecidableEq, Repr

def ConfigError.message : ConfigError → String
  | unreadable path => s!"Failed to read config file {path}"
  | malformed => "Malformed config"
  | invalidEnv name value => s!"Invalid value {Text.quoted value} for {name}"
  | invalid fault => s!"Invalid {fault.field}: {fault.reason}"

namespace NodeConfig

/-- Each possible fault, in the order of reports, with whether the configuration has it. -/
def checks (c : NodeConfig) : List (Bool × ConfigFault) :=
  let p := c.processing
  [(p.minDuration ≤ 0 || p.maxDuration < p.minDuration, .durations p.minDuration p.maxDuration),
    (p.historySeconds ≤ 0, .historySeconds),
    (c.scheduleLifetime ≤ 0, .scheduleLifetime),
    (c.records.capacity = 0, .recordCapacity),
    (c.records.enabled && c.records.period = 0, .recordPeriod),
    (c.deliveryCapacity = 0, .deliveryCapacity),
    (c.rates.current.coins = 0 || c.rates.next.coins = 0, .worthlessRate),
    (!c.network.members.any (0 < ·.stake), .noStake),
    (!c.network.members.any (·.id = c.network.self), .selfUnknown c.network.self)]

def faults (c : NodeConfig) : List ConfigFault := (c.checks.filter (·.1)).map (·.2)

def validate (c : NodeConfig) : Except ConfigError Unit :=
  match c.faults with
  | [] => .ok ()
  | fault :: _ => .error (.invalid fault)

end NodeConfig

end ConsensusLedger
