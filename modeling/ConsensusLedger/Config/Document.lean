import ConsensusLedger.Config.Basic
import ConsensusLedger.Toml.Document

/-!
Configurations written in TOML. A section is a table, or a list of its settings in their order; what
is left out has its default, and unknown settings do not matter.
-/

namespace ConsensusLedger

open Toml (Value)

/-- The settings of a section, by name or by position. -/
inductive Section where
  | named (entries : Toml.Entries)
  | listed (items : List Value)

namespace Section

/-- The section that a value is. A date or a time is one without settings. -/
def of? : Value → Option Section
  | .table _ entries => some (.named entries)
  | .array items => some (.listed items)
  | .tables elements => some (.listed (elements.map (.table .header)))
  | .time => some (.named [])
  | _ => none

/-- The value of the setting with a name, which stands at a position of the list. -/
def get? (s : Section) (position : Nat) (name : String) : Option Value :=
  match s with
  | named entries => entries.get? name
  | listed items => items[position]?

def setting {α : Type} (s : Section) (position : Nat) (name : String)
    (read : Value → Option α) (default : α) : Option α :=
  match s.get? position name with
  | none => some default
  | some v => read v

def required {α : Type} (s : Section) (position : Nat) (name : String)
    (read : Value → Option α) : Option α :=
  (s.get? position name).bind read

end Section

namespace Setting

def text : Value → Option String
  | .text s => some s
  | _ => none

def bool : Value → Option Bool
  | .bool b => some b
  | _ => none

def int64 : Value → Option Int64
  | .int n => some n
  | _ => none

/-- A number that is not negative. -/
def word (v : Value) : Option UInt64 :=
  (int64 v).bind fun n => if n < 0 then none else some n.toUInt64

def word32 (v : Value) : Option UInt32 :=
  (word v).bind fun n => if n.toNat < 0x100000000 then some n.toUInt32 else none

def list {α : Type} (read : Value → Option α) : Value → Option (List α)
  | .array items => items.mapM read
  | .tables elements => (elements.map (Value.table .header)).mapM read
  | _ => none

def telemetry (v : Value) : Option TelemetryConfig := do
  let s ← Section.of? v
  let d : TelemetryConfig := {}
  return {
    serviceName := ← s.setting 0 "service_name" text d.serviceName
    logLevel := ← s.setting 1 "log_level" text d.logLevel
    jsonLogs := ← s.setting 2 "json_logs" bool d.jsonLogs
    sourceLocation := ← s.setting 3 "with_source_location" bool d.sourceLocation }

def processing (v : Value) : Option ProcessingConfig := do
  let s ← Section.of? v
  let d : ProcessingConfig := {}
  return {
    alertResetPeriod := ← s.setting 0 "iss_reset_period_secs" int64 d.alertResetPeriod
    alertRounds := ← s.setting 1 "iss_rounds_to_dump" word32 d.alertRounds
    minDuration := ← s.setting 2 "min_txn_duration_secs" int64 d.minDuration
    maxDuration := ← s.setting 3 "max_txn_duration_secs" int64 d.maxDuration
    historySeconds := ← s.setting 4 "cache_records_ttl_secs" int64 d.historySeconds
    fundingAccount := ← s.setting 5 "funding_account" word d.fundingAccount
    maxMemoBytes := ← s.setting 6 "max_memo_utf8_bytes" word d.maxMemoBytes }

def records (v : Value) : Option RecordStreamConfig := do
  let s ← Section.of? v
  let d : RecordStreamConfig := {}
  return {
    enabled := ← s.setting 0 "enabled" bool d.enabled
    directory := ← s.setting 1 "log_dir" text d.directory
    period := ← s.setting 2 "log_period_secs" word d.period
    capacity := ← s.setting 3 "queue_capacity" word d.capacity }

def fees (v : Value) : Option FeeSchedule := do
  let s ← Section.of? v
  let d : FeeSchedule := {}
  return {
    node := ← s.setting 0 "node_fee_tinycents" word d.node
    networkPerSignature := ← s.setting 1 "network_fee_per_sig_tinycents" word d.networkPerSignature
    cryptoTransfer := ← s.setting 2 "crypto_transfer_tinycents" word d.cryptoTransfer
    scheduleCreate := ← s.setting 3 "schedule_create_tinycents" word d.scheduleCreate
    scheduleSign := ← s.setting 4 "schedule_sign_tinycents" word d.scheduleSign
    scheduleDelete := ← s.setting 5 "schedule_delete_tinycents" word d.scheduleDelete
    freeze := ← s.setting 6 "freeze_tinycents" word d.freeze }

def rate (v : Value) : Option ExchangeRate := do
  let s ← Section.of? v
  return {
    coins := ← s.required 0 "hbar_equiv" word32
    cents := ← s.required 1 "cent_equiv" word32
    expires := ← s.required 2 "expiration_secs" int64 }

def rates (v : Value) : Option ExchangeRates := do
  let s ← Section.of? v
  return { current := ← s.required 0 "current" rate, next := ← s.required 1 "next" rate }

def member (v : Value) : Option MemberConfig := do
  let s ← Section.of? v
  return {
    id := ← s.required 0 "id" word
    stake := ← s.required 1 "stake" word
    account := ← s.required 2 "account" word }

def network (v : Value) : Option NetworkConfig := do
  let s ← Section.of? v
  let d : NetworkConfig := {}
  return {
    self := ← s.setting 0 "self_id" word d.self
    members := ← s.setting 1 "members" (list member) d.members }

def genesisAccount (v : Value) : Option GenesisAccount := do
  let s ← Section.of? v
  return {
    num := ← s.required 0 "num" word
    balance := ← s.required 1 "balance" word
    publicKey := ← s.setting 2 "public_key" (fun v => (text v).map some) none }

def genesis (v : Value) : Option GenesisConfig := do
  let s ← Section.of? v
  let d : GenesisConfig := {}
  return {
    accounts := ← s.setting 0 "accounts" (list genesisAccount) d.accounts
    seed := ← s.setting 1 "running_hash_seed" (fun v => (text v).map some) none }

def single {α : Type} (name : String) (read : Value → Option α) (default : α) (v : Value) :
    Option α := do
  let s ← Section.of? v
  s.setting 0 name read default

end Setting

namespace NodeConfig

def ofSection? (s : Section) : Option NodeConfig := do
  let d : NodeConfig := {}
  return {
    telemetry := ← s.setting 0 "telemetry" Setting.telemetry d.telemetry
    processing := ← s.setting 1 "processing" Setting.processing d.processing
    scheduleLifetime := ← s.setting 2 "schedules"
      (Setting.single "scheduled_tx_expiry_secs" Setting.int64 d.scheduleLifetime)
      d.scheduleLifetime
    parallelThreshold := ← s.setting 3 "verification"
      (Setting.single "parallel_threshold" Setting.word d.parallelThreshold) d.parallelThreshold
    records := ← s.setting 4 "record_stream" Setting.records d.records
    fees := ← s.setting 5 "fees" Setting.fees d.fees
    rates := ← s.setting 6 "exchange_rates" Setting.rates d.rates
    network := ← s.setting 7 "network" Setting.network d.network
    genesis := ← s.setting 8 "genesis" Setting.genesis d.genesis
    deliveryCapacity := ← s.setting 9 "delivery"
      (Setting.single "channel_capacity" Setting.word d.deliveryCapacity) d.deliveryCapacity }

def ofToml (text : String) : Except ConfigError NodeConfig :=
  match (Toml.read? text).bind fun entries => ofSection? (.named entries) with
  | some c => .ok c
  | none => .error .malformed

end NodeConfig

end ConsensusLedger
