import ConsensusLedger.Transaction.Envelope

/-!
Fees. They are priced in hundred-millionths of a cent and converted at the current exchange rate
between the ledger's coin and the cent; nothing overflows, sums and products stop at the largest word.
-/

namespace ConsensusLedger

/-- So many coins are worth so many cents until a given second. -/
structure ExchangeRate where
  coins : UInt32
  cents : UInt32
  expires : Int64
  deriving DecidableEq, Repr

structure ExchangeRates where
  current : ExchangeRate
  next : ExchangeRate
  deriving DecidableEq, Repr

/-- One coin for twelve cents, for all time. -/
def ExchangeRate.standard : ExchangeRate := ⟨1, 12, Int64.maxValue⟩

def ExchangeRates.standard : ExchangeRates := ⟨.standard, .standard⟩

instance : Inhabited ExchangeRates := ⟨.standard⟩

/-- The sum of two words, held at the largest word. -/
def addCapped (a b : UInt64) : UInt64 := UInt64.ofNat (min (a.toNat + b.toNat) 0xffffffffffffffff)

def mulCapped (a b : UInt64) : UInt64 := UInt64.ofNat (min (a.toNat * b.toNat) 0xffffffffffffffff)

/-- The fee for a transaction: what the node, the network and the service cost. -/
structure Fee where
  node : UInt64
  network : UInt64
  service : UInt64
  deriving DecidableEq, Repr

namespace Fee

def nodeAndNetwork (f : Fee) : UInt64 := addCapped f.node f.network

def total (f : Fee) : UInt64 := addCapped f.nodeAndNetwork f.service

end Fee

/-- Prices in hundred-millionths of a cent. -/
structure FeeSchedule where
  node : UInt64 := 1200
  /-- For each signature that the network has to verify. -/
  networkPerSignature : UInt64 := 600
  cryptoTransfer : UInt64 := 6000
  scheduleCreate : UInt64 := 120000
  scheduleSign : UInt64 := 12000
  scheduleDelete : UInt64 := 12000
  freeze : UInt64 := 0
  deriving DecidableEq, Repr

namespace FeeSchedule

def servicePrice (s : FeeSchedule) : Function → UInt64
  | .cryptoTransfer => s.cryptoTransfer
  | .scheduleCreate => s.scheduleCreate
  | .scheduleSign => s.scheduleSign
  | .scheduleDelete => s.scheduleDelete
  | .freeze => s.freeze

/-- A price in coins. A rate of no cents counts as one cent. -/
def convert (rate : ExchangeRate) (price : UInt64) : UInt64 :=
  UInt64.ofNat (min (price.toNat * rate.coins.toNat / max rate.cents.toNat 1) 0xffffffffffffffff)

/-- The signatures to verify: those given, but at least as many as the payer's key has leaves. -/
def signatureCount (txn : Envelope) (payerKey : Option Key) : Nat :=
  max txn.signatures.length (match payerKey with
    | some k => k.leaves.length
    | none => 1)

def fee (s : FeeSchedule) (txn : Envelope) (payerKey : Option Key) (rates : ExchangeRates) : Fee :=
  let signatures := UInt64.ofNat (signatureCount txn payerKey)
  { node := convert rates.current s.node
    network := convert rates.current (mulCapped s.networkPerSignature signatures)
    service := convert rates.current (s.servicePrice txn.function) }

end FeeSchedule

end ConsensusLedger
