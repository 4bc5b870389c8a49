import ConsensusLedger.Handling.Gate
import ConsensusLedger.Transition.Registry

/-!
What the pipeline goes by and never changes: settings, prices, members, transitions, and the test of
signatures.
-/

namespace ConsensusLedger

structure ProcessingConfig where
  /-- Seconds after a state alert before it is relaxed. -/
  alertResetPeriod : Int64 := 60
  /-- Reports of an alert that are answered with the state's hashes. -/
  alertRounds : UInt32 := 5
  minDuration : Int64 := 15
  maxDuration : Int64 := 180
  /-- Seconds for which a handled identifier counts as seen. -/
  historySeconds : Int64 := 180
  fundingAccount : UInt64 := 98
  maxMemoBytes : UInt64 := 100
  deriving DecidableEq, Repr

structure Rules where
  verification : Signing.VerifierConfig
  fees : FeeSchedule
  transitions : TransitionRegistry
  book : AddressBook
  durations : DurationBounds
  funding : AccountId

namespace Rules

/-- Signatures are verified as Ed25519 signatures, in parallel from eight on. -/
def standardVerification : Signing.VerifierConfig := ⟨Ed25519.verifies, 8⟩

/-- The rules that settings and members give by themselves. -/
def standard (c : ProcessingConfig) (book : AddressBook) : Rules where
  verification := standardVerification
  fees := {}
  transitions := .standard c.maxMemoBytes
  book := book
  durations := ⟨c.minDuration, c.maxDuration⟩
  funding := .ofNum c.fundingAccount

end Rules

end ConsensusLedger
