import ConsensusLedger.Calendar
import ConsensusLedger.Config.Basic
import ConsensusLedger.Config.Document
import ConsensusLedger.Config.Environment
import ConsensusLedger.Delivery.Event
import ConsensusLedger.Delivery.Feed
import ConsensusLedger.Digest.Blake3
import ConsensusLedger.Digest.Sha2
import ConsensusLedger.Ed25519.Curve
import ConsensusLedger.Ed25519.Field
import ConsensusLedger.Ed25519.Signature
import ConsensusLedger.Entity
import ConsensusLedger.Fee.Charging
import ConsensusLedger.Fee.Schedule
import ConsensusLedger.Genesis
import ConsensusLedger.Handling.Clock
import ConsensusLedger.Handling.Context
import ConsensusLedger.Handling.Gate
import ConsensusLedger.Handling.History
import ConsensusLedger.Handling.Notice
import ConsensusLedger.Handling.Requirement
import ConsensusLedger.Json.Reader
import ConsensusLedger.Json.Writer
import ConsensusLedger.Key
import ConsensusLedger.Ledger.Account
import ConsensusLedger.Ledger.Basic
import ConsensusLedger.Main
import ConsensusLedger.Metrics
import ConsensusLedger.Node
import ConsensusLedger.Octets
import ConsensusLedger.Pipeline.Charge
import ConsensusLedger.Pipeline.Processor
import ConsensusLedger.Pipeline.Rules
import ConsensusLedger.Record.Basic
import ConsensusLedger.Record.File
import ConsensusLedger.Record.Stream
import ConsensusLedger.Schedule.Basic
import ConsensusLedger.Schedule.Expiry
import ConsensusLedger.Schedule.Store
import ConsensusLedger.Signing.Expansion
import ConsensusLedger.Signing.Verification
import ConsensusLedger.Signing.Witness
import ConsensusLedger.Status
import ConsensusLedger.Store.Collection
import ConsensusLedger.Store.EntityStore
import ConsensusLedger.Store.Index
import ConsensusLedger.Table
import ConsensusLedger.Text.Digits
import ConsensusLedger.Text.Hex
import ConsensusLedger.Text.Quoted
import ConsensusLedger.Text.Utf8
import ConsensusLedger.Timestamp
import ConsensusLedger.Toml.Document
import ConsensusLedger.Toml.Scalar
import ConsensusLedger.Toml.Value
import ConsensusLedger.Transaction.Basic
import ConsensusLedger.Transaction.Envelope
import ConsensusLedger.Transaction.Wire
import ConsensusLedger.Transition.Registry
import ConsensusLedger.Transition.Schedule
import ConsensusLedger.Transition.Transfer
import ConsensusLedger.Transition.Witness
import ConsensusLedger.Wire.Codec
import ConsensusLedger.Wire.Entities
import ConsensusLedger.Proofs.AcceptedConfiguration
import ConsensusLedger.Proofs.AuditTrail
import ConsensusLedger.Proofs.Authorization
import ConsensusLedger.Proofs.CertifiedRecords
import ConsensusLedger.Proofs.ChargingOutcomes
import ConsensusLedger.Proofs.ConsensusOrder
import ConsensusLedger.Proofs.Departure
import ConsensusLedger.Proofs.ExpiryOrder
import ConsensusLedger.Proofs.ExpiryPurge
import ConsensusLedger.Proofs.FingerprintIndex
import ConsensusLedger.Proofs.HistoryWindow
import ConsensusLedger.Proofs.InternalErrors
import ConsensusLedger.Proofs.KeyActivation
import ConsensusLedger.Proofs.Ledger.Adjustment
import ConsensusLedger.Proofs.Ledger.Solvency
import ConsensusLedger.Proofs.LedgerTransactions
import ConsensusLedger.Proofs.ManagedStore
import ConsensusLedger.Proofs.MidnightRates
import ConsensusLedger.Proofs.PendingRemoval
import ConsensusLedger.Proofs.Pipeline.Attended
import ConsensusLedger.Proofs.Pipeline.Brief
import ConsensusLedger.Proofs.Pipeline.Guard
import ConsensusLedger.Proofs.Pipeline.Numbering
import ConsensusLedger.Proofs.Pipeline.Ordering
import ConsensusLedger.Proofs.Pipeline.Passage
import ConsensusLedger.Proofs.Pipeline.Rejected
import ConsensusLedger.Proofs.Pipeline.Retained
import ConsensusLedger.Proofs.Pipeline.Solvency
import ConsensusLedger.Proofs.Pipeline.Triggering
import ConsensusLedger.Proofs.ProvisionalCreation
import ConsensusLedger.Proofs.RecordHistory
import ConsensusLedger.Proofs.RecordWindows
import ConsensusLedger.Proofs.Rejection
import ConsensusLedger.Proofs.Replay
import ConsensusLedger.Proofs.RootHash
import ConsensusLedger.Proofs.Schedule.Indexed
import ConsensusLedger.Proofs.Schedule.Queued
import ConsensusLedger.Proofs.Schedule.Tracked
import ConsensusLedger.Proofs.Schedule.Waiting
import ConsensusLedger.Proofs.ScheduledIdentifiers
import ConsensusLedger.Proofs.SignatureAttribution
import ConsensusLedger.Proofs.StateAlerts
import ConsensusLedger.Proofs.SupplyConservation
import ConsensusLedger.Proofs.TamperEvidence
import ConsensusLedger.Proofs.TimestampArithmetic
import ConsensusLedger.Proofs.TransferApplication
import ConsensusLedger.Proofs.TransferAtomicity
import ConsensusLedger.Proofs.TriggerProtocol
import ConsensusLedger.Proofs.Wire.Entities
import ConsensusLedger.Proofs.WitnessOrder
import ConsensusLedger.Proofs.WitnessRule
