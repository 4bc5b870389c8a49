import ConsensusLedger.Proofs.Pipeline.Guard
import ConsensusLedger.Proofs.Pipeline.Passage
import ConsensusLedger.Proofs.Transaction.Wire

/-!
When a transaction can succeed twice. As long as the longest valid duration is shorter than the time
for which handlings are remembered it cannot; when the two are equal, a transaction that lasts for the
whole time succeeds again in the last second of it.
-/

namespace ConsensusLedger

open Signing

/-!
A network of one account, which submits one transfer twice: at its valid start, and in the second in
which the transfer is forgotten.
-/

namespace Repeated

def account : AccountId := .ofNum 1

def book : AddressBook := Table.ofList [(0, ⟨1, account⟩)]

/-- Every signature is accepted. -/
def verification : VerifierConfig := ⟨fun _ _ _ => true, 8⟩

def start (c : ProcessingConfig) : Processor :=
  .start c .standard
    (.ofAccounts [(account, ⟨0, .ed25519 (Octets.replicate 32 0), false⟩)]) (.empty 0 0)
    (.emitter (.ofSeed (Octets.replicate 48 0)))

def body (duration : Int64) : TransactionBody :=
  ⟨⟨account, ⟨0, 1⟩, false⟩, account, 0, duration, "", .cryptoTransfer [⟨account, 0⟩]⟩

def bytes (duration : Int64) : List UInt8 :=
  (SignedTransaction.mk (body duration).toBytes [⟨[], []⟩]).toBytes

def deliveries (duration : Int64) : List Delivery :=
  [⟨bytes duration, ⟨0, 1⟩, 0⟩, ⟨bytes duration, ⟨duration, 0⟩, 0⟩]

theorem ofSigned_bytes (duration : Int64) :
    ∃ txn, Envelope.ofSigned (bytes duration) = .ok txn ∧ txn.Idle ∧ txn.payer = account ∧
      txn.body = body duration := by
  have hsignatures : SignatureMap.Fits [⟨[], []⟩] := by
    refine ⟨by decide, fun pair hpair => ?_⟩
    rw [List.mem_singleton.1 hpair]
    exact ⟨by decide, by decide⟩
  have hlength : (body duration).toBytes.length = 129 := rfl
  have hmemo : Text.utf8Length (body duration).memo < 0x10000000000000000 := by
    change Text.utf8Length "" < 0x10000000000000000
    decide
  have hdata : (body duration).data.Fits := by
    change [AccountAmount.mk account 0].length < 0x10000000000000000
    decide
  have hparse := Envelope.ofSigned_toBytes ⟨hmemo, hdata⟩ (by rw [hlength]; decide) hsignatures
  exact ⟨_, hparse, ⟨rfl, rfl, rfl⟩, rfl, rfl⟩

theorem ordered_deliveries {duration : Int64} (hpositive : 0 < duration.toInt) :
    Delivery.Ordered (deliveries duration) := by
  constructor
  · refine List.pairwise_cons.2 ⟨fun e he => ?_, List.pairwise_singleton _ _⟩
    rw [List.mem_singleton.1 he]
    exact Timestamp.compare_eq_lt_iff.2 (.inl hpositive)
  · intro d hd
    rcases List.mem_cons.1 hd with rfl | hd
    · exact (by decide : (1 : UInt32).toNat < Timestamp.perSecond)
    · rw [List.mem_singleton.1 hd]
      exact (by decide : (0 : UInt32).toNat < Timestamp.perSecond)

theorem chronology_body {duration : Int64} (hpositive : 0 < duration.toInt) {time : Timestamp}
    (hstart : 0 < time.seconds.toInt ∨ 0 = time.seconds.toInt ∧ 1 ≤ time.nanos.toNat)
    (hend : time.seconds.toInt < duration.toInt ∨
      time.seconds.toInt = duration.toInt ∧ time.nanos.toNat < 1) :
    Gate.chronology (body duration) time = .ok := by
  have hseconds : (body duration).id.validStart.seconds.toInt = 0 := rfl
  have hnanos : (body duration).id.validStart.nanos.toNat = 1 := rfl
  have hsum := toInt_saturatingAdd (body duration).id.validStart.seconds duration
  have hhigh := duration.toInt_lt
  refine Gate.chronology_eq_ok_iff.2 ⟨?_, ?_⟩
  · rw [← Bool.not_eq_true, Timestamp.isAfter_iff]
    omega
  · rw [Timestamp.isAfter_iff]
    change time.seconds.toInt <
        (saturatingAdd (body duration).id.validStart.seconds duration).toInt ∨
      time.seconds.toInt =
        (saturatingAdd (body duration).id.validStart.seconds duration).toInt ∧
      time.nanos.toNat < (body duration).id.validStart.nanos.toNat
    omega

/-- When the longest valid duration is the time for which handlings are remembered, a transfer of that
duration succeeds twice. -/
theorem replayed (c : ProcessingConfig) (hpositive : 0 < c.maxDuration.toInt)
    (hmin : c.minDuration.toInt ≤ c.maxDuration.toInt)
    (hboundary : c.maxDuration = c.historySeconds) :
    ¬ Record.ReplayFree ((Node.standard c book verification .free (start c)).records
      (deliveries c.maxDuration)) := by
  intro hfree
  obtain ⟨txn, hparse, hidle, hpayer, hbody⟩ := ofSigned_bytes c.maxDuration
  have hlength : txn.body.validDuration = c.maxDuration := congrArg TransactionBody.validDuration hbody
  let n := Node.standard c book verification .free (start c)
  have hduration : n.rules.durations.contains txn.body.validDuration = true := by
    rw [hlength]
    exact DurationBounds.contains_iff.2 ⟨hmin, Int.le_refl _⟩
  -- The first delivery succeeds at its valid start.
  obtain ⟨r, hr, hrid, hrok, hrexternal, hhistories, hlast, hkey⟩ := hidle.incorporate n.rules
    (start c) ⟨0, 1⟩ 0 rfl rfl (fun _ _ _ => rfl) hparse hpayer.symm rfl (by rw [hpayer]; rfl) rfl
    hduration (by rw [hbody]; exact chronology_body hpositive (.inr ⟨rfl, Nat.le_refl 1⟩) (.inl hpositive))
  -- By the second one it has been forgotten, but has not expired.
  have hremembered : 0 < c.historySeconds.toInt := hboundary ▸ hpositive
  have hpast : (0 : Int64).toInt + c.historySeconds.toInt ≤ c.maxDuration.toInt := by
    have hzero : (0 : Int64).toInt = 0 := Int64.toInt_zero
    have hsame := congrArg Int64.toInt hboundary
    omega
  have hunique : ((((start c).incorporate n.rules (bytes c.maxDuration) ⟨0, 1⟩ 0).processor.histories
      ).purge ⟨c.maxDuration, 0⟩).2.duplicity txn.id 0 = .believedUnique := by
    rw [hhistories]
    exact Histories.duplicity_of_expired hremembered txn.id 0 0 .ok hpast
  have hsane : Gate.sanityCheck n.rules.book ⟨c.maxDuration, 0⟩
      ((start c).incorporate n.rules (bytes c.maxDuration) ⟨0, 1⟩ 0).processor.clock.lastHandled 0 =
        .ok ⟨1, account⟩ := by
    have hafter : (Timestamp.mk c.maxDuration 0).isAfter ⟨0, 1⟩ = true :=
      Timestamp.isAfter_iff.2 (.inl hpositive)
    rw [hlast, Gate.sanityCheck]
    simp only [hafter, ↓reduceIte]
    rfl
  obtain ⟨s, hs, hsid, hsok, hsexternal, -⟩ := hidle.incorporate n.rules
    ((start c).incorporate n.rules (bytes c.maxDuration) ⟨0, 1⟩ 0).processor ⟨c.maxDuration, 0⟩ 0
    rfl rfl (fun _ _ _ => rfl) hparse hpayer.symm hsane hkey hunique hduration
    (by rw [hbody]; exact chronology_body hpositive (.inl hpositive) (.inr ⟨rfl, Nat.zero_lt_one⟩))
  have hrecords : n.records (deliveries c.maxDuration) = [r, s] := by
    simp only [Node.records, deliveries, Node.calls, Node.deliver, List.flatten_cons,
      List.flatten_nil, List.append_nil]
    exact congr (congrArg HAppend.hAppend hr) hs
  rw [hrecords] at hfree
  have hreplays : r.Replays s := ⟨⟨hrexternal, hsexternal⟩, ⟨hrok, hsok⟩, hrid.trans hsid.symm⟩
  exact List.rel_of_pairwise_cons hfree (List.mem_singleton.2 rfl) hreplays

/-- The seed of the key of account 0.0.2. -/
def seed : Octets 32 := Octets.replicate 32 1

def funded : Processor :=
  let account (num balance : UInt64) (key : Key) : AccountId × Account :=
    (.ofNum num, ⟨balance, key, false⟩)
  .start {} .standard
    (.ofAccounts [account 2 1000000 (.ed25519 (Ed25519.publicKey seed)), account 3 0 (.list []),
      account 98 0 (.list [])])
    (.empty 1800 1000) (.emitter (.ofSeed (Octets.replicate 48 0)))

def payment : TransactionBody :=
  ⟨⟨.ofNum 2, ⟨100, 400⟩, false⟩, .ofNum 3, 100000000, 180, "",
    .cryptoTransfer [⟨.ofNum 2, -5⟩, ⟨.ofNum 3, 5⟩]⟩

def payments : List Delivery :=
  let signature := Ed25519.sign seed payment.toBytes
  let bytes := (SignedTransaction.mk payment.toBytes
    [⟨(Ed25519.publicKey seed).val, signature⟩]).toBytes
  [⟨bytes, ⟨100, 500⟩, 0⟩, ⟨bytes, ⟨280, 100⟩, 0⟩]

end Repeated

namespace Node

/-- A transaction succeeds twice only at the boundary: when the longest valid duration is as long as
handlings are remembered, it lasts so long, and it comes again in the second in which it is forgotten,
at an earlier nanosecond than its valid start. No transaction ever succeeds twice just when the
longest valid duration is shorter than the time for which handlings are remembered. -/
theorem replay_free_iff (c : ProcessingConfig) (hmin : 0 < c.minDuration)
    (hmax : c.minDuration ≤ c.maxDuration) (hhistory : c.maxDuration ≤ c.historySeconds) :
    (∀ book verification fees rates ledger schedules stream ds, Delivery.Ordered ds →
      ((standard c book verification fees (.start c rates ledger schedules stream)).records
        ds).Pairwise fun r s => r.Replays s → r.AtBoundary c s) ∧
    ((∀ book verification fees rates ledger schedules stream ds, Delivery.Ordered ds →
      Record.ReplayFree
        ((standard c book verification fees (.start c rates ledger schedules stream)).records ds)) ↔
      c.maxDuration < c.historySeconds) := by
  rw [Int64.lt_iff_toInt_lt, Int64.toInt_zero] at hmin
  rw [Int64.le_iff_toInt_le] at hmax hhistory
  have hboundary (book verification fees rates ledger schedules stream ds)
      (hordered : Delivery.Ordered ds) :
      ((standard c book verification fees (.start c rates ledger schedules stream)).records
        ds).Pairwise fun r s => r.Replays s → r.AtBoundary c s :=
    (records_guarded c book verification fees rates ledger schedules stream hmin hhistory (by omega)
      ds hordered).boundary
  refine ⟨hboundary, fun hfree => ?_, fun hshorter => ?_⟩
  · rw [Int64.lt_iff_toInt_lt]
    by_contra hlonger
    have hequal : c.maxDuration = c.historySeconds := Int64.toInt.inj (by omega)
    exact Repeated.replayed c (by omega) hmax hequal
      (hfree _ _ _ _ _ _ _ _ (Repeated.ordered_deliveries (by omega)))
  · intro book verification fees rates ledger schedules stream ds hordered
    refine (hboundary book verification fees rates ledger schedules stream ds hordered).imp ?_
    intro r s hat hreplays
    rw [(hat hreplays).settings] at hshorter
    exact Int.lt_irrefl _ (Int64.lt_iff_toInt_lt.1 hshorter)

/-- With the default settings a transaction can succeed twice. -/
theorem replay_free_iff_default :
    let c : ProcessingConfig := {}
    0 < c.minDuration ∧ c.minDuration ≤ c.maxDuration ∧ c.maxDuration ≤ c.historySeconds ∧
    ¬ ∀ book verification fees rates ledger schedules stream ds, Delivery.Ordered ds →
      Record.ReplayFree
        ((standard c book verification fees (.start c rates ledger schedules stream)).records ds) := by
  intro c
  refine ⟨by decide, by decide, by decide, fun hfree => ?_⟩
  exact absurd ((replay_free_iff c (by decide) (by decide) (by decide)).2.1 hfree) (by decide)

/-- A transfer with the longest valid duration that the default settings allow succeeds right after
its valid start and again 180 seconds later, 300 nanoseconds before its valid duration is over. -/
theorem replayed_by_default :
    Delivery.Ordered Repeated.payments ∧
    ¬ Record.ReplayFree ((standard {} (Table.ofList [(0, ⟨1, .ofNum 3⟩)]) Rules.standardVerification
      {} Repeated.funded).records Repeated.payments) := by
  refine ⟨⟨by decide +kernel, by decide +kernel⟩, by decide +kernel⟩

end Node

end ConsensusLedger
