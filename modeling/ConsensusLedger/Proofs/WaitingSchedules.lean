import ConsensusLedger.Proofs.Pipeline.Brief
import ConsensusLedger.Proofs.Pipeline.Scheduling

/-!
Schedules along a run that starts with none. Whatever is delivered, every committed schedule waits
for signatures: what the run has executed is no longer committed, and no signatory is stored without
a signature that was delivered for it.
-/

namespace ConsensusLedger

open Signing ScheduleStore

/-- No two of the messages have the same digest. -/
def Digest.CollisionFree (messages : List (List UInt8)) : Prop :=
  ∀ a ∈ messages, ∀ b ∈ messages, blake3 a = blake3 b → a = b

theorem Digest.CollisionFree.of_subset {messages messages' : List (List UInt8)}
    (h : CollisionFree messages') (hsubset : ∀ a ∈ messages, a ∈ messages') :
    CollisionFree messages :=
  fun a ha b hb => h a (hsubset a ha) b (hsubset b hb)

theorem Digest.collisionFree_singleton (message : List UInt8) : CollisionFree [message] := by
  intro a ha b hb _
  rw [List.mem_singleton.1 ha, List.mem_singleton.1 hb]

namespace Delivery

/-- The signatures that a delivered schedule operation brings for an inner body. -/
def scheduledSignatures (d : Delivery) : SignatureMap :=
  match Envelope.ofSigned d.bytes with
  | .ok txn => txn.body.data.scheduledSignatures
  | .error _ => []

/-- The inner body that a delivered schedule creation brings. -/
def scheduledBody? (d : Delivery) : Option (List UInt8) :=
  match Envelope.ofSigned d.bytes with
  | .ok txn => txn.body.data.scheduledBody?
  | .error _ => none

theorem scheduledSignatures_eq {d : Delivery} {txn : Envelope}
    (hparse : Envelope.ofSigned d.bytes = .ok txn) :
    d.scheduledSignatures = txn.body.data.scheduledSignatures := by
  rw [scheduledSignatures, hparse]

theorem scheduledBody?_eq {d : Delivery} {txn : Envelope}
    (hparse : Envelope.ofSigned d.bytes = .ok txn) :
    d.scheduledBody? = txn.body.data.scheduledBody? := by
  rw [scheduledBody?, hparse]

end Delivery

/-- All the signatures for inner bodies that some deliveries bring. -/
def scheduledSignatures (ds : List Delivery) : SignatureMap :=
  ds.flatMap (·.scheduledSignatures)

/-- All the inner bodies that some deliveries bring. -/
def scheduledBodies (ds : List Delivery) : List (List UInt8) :=
  ds.filterMap (·.scheduledBody?)

namespace Processor

variable {rules : Rules} {maxMemoBytes : UInt64} {pairs : SignatureMap}
  {bodies : List (List UInt8)} {first : UInt64} {n : Nat} {p : Processor} {d : Delivery}

/-- A call keeps the schedules waiting, and a transaction that it triggers is executed from them. -/
theorem incorporate_kept (hstandard : rules.transitions = .standard maxMemoBytes)
    (hkept : Kept p.ledger.key? rules.verification.verifier pairs bodies first n p.schedules)
    (hpairs : ∀ pair ∈ d.scheduledSignatures, pair ∈ pairs)
    (hbodies : ∀ body, d.scheduledBody? = some body → body ∈ bodies ∧ n < 0x10000000000000000)
    (hdistinct : Digest.CollisionFree bodies) :
    let done := p.incorporate rules d.bytes d.time d.member
    (∃ n' ≤ n + d.scheduledBody?.toList.length,
      Kept done.processor.ledger.key? rules.verification.verifier pairs bodies first n'
        done.processor.schedules) ∧
    BriefCall (Executed p.ledger.key? rules.verification.verifier pairs first n p.schedules
      (d.scheduledBody?.getD [])) rules p d done.answer done.processor := by
  intro done
  have hhandled {txn : Envelope} {time : Timestamp} {account : AccountId} {r : Record}
      {next : Option Envelope} {q : Processor} (hparse : Envelope.ofSigned d.bytes = .ok txn)
      (hfirst : Recorded rules p txn (.start time d.member (some account)) false r next q) :
      (∃ n' ≤ n + d.scheduledBody?.toList.length,
        Kept q.ledger.key? rules.verification.verifier pairs bodies first n' q.schedules) ∧
      ∀ t, next = some t → Executed p.ledger.key? rules.verification.verifier pairs first n
        p.schedules (d.scheduledBody?.getD []) t := by
    rw [Delivery.scheduledSignatures_eq hparse] at hpairs
    rw [Delivery.scheduledBody?_eq hparse] at hbodies ⊢
    exact hfirst.kept hstandard hkept hpairs hbodies hdistinct
  have hbrief : BriefCall (Executed p.ledger.key? rules.verification.verifier pairs first n
      p.schedules (d.scheduledBody?.getD [])) rules p d done.answer done.processor :=
    incorporate_brief hstandard hkept.tidy.pending
      fun hparse hfirst => (hhandled hparse hfirst).2 _ rfl
  refine ⟨?_, hbrief⟩
  generalize done.answer = records, done.processor = q at hbrief
  cases hbrief with
  | dropped => exact ⟨n, Nat.le_add_right n _, hkept⟩
  | delivered hparse hsane hfirst => exact (hhandled hparse hfirst).1
  | triggered hparse hsane hfirst hinner hsecond =>
    obtain ⟨n', hn', hkept'⟩ := (hhandled hparse hfirst).1
    obtain ⟨-, -, hschedulable, -⟩ := hinner.attested hkept.tidy
    exact ⟨n', hn', (hsecond.kept_of_schedulable hstandard hkept' hschedulable).1⟩

end Processor

theorem mem_scheduledSignatures_concat (ds : List Delivery) (d : Delivery) :
    (∀ pair ∈ scheduledSignatures ds, pair ∈ scheduledSignatures (ds ++ [d])) ∧
      ∀ pair ∈ d.scheduledSignatures, pair ∈ scheduledSignatures (ds ++ [d]) := by
  rw [scheduledSignatures, scheduledSignatures, List.flatMap_append, List.flatMap_singleton]
  exact ⟨fun pair => List.mem_append_left _, fun pair => List.mem_append_right _⟩

theorem scheduledBodies_concat (ds : List Delivery) (d : Delivery) :
    scheduledBodies (ds ++ [d]) = scheduledBodies ds ++ d.scheduledBody?.toList := by
  rw [scheduledBodies, List.filterMap_append]
  cases h : d.scheduledBody? <;> simp only [List.filterMap, h] <;> rfl

theorem mem_scheduledBodies_concat (ds : List Delivery) (d : Delivery) :
    (∀ body ∈ scheduledBodies ds, body ∈ scheduledBodies (ds ++ [d])) ∧
      ∀ body, d.scheduledBody? = some body → body ∈ scheduledBodies (ds ++ [d]) := by
  rw [scheduledBodies_concat]
  refine ⟨fun body => List.mem_append_left _, fun body hbody => ?_⟩
  rw [hbody]
  exact List.mem_append_right _ (List.mem_singleton.2 rfl)

/-!
A network of one member, account 0.0.3, on which account 0.0.2 schedules a transfer that account 0.0.4
pays. Each public key is accepted as its own signature.
-/

namespace Sample

/-- The public key of an account. -/
def key (account : UInt8) : PublicKey := Octets.replicate 32 account

def signature (account : UInt8) : SignaturePair := ⟨(key account).val, (key account).val⟩

def verification : VerifierConfig := ⟨fun key _ signature => signature = key.val, 8⟩

def book : AddressBook := Table.ofList [(0, ⟨1, .ofNum 3⟩)]

def start : Processor :=
  let account (num : UInt8) (balance : UInt64) : AccountId × Account :=
    (.ofNum num.toUInt64, ⟨balance, .ed25519 (key num), false⟩)
  .start {} .standard (.ofAccounts [account 2 1000000, account 3 0, account 4 10, account 98 0])
    (.empty 1800 1000) (.emitter (.ofSeed (Octets.replicate 48 0)))

/-- The network after some deliveries. -/
def after (ds : List Delivery) : Node := (Node.standard {} book verification {} start).after ds

/-- Account 0.0.2 has a transaction delivered. -/
def delivery (second : Int64) (data : TransactionData) : Delivery :=
  let body : TransactionBody := ⟨⟨.ofNum 2, ⟨second, 0⟩, false⟩, .ofNum 3, 500000, 100, "", data⟩
  ⟨(SignedTransaction.mk body.toBytes [signature 2]).toBytes, ⟨second, 1⟩, 0⟩

def transferBody : List UInt8 :=
  (TransactionBody.mk ⟨.ofNum 2, ⟨100, 0⟩, false⟩ (.ofNum 3) 500000 100 ""
    (.cryptoTransfer [⟨.ofNum 4, -5⟩, ⟨.ofNum 2, 5⟩])).toBytes

/-- The creation of a schedule for the transfer, signed by account 0.0.2. -/
def creation : Delivery := delivery 100 (.scheduleCreate transferBody none none "" [signature 2])

/-- The missing signature of account 0.0.4. -/
def approval : Delivery := delivery 101 (.scheduleSign (.ofNum 1000) [signature 4])

end Sample

namespace Node

variable (c : ProcessingConfig) (book : AddressBook) (verification : Signing.VerifierConfig)
  (fees : FeeSchedule) {start : Processor} {lifetime : Int64} {first : UInt64}

/-- The schedules wait before and after a call that comes at the end of a run, and the call is
brief. -/
theorem deliver_kept {ds : List Delivery} {d : Delivery} {k : Nat}
    (hkept : Kept ((standard c book verification fees start).after ds).processor.ledger.key?
      verification.verifier (scheduledSignatures ds) (scheduledBodies ds) first k
      ((standard c book verification fees start).after ds).processor.schedules)
    (hdistinct : Digest.CollisionFree (scheduledBodies (ds ++ [d])))
    (hbound : ∀ body, d.scheduledBody? = some body → k < 0x10000000000000000) :
    let n := standard c book verification fees start
    (∃ k' ≤ k + d.scheduledBody?.toList.length,
      Kept (n.after (ds ++ [d])).processor.ledger.key? verification.verifier
        (scheduledSignatures (ds ++ [d])) (scheduledBodies (ds ++ [d])) first k'
        (n.after (ds ++ [d])).processor.schedules) ∧
    Processor.BriefCall (Executed (n.after ds).processor.ledger.key? verification.verifier
      (scheduledSignatures (ds ++ [d])) first k (n.after ds).processor.schedules
      (d.scheduledBody?.getD [])) n.rules (n.after ds).processor d
      ((n.after ds).deliver d).answer (n.after (ds ++ [d])).processor := by
  intro n
  obtain ⟨hold, hnew⟩ := mem_scheduledSignatures_concat ds d
  obtain ⟨hearlier, hbody⟩ := mem_scheduledBodies_concat ds d
  have hbrought : ∀ body, d.scheduledBody? = some body →
      body ∈ scheduledBodies (ds ++ [d]) ∧ k < 0x10000000000000000 :=
    fun body hsome => ⟨hbody body hsome, hbound body hsome⟩
  have hkept' : Kept (n.after ds).processor.ledger.key? n.rules.verification.verifier
      (scheduledSignatures (ds ++ [d])) (scheduledBodies (ds ++ [d])) first k
      (n.after ds).processor.schedules :=
    hkept.mono hold hearlier
  rw [processor_after_concat, deliver_after]
  exact Processor.incorporate_kept rfl hkept' hnew hbrought hdistinct

/-- The number of inner bodies that were delivered bounds the identifiers that were handed out. -/
theorem call_kept {ds : List Delivery} {d : Delivery} {k : Nat}
    (hk : k ≤ (scheduledBodies ds).length)
    (hkept : Kept ((standard c book verification fees start).after ds).processor.ledger.key?
      verification.verifier (scheduledSignatures ds) (scheduledBodies ds) first k
      ((standard c book verification fees start).after ds).processor.schedules)
    (hdistinct : Digest.CollisionFree (scheduledBodies (ds ++ [d])))
    (hfew : (scheduledBodies (ds ++ [d])).length ≤ 0x10000000000000000) :
    let n := standard c book verification fees start
    (∃ k' ≤ (scheduledBodies (ds ++ [d])).length,
      Kept (n.after (ds ++ [d])).processor.ledger.key? verification.verifier
        (scheduledSignatures (ds ++ [d])) (scheduledBodies (ds ++ [d])) first k'
        (n.after (ds ++ [d])).processor.schedules) ∧
    Processor.BriefCall (Executed (n.after ds).processor.ledger.key? verification.verifier
      (scheduledSignatures (ds ++ [d])) first k (n.after ds).processor.schedules
      (d.scheduledBody?.getD [])) n.rules (n.after ds).processor d
      ((n.after ds).deliver d).answer (n.after (ds ++ [d])).processor := by
  intro n
  have hlength := congrArg List.length (scheduledBodies_concat ds d)
  rw [List.length_append] at hlength
  have hbound : ∀ body, d.scheduledBody? = some body → k < 0x10000000000000000 := by
    intro body hbody
    rw [hbody, Option.toList_some, List.length_singleton] at hlength
    omega
  obtain ⟨⟨k', hk', hkept'⟩, hbrief⟩ :=
    deliver_kept c book verification fees hkept hdistinct hbound
  exact ⟨⟨k', by omega, hkept'⟩, hbrief⟩

/-- Schedules wait all along a run, as long as fewer identifiers than there are were handed out. -/
theorem schedules_kept (hempty : start.schedules = .empty lifetime first) (ds : List Delivery)
    (hdistinct : Digest.CollisionFree (scheduledBodies ds))
    (hfew : (scheduledBodies ds).length ≤ 0x10000000000000000) :
    let n := standard c book verification fees start
    ∃ k ≤ (scheduledBodies ds).length,
      Kept (n.after ds).processor.ledger.key? verification.verifier (scheduledSignatures ds)
        (scheduledBodies ds) first k (n.after ds).processor.schedules := by
  intro n
  induction ds using List.reverseRecOn with
  | nil => exact ⟨0, Nat.le_refl 0, hempty ▸ kept_empty _ _ _ _ lifetime first⟩
  | append_singleton ds d ih =>
    have hlength := congrArg List.length (scheduledBodies_concat ds d)
    rw [List.length_append] at hlength
    obtain ⟨k, hk, hkept⟩ := ih
      (hdistinct.of_subset (mem_scheduledBodies_concat ds d).1) (by omega)
    exact (call_kept c book verification fees hk hkept hdistinct hfew).1

/-- After every call each committed schedule waits: its inner body can be scheduled, those who have
to sign it have keys that are not all active over its signatories, and the signatories are distinct
leaves of these keys, each with a signature over the exact body that a schedule operation
delivered. -/
theorem committed_schedules_wait (hempty : start.schedules = .empty lifetime first)
    (ds : List Delivery) (hdistinct : Digest.CollisionFree (scheduledBodies ds))
    (hfew : (scheduledBodies ds).length ≤ 0x10000000000000000) :
    let n := standard c book verification fees start
    ∀ id x, (n.after ds).processor.schedules.committed? id = some x →
      x.Waiting (n.after ds).processor.ledger.key? verification.verifier
        (scheduledSignatures ds) := by
  intro n id x hx
  obtain ⟨k, -, hkept⟩ := schedules_kept c book verification fees hempty ds hdistinct hfew
  exact (hkept.waiting id x hx).1

/-- The scheduled transfer waits for account 0.0.4, with the signature of account 0.0.2 stored. -/
theorem committed_schedules_wait_creation :
    let p := (Sample.after [Sample.creation]).processor
    ∃ x, p.schedules.committed? (.ofNum 1000) = some x ∧ x.signatories = [Sample.key 2] ∧
      x.Waiting p.ledger.key? Sample.verification.verifier
        (scheduledSignatures [Sample.creation]) := by
  intro p
  have hbodies : scheduledBodies [Sample.creation] = [Sample.transferBody] := by decide +kernel
  have hstored : (p.schedules.committed? (.ofNum 1000)).any
      (fun x => x.signatories = [Sample.key 2]) = true := by decide +kernel
  obtain ⟨x, hx, hsignatories⟩ := (Option.any_eq_true _ _).1 hstored
  refine ⟨x, hx, of_decide_eq_true hsignatories, ?_⟩
  refine committed_schedules_wait {} Sample.book Sample.verification {} rfl [Sample.creation] ?_ ?_
    (.ofNum 1000) x hx
  · rw [hbodies]
    exact Digest.collisionFree_singleton _
  · rw [hbodies]
    decide

end Node

end ConsensusLedger
