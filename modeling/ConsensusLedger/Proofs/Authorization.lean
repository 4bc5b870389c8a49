import ConsensusLedger.Proofs.WaitingSchedules

/-!
Who can lose by a transaction. Along a run that starts without schedules an account is debited only
when it is the submitting member's, or when its key is active over public keys that have signed: the
delivered body itself, or the inner body of the schedule that is executed.
-/

namespace ConsensusLedger

open Signing ScheduleStore

namespace Delivery

/-- Whether a delivered signature map has a signature of a public key over the delivered body. -/
def attested (d : Delivery) (verifier : Verifier) : PublicKey → Bool :=
  match Envelope.ofSigned d.bytes with
  | .ok txn => attests verifier txn.signatures txn.bodyBytes
  | .error _ => fun _ => false

theorem attested_eq {d : Delivery} {txn : Envelope} (hparse : Envelope.ofSigned d.bytes = .ok txn)
    (verifier : Verifier) :
    d.attested verifier = attests verifier txn.signatures txn.bodyBytes := by
  rw [attested, hparse]

end Delivery

theorem Gate.sanityCheck_address {book : AddressBook} {time : Timestamp} {last : Option Timestamp}
    {member : MemberId} {address : NodeAddress}
    (h : sanityCheck book time last member = .ok address) : book.get? member = some address := by
  have hstaked : stakedAddress book member = .ok address := by
    unfold sanityCheck at h
    split at h
    · split at h
      · exact h
      · cases h
    · exact h
  unfold stakedAddress at hstaked
  split at hstaked
  · rename_i found hfound
    split at hstaked
    · cases hstaked
      exact hfound
    · cases hstaked
  · cases hstaked

namespace Processor

section Debit

variable {rules : Rules} {maxMemoBytes : UInt64} {p q : Processor} {txn : Envelope}
  {context : Context} {r : Record} {next : Option Envelope} {a : AccountAmount}

/-- The record of a delivered transaction debits only the submitting member's account and accounts
whose key is active over the public keys that have signed the delivered body. -/
theorem Recorded.delivered_debit (hstandard : rules.transitions = .standard maxMemoBytes)
    (h : Recorded rules p txn context false r next q) (ha : a ∈ r.transfers) (hneg : a.amount < 0) :
    context.nodeAccount = some a.account ∨ ∃ k, p.ledger.key? a.account = some k ∧
      k.isActive (attests rules.verification.verifier txn.signatures txn.bodyBytes) = true := by
  rcases h.debtor hstandard ha hneg with hnode | ⟨hpayer, heq⟩ | ⟨hends, hothers, hid⟩
  · exact .inl hnode
  · rw [heq]
    exact .inr (Requirement.payer_attested hpayer)
  · exact .inr (Requirement.debits_attested hends hothers a.account hid)

/-- The record of a triggered transaction debits only its payer and the accounts that it lists. -/
theorem Recorded.triggered_debit (hstandard : rules.transitions = .standard maxMemoBytes)
    (h : Recorded rules p txn context true r next q) (ha : a ∈ r.transfers) (hneg : a.amount < 0) :
    a.account ∈ txn.payer :: txn.body.data.debits :=
  h.debtor hstandard ha hneg

end Debit

/-- Which public keys have signed what a record of a delivery is of, after some earlier deliveries: the
delivered body, in its own signature map, or the inner body of the schedule that is executed, in some
schedule operation delivered so far. -/
def hasSigned (p : Processor) (verifier : Verifier) (ds : List Delivery) (d : Delivery) (r : Record) :
    PublicKey → Bool :=
  match r.scheduleRef with
  | none => d.attested verifier
  | some id => attests verifier (scheduledSignatures (ds ++ [d]))
      (p.schedules.executedBody (d.scheduledBody?.getD []) id)

/-- The member that submitted the delivery has this account, or the account has a key that is active
over the public keys that have signed. -/
def Authorized (p : Processor) (book : AddressBook) (verifier : Verifier) (ds : List Delivery)
    (d : Delivery) (r : Record) (id : AccountId) : Prop :=
  (∃ address, book.get? d.member = some address ∧ id = address.account) ∨
    ∃ k, p.ledger.key? id = some k ∧ k.isActive (p.hasSigned verifier ds d r) = true

/-- What a brief call debits is authorized. -/
theorem BriefCall.authorized (rules : Rules) {maxMemoBytes : UInt64}
    (hstandard : rules.transitions = .standard maxMemoBytes) {p q : Processor} {ds : List Delivery}
    {d : Delivery} {records : List Record} {first : UInt64} {n : Nat}
    (htidy : Tidy first n p.schedules)
    (h : BriefCall (Executed p.ledger.key? rules.verification.verifier
      (scheduledSignatures (ds ++ [d])) first n p.schedules (d.scheduledBody?.getD [])) rules p d
      records q) :
    ∀ r ∈ records, ∀ a ∈ r.transfers, a.amount < 0 →
      p.Authorized rules.book rules.verification.verifier ds d r a.account := by
  have hdelivered {txn : Envelope} {address : NodeAddress} {r : Record} {next : Option Envelope}
      {q : Processor} (hparse : Envelope.ofSigned d.bytes = .ok txn)
      (hsane : Gate.sanityCheck rules.book (effectiveTime txn d.time) p.clock.lastHandled d.member =
        .ok address)
      (hfirst : Recorded rules p txn
        (.start (effectiveTime txn d.time) d.member (some address.account)) false r next q) :
      ∀ a ∈ r.transfers, a.amount < 0 →
        p.Authorized rules.book rules.verification.verifier ds d r a.account := by
    intro a ha hneg
    rcases hfirst.delivered_debit hstandard ha hneg with hnode | hkey
    · exact .inl ⟨address, Gate.sanityCheck_address hsane, (Option.some.inj hnode).symm⟩
    · right
      rw [hasSigned, hfirst.scheduleRef, Envelope.schedule_of_ofSigned hparse]
      simpa only [Delivery.attested_eq hparse] using hkey
  cases h with
  | dropped =>
    intro r hr
    cases hr
  | delivered hparse hsane hfirst =>
    intro r hr
    rw [List.mem_singleton] at hr
    exact hr ▸ hdelivered hparse hsane hfirst
  | triggered hparse hsane hfirst hexecuted hsecond =>
    intro r hr
    rcases List.mem_cons.1 hr with rfl | hr
    · exact hdelivered hparse hsane hfirst
    · intro a ha hneg
      rw [List.mem_singleton] at hr
      subst hr
      obtain ⟨id, hid, -, hattested⟩ := hexecuted.attested htidy
      right
      rw [hasSigned, hsecond.scheduleRef, hid]
      exact hattested a.account (hsecond.triggered_debit hstandard ha hneg)

end Processor

namespace Node

variable (c : ProcessingConfig) (book : AddressBook) (verification : VerifierConfig)
  (fees : FeeSchedule) {start : Processor} {lifetime : Int64} {first : UInt64}

/-- Every account that a record of a call debits is the submitting member's, or has a key that is
active over the public keys that have signed. -/
theorem debits_authorized (hempty : start.schedules = .empty lifetime first)
    (ds : List Delivery) (d : Delivery)
    (hdistinct : Digest.CollisionFree (scheduledBodies (ds ++ [d])))
    (hfew : (scheduledBodies (ds ++ [d])).length ≤ 0x10000000000000000) :
    let n := (standard c book verification fees start).after ds
    ∀ r ∈ (n.deliver d).answer, ∀ a ∈ r.transfers, a.amount < 0 →
      n.processor.Authorized book verification.verifier ds d r a.account := by
  have hbodies := scheduledBodies_concat ds d
  have hlength := congrArg List.length hbodies
  rw [List.length_append] at hlength
  obtain ⟨k, hk, hkept⟩ := schedules_kept c book verification fees hempty ds
    (hdistinct.of_subset fun body => by rw [hbodies]; exact List.mem_append_left _) (by omega)
  have hbrief := (call_kept c book verification fees hk hkept hdistinct hfew).2
  exact hbrief.authorized (standard c book verification fees start).rules rfl hkept.tidy

/-- The scheduled transfer runs once account 0.0.4 has signed, and debits it. -/
theorem debits_authorized_approval :
    let p := (Sample.after [Sample.creation]).processor
    ∃ r ∈ ((Sample.after [Sample.creation]).deliver Sample.approval).answer,
      r.scheduleRef = some (.ofNum 1000) ∧ ⟨.ofNum 4, -5⟩ ∈ r.transfers ∧
      p.Authorized Sample.book Sample.verification.verifier [Sample.creation] Sample.approval r
        (.ofNum 4) := by
  intro p
  have hbodies : scheduledBodies ([Sample.creation] ++ [Sample.approval]) =
      [Sample.transferBody] := by decide +kernel
  have hdebit : ∃ r ∈ ((Sample.after [Sample.creation]).deliver Sample.approval).answer,
      r.scheduleRef = some (.ofNum 1000) ∧ ⟨.ofNum 4, -5⟩ ∈ r.transfers := by decide +kernel
  obtain ⟨r, hr, hscheduled, hdebited⟩ := hdebit
  refine ⟨r, hr, hscheduled, hdebited, ?_⟩
  refine debits_authorized {} Sample.book Sample.verification {} rfl [Sample.creation]
    Sample.approval ?_ ?_ r hr ⟨.ofNum 4, -5⟩ hdebited (by decide)
  · rw [hbodies]
    exact Digest.collisionFree_singleton _
  · rw [hbodies]
    decide

end Node

end ConsensusLedger
