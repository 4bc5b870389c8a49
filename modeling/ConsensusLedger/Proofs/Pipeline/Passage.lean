import ConsensusLedger.Proofs.Pipeline.Run

/-!
A transaction that nothing stops: a transfer of nothing, by the account of the member that submits it,
where transactions are free and every signature is accepted. It succeeds whenever its identifier is not
remembered and it comes within its valid duration.
-/

namespace ConsensusLedger

open Signing

/-- All transactions are free. -/
def FeeSchedule.free : FeeSchedule := ⟨0, 0, 0, 0, 0, 0, 0⟩

theorem FeeSchedule.fee_free (txn : Envelope) (payerKey : Option Key) (rates : ExchangeRates) :
    free.fee txn payerKey rates = ⟨0, 0, 0⟩ := by
  have hconvert (rate : ExchangeRate) : convert rate 0 = 0 := by
    rw [convert, UInt64.toNat_zero, Nat.zero_mul, Nat.zero_div, Nat.zero_min]
    rfl
  have hproduct (n : UInt64) : mulCapped 0 n = 0 := by
    rw [mulCapped, UInt64.toNat_zero, Nat.zero_mul, Nat.zero_min]
    rfl
  have hservice (f : Function) : free.servicePrice f = 0 := by cases f <;> rfl
  have hnode : free.node = 0 := rfl
  have hnetwork : free.networkPerSignature = 0 := rfl
  simp only [fee, hnode, hnetwork, hservice, hproduct, hconvert]

namespace Charging

theorem chargePayer_zero (c : Charging) (target : AccountId) :
    ∃ c', c.chargePayer target 0 = (.ok (), c') ∧ c'.ledger = c.ledger :=
  ⟨_, rfl, rfl⟩

/-- Nothing can always be charged. -/
theorem applyAll_free (c : Charging) :
    ∃ c', c.applyAll ⟨0, 0, 0⟩ = (.ok, c', none) ∧ c'.ledger = c.ledger := by
  have hnothing (n : UInt64) : ¬n < 0 := UInt64.not_lt_zero
  have hfee : (Fee.mk 0 0 0).nodeAndNetwork = 0 := rfl
  have htotal : (Fee.mk 0 0 0).total = 0 := rfl
  obtain ⟨c₁, h₁, hledger₁⟩ := c.chargePayer_zero c.nodeAccount
  obtain ⟨c₂, h₂, hledger₂⟩ := c₁.chargePayer_zero c₁.funding
  obtain ⟨c₃, h₃, hledger₃⟩ := c₂.chargePayer_zero c₂.funding
  refine ⟨c₃, ?_, hledger₃.trans (hledger₂.trans hledger₁)⟩
  simp only [applyAll, applyNodeAndNetwork, hfee, hnothing, ↓reduceIte, payerToNode, payerToFunding,
    h₁, h₂, serviceShortfall?, htotal, h₃]

end Charging

/-- A free transaction is paid for without a change of the ledger. -/
theorem Handling.charge_free (h : Handling) (funding : AccountId) (txn : Envelope) :
    (h.charge funding .standard txn ⟨0, 0, 0⟩).1 = .ok ∧
      (h.charge funding .standard txn ⟨0, 0, 0⟩).2.ledger = h.ledger := by
  obtain ⟨c, hc, hledger⟩ := (h.charging funding txn).applyAll_free
  have hcharge : ChargeKind.standard.apply ⟨0, 0, 0⟩ (h.charging funding txn) = (.ok, c, none) := hc
  unfold charge
  rw [hcharge]
  exact ⟨rfl, hledger⟩

namespace Ledger

/-- An adjustment by nothing is never refused in an open transaction. -/
theorem adjust_zero {l : Ledger} {c : ChangeSet} {id : AccountId} {balance : UInt64}
    (hchanges : l.changes = some c) (hbalance : l.balance? id = some balance) :
    ∃ l', l.adjust id 0 = .ok l' := by
  have hbound := balance.toNat_lt
  have hlow := (c.delta id).le_toInt
  have hhigh := (c.delta id).toInt_lt
  have hsame : amountOf? ((c.delta id).toInt + (0 : Int64).toInt) = some (c.delta id) :=
    amountOf?_eq_some_iff.2 (by rw [Int64.toInt_zero, Int.add_zero])
  have hpositive : ¬((balance.toNat : Int) + (0 : Int64).toInt < 0) := by
    rw [Int64.toInt_zero]
    omega
  have hfits : ¬(0x10000000000000000 ≤ (balance.toNat : Int) + (0 : Int64).toInt) := by
    rw [Int64.toInt_zero]
    omega
  simp only [adjust, hbalance, hpositive, hchanges, hfits, hsame, ↓reduceIte]
  exact ⟨_, rfl⟩

/-- An account has a balance when a transaction has just been opened. -/
theorem balance?_opened {accounts : Collection AccountId Account} {id : AccountId}
    (h : (Ledger.mk accounts (some ∅)).contains id = true) :
    ∃ balance, (Ledger.mk accounts (some ∅)).balance? id = some balance := by
  obtain ⟨a, ha⟩ := Option.isSome_iff_exists.1 h
  refine ⟨a.balance, ?_⟩
  rw [balance?, ha, Option.bind_some]
  refine balanceOf?_eq_some_iff.2 ?_
  have hdelta : (Ledger.mk accounts (some ∅)).delta id = 0 := rfl
  rw [hdelta, Int64.toInt_zero, Int.add_zero]

end Ledger

namespace Transition

theorem transferSyntax_nothing (id : AccountId) : transferSyntax [⟨id, 0⟩] = .ok := by
  have hsum : netAmount [⟨id, 0⟩] = 0 := rfl
  have hnodup : ([⟨id, 0⟩] : List AccountAmount).map (·.account) |>.Nodup :=
    List.pairwise_singleton _ id
  simp only [transferSyntax, List.isEmpty_cons, Bool.false_eq_true, hsum, hnodup, ne_eq,
    not_true_eq_false, ↓reduceIte]

/-- An account can always give itself nothing. -/
theorem runTransfer_nothing {h : Handling} {c : ChangeSet} {id : AccountId} {balance : UInt64}
    (hchanges : h.ledger.changes = some c) (hbalance : h.ledger.balance? id = some balance) :
    ∃ ledger, runTransfer [⟨id, 0⟩] h = (.ok (), { h with ledger := ledger }.setStatus .ok) := by
  obtain ⟨ledger, hledger⟩ := Ledger.adjust_zero hchanges hbalance
  have hpositive : ¬((balance.toNat : Int) + (0 : Int64).toInt < 0) := by
    rw [Int64.toInt_zero]
    omega
  refine ⟨ledger, ?_⟩
  simp only [runTransfer, transferFailure, hbalance, hpositive, ↓reduceIte,
    adjustAll, hledger]

end Transition

/-- A delivered transaction that is free is paid for without a change of the ledger. -/
theorem Processor.paid_free {rules : Rules} (hfees : rules.fees = .free) (p : Processor)
    (txn : Envelope) (r : Rationalization) (h : Handling) :
    (paid rules p txn r h).1 = .ok ∧ (paid rules p txn r h).2.ledger = h.ledger := by
  rw [paid, hfees, FeeSchedule.fee_free]
  exact (h.identified r).charge_free rules.funding txn

/-- A transfer of nothing by its payer, whose account also answers for the submission. -/
structure Envelope.Idle (txn : Envelope) : Prop where
  data : txn.body.data = .cryptoTransfer [⟨txn.payer, 0⟩]
  nodeAccount : txn.body.nodeAccount = txn.payer
  signatures : txn.signatures = [⟨[], []⟩]

namespace Envelope.Idle

variable {txn : Envelope}

theorem rationalize (hidle : txn.Idle) (ledger : Ledger) (schedules : ScheduleStore)
    (config : VerifierConfig) {key : PublicKey}
    (hkey : ledger.key? txn.payer = some (.ed25519 key))
    (haccepts : ∀ key message signature, config.verifier key message signature = true) :
    let r := ConsensusLedger.rationalize txn ledger schedules config
    r.status.code = .ok ∧ r.payerActive = true ∧ r.othersActive = true := by
  intro r
  have hothers : Requirement.otherKeys ledger schedules .invalidAccountId txn.body.data = .ok [] := by
    rw [hidle.data]
    rfl
  have hscope : Requirement.scheduledScope txn ledger schedules config = .ok none := by
    rw [Requirement.scheduledScope, Requirement.scheduledParts, hidle.data]
  have hverified : ∃ mode, config.verifyMap txn.bodyBytes txn.signatures [key] =
      ⟨[⟨key, true⟩], ⟨.ok, mode⟩⟩ := by
    have hexpand : expand [⟨[], []⟩] [key] = .ok [⟨key, []⟩] := rfl
    rw [hidle.signatures, VerifierConfig.verifyMap, hexpand]
    simp only [List.map_cons, List.map_nil, haccepts]
    exact ⟨_, rfl⟩
  obtain ⟨mode, hverified⟩ := hverified
  have hleaves : Key.leavesAll ((ledger.key? txn.payer).toList ++ []) = [key] := by
    rw [hkey]
    rfl
  have hr : r.status.code = .ok ∧ r.payerKey = some (.ed25519 key) ∧ r.otherKeys = [] ∧
      r.outer.signatures = [⟨key, true⟩] := by
    simp only [r, ConsensusLedger.rationalize, hothers, hleaves, hscope, hverified]
    exact ⟨rfl, hkey, trivial, trivial⟩
  obtain ⟨hcode, hpayer, hnone, hsignatures⟩ := hr
  refine ⟨hcode, ?_, ?_⟩
  · have hvalid : r.outer.hasValid key = true := by
      rw [Verified.hasValid, hsignatures]
      simp only [List.any_cons, decide_true, Bool.and_true, Bool.true_or]
    rw [Rationalization.payerActive, hpayer]
    exact hvalid
  · rw [Rationalization.othersActive, hnone]
    rfl

/-- The dispatch of a transfer of nothing succeeds. -/
theorem dispatch (hidle : txn.Idle) (maxMemoBytes : UInt64) (scope : Option ScheduledScope)
    {h : Handling} {c : ChangeSet} {balance : UInt64} (hchanges : h.ledger.changes = some c)
    (hbalance : h.ledger.balance? txn.payer = some balance) :
    (h.dispatch (.standard maxMemoBytes) txn scope).1 = .ok true ∧
      (h.dispatch (.standard maxMemoBytes) txn scope).2.context.status = .ok ∧
      (h.dispatch (.standard maxMemoBytes) txn scope).2.context.triggered =
        h.context.triggered := by
  obtain ⟨ledger, hrun⟩ := Transition.runTransfer_nothing hchanges hbalance
  rw [Handling.dispatch_cryptoTransfer maxMemoBytes scope h hidle.data
    (Transition.transferSyntax_nothing txn.payer), hrun]
  exact ⟨rfl, rfl, rfl⟩

variable (rules : Rules) {maxMemoBytes : UInt64} (p : Processor) {key : PublicKey}

/-- A transfer of nothing that is not remembered and is within its valid duration runs. -/
theorem running (hidle : txn.Idle) (context : Context)
    (hstandard : rules.transitions = .standard maxMemoBytes) (hfees : rules.fees = .free)
    (haccepts : ∀ key message signature, rules.verification.verifier key message signature = true)
    (hkey : p.ledger.key? txn.payer = some (.ed25519 key))
    (hnode : context.nodeAccount = some txn.payer) (htriggered : context.triggered = none)
    (hunique : (p.histories.purge context.time).2.duplicity txn.id context.member = .believedUnique)
    (hduration : rules.durations.contains txn.body.validDuration = true)
    (hchronology : Gate.chronology txn.body context.time = .ok) :
    (p.running rules txn context false).1 = .ok true ∧
      (p.running rules txn context false).2.context.status = .ok ∧
      (p.running rules txn context false).2.context.triggered = none := by
  let opened := (p.opened context.time).processor
  let r := p.rationalized rules txn context.time
  let h := p.opening context
  obtain ⟨hcode, hpayer, hothers⟩ : r.status.code = .ok ∧ r.payerActive = true ∧
      r.othersActive = true :=
    hidle.rationalize opened.ledger opened.schedules rules.verification hkey haccepts
  have hcontains : p.ledger.contains txn.payer = true := by
    obtain ⟨a, ha, -⟩ := Option.map_eq_some_iff.1 hkey
    rw [Ledger.contains, ha]
    rfl
  have hnotSeen {d : Duplicity}
      (hseen : (p.histories.purge context.time).2.duplicity txn.id context.member = d) :
      .believedUnique = d :=
    hunique.symm.trans hseen
  have hdue : Processor.dueFailure rules opened txn r h = none := by
    refine Processor.dueFailure_eq_none _ _ _ _ _ ?_ hpayer ?_ hduration hchronology
    · rw [Gate.nodeAccountMatches, hidle.nodeAccount, Bool.and_eq_true, decide_eq_true_eq]
      exact ⟨hcontains, hnode⟩
    · intro hseen
      cases hnotSeen hseen
  obtain ⟨hpaid, hledger⟩ := Processor.paid_free hfees opened txn r h
  have hdelivered : Processor.Delivered rules opened txn r h (p.running rules txn context false) :=
    Processor.runDelivered_delivered rules opened txn r h
  generalize p.running rules txn context false = run at hdelivered
  cases hdelivered with
  | blamed code notices hblamed => cases hdue.symm.trans hblamed
  | duplicate _ hseen => cases hnotSeen hseen
  | unpaid _ _ hunpaid => exact absurd hpaid hunpaid
  | unresolved _ _ hends =>
    rw [hcode] at hends
    cases hends
  | unsigned _ _ hunsigned => cases hothers.symm.trans hunsigned
  | dispatched =>
    obtain ⟨balance, hbalance⟩ := Ledger.balance?_opened hcontains
    have hchanges : (Processor.paid rules opened txn r h).2.ledger.changes = some ∅ :=
      congrArg Ledger.changes hledger
    have hbalance' : (Processor.paid rules opened txn r h).2.ledger.balance? txn.payer =
        some balance :=
      (congrArg (Ledger.balance? · txn.payer) hledger).trans hbalance
    obtain ⟨hran, hstatus, hsame⟩ := hidle.dispatch maxMemoBytes r.scheduled hchanges hbalance'
    rw [hstandard]
    exact ⟨hran, hstatus, hsame.trans htriggered⟩

/-- A transfer of nothing that is delivered, not remembered and within its valid duration brings one
record, of its success. -/
theorem incorporate (hidle : txn.Idle) (time : Timestamp) (member : MemberId)
    (hstandard : rules.transitions = .standard maxMemoBytes) (hfees : rules.fees = .free)
    (haccepts : ∀ key message signature, rules.verification.verifier key message signature = true)
    {bytes : List UInt8} {address : NodeAddress}
    (hparse : Envelope.ofSigned bytes = .ok txn) (haddress : address.account = txn.payer)
    (hsane : Gate.sanityCheck rules.book time p.clock.lastHandled member = .ok address)
    (hkey : p.ledger.key? txn.payer = some (.ed25519 key))
    (hunique : (p.histories.purge time).2.duplicity txn.id member = .believedUnique)
    (hduration : rules.durations.contains txn.body.validDuration = true)
    (hchronology : Gate.chronology txn.body time = .ok) :
    let done := p.incorporate rules bytes time member
    ∃ r, done.answer = [r] ∧ r.id = txn.id ∧ r.status = .ok ∧ r.scheduleRef = none ∧
      done.processor.histories = (p.histories.purge time).2.observe txn.id member .ok time ∧
      done.processor.clock.lastHandled = some time ∧
      done.processor.ledger.key? txn.payer = some (.ed25519 key) := by
  intro done
  have htime : Processor.effectiveTime txn time = time := by
    rw [Processor.effectiveTime, Envelope.canTrigger, Envelope.function, TransactionBody.function,
      hidle.data]
    rfl
  obtain ⟨r, next, q, rest, hanswer, hfirst, hrest⟩ :=
    Processor.incorporate_accepted hstandard p hparse (htime.symm ▸ hsane)
  rw [htime] at hfirst
  obtain ⟨hran, hok, hnothing⟩ := hidle.running rules p
    (.start time member (some address.account)) hstandard hfees haccepts hkey
    (congrArg some haddress) rfl hunique hduration hchronology
  obtain ⟨-, -, -, hnext⟩ := hfirst.committed true hran
  have hstatus : r.status = .ok := hfirst.status.trans hok
  have hlast : done.answer = [r] ∧ done.processor = q := by
    cases hnext.trans hnothing
    cases hrest with
    | ended => exact ⟨hanswer, rfl⟩
  rw [hlast.1, hlast.2, hfirst.lastHandled, hfirst.histories, (hfirst.account_frame txn.payer).1,
    hstatus]
  exact ⟨r, rfl, hfirst.id, hstatus, hfirst.scheduleRef.trans (Envelope.schedule_of_ofSigned hparse),
    rfl, rfl, hkey⟩

end Envelope.Idle

end ConsensusLedger
