import ConsensusLedger.Proofs.Pipeline.History
import ConsensusLedger.Proofs.Pipeline.Provenance

/-!
The transactions of a call. Whatever is pending, a call handles nothing, the delivered transaction,
or the delivered transaction and after it one that it triggers; and what holds of the schedules
before it, and of the one that it creates, holds of them after it.
-/

namespace ConsensusLedger

namespace Processor

/-- The transactions that a call handles, with their records, and the processor after it. -/
inductive HandledCall (rules : Rules) (p : Processor) (d : Delivery) :
    List HandledTransaction → Processor → Prop
  | dropped : HandledCall rules p d [] p
  | alone {txn : Envelope} {address : NodeAddress} {r : Record} {q : Processor}
      (hparse : Envelope.ofSigned d.bytes = .ok txn)
      (hsane : Gate.sanityCheck rules.book (effectiveTime txn d.time) p.clock.lastHandled d.member =
        .ok address)
      (hfirst : Recorded rules p txn
        (.start (effectiveTime txn d.time) d.member (some address.account)) false r none q) :
      HandledCall rules p d [⟨txn, r⟩] q
  | followed {txn inner : Envelope} {address : NodeAddress} {r s : Record} {q q' : Processor}
      (hparse : Envelope.ofSigned d.bytes = .ok txn)
      (hsane : Gate.sanityCheck rules.book (effectiveTime txn d.time) p.clock.lastHandled d.member =
        .ok address)
      (hfirst : Recorded rules p txn
        (.start (effectiveTime txn d.time) d.member (some address.account)) false r (some inner) q)
      (hsecond : Recorded rules q inner
        (.start d.time d.member (some address.account)) true s none q') :
      HandledCall rules p d [⟨txn, r⟩, ⟨inner, s⟩] q'

section Call

variable {rules : Rules} {maxMemoBytes : UInt64}
  (hstandard : rules.transitions = .standard maxMemoBytes) (p : Processor)

include hstandard

/-- Nothing follows a triggered transaction. -/
theorem handledFollowing_some (count : Nat) (time : Timestamp) (member : MemberId)
    (account : AccountId) (inner : Envelope) :
    ∃ s q, Recorded rules p inner (.start time member (some account)) true s none q ∧
      handledFollowing rules time member account (count + 1) p (some inner) = [⟨inner, s⟩] ∧
      (follow rules time member account (count + 1) p (some inner)).processor = q := by
  have hrecorded := handleAndRecord_recorded rules p inner true hstandard time member account
  rw [handledFollowing, follow]
  generalize p.handleAndRecord rules inner time member account true = done at hrecorded ⊢
  obtain ⟨⟨s, next⟩, notices, q⟩ := done
  cases next with
  | none => exact ⟨s, q, hrecorded, by cases count <;> rfl, by cases count <;> rfl⟩
  | some txn =>
    obtain ⟨hdelivered, -⟩ := hrecorded.canTrigger hstandard rfl
    cases hdelivered

/-- A call handles the transactions of one of the listed cases. -/
theorem incorporate_handledCall (d : Delivery) :
    HandledCall rules p d (p.handled rules d)
      (p.incorporate rules d.bytes d.time d.member).processor := by
  cases hparse : Envelope.ofSigned d.bytes with
  | error e =>
    simp only [incorporate, handled, hparse]
    exact .dropped
  | ok txn =>
    cases hsane : Gate.sanityCheck rules.book (effectiveTime txn d.time) p.clock.lastHandled
        d.member with
    | error e =>
      simp only [incorporate, handled, hparse, hsane]
      exact .dropped
    | ok address =>
      have hfirst := handleAndRecord_recorded rules p txn false hstandard (effectiveTime txn d.time)
        d.member address.account
      simp only [incorporate, handled, hparse, hsane, accept]
      generalize p.handleAndRecord rules txn (effectiveTime txn d.time) d.member address.account
        false = first at hfirst ⊢
      obtain ⟨⟨r, next⟩, notices, q⟩ := first
      cases next with
      | none => exact .alone hparse hsane hfirst
      | some inner =>
        have hlimit : chainLimit = (chainLimit - 1) + 1 := rfl
        obtain ⟨s, q', hsecond, hhandled, hafter⟩ := handledFollowing_some hstandard q
          (chainLimit - 1) d.time d.member address.account inner
        rw [hlimit, hhandled, hafter]
        exact .followed hparse hsane hfirst hsecond

end Call

section Contents

variable (rules : Rules) (p : Processor)

theorem handleAndRecord_contents (txn : Envelope) (time : Timestamp) (member : MemberId)
    (account : AccountId) (triggered : Bool) :
    (p.handleAndRecord rules txn time member account triggered).answer.1.hash = txn.hash ∧
      (p.handleAndRecord rules txn time member account triggered).answer.1.memo =
        txn.body.memo := by
  have hanswer := (finish_frame txn
    (p.handle rules txn (.start time member (some account)) triggered).processor
    ⟨(p.handle rules txn (.start time member (some account)) triggered).answer.context.takeTriggered.2,
      (p.handle rules txn (.start time member (some account)) triggered).answer.committed⟩).1
  exact ⟨congrArg Record.hash hanswer, congrArg Record.memo hanswer⟩

theorem handledFollowing_contents (time : Timestamp) (member : MemberId) (account : AccountId)
    (count : Nat) (next : Option Envelope) :
    ∀ h ∈ handledFollowing rules time member account count p next,
      h.record.hash = h.txn.hash ∧ h.record.memo = h.txn.body.memo := by
  induction count generalizing p next with
  | zero => exact fun _ hmem => absurd hmem List.not_mem_nil
  | succ count ih =>
    cases next with
    | none => exact fun _ hmem => absurd hmem List.not_mem_nil
    | some txn =>
      simp only [handledFollowing, List.forall_mem_cons]
      exact ⟨p.handleAndRecord_contents rules txn time member account true, ih _ _⟩

/-- The records of a call have the hashes and the memos of their transactions. -/
theorem handled_contents (d : Delivery) :
    ∀ h ∈ p.handled rules d, h.record.hash = h.txn.hash ∧ h.record.memo = h.txn.body.memo := by
  unfold handled
  split
  · exact fun _ hmem => absurd hmem List.not_mem_nil
  · split
    · exact fun _ hmem => absurd hmem List.not_mem_nil
    · simp only [List.forall_mem_cons]
      exact ⟨p.handleAndRecord_contents rules _ _ _ _ false,
        handledFollowing_contents rules _ _ _ _ chainLimit _⟩

end Contents

/-- What holds of the schedules before a call, and of the one that it creates, holds of the schedules
after it. -/
theorem HandledCall.all {P : ScheduleId → Schedule → Prop} {rules : Rules} {maxMemoBytes : UInt64}
    {p q : Processor} {d : Delivery} {handled : List HandledTransaction}
    (h : HandledCall rules p d handled q) (hstandard : rules.transitions = .standard maxMemoBytes)
    (hP : Schedule.IgnoresSignatories P) (hall : p.schedules.All P)
    (hnew : ∀ txn, Envelope.ofSigned d.bytes = .ok txn →
      ∀ account, (p.opening (.start (effectiveTime txn d.time) d.member account)).Admits P txn) :
    q.schedules.All P := by
  cases h with
  | dropped => exact hall
  | alone hparse hsane hfirst =>
    exact (hfirst.traced hstandard hP rfl (hall.purge _) fun _ => hnew _ hparse _).1
  | followed hparse hsane hfirst hsecond =>
    have hall' := (hfirst.traced hstandard hP rfl (hall.purge _) fun _ => hnew _ hparse _).1
    exact (hsecond.traced hstandard hP rfl (hall'.purge _) nofun).1

end Processor

end ConsensusLedger
