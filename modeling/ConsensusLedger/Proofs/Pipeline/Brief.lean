import ConsensusLedger.Proofs.Pipeline.Attended
import ConsensusLedger.Proofs.Pipeline.Run

/-!
Calls while no creation is pending. A transaction that a schedule triggers brings no signatures for
another one, so that it triggers nothing: a call handles at most two transactions, and the bound on
the transactions that follow one another is never what ends it.
-/

namespace ConsensusLedger

namespace Processor

/-- The transactions that trigger one another are handled until one triggers nothing, however many
they are. -/
inductive Follows (rules : Rules) (time : Timestamp) (member : MemberId) (account : AccountId) :
    Processor → Option Envelope → Handled (List Record) → Prop
  | ended (p : Processor) : Follows rules time member account p none ⟨[], [], p⟩
  | triggered {p : Processor} {txn : Envelope} {first : Handled (Record × Option Envelope)}
      {rest : Handled (List Record)}
      (hfirst : p.handleAndRecord rules txn time member account true = first)
      (hrest : Follows rules time member account first.processor first.answer.2 rest) :
      Follows rules time member account p (some txn)
        ⟨first.answer.1 :: rest.answer, first.notices ++ rest.notices, rest.processor⟩

/-- What a call comes to when nothing bounds the transactions that trigger one another. -/
inductive Completed (rules : Rules) (p : Processor) (d : Delivery) : Handled (List Record) → Prop
  | unparseable {e : ParseError} (hparse : Envelope.ofSigned d.bytes = .error e) :
      Completed rules p d ⟨[], [.unparseable d.member d.time e], p⟩
  | insane {txn : Envelope} {e : SanityFailure} (hparse : Envelope.ofSigned d.bytes = .ok txn)
      (hsane : Gate.sanityCheck rules.book (effectiveTime txn d.time) p.clock.lastHandled d.member =
        .error e) :
      Completed rules p d ⟨[], [e.notice txn], p⟩
  | accepted {txn : Envelope} {address : NodeAddress} {first : Handled (Record × Option Envelope)}
      {rest : Handled (List Record)} (hparse : Envelope.ofSigned d.bytes = .ok txn)
      (hsane : Gate.sanityCheck rules.book (effectiveTime txn d.time) p.clock.lastHandled d.member =
        .ok address)
      (hfirst : p.handleAndRecord rules txn (effectiveTime txn d.time) d.member address.account
        false = first)
      (hrest : Follows rules d.time d.member address.account first.processor first.answer.2 rest) :
      Completed rules p d
        ⟨first.answer.1 :: rest.answer, first.notices ++ rest.notices, rest.processor⟩

/-- A call in which a triggered transaction, if there is one, triggers nothing in turn. -/
inductive BriefCall (executed : Envelope → Prop) (rules : Rules) (p : Processor) (d : Delivery) :
    List Record → Processor → Prop
  | dropped : BriefCall executed rules p d [] p
  | delivered {txn : Envelope} {address : NodeAddress} {r : Record} {q : Processor}
      (hparse : Envelope.ofSigned d.bytes = .ok txn)
      (hsane : Gate.sanityCheck rules.book (effectiveTime txn d.time) p.clock.lastHandled d.member =
        .ok address)
      (hfirst : Recorded rules p txn
        (.start (effectiveTime txn d.time) d.member (some address.account)) false r none q) :
      BriefCall executed rules p d [r] q
  | triggered {txn inner : Envelope} {address : NodeAddress} {r s : Record} {q q' : Processor}
      (hparse : Envelope.ofSigned d.bytes = .ok txn)
      (hsane : Gate.sanityCheck rules.book (effectiveTime txn d.time) p.clock.lastHandled d.member =
        .ok address)
      (hfirst : Recorded rules p txn
        (.start (effectiveTime txn d.time) d.member (some address.account)) false r (some inner) q)
      (hexecuted : executed inner)
      (hsecond : Recorded rules q inner
        (.start d.time d.member (some address.account)) true s none q') :
      BriefCall executed rules p d [r, s] q'

variable {rules : Rules} {maxMemoBytes : UInt64}
  (hstandard : rules.transitions = .standard maxMemoBytes)

include hstandard

variable {p : Processor} (hpending : p.schedules.store.pending = none)

include hpending

/-- The handling of a triggered transaction, which triggers nothing. -/
theorem handleAndRecord_triggered (txn : Envelope) (time : Timestamp) (member : MemberId)
    (account : AccountId) :
    Recorded rules p txn (.start time member (some account)) true
        (p.handleAndRecord rules txn time member account true).answer.1 none
        (p.handleAndRecord rules txn time member account true).processor ∧
      (p.handleAndRecord rules txn time member account true).answer.2 = none := by
  have hrecorded := handleAndRecord_recorded rules p txn true hstandard time member account
  obtain ⟨-, -, hnext, -⟩ := (hrecorded.attended_of_triggered hstandard hpending).of_unscoped
  exact ⟨hnext ▸ hrecorded, hnext⟩

/-- However many transactions may follow one another, a single one does. -/
theorem follow_some (count : Nat) (txn : Envelope) (time : Timestamp) (member : MemberId)
    (account : AccountId) :
    follow rules time member account (count + 1) p (some txn) =
      ⟨[(p.handleAndRecord rules txn time member account true).answer.1],
        (p.handleAndRecord rules txn time member account true).notices,
        (p.handleAndRecord rules txn time member account true).processor⟩ := by
  obtain ⟨-, hnext⟩ := handleAndRecord_triggered hstandard hpending txn time member account
  rw [follow, hnext]
  cases count with
  | zero => simp only [follow, List.append_nil]
  | succ count => simp only [follow, List.append_nil]

/-- The transactions that trigger one another end by themselves. -/
theorem follow_follows (count : Nat) (next : Option Envelope) (time : Timestamp) (member : MemberId)
    (account : AccountId) :
    Follows rules time member account p next
      (follow rules time member account (count + 1) p next) := by
  cases next with
  | none => exact .ended p
  | some txn =>
    obtain ⟨-, hnext⟩ := handleAndRecord_triggered hstandard hpending txn time member account
    have hfollows : Follows rules time member account p (some txn) _ :=
      .triggered rfl (by rw [hnext]; exact .ended _)
    rw [List.append_nil] at hfollows
    rw [follow_some hstandard hpending]
    exact hfollows

/-- A call completes, and not because of a bound. -/
theorem incorporate_completed (d : Delivery) :
    Completed rules p d (p.incorporate rules d.bytes d.time d.member) := by
  unfold incorporate
  split
  · exact .unparseable ‹_›
  · rename_i txn hparse
    split
    · exact .insane hparse ‹_›
    · rename_i address hsane
      have hfirst := handleAndRecord_recorded rules p txn false hstandard (effectiveTime txn d.time)
        d.member address.account
      exact .accepted hparse hsane rfl (follow_follows hstandard
        (hfirst.pending hstandard hpending) (chainLimit - 1) _ d.time d.member
        address.account)

/-- A call handles nothing, the delivered transaction, or the delivered transaction and one that it
triggers. -/
theorem incorporate_brief {executed : Envelope → Prop} {d : Delivery}
    (hexecuted : ∀ {txn inner : Envelope} {time : Timestamp} {account : AccountId} {r : Record}
      {q : Processor}, Envelope.ofSigned d.bytes = .ok txn →
      Recorded rules p txn (.start time d.member (some account)) false r (some inner) q →
      executed inner) :
    BriefCall executed rules p d (p.incorporate rules d.bytes d.time d.member).answer
      (p.incorporate rules d.bytes d.time d.member).processor := by
  unfold incorporate
  split
  · exact .dropped
  · rename_i txn hparse
    split
    · exact .dropped
    · rename_i address hsane
      have hfirst := handleAndRecord_recorded rules p txn false hstandard (effectiveTime txn d.time)
        d.member address.account
      have hpending' := hfirst.pending hstandard hpending
      simp only [accept]
      generalize p.handleAndRecord rules txn (effectiveTime txn d.time) d.member address.account
        false = first at hfirst hpending'
      obtain ⟨⟨r, next⟩, notices, q⟩ := first
      cases next with
      | none => exact .delivered hparse hsane hfirst
      | some inner =>
        obtain ⟨hsecond, -⟩ := handleAndRecord_triggered hstandard hpending' inner d.time d.member
          address.account
        have hlimit : chainLimit = (chainLimit - 1) + 1 := rfl
        rw [hlimit, follow_some hstandard hpending']
        exact .triggered hparse hsane hfirst (hexecuted hparse hfirst) hsecond

omit hpending in
/-- A brief call leaves no creation pending. -/
theorem BriefCall.pending {executed : Envelope → Prop} {d : Delivery} {records : List Record}
    {q : Processor} (h : BriefCall executed rules p d records q)
    (hpending : p.schedules.store.pending = none) : q.schedules.store.pending = none := by
  cases h with
  | dropped => exact hpending
  | delivered hparse hsane hfirst => exact hfirst.pending hstandard hpending
  | triggered hparse hsane hfirst hexecuted hsecond =>
    exact hsecond.pending hstandard (hfirst.pending hstandard hpending)

end Processor

namespace Node

/-- A delivery while no creation is pending is a brief call. -/
theorem deliver_brief (c : ProcessingConfig) (book : AddressBook)
    (verification : Signing.VerifierConfig) (fees : FeeSchedule) (start : Processor)
    (ds : List Delivery) (d : Delivery)
    (hpending : ((standard c book verification fees start).after ds).processor.schedules.store.pending =
      none) :
    let n := standard c book verification fees start
    Processor.BriefCall (fun _ => True) n.rules (n.after ds).processor d
      ((n.after ds).deliver d).answer (n.after (ds ++ [d])).processor := by
  intro n
  rw [processor_after_concat, deliver_after]
  exact Processor.incorporate_brief rfl hpending fun _ _ => trivial

end Node

end ConsensusLedger
