import ConsensusLedger.Proofs.Pipeline.Run
import ConsensusLedger.Proofs.Record.Stream

/-!
The handled history: which transactions a run handles, each with its record. What the record stream
is offered is made of these, in the same order.
-/

namespace ConsensusLedger

/-- A transaction that was handled, and its record. -/
structure HandledTransaction where
  txn : Envelope
  record : Record

/-- What is streamed for a handled transaction: its record and the bytes that it came as. -/
def HandledTransaction.object (h : HandledTransaction) : StreamObject :=
  ⟨h.record, h.txn.signedBytes, h.record.time⟩

namespace Processor

/-- The transactions that are handled when a triggered one is followed. -/
def handledFollowing (rules : Rules) (time : Timestamp) (member : MemberId) (account : AccountId) :
    Nat → Processor → Option Envelope → List HandledTransaction
  | 0, _, _ => []
  | _ + 1, _, none => []
  | n + 1, p, some txn =>
    let first := p.handleAndRecord rules txn time member account true
    ⟨txn, first.answer.1⟩ ::
      handledFollowing rules time member account n first.processor first.answer.2

/-- The transactions that are handled in one call. -/
def handled (rules : Rules) (p : Processor) (d : Delivery) : List HandledTransaction :=
  match Envelope.ofSigned d.bytes with
  | .error _ => []
  | .ok txn =>
    match Gate.sanityCheck rules.book (effectiveTime txn d.time) p.clock.lastHandled d.member with
    | .error _ => []
    | .ok address =>
      let first := p.handleAndRecord rules txn (effectiveTime txn d.time) d.member address.account
        false
      ⟨txn, first.answer.1⟩ :: handledFollowing rules d.time d.member address.account chainLimit
        first.processor first.answer.2

/-- Handling leaves the record stream to the recording. -/
theorem handle_records (rules : Rules) (p : Processor) (txn : Envelope) (context : Context)
    (triggered : Bool) : (p.handle rules txn context triggered).processor.records = p.records := by
  have habandon : ∀ (q : Processor) e h, (q.abandon txn e h).processor.records = q.records :=
    fun _ _ _ => rfl
  have hclose : ∀ (q : Processor) run, (q.close txn run).processor.records = q.records := by
    rintro q ⟨result, h⟩
    cases result with
    | error e => exact habandon q e h
    | ok transitioned =>
      simp only [close, conclude]
      split
      · rw [habandon]
        split <;> rfl
      · simp only [takeBack]
        split <;> rfl
  unfold handle
  cases triggered with
  | true => exact hclose _ _
  | false =>
    refine (hclose _ _).trans ?_
    unfold countVerification
    split <;> rfl

theorem finish_records (q : Processor) (txn : Envelope) (outcome : Outcome) :
    (q.finish txn outcome).processor.records = (q.records.append
      (HandledTransaction.mk txn (recordOf txn outcome)).object).2 := by
  unfold finish
  simp only [HandledTransaction.object]
  split
  next heq => rw [heq]
  next heq => rw [heq]

theorem handleAndRecord_records (rules : Rules) (p : Processor) (txn : Envelope) (time : Timestamp)
    (member : MemberId) (account : AccountId) (triggered : Bool) :
    (p.handleAndRecord rules txn time member account triggered).processor.records =
      (p.records.append (HandledTransaction.mk txn
        (p.handleAndRecord rules txn time member account triggered).answer.1).object).2 := by
  have hanswer := (finish_frame txn
    (p.handle rules txn (.start time member (some account)) triggered).processor
    ⟨(p.handle rules txn (.start time member (some account)) triggered).answer.context.takeTriggered.2,
      (p.handle rules txn (.start time member (some account)) triggered).answer.committed⟩).1
  unfold handleAndRecord
  simp only [finish_records, handle_records, hanswer]

theorem follow_handled (rules : Rules) (time : Timestamp) (member : MemberId) (account : AccountId)
    (n : Nat) (p : Processor) (next : Option Envelope) :
    let handled := handledFollowing rules time member account n p next
    (follow rules time member account n p next).answer = handled.map (·.record) ∧
      (follow rules time member account n p next).processor.records =
        p.records.appendAll (handled.map (·.object)) := by
  induction n generalizing p next with
  | zero => exact ⟨rfl, rfl⟩
  | succ n ih =>
    cases next with
    | none => exact ⟨rfl, rfl⟩
    | some txn =>
      simp only [follow, handledFollowing]
      have hfirst := handleAndRecord_records rules p txn time member account true
      generalize p.handleAndRecord rules txn time member account true = first at hfirst ⊢
      obtain ⟨hanswer, hrecords⟩ := ih first.processor first.answer.2
      refine ⟨congrArg (first.answer.1 :: ·) hanswer, ?_⟩
      rw [hrecords, hfirst]
      rfl

/-- A call answers with the records of what it handled, and appends one object for each. -/
theorem incorporate_handled (rules : Rules) (p : Processor) (d : Delivery) :
    (p.incorporate rules d.bytes d.time d.member).answer =
        (p.handled rules d).map (·.record) ∧
      (p.incorporate rules d.bytes d.time d.member).processor.records =
        p.records.appendAll ((p.handled rules d).map (·.object)) := by
  cases hparse : Envelope.ofSigned d.bytes with
  | error e =>
    simp only [incorporate, handled, hparse]
    exact ⟨rfl, rfl⟩
  | ok txn =>
    cases hsane : Gate.sanityCheck rules.book (effectiveTime txn d.time) p.clock.lastHandled
        d.member with
    | error e =>
      simp only [incorporate, handled, hparse, hsane]
      exact ⟨rfl, rfl⟩
    | ok address =>
      simp only [incorporate, handled, hparse, hsane, accept]
      have hfirst := handleAndRecord_records rules p txn (effectiveTime txn d.time) d.member
        address.account false
      generalize p.handleAndRecord rules txn (effectiveTime txn d.time) d.member address.account
        false = first at hfirst ⊢
      obtain ⟨hanswer, hrecords⟩ := follow_handled rules d.time d.member address.account chainLimit
        first.processor first.answer.2
      refine ⟨congrArg (first.answer.1 :: ·) hanswer, ?_⟩
      rw [hrecords, hfirst]
      rfl

end Processor

namespace Node

variable (n : Node)

/-- The transactions that are handled along a run, in order. -/
def history (n : Node) : List Delivery → List HandledTransaction
  | [] => []
  | d :: rest =>
    n.processor.handled n.rules d ++ history { n with processor := (n.deliver d).processor } rest

/-- The records of a run are those of its history. -/
theorem history_records (ds : List Delivery) : (n.history ds).map (·.record) = n.records ds := by
  induction ds generalizing n with
  | nil => rfl
  | cons d rest ih =>
    have hanswer := (n.processor.incorporate_handled n.rules d).1
    rw [history, List.map_append, ih, ← hanswer]
    rfl

/-- A run offers the stream one object for each handled transaction. -/
theorem records_after (ds : List Delivery) :
    (n.after ds).processor.records =
      n.processor.records.appendAll ((n.history ds).map (·.object)) := by
  induction ds generalizing n with
  | nil => rfl
  | cons d rest ih =>
    have hrecords := (n.processor.incorporate_handled n.rules d).2
    rw [after_cons, ih, history, List.map_append, RecordStream.appendAll_append, ← hrecords]
    rfl

end Node

end ConsensusLedger
