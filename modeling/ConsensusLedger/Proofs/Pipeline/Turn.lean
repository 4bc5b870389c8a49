import ConsensusLedger.Proofs.Pipeline.History

/-!
The turns of a call. A call handles transactions in turn: the delivered one, and then whatever the one
before has triggered, each from the processor that the one before has left.
-/

namespace ConsensusLedger

theorem eq_ok_of_toOption {ε α : Type} {x : Except ε α} {a : α} (h : x.toOption = some a) :
    x = .ok a := by
  cases x with
  | error e => cases h
  | ok b => exact congrArg Except.ok (Option.some.inj h)

/-- A handling in the course of a call: the processor that it starts from, its transaction, its time,
the member that submitted the call, the account of that member, and whether the transaction was
triggered. -/
structure Turn where
  processor : Processor
  txn : Envelope
  time : Timestamp
  member : MemberId
  account : AccountId
  triggered : Bool

namespace Turn

def context (t : Turn) : Context := .start t.time t.member (some t.account)

/-- What the turn comes to: its record, the transaction that it triggers, and the processor after it. -/
def taken (rules : Rules) (t : Turn) : Handled (Record × Option Envelope) :=
  t.processor.handleAndRecord rules t.txn t.time t.member t.account t.triggered

theorem taken_mk (rules : Rules) (p : Processor) (txn : Envelope) (time : Timestamp)
    (member : MemberId) (account : AccountId) (triggered : Bool) :
    taken rules ⟨p, txn, time, member, account, triggered⟩ =
      p.handleAndRecord rules txn time member account triggered := rfl

/-- The handling that the turn records. -/
def handling (rules : Rules) (t : Turn) : Handled Processor.Outcome :=
  t.processor.handle rules t.txn t.context t.triggered

def raised? (rules : Rules) (t : Turn) : Option ProcessingError :=
  t.processor.raised? rules t.txn t.context t.triggered

/-- The turns of a call. -/
inductive Of (rules : Rules) (p : Processor) (d : Delivery) : Turn → Prop
  | delivered {txn : Envelope} {address : NodeAddress}
      (hparse : Envelope.ofSigned d.bytes = .ok txn)
      (hsane : Gate.sanityCheck rules.book (Processor.effectiveTime txn d.time)
        p.clock.lastHandled d.member = .ok address) :
      Of rules p d
        ⟨p, txn, Processor.effectiveTime txn d.time, d.member, address.account, false⟩
  | triggered {t : Turn} {inner : Envelope} (hbefore : Of rules p d t)
      (hnext : (t.taken rules).answer.2 = some inner) :
      Of rules p d ⟨(t.taken rules).processor, inner, d.time, d.member, t.account, true⟩

variable {rules : Rules} {p : Processor} {d : Delivery} {t : Turn}

theorem recorded {maxMemoBytes : UInt64} (hstandard : rules.transitions = .standard maxMemoBytes)
    (t : Turn) :
    Processor.Recorded rules t.processor t.txn t.context t.triggered (t.taken rules).answer.1
      (t.taken rules).answer.2 (t.taken rules).processor :=
  Processor.handleAndRecord_recorded rules t.processor t.txn t.triggered hstandard t.time t.member
    t.account

/-- What is handled after a turn is handled in later turns. -/
theorem Of.following (h : Of rules p d t) (count : Nat) :
    ∀ r ∈ (Processor.handledFollowing rules d.time d.member t.account count
        (t.taken rules).processor (t.taken rules).answer.2).map (·.record),
      ∃ t', Of rules p d t' ∧ (t'.taken rules).answer.1 = r := by
  induction count generalizing t with
  | zero => exact fun _ hmem => absurd hmem List.not_mem_nil
  | succ count ih =>
    cases hnext : (t.taken rules).answer.2 with
    | none => exact fun _ hmem => absurd hmem List.not_mem_nil
    | some inner =>
      have hrest := ih (h.triggered hnext)
      simp only [taken_mk] at hrest
      rw [Processor.handledFollowing, List.map_cons, List.forall_mem_cons]
      exact ⟨⟨_, h.triggered hnext, by rw [taken_mk]⟩, hrest⟩

/-- Every record of a call comes of one of its turns. -/
theorem of_incorporate (rules : Rules) (p : Processor) (d : Delivery) :
    ∀ r ∈ (p.incorporate rules d.bytes d.time d.member).answer,
      ∃ t, Of rules p d t ∧ (t.taken rules).answer.1 = r := by
  rw [(p.incorporate_handled rules d).1]
  unfold Processor.handled
  split
  · exact fun _ hmem => absurd hmem List.not_mem_nil
  · rename_i txn hparse
    split
    · exact fun _ hmem => absurd hmem List.not_mem_nil
    · rename_i address hsane
      have hfirst : Of rules p d _ := .delivered hparse hsane
      have hrest := hfirst.following Processor.chainLimit
      simp only [taken_mk] at hrest
      rw [List.map_cons, List.forall_mem_cons]
      exact ⟨⟨_, hfirst, by rw [taken_mk]⟩, hrest⟩

end Turn

end ConsensusLedger
