import ConsensusLedger.Proofs.Pipeline.Run

/-!
The times of a call. A call that drops what was delivered leaves the processor as it was. Any other
handles the delivered transaction at its effective time, and after it at most one triggered
transaction, at the consensus time; only a transaction that can trigger another is followed by one, and
for that reason was handled a nanosecond early.
-/

namespace ConsensusLedger

namespace Handling

theorem runTransfer_context (h : Handling) (transfers : List AccountAmount) :
    (Transition.runTransfer transfers h).2.context.triggered = h.context.triggered := by
  unfold Transition.runTransfer
  split
  · rfl
  · split <;> rfl

theorem deleteSchedule_triggered (h : Handling) (id : ScheduleId) :
    (h.deleteSchedule id).context.triggered = h.context.triggered := by
  simp only [deleteSchedule, note, setStatus, Context.setStatus]
  split <;> rfl

/-- Only a transaction that can trigger another does, and only with the signatures of a delivered
one. -/
theorem dispatch_triggered {maxMemoBytes : UInt64} {txn : Envelope} {scope : Option ScheduledScope}
    (hquiet : txn.canTrigger = true → scope = none) (h : Handling) :
    (h.dispatch (.standard maxMemoBytes) txn scope).2.context.triggered = h.context.triggered := by
  have hdispatched := dispatch_standard maxMemoBytes txn scope h
  generalize h.dispatch (.standard maxMemoBytes) txn scope = result at hdispatched
  cases hdispatched with
  | refused code => rfl
  | transferred transfers => exact h.runTransfer_context transfers
  | created body payer adminKey memo signatures inScope hdata hmemo hadmin hscope =>
    have hcan : txn.canTrigger = true := by
      rw [Envelope.canTrigger, Envelope.function, TransactionBody.function, hdata]
      rfl
    cases hscope.symm.trans (hquiet hcan)
  | signed id signatures inScope hdata hid hscope =>
    have hcan : txn.canTrigger = true := by
      rw [Envelope.canTrigger, Envelope.function, TransactionBody.function, hdata]
      rfl
    cases hscope.symm.trans (hquiet hcan)
  | unscoped function => rfl
  | deleted id => exact h.deleteSchedule_triggered id
  | frozen window => rfl

end Handling

namespace Processor

section Triggered

variable {rules : Rules} {maxMemoBytes : UInt64}
  (hstandard : rules.transitions = .standard maxMemoBytes) {p : Processor} {txn : Envelope}

include hstandard

theorem runTriggered_triggered (p : Processor) (txn : Envelope) (h : Handling) :
    (p.runTriggered rules txn h).2.context.triggered = h.context.triggered := by
  rw [runTriggered, onceCharged_eq, hstandard]
  split
  · exact Handling.dispatch_triggered (fun _ => rfl) _
  · rfl

theorem runDelivered_triggered (p : Processor) (hquiet : txn.canTrigger = false)
    (r : Rationalization) (h : Handling) :
    (p.runDelivered rules txn r h).2.context.triggered = h.context.triggered := by
  have hdelivered := p.runDelivered_delivered rules txn r h
  generalize p.runDelivered rules txn r h = run at hdelivered
  cases hdelivered with
  | blamed => rfl
  | duplicate => rfl
  | unpaid => rfl
  | unresolved => rfl
  | unsigned => rfl
  | dispatched =>
    rw [hstandard]
    refine Handling.dispatch_triggered (fun hcan => ?_) _
    cases hquiet.symm.trans hcan

/-- Only a delivered transaction is followed by another, and only one that can trigger it. -/
theorem Recorded.canTrigger {context : Context} {triggered : Bool} {r : Record}
    {inner : Envelope} {q : Processor}
    (h : Recorded rules p txn context triggered r (some inner) q)
    (hfresh : context.triggered = none) : triggered = false ∧ txn.canTrigger = true := by
  have hran : ∃ inner, (p.running rules txn context triggered).2.context.triggered = some inner := by
    cases hrun : (p.running rules txn context triggered).1 with
    | ok b =>
      obtain ⟨-, -, -, hnext⟩ := h.committed b hrun
      exact ⟨inner, hnext.symm⟩
    | error e =>
      obtain ⟨-, -, -, hnext⟩ := h.abandoned e hrun
      cases hnext
  obtain ⟨inner', hinner⟩ := hran
  cases triggered with
  | true =>
    have hsame := runTriggered_triggered hstandard (p.opened context.time).processor txn
      (p.opening context)
    cases hfresh.symm.trans (hsame.symm.trans hinner)
  | false =>
    refine ⟨rfl, ?_⟩
    by_contra hcan
    have hsame := runDelivered_triggered hstandard (p.opened context.time).processor
      (Bool.eq_false_iff.2 hcan) (p.rationalized rules txn context.time) (p.opening context)
    cases hfresh.symm.trans (hsame.symm.trans hinner)

end Triggered

/-- What is known of the times of a call: its records, and the time that was handled last. -/
inductive Timed (rules : Rules) (p : Processor) (d : Delivery) : List Record → Processor → Prop
  | dropped : Timed rules p d [] p
  | alone {txn : Envelope} {address : NodeAddress} {r : Record} {q : Processor}
      (hsane : Gate.sanityCheck rules.book (effectiveTime txn d.time) p.clock.lastHandled d.member =
        .ok address)
      (hr : r.time = effectiveTime txn d.time) (hlast : q.clock.lastHandled = some r.time) :
      Timed rules p d [r] q
  | followed {txn : Envelope} {address : NodeAddress} {r s : Record} {q : Processor}
      (hsane : Gate.sanityCheck rules.book (effectiveTime txn d.time) p.clock.lastHandled d.member =
        .ok address)
      (hcan : txn.canTrigger = true) (hr : r.time = effectiveTime txn d.time)
      (hs : s.time = d.time) (hlast : q.clock.lastHandled = some s.time) :
      Timed rules p d [r, s] q

theorem Call.timed {rules : Rules} {maxMemoBytes : UInt64}
    (hstandard : rules.transitions = .standard maxMemoBytes) {p : Processor} {d : Delivery}
    {records : List Record} {q : Processor} (h : Call rules p d.bytes d.time d.member records q) :
    Timed rules p d records q := by
  cases h with
  | dropped => exact .dropped
  | accepted hparse hsane hfirst hrest =>
    have hr := hfirst.time
    cases hrest with
    | ended => exact .alone hsane hr (by rw [hr]; exact hfirst.lastHandled)
    | triggered hsecond hmore =>
      have hs := hsecond.time
      obtain ⟨-, hcan⟩ := hfirst.canTrigger hstandard rfl
      cases hmore with
      | ended => exact .followed hsane hcan hr hs (by rw [hs]; exact hsecond.lastHandled)
      | triggered =>
        obtain ⟨hdelivered, -⟩ := hsecond.canTrigger hstandard rfl
        cases hdelivered

end Processor

end ConsensusLedger
