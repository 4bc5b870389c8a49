import ConsensusLedger.Proofs.Ledger.Solvency
import ConsensusLedger.Proofs.Pipeline.Run

/-!
Solvency along a handling. Fees and transfers keep the ledger solvent and schedule operations do not
touch it, so that no handling fails because of the ledger, and no notice blames it.
-/

namespace ConsensusLedger

/-- Whether a notice reports that a handling was given up because of the ledger. -/
def Notice.blamesLedger : Notice → Bool
  | failure _ (.ledger _) .. => true
  | _ => false

/-- Only a failure can blame the ledger. -/
theorem Notice.blamesLedger_of_isFailure {n : Notice} (h : n.isFailure = false) :
    n.blamesLedger = false := by
  cases n with
  | failure => cases h
  | _ => rfl

theorem Ledger.Transferred.solvent {source : AccountId → Prop} {l l' : Ledger}
    (h : Transferred source l l') (hl : l.Solvent) : l'.Solvent := by
  induction h with
  | same => exact hl
  | transfer target amount _ _ ih => exact ih.transfer _ target amount

namespace Handling

/-- A step that has left a solvent ledger and has not failed because of it. -/
structure Unbroken {α : Type} (r : Except ProcessingError α × Handling) : Prop where
  solvent : r.2.ledger.Solvent
  error : ∀ e, r.1 ≠ .error (.ledger e)

variable {h : Handling}

theorem charge_solvent (hs : h.ledger.Solvent) (funding : AccountId) (kind : ChargeKind)
    (txn : Envelope) (fee : Fee) : (h.charge funding kind txn fee).2.ledger.Solvent := by
  have htransferred : Ledger.Transferred (fun _ => True) h.ledger
      (h.charge funding kind txn fee).2.ledger :=
    h.charge_transferred funding kind txn fee (fun _ => trivial) (fun _ _ _ => trivial)
  exact htransferred.solvent hs

section Schedules

theorem executeReady_unbroken (hs : h.ledger.Solvent) (id : ScheduleId) :
    Unbroken (h.executeReady id) := by
  unfold executeReady
  split
  · exact ⟨hs, nofun⟩
  · split
    · exact ⟨hs, nofun⟩
    · split <;> exact ⟨hs, nofun⟩

theorem conclude_unbroken (hs : h.ledger.Solvent) (id : ScheduleId) (outcome : Signing.Outcome) :
    Unbroken (h.conclude id outcome) := by
  have hexecuted := executeReady_unbroken hs id
  unfold conclude
  split
  · split <;> rename_i heq <;> rw [heq] at hexecuted
    · exact ⟨hexecuted.solvent, fun e he => hexecuted.error e (congrArg _ (Except.error.inj he))⟩
    · exact ⟨hexecuted.solvent, nofun⟩
  · exact ⟨hs, nofun⟩

theorem findOrCreate_unbroken (hs : h.ledger.Solvent) (request : NewSchedule) :
    Unbroken (h.findOrCreate request) := by
  simp only [findOrCreate]
  split
  · exact ⟨hs, fun _ he => by cases he⟩
  · split <;> exact ⟨hs, fun _ he => by cases he⟩

theorem commitPending_ledger (h : Handling) : h.commitPending.ledger = h.ledger := by
  unfold commitPending
  split <;> rfl

theorem createSchedule_unbroken (hs : h.ledger.Solvent) (request : NewSchedule)
    (scope : ScheduledScope) : Unbroken (h.createSchedule request scope) := by
  have hfound := findOrCreate_unbroken hs request
  unfold createSchedule
  split <;> rename_i heq <;> rw [heq] at hfound
  · exact ⟨hfound.solvent, fun e he => hfound.error e (congrArg _ (Except.error.inj he))⟩
  · exact ⟨hfound.solvent, nofun⟩
  · split
    · exact ⟨hfound.solvent, nofun⟩
    · simp only
      split
      · refine ⟨?_, nofun⟩
        change (rollbackPending _).ledger.Solvent
        rw [rollbackPending_ledger]
        exact hfound.solvent
      · refine conclude_unbroken ?_ _ _
        change (commitPending _).ledger.Solvent
        rw [commitPending_ledger]
        exact hfound.solvent

theorem signSchedule_unbroken (hs : h.ledger.Solvent) (id : ScheduleId) (scope : ScheduledScope) :
    Unbroken (h.signSchedule id scope) := by
  unfold signSchedule
  split
  · split
    · exact ⟨hs, nofun⟩
    · refine conclude_unbroken ?_ id _
      exact hs
  · exact ⟨hs, nofun⟩

theorem deleteSchedule_ledger (h : Handling) (id : ScheduleId) :
    (h.deleteSchedule id).ledger = h.ledger := by
  simp only [deleteSchedule]
  split <;> rfl

end Schedules

theorem runTransfer_unbroken (hs : h.ledger.Solvent) {transfers : List AccountAmount}
    (hchecked : Transition.transferSyntax transfers = .ok) :
    Unbroken (Transition.runTransfer transfers h) := by
  unfold Transition.runTransfer
  split
  · exact ⟨hs, nofun⟩
  · rename_i hfailure
    obtain ⟨l, hl, hsolvent⟩ := hs.adjustAll hchecked hfailure
    simp only [hl]
    exact ⟨hsolvent, nofun⟩

theorem dispatch_unbroken (hs : h.ledger.Solvent) (maxMemoBytes : UInt64) (txn : Envelope)
    (scope : Option ScheduledScope) :
    Unbroken (h.dispatch (.standard maxMemoBytes) txn scope) := by
  have htransitioned {r : Except ProcessingError Unit × Handling} (hr : Unbroken r) :
      Unbroken (transitioned r) := by
    refine ⟨hr.solvent, fun e he => ?_⟩
    obtain ⟨result, h'⟩ := r
    cases result with
    | ok => cases he
    | error e' => exact hr.error e (congrArg _ (Except.error.inj he))
  have hdispatched := h.dispatch_standard maxMemoBytes txn scope
  generalize h.dispatch (.standard maxMemoBytes) txn scope = r at hdispatched
  cases hdispatched with
  | refused code => exact ⟨hs, nofun⟩
  | transferred transfers hdata hchecked => exact htransitioned (runTransfer_unbroken hs hchecked)
  | created => exact htransitioned (createSchedule_unbroken hs _ _)
  | signed => exact htransitioned (signSchedule_unbroken hs _ _)
  | unscoped => exact ⟨hs, nofun⟩
  | deleted id =>
    refine ⟨?_, nofun⟩
    rw [deleteSchedule_ledger]
    exact hs
  | frozen => exact ⟨hs, nofun⟩

end Handling

namespace Processor

open Handling

variable {rules : Rules} {maxMemoBytes : UInt64} (hstandard : rules.transitions = .standard maxMemoBytes)

include hstandard

theorem runDelivered_unbroken (p : Processor) (txn : Envelope) (r : Rationalization)
    {h : Handling} (hs : h.ledger.Solvent) : Unbroken (p.runDelivered rules txn r h) := by
  have hcharged (kind : ChargeKind) (fee : Fee) :
      ((h.identified r).charge rules.funding kind txn fee).2.ledger.Solvent :=
    charge_solvent (h := h.identified r) hs rules.funding kind txn fee
  have hdelivered := p.runDelivered_delivered rules txn r h
  generalize p.runDelivered rules txn r h = result at hdelivered
  cases hdelivered with
  | blamed => exact ⟨hcharged .ignoredDueDiligence _, nofun⟩
  | duplicate => exact ⟨hcharged .duplicate _, nofun⟩
  | unpaid => exact ⟨hcharged .standard _, nofun⟩
  | unresolved => exact ⟨hcharged .standard _, nofun⟩
  | unsigned => exact ⟨hcharged .standard _, nofun⟩
  | dispatched =>
    rw [hstandard]
    exact dispatch_unbroken (hcharged .standard _) maxMemoBytes txn _

theorem runTriggered_unbroken (p : Processor) (txn : Envelope) {h : Handling}
    (hs : h.ledger.Solvent) : Unbroken (p.runTriggered rules txn h) := by
  have hcharged (fee : Fee) := charge_solvent (h := h.keyed (h.ledger.key? txn.payer)) hs
    rules.funding .standard txn fee
  rw [runTriggered, onceCharged_eq, hstandard]
  split
  · exact dispatch_unbroken (hcharged _) maxMemoBytes txn none
  · exact ⟨hcharged _, fun _ he => by cases he⟩

variable (p : Processor)

/-- The run of a handling keeps the ledger solvent and does not fail because of it. -/
theorem running_unbroken (hsupply : p.ledger.supply ≤ AccountAmount.maximum) (txn : Envelope)
    (context : Context) (triggered : Bool) :
    Unbroken (p.running rules txn context triggered) := by
  have hopening : (p.opening context).ledger.Solvent :=
    Ledger.solvent_opened p.ledger.accounts hsupply
  cases triggered with
  | true => exact runTriggered_unbroken hstandard _ txn hopening
  | false => exact runDelivered_unbroken hstandard _ txn _ hopening

/-- No notice of a handling blames the ledger. -/
theorem handle_notices (hsupply : p.ledger.supply ≤ AccountAmount.maximum) (txn : Envelope)
    (context : Context) (triggered : Bool) :
    ∀ n ∈ (p.handle rules txn context triggered).notices, n.blamesLedger = false := by
  intro n hn
  cases hfailure : n.isFailure with
  | false => exact Notice.blamesLedger_of_isFailure hfailure
  | true =>
    have hrun := running_unbroken hstandard p hsupply txn context triggered
    have hcommitted := handle_committed p txn context triggered hstandard
    obtain ⟨e, changes, he, rfl⟩ :=
      (handle_reported p txn context triggered hstandard).failures n hn hfailure
    cases e with
    | ledger e =>
      rw [he] at hcommitted
      cases hresult : (p.running rules txn context triggered).1 with
      | ok b =>
        rw [hresult] at hcommitted
        cases hcommitted
      | error e' =>
        rw [hresult] at hcommitted
        cases hcommitted
        exact absurd hresult (hrun.error e)
    | store => rfl
    | parse => rfl
    | missingScheduledScope => rfl

omit hstandard in
theorem finish_notices (txn : Envelope) (outcome : Outcome) :
    ∀ n ∈ (p.finish txn outcome).notices, n.blamesLedger = false := by
  intro n hn
  simp only [finish] at hn
  split at hn
  · simp only [streamedNotices, List.mem_append] at hn
    rcases hn with hreport | hstreamed
    · obtain ⟨report, -, hreport⟩ := List.mem_flatMap.1 hreport
      split at hreport
      · rw [List.mem_singleton.1 hreport]
        rfl
      · cases hreport
      · rw [List.mem_singleton.1 hreport]
        rfl
    · rcases List.mem_pair.1 hstreamed with rfl | rfl <;> rfl
  · rw [List.mem_singleton.1 hn]
    rfl

end Processor

end ConsensusLedger
