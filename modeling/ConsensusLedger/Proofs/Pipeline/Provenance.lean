import ConsensusLedger.Proofs.Pipeline.Attended
import ConsensusLedger.Proofs.Pipeline.Ordering
import ConsensusLedger.Proofs.Schedule.Provenance

/-!
Where triggered transactions come from. Whether a creation is pending or not, a handling triggers
only the inner transaction of a schedule that was in the store, or that the delivered transaction
creates; and it leaves no other schedules in the store.
-/

namespace ConsensusLedger

/-- The transaction is the inner one of a schedule that has the property. -/
def Envelope.StemsFrom (P : ScheduleId → Schedule → Prop) (inner : Envelope) : Prop :=
  ∃ id x, P id x ∧ Envelope.ofScheduled x.body x.scheduledId x.payer id = .ok inner

namespace Handling

/-- The schedules in the store have the property, and what is triggered stems from one that has. -/
structure Traced (P : ScheduleId → Schedule → Prop) (h : Handling) : Prop where
  schedules : h.schedules.All P
  triggered : ∀ inner, h.context.triggered = some inner → inner.StemsFrom P

/-- The schedule that the transaction would create in a handling has the property. -/
def Admits (P : ScheduleId → Schedule → Prop) (txn : Envelope) (h : Handling) : Prop :=
  ∀ request, ScheduleOperation.ofEnvelope? txn = some (.create request) →
    P (h.schedules.nextId request)
      (request.schedule (h.context.time.seconds + h.schedules.lifetime))

namespace Traced

variable {P : ScheduleId → Schedule → Prop} {h h' : Handling}

theorem of_eq (ht : h.Traced P) (hschedules : h'.schedules = h.schedules)
    (htriggered : h'.context.triggered = h.context.triggered) : h'.Traced P :=
  ⟨hschedules ▸ ht.schedules, htriggered ▸ ht.triggered⟩

theorem setStatus (ht : h.Traced P) (code : Status) : (h.setStatus code).Traced P :=
  ht.of_eq rfl rfl

theorem rollbackPending (ht : h.Traced P) : h.rollbackPending.Traced P := by
  unfold Handling.rollbackPending
  split
  · rename_i hrollback
    exact ⟨ht.schedules.rollbackCreation hrollback, ht.triggered⟩
  · exact ht

theorem commitPending (ht : h.Traced P) : h.commitPending.Traced P := by
  unfold Handling.commitPending
  split
  · rename_i hcommit
    exact ⟨ht.schedules.commitCreation hcommit, ht.triggered⟩
  · exact ht

/-- What is triggered stems from the schedule that was found ready. -/
theorem executeReady (ht : h.Traced P) (id : ScheduleId) : (h.executeReady id).2.Traced P := by
  unfold Handling.executeReady
  split
  · exact ht
  · rename_i x hx
    split
    · exact ht
    · rename_i txn htxn
      have hremoved : (h.schedules.markExecuted id).2.All P := ht.schedules.remove id
      split <;> rename_i hexecuted <;> rw [hexecuted] at hremoved
      · refine ⟨hremoved, fun inner hinner => ?_⟩
        cases hinner
        exact ⟨id, x, ht.schedules.of_get hx, htxn⟩
      · exact ⟨hremoved, ht.triggered⟩

theorem conclude (ht : h.Traced P) (id : ScheduleId) (outcome : Signing.Outcome) :
    (h.conclude id outcome).2.Traced P := by
  have hexecuted := ht.executeReady id
  unfold Handling.conclude
  split
  · split <;> rename_i heq <;> rw [heq] at hexecuted
    · exact hexecuted
    · exact hexecuted.setStatus outcome.status
  · exact ht.setStatus outcome.status

theorem findOrCreate (ht : h.Traced P) {request : NewSchedule}
    (hnew : P (h.schedules.nextId request)
      (request.schedule (h.context.time.seconds + h.schedules.lifetime))) :
    (h.findOrCreate request).2.Traced P := by
  simp only [Handling.findOrCreate]
  split
  · exact ht.of_eq rfl rfl
  · split
    · exact ht
    all_goals
      rename_i hcreate
      exact ⟨ht.schedules.create hcreate hnew, ht.triggered⟩

section Signed

variable (hP : Schedule.IgnoresSignatories P)

include hP

theorem createSchedule (ht : h.Traced P) {request : NewSchedule}
    (hnew : P (h.schedules.nextId request)
      (request.schedule (h.context.time.seconds + h.schedules.lifetime)))
    (scope : ScheduledScope) : (h.createSchedule request scope).2.Traced P := by
  have hfound := ht.findOrCreate hnew
  unfold Handling.createSchedule
  split <;> rename_i heq <;> rw [heq] at hfound
  · exact hfound
  · exact hfound
  · rename_i id found
    have hwitnessed := hfound.schedules.witnessScope hP id scope
    split <;> rename_i hscope <;> rw [hscope] at hwitnessed
    · exact ⟨hwitnessed, hfound.triggered⟩
    · rename_i outcome schedules
      have hsigned : Traced P { found with schedules := schedules } :=
        ⟨hwitnessed, hfound.triggered⟩
      simp only
      split
      · exact hsigned.rollbackPending.setStatus outcome.status
      · refine Traced.conclude ?_ id outcome
        exact hsigned.commitPending.of_eq rfl rfl

theorem signSchedule (ht : h.Traced P) (id : ScheduleId) (scope : ScheduledScope) :
    (h.signSchedule id scope).2.Traced P := by
  have hwitnessed := ht.schedules.witnessScope hP id scope
  unfold Handling.signSchedule
  split
  · split <;> rename_i hscope <;> rw [hscope] at hwitnessed
    · exact ⟨hwitnessed, ht.triggered⟩
    · refine Traced.conclude ?_ id _
      exact ⟨hwitnessed, ht.triggered⟩
  · exact ht.setStatus _

omit hP in
theorem deleteSchedule (ht : h.Traced P) (id : ScheduleId) : (h.deleteSchedule id).Traced P := by
  have hdeleted := ht.schedules.delete id
  simp only [Handling.deleteSchedule]
  split <;> exact ⟨hdeleted, ht.triggered⟩

/-- A dispatch among the standard transitions adds at most the schedule that it creates. -/
theorem dispatch (ht : h.Traced P) (maxMemoBytes : UInt64) {txn : Envelope}
    {scope : Option ScheduledScope} (hnew : scope ≠ none → h.Admits P txn) :
    (h.dispatch (.standard maxMemoBytes) txn scope).2.Traced P := by
  have hdispatched := h.dispatch_standard maxMemoBytes txn scope
  generalize h.dispatch (.standard maxMemoBytes) txn scope = result at hdispatched
  cases hdispatched with
  | refused code => exact ht.setStatus code
  | transferred transfers =>
    obtain ⟨hschedules, -⟩ := h.runTransfer_frame transfers
    exact ht.of_eq hschedules (h.runTransfer_context transfers)
  | created body payer adminKey memo signatures inScope hdata hmemo hadmin hscope =>
    refine ht.createSchedule hP (hnew (by rw [hscope]; exact nofun) _ ?_) inScope
    simp only [ScheduleOperation.ofEnvelope?, hdata]
  | signed id signatures inScope => exact ht.signSchedule hP id inScope
  | unscoped => exact ht
  | deleted id => exact ht.deleteSchedule id
  | frozen window => exact ht.of_eq rfl rfl

end Signed

end Traced

end Handling

namespace Processor

variable {P : ScheduleId → Schedule → Prop} {rules : Rules} {maxMemoBytes : UInt64}
  {p q : Processor} {txn : Envelope} {context : Context} {triggered : Bool} {r : Record}
  {next : Option Envelope}

/-- Everything before the dispatch leaves the schedules and what is triggered alone. -/
theorem running_traced (hstandard : rules.transitions = .standard maxMemoBytes)
    (hP : Schedule.IgnoresSignatories P) (ht : (p.opening context).Traced P)
    (hnew : triggered = false → (p.opening context).Admits P txn) :
    (p.running rules txn context triggered).2.Traced P := by
  cases triggered with
  | true =>
    change (runTriggered rules _ txn (p.opening context)).2.Traced P
    rw [runTriggered, onceCharged_eq, hstandard]
    split
    · refine Handling.Traced.dispatch hP ?_ maxMemoBytes fun hscope => absurd rfl hscope
      exact ht.of_eq rfl rfl
    · exact ht.of_eq rfl rfl
  | false =>
    have hdelivered := runDelivered_delivered rules (p.opened context.time).processor txn
      (p.rationalized rules txn context.time) (p.opening context)
    change Delivered rules _ txn _ _ (p.running rules txn context false) at hdelivered
    generalize p.running rules txn context false = run at hdelivered
    cases hdelivered with
    | blamed => exact ht.of_eq rfl rfl
    | duplicate => exact ht.of_eq rfl rfl
    | unpaid => exact ht.of_eq rfl rfl
    | unresolved => exact ht.of_eq rfl rfl
    | unsigned => exact ht.of_eq rfl rfl
    | dispatched =>
      rw [hstandard]
      refine Handling.Traced.dispatch hP ?_ maxMemoBytes fun _ => hnew rfl
      exact ht.of_eq rfl rfl

/-- What holds of the schedules before a handling, and of the one that it creates, holds of the
schedules after it and of the one that it executes. -/
theorem Recorded.traced (h : Recorded rules p txn context triggered r next q)
    (hstandard : rules.transitions = .standard maxMemoBytes)
    (hP : Schedule.IgnoresSignatories P) (hfresh : context.triggered = none)
    (hall : (p.schedules.purge context.time.seconds).2.All P)
    (hnew : triggered = false → (p.opening context).Admits P txn) :
    q.schedules.All P ∧ ∀ inner, next = some inner → inner.StemsFrom P := by
  have hopening : (p.opening context).Traced P := by
    refine ⟨hall, fun inner hinner => ?_⟩
    cases hfresh.symm.trans hinner
  have hrun := running_traced hstandard hP hopening hnew
  cases hresult : (p.running rules txn context triggered).1 with
  | ok b =>
    obtain ⟨-, -, hschedules, hnext⟩ := h.committed b hresult
    exact ⟨hschedules ▸ hrun.schedules,
      fun inner hinner => hrun.triggered inner (hnext.symm.trans hinner)⟩
  | error e =>
    obtain ⟨-, -, hschedules, hnext⟩ := h.abandoned e hresult
    refine ⟨hschedules ▸ hrun.rollbackPending.schedules, fun inner hinner => ?_⟩
    cases hnext.symm.trans hinner

end Processor

end ConsensusLedger
