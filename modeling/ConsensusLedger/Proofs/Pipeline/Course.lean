import ConsensusLedger.Pipeline.Processor
import ConsensusLedger.Proofs.Fee.Charging
import ConsensusLedger.Proofs.Handling.Requirement
import ConsensusLedger.Proofs.Transaction.Envelope
import ConsensusLedger.Proofs.Transition.Dispatch

/-!
The course of a handling: what its steps keep, whichever way it turns out. Balances are only
adjusted, and taken from certain debtors; the time and the submitting member stay what they are;
what is triggered comes from a schedule; and no step reports a failure of the handling.
-/

namespace ConsensusLedger

/-- Whether a notice reports that a handling was given up. -/
def Notice.isFailure : Notice → Bool
  | failure .. => true
  | _ => false

namespace Handling

@[simp] theorem rollbackPending_ledger (h : Handling) : h.rollbackPending.ledger = h.ledger := by
  unfold rollbackPending
  split <;> rfl

@[simp] theorem rollbackPending_context (h : Handling) : h.rollbackPending.context = h.context := by
  unfold rollbackPending
  split <;> rfl

@[simp] theorem rollbackPending_freezeWindow (h : Handling) :
    h.rollbackPending.freezeWindow = h.freezeWindow := by
  unfold rollbackPending
  split <;> rfl

theorem rollbackPending_schedules {h h' : Handling} (hsame : h'.schedules = h.schedules) :
    h'.rollbackPending.schedules = h.rollbackPending.schedules := by
  unfold rollbackPending
  rw [hsame]
  split
  · rfl
  · exact hsame

/-- What the steps of a handling keep, apart from adjustments at the expense of the debtors. -/
structure Course (debtor : AccountId → Prop) (h h' : Handling) : Prop where
  ledger : Ledger.Adjusted debtor h.ledger h'.ledger
  time : h'.context.time = h.context.time
  member : h'.context.member = h.context.member
  nodeAccount : h'.context.nodeAccount = h.context.nodeAccount
  triggered : ∀ txn, h'.context.triggered = some txn →
    h.context.triggered = some txn ∨ txn.schedule.isSome = true
  failures : ∀ n ∈ h'.notices, n.isFailure = true → n ∈ h.notices

namespace Course

variable {debtor debtor' : AccountId → Prop} {h h' h'' : Handling}

protected theorem refl (debtor : AccountId → Prop) (h : Handling) : Course debtor h h :=
  ⟨.same, rfl, rfl, rfl, fun _ => .inl, fun _ hn _ => hn⟩

theorem trans (hfirst : Course debtor h h') (hrest : Course debtor h' h'') : Course debtor h h'' :=
  ⟨hfirst.ledger.trans hrest.ledger, hrest.time.trans hfirst.time,
    hrest.member.trans hfirst.member, hrest.nodeAccount.trans hfirst.nodeAccount,
    fun txn htxn => (hrest.triggered txn htxn).elim (hfirst.triggered txn) .inr,
    fun n hn hfailure => hfirst.failures n (hrest.failures n hn hfailure) hfailure⟩

theorem mono (hcourse : Course debtor h h') (hdebtor : ∀ id, debtor id → debtor' id) :
    Course debtor' h h' :=
  { hcourse with ledger := hcourse.ledger.mono hdebtor }

theorem setStatus (hcourse : Course debtor h h') (code : Status) :
    Course debtor h (h'.setStatus code) :=
  { hcourse with }

theorem withSchedules (hcourse : Course debtor h h') (schedules : ScheduleStore) :
    Course debtor h { h' with schedules := schedules } :=
  { hcourse with }

theorem noting (hcourse : Course debtor h h') {ns : List Notice}
    (hns : ∀ n ∈ ns, n.isFailure = false) :
    Course debtor h { h' with notices := h'.notices ++ ns } := by
  refine { hcourse with failures := fun n hn hfailure => ?_ }
  rcases List.mem_append.1 hn with hold | hnew
  · exact hcourse.failures n hold hfailure
  · cases (hns n hnew).symm.trans hfailure

theorem note (hcourse : Course debtor h h') {n : Notice} (hn : n.isFailure = false) :
    Course debtor h (h'.note n) := by
  refine hcourse.noting fun m hm => ?_
  rw [List.mem_singleton.1 hm]
  exact hn

end Course

variable (h : Handling) (debtor : AccountId → Prop)

/-- A charge moves fees from the payer, or from the submitting member when due diligence was
ignored. -/
theorem charge_transferred {debtor : AccountId → Prop} (funding : AccountId) (kind : ChargeKind)
    (txn : Envelope) (fee : Fee) (hpayer : kind ≠ .ignoredDueDiligence → debtor txn.payer)
    (hnode : kind = .ignoredDueDiligence → ∀ id, h.context.nodeAccount = some id → debtor id) :
    Ledger.Transferred debtor h.ledger (h.charge funding kind txn fee).2.ledger := by
  cases kind with
  | standard => exact Charging.applyAll_transferred (h.charging funding txn) (hpayer nofun) fee
  | duplicate =>
    exact Charging.applyForDuplicate_transferred (h.charging funding txn) (hpayer nofun) fee
  | ignoredDueDiligence =>
    exact Charging.applyForIgnoredDueDiligence_transferred (h.charging funding txn) (hnode rfl) fee

theorem charge_course {debtor : AccountId → Prop} (funding : AccountId) (kind : ChargeKind)
    (txn : Envelope) (fee : Fee) (hpayer : kind ≠ .ignoredDueDiligence → debtor txn.payer)
    (hnode : kind = .ignoredDueDiligence → ∀ id, h.context.nodeAccount = some id → debtor id) :
    Course debtor h (h.charge funding kind txn fee).2 := by
  have hcharged : Course debtor h
      { h with
        ledger := (h.charge funding kind txn fee).2.ledger
        context := (h.charge funding kind txn fee).2.context } :=
    ⟨(h.charge_transferred funding kind txn fee hpayer hnode).adjusted, rfl, rfl, rfl,
      fun _ => .inl, fun _ hn _ => hn⟩
  refine hcharged.noting fun n hn => ?_
  obtain ⟨shortfall, -, rfl⟩ := Option.map_eq_some_iff.1 (Option.mem_toList.1 hn)
  cases shortfall <;> rfl

section Schedules

theorem rollbackPending_course : Course debtor h h.rollbackPending := by
  unfold rollbackPending
  split
  · exact ((Course.refl debtor h).withSchedules _).note rfl
  · exact .refl debtor h

theorem commitPending_course : Course debtor h h.commitPending := by
  unfold commitPending
  split
  · exact ((Course.refl debtor h).withSchedules _).note rfl
  · exact .refl debtor h

theorem executeReady_course (id : ScheduleId) : Course debtor h (h.executeReady id).2 := by
  unfold executeReady
  split
  · exact .refl debtor h
  · split
    · exact .refl debtor h
    · rename_i txn htxn
      split
      · rename_i schedules _
        have hremoved : Course debtor h ({ h with schedules := schedules }.note (.scheduleExecuted id)) :=
          ((Course.refl debtor h).withSchedules schedules).note rfl
        have hqueued : Course debtor h (({ h with schedules := schedules }.note
            (.scheduleExecuted id)).note (.scheduledTriggered id txn.id)) := hremoved.note rfl
        refine { hqueued with triggered := fun txn' htxn' => .inr ?_ }
        cases htxn'
        rw [(Envelope.origin_of_ofScheduled htxn).2.2]
        rfl
      · exact ((Course.refl debtor h).withSchedules _).note rfl

theorem conclude_course (id : ScheduleId) (outcome : Signing.Outcome) :
    Course debtor h (h.conclude id outcome).2 := by
  have hexecute := h.executeReady_course debtor id
  unfold conclude
  split
  · split <;> rename_i heq <;> rw [heq] at hexecute
    · exact hexecute
    · exact hexecute.setStatus outcome.status
  · exact (Course.refl debtor h).setStatus outcome.status

theorem findOrCreate_course (request : NewSchedule) :
    Course debtor h (h.findOrCreate request).2 := by
  simp only [findOrCreate]
  split
  · exact (Course.refl debtor h).note rfl
  · split
    · exact .refl debtor h
    · exact ((Course.refl debtor h).withSchedules _).note rfl
    · exact ((Course.refl debtor h).withSchedules _).setStatus _

theorem createSchedule_course (request : NewSchedule) (scope : ScheduledScope) :
    Course debtor h (h.createSchedule request scope).2 := by
  have hfound := h.findOrCreate_course debtor request
  unfold createSchedule
  split <;> rename_i heq <;> rw [heq] at hfound
  · exact hfound
  · exact hfound
  · rename_i found
    refine hfound.trans ?_
    split
    · exact (Course.refl debtor found).withSchedules _
    · rename_i outcome schedules _
      simp only
      refine ((Course.refl debtor found).withSchedules schedules).trans ?_
      split
      · exact (rollbackPending_course _ debtor).setStatus outcome.status
      · refine (commitPending_course _ debtor).trans ?_
        refine Course.trans ?_ (conclude_course _ debtor _ outcome)
        exact { Course.refl debtor _ with }

theorem signSchedule_course (id : ScheduleId) (scope : ScheduledScope) :
    Course debtor h (h.signSchedule id scope).2 := by
  unfold signSchedule
  split
  · split
    · exact (Course.refl debtor h).withSchedules _
    · refine Course.trans ?_ (conclude_course _ debtor id _)
      exact (Course.refl debtor h).withSchedules _
  · exact (Course.refl debtor h).setStatus _

theorem deleteSchedule_course (id : ScheduleId) : Course debtor h (h.deleteSchedule id) := by
  have hdeleted := (Course.refl debtor h).withSchedules (h.schedules.delete id).2
  simp only [deleteSchedule]
  split
  · exact ((hdeleted.note rfl).note rfl).setStatus _
  · exact (hdeleted.note rfl).setStatus _

end Schedules

theorem adjustAll_adjusted (debtor : AccountId → Prop) (l : Ledger) (transfers : List AccountAmount)
    (hdebtor : ∀ a ∈ transfers, a.amount.toInt < 0 → debtor a.account) :
    Ledger.Adjusted debtor l (Transition.adjustAll l transfers).2 := by
  induction transfers generalizing l with
  | nil => exact .same
  | cons a rest ih =>
    unfold Transition.adjustAll
    split
    · exact .same
    · rename_i m hm
      have hfirst : Ledger.Adjusted debtor l m :=
        .adjust .same (hdebtor a List.mem_cons_self) hm
      exact hfirst.trans (ih m fun b hb => hdebtor b (List.mem_cons_of_mem a hb))

/-- A transfer takes from the accounts that it lists with a negative amount. -/
theorem runTransfer_course (transfers : List AccountAmount) :
    Course (· ∈ (TransactionData.cryptoTransfer transfers).debits) h
      (Transition.runTransfer transfers h).2 := by
  have hadjusted := adjustAll_adjusted
    (· ∈ (TransactionData.cryptoTransfer transfers).debits) h.ledger transfers (by
      intro a ha hneg
      refine List.mem_map.2 ⟨a, List.mem_filter.2 ⟨ha, ?_⟩, rfl⟩
      simpa only [decide_eq_true_eq, Int64.lt_iff_toInt_lt, Int64.toInt_zero] using hneg)
  unfold Transition.runTransfer
  split
  · exact (Course.refl _ h).setStatus _
  · split <;> rename_i heq <;> rw [heq] at hadjusted
    · exact ⟨hadjusted, rfl, rfl, rfl, fun _ => .inl, fun _ hn _ => hn⟩
    · exact ⟨hadjusted, rfl, rfl, rfl, fun _ => .inl, fun _ hn _ => hn⟩

/-- A dispatch among the standard transitions takes from the accounts that the transaction debits. -/
theorem dispatch_course (maxMemoBytes : UInt64) (txn : Envelope) (scope : Option ScheduledScope) :
    Course (· ∈ txn.body.data.debits) h (h.dispatch (.standard maxMemoBytes) txn scope).2 := by
  have hdispatched := h.dispatch_standard maxMemoBytes txn scope
  generalize h.dispatch (.standard maxMemoBytes) txn scope = r at hdispatched
  cases hdispatched with
  | refused code hcode => exact (Course.refl _ h).setStatus code
  | transferred transfers hdata hchecked =>
    rw [hdata]
    exact h.runTransfer_course transfers
  | created => exact h.createSchedule_course _ _ _
  | signed => exact h.signSchedule_course _ _ _
  | unscoped => exact .refl _ h
  | deleted => exact h.deleteSchedule_course _ _
  | frozen window =>
    have hset : Course (· ∈ txn.body.data.debits) h { h with freezeWindow := some window } :=
      { Course.refl _ h with }
    exact (hset.note rfl).setStatus .ok

end Handling

end ConsensusLedger
