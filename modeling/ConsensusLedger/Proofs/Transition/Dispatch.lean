import ConsensusLedger.Pipeline.Charge

/-!
Dispatch among the standard transitions. What is dispatched is either refused with a code before any
transition runs, or handed to the one transition for its data.
-/

namespace ConsensusLedger

theorem TransitionRegistry.find?_standard (maxMemoBytes : UInt64) (body : TransactionBody) :
    (standard maxMemoBytes).find? body.function body = some (match body.data with
      | .cryptoTransfer _ => .cryptoTransfer
      | .scheduleCreate .. => .scheduleCreate maxMemoBytes
      | .scheduleSign .. => .scheduleSign
      | .scheduleDelete _ => .scheduleDelete
      | .freeze _ => .freeze) := by
  obtain ⟨id, node, fee, duration, memo, data⟩ := body
  cases data <;> rfl

namespace Handling

/-- The answer of a dispatch whose transition ran. -/
def transitioned (r : Except ProcessingError Unit × Handling) :
    Except ProcessingError Bool × Handling :=
  (r.1.map fun _ => true, r.2)

/-- What a dispatch among the standard transitions can come to. -/
inductive Dispatched (maxMemoBytes : UInt64) (txn : Envelope) (scope : Option ScheduledScope)
    (h : Handling) : Except ProcessingError Bool × Handling → Prop
  | refused (code : Status) (hcode : code ≠ .ok) :
      Dispatched maxMemoBytes txn scope h (.ok false, h.setStatus code)
  | transferred (transfers : List AccountAmount) (hdata : txn.body.data = .cryptoTransfer transfers)
      (hchecked : Transition.transferSyntax transfers = .ok) :
      Dispatched maxMemoBytes txn scope h (transitioned (Transition.runTransfer transfers h))
  | created (body : List UInt8) (payer : Option AccountId) (adminKey : Option Key) (memo : String)
      (signatures : SignatureMap) (inScope : ScheduledScope)
      (hdata : txn.body.data = .scheduleCreate body payer adminKey memo signatures)
      (hmemo : Text.utf8Length memo ≤ maxMemoBytes.toNat)
      (hadmin : ∀ key, adminKey = some key → key.isValid = true) (hscope : scope = some inScope) :
      Dispatched maxMemoBytes txn scope h (transitioned (h.createSchedule
        ⟨body, payer.getD txn.payer, txn.payer, txn.id.validStart, adminKey, memo⟩ inScope))
  | signed (id : ScheduleId) (signatures : SignatureMap) (inScope : ScheduledScope)
      (hdata : txn.body.data = .scheduleSign id signatures) (hid : id.isMissing = false)
      (hscope : scope = some inScope) :
      Dispatched maxMemoBytes txn scope h (transitioned (h.signSchedule id inScope))
  | unscoped (function : Function) (hscope : scope = none) :
      Dispatched maxMemoBytes txn scope h (.error (.missingScheduledScope function), h)
  | deleted (id : ScheduleId) (hdata : txn.body.data = .scheduleDelete id)
      (hid : id.isMissing = false) :
      Dispatched maxMemoBytes txn scope h (.ok true, h.deleteSchedule id)
  | frozen (window : FreezeWindow) (hdata : txn.body.data = .freeze window)
      (hwindow : window.isValid = true) (hpolicy : Gate.policy txn = .ok) :
      Dispatched maxMemoBytes txn scope h
        (.ok true, ({ h with freezeWindow := some window }.note (.freezeSet window)).setStatus .ok)

/-- A dispatch in which the transition is known is a refusal, or a run of that transition. -/
private theorem dispatch_of_find? {transitions : TransitionRegistry} {txn : Envelope}
    {t : Transition} (h : Handling) (scope : Option ScheduledScope)
    (hfind : transitions.find? txn.function txn.body = some t) :
    (∃ code, code ≠ .ok ∧ h.dispatch transitions txn scope = (.ok false, h.setStatus code)) ∨
      (Gate.policy txn = .ok ∧ t.syntaxCheck txn.body = .ok ∧
        h.dispatch transitions txn scope = transitioned (t.run txn scope h)) := by
  unfold dispatch
  split
  · rename_i hpolicy
    simp only [hfind]
    split
    · rename_i hchecked
      refine .inr ⟨hpolicy, hchecked, ?_⟩
      unfold transitioned
      split <;> rename_i heq <;> rw [heq] <;> rfl
    · rename_i hchecked
      exact .inl ⟨_, hchecked, rfl⟩
  · rename_i hpolicy
    exact .inl ⟨_, hpolicy, rfl⟩

/-- Every dispatch among the standard transitions is one of the listed ones. -/
theorem dispatch_standard (maxMemoBytes : UInt64) (txn : Envelope) (scope : Option ScheduledScope)
    (h : Handling) :
    Dispatched maxMemoBytes txn scope h (h.dispatch (.standard maxMemoBytes) txn scope) := by
  obtain ⟨code, hcode, heq⟩ | ⟨hpolicy, hchecked, heq⟩ :=
    dispatch_of_find? h scope (TransitionRegistry.find?_standard maxMemoBytes txn.body)
  · rw [heq]
    exact .refused code hcode
  · rw [heq]
    cases hdata : txn.body.data with
    | cryptoTransfer transfers =>
      simp only [hdata, Transition.cryptoTransfer] at hchecked ⊢
      exact .transferred transfers hdata hchecked
    | scheduleCreate body payer adminKey memo signatures =>
      simp only [hdata, Transition.scheduleCreate] at hchecked ⊢
      cases scope with
      | none => exact .unscoped .scheduleCreate rfl
      | some inScope =>
        split at hchecked
        · cases hchecked
        · rename_i hmemo
          split at hchecked
          · cases hchecked
          · rename_i hadmin
            refine .created body payer adminKey memo signatures inScope hdata (by omega) ?_ rfl
            rintro key rfl
            simpa only [Option.any_some, Bool.not_eq_true', Bool.not_eq_false] using hadmin
    | scheduleSign id signatures =>
      simp only [hdata, Transition.scheduleSign] at hchecked ⊢
      cases scope with
      | none => exact .unscoped .scheduleSign rfl
      | some inScope =>
        split at hchecked
        · cases hchecked
        · rename_i hid
          exact .signed id signatures inScope hdata (Bool.eq_false_iff.2 hid) rfl
    | scheduleDelete id =>
      simp only [hdata, Transition.scheduleDelete] at hchecked ⊢
      split at hchecked
      · cases hchecked
      · rename_i hid
        exact .deleted id hdata (Bool.eq_false_iff.2 hid)
    | freeze window =>
      simp only [hdata, Transition.freeze] at hchecked ⊢
      split at hchecked
      · rename_i hwindow
        exact .frozen window hdata hwindow hpolicy
      · cases hchecked

/-- Nothing but its syntax keeps a transfer from running. -/
theorem dispatch_cryptoTransfer (maxMemoBytes : UInt64) {txn : Envelope}
    (scope : Option ScheduledScope) (h : Handling) {transfers : List AccountAmount}
    (hdata : txn.body.data = .cryptoTransfer transfers)
    (hchecked : Transition.transferSyntax transfers = .ok) :
    h.dispatch (.standard maxMemoBytes) txn scope =
      transitioned (Transition.runTransfer transfers h) := by
  have hpolicy : Gate.policy txn = .ok := by
    apply if_neg
    rintro ⟨hfreeze, -⟩
    rw [Envelope.function, TransactionBody.function, hdata] at hfreeze
    cases hfreeze
  have hfind := TransitionRegistry.find?_standard maxMemoBytes txn.body
  rw [hdata] at hfind
  unfold dispatch
  rw [hpolicy]
  simp only [Envelope.function, hfind, Transition.cryptoTransfer, hdata, hchecked]
  unfold transitioned
  split <;> rename_i heq <;> rw [heq] <;> rfl

end Handling

end ConsensusLedger
