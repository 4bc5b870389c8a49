import ConsensusLedger.Proofs.Pipeline.Handled
import ConsensusLedger.Proofs.WaitingSchedules

/-!
Scheduled identifiers. A triggered transaction always runs under one. A delivered transaction can have
one too, since it is a field of the delivered body like any other and no gate looks at it; then its
record has the identifier that belongs to a schedule.
-/

namespace ConsensusLedger

/-- The identifier of the record is a scheduled one exactly if a schedule triggered the transaction. -/
def Record.TellsTriggered (r : Record) : Prop :=
  r.id.scheduled = true ↔ r.scheduleRef.isSome = true

instance (r : Record) : Decidable r.TellsTriggered := inferInstanceAs (Decidable (_ ↔ _))

/-- What is delivered is not read as a transaction with a scheduled identifier. -/
def Delivery.Unmarked (d : Delivery) : Prop :=
  ∀ txn, Envelope.ofSigned d.bytes = .ok txn → txn.id.scheduled = false

namespace Processor

variable {rules : Rules} {maxMemoBytes : UInt64}
  (hstandard : rules.transitions = .standard maxMemoBytes)

include hstandard

/-- What a handling triggers runs under a scheduled identifier. -/
theorem Recorded.triggered_marked {p q : Processor} {txn inner : Envelope} {context : Context}
    {triggered : Bool} {r : Record} (h : Recorded rules p txn context triggered r (some inner) q)
    (hfresh : context.triggered = none) :
    inner.id.scheduled = true ∧ inner.schedule.isSome = true := by
  obtain ⟨-, hstems⟩ := h.traced (P := fun _ _ => True) hstandard (fun _ _ _ _ => trivial) hfresh
    (fun _ _ _ => trivial) fun _ _ _ => trivial
  obtain ⟨id, x, -, hinner⟩ := hstems inner rfl
  obtain ⟨hid, -, hschedule⟩ := Envelope.origin_of_ofScheduled hinner
  rw [hid, hschedule]
  exact ⟨rfl, rfl⟩

/-- A call that returns records returns one of the delivered transaction, under the delivered
identifier; all others are of triggered transactions, and have scheduled identifiers. -/
theorem incorporate_marks (p : Processor) (d : Delivery) :
    (p.incorporate rules d.bytes d.time d.member).answer = [] ∨
      ∃ txn r rest, (p.incorporate rules d.bytes d.time d.member).answer = r :: rest ∧
        Envelope.ofSigned d.bytes = .ok txn ∧ r.id = txn.id ∧ r.scheduleRef = none ∧
        ∀ s ∈ rest, s.id.scheduled = true ∧ s.scheduleRef.isSome = true := by
  have hcall := incorporate_handledCall hstandard p d
  rw [(p.incorporate_handled rules d).1]
  generalize p.handled rules d = handled, (p.incorporate rules d.bytes d.time d.member).processor = q
    at hcall
  cases hcall with
  | dropped => exact .inl rfl
  | alone hparse hsane hfirst =>
    exact .inr ⟨_, _, [], rfl, hparse, hfirst.id,
      hfirst.scheduleRef.trans (Envelope.schedule_of_ofSigned hparse),
      fun _ hmem => absurd hmem List.not_mem_nil⟩
  | followed hparse hsane hfirst hsecond =>
    refine .inr ⟨_, _, [_], rfl, hparse, hfirst.id,
      hfirst.scheduleRef.trans (Envelope.schedule_of_ofSigned hparse), fun s hs => ?_⟩
    rw [List.mem_singleton.1 hs, hsecond.id, hsecond.scheduleRef]
    exact hfirst.triggered_marked hstandard rfl

/-- One call: the identifiers tell which transactions were triggered unless it handles a delivered one
with a scheduled identifier. -/
theorem incorporate_tells_iff (p : Processor) (d : Delivery) :
    (∀ r ∈ (p.incorporate rules d.bytes d.time d.member).answer, r.TellsTriggered) ↔
      ((p.incorporate rules d.bytes d.time d.member).answer ≠ [] → d.Unmarked) := by
  rcases incorporate_marks hstandard p d with
    hnone | ⟨txn, r, rest, hanswer, hparse, hid, href, hrest⟩
  · rw [hnone]
    exact ⟨fun _ hne => absurd rfl hne, fun _ _ hmem => absurd hmem List.not_mem_nil⟩
  · rw [hanswer, List.forall_mem_cons]
    have hunmarked : d.Unmarked ↔ txn.id.scheduled = false :=
      ⟨fun h => h txn hparse, fun h txn' hparse' => Except.ok.inj (hparse.symm.trans hparse') ▸ h⟩
    have hfirst : r.TellsTriggered ↔ txn.id.scheduled = false := by
      rw [Record.TellsTriggered, hid, href, Option.isSome_none, ← Bool.not_eq_true]
      exact iff_false_right nofun
    have hothers : ∀ s ∈ rest, s.TellsTriggered := fun s hs =>
      iff_of_true (hrest s hs).1 (hrest s hs).2
    rw [hunmarked, hfirst]
    exact ⟨fun h _ => h.1, fun h => ⟨h (List.cons_ne_nil r rest), hothers⟩⟩

end Processor

/-!
Account 0.0.2 has a transfer of its own delivered under the identifier of the schedule that it has
created.
-/

namespace Sample

def markedTransfer : Delivery :=
  let body : TransactionBody := ⟨⟨.ofNum 2, ⟨100, 0⟩, true⟩, .ofNum 3, 500000, 100, "",
    .cryptoTransfer [⟨.ofNum 2, -7⟩, ⟨.ofNum 4, 7⟩]⟩
  ⟨(SignedTransaction.mk body.toBytes [signature 2]).toBytes, ⟨100, 5⟩, 0⟩

end Sample

namespace Node

variable (c : ProcessingConfig) (book : AddressBook) (verification : Signing.VerifierConfig)
  (fees : FeeSchedule) (start : Processor)

/-- Triggered transactions are recorded under scheduled identifiers, whatever is delivered. The
converse holds of a run exactly if no delivery that brings a record is read as a transaction with a
scheduled identifier; then no delivered and triggered transaction are recorded under one
identifier. -/
theorem scheduled_ids_tell_triggered_iff (ds : List Delivery) :
    let n := standard c book verification fees start
    (∀ r ∈ n.records ds, r.scheduleRef.isSome = true → r.id.scheduled = true) ∧
    ((∀ r ∈ n.records ds, r.TellsTriggered) ↔
      ∀ es d, es ++ [d] <+: ds → ((n.after es).deliver d).answer ≠ [] → d.Unmarked) ∧
    ((∀ r ∈ n.records ds, r.TellsTriggered) → ∀ r ∈ n.records ds, ∀ s ∈ n.records ds,
      r.scheduleRef.isSome = true → s.scheduleRef = none → r.id ≠ s.id) := by
  intro n
  have hstandard : n.rules.transitions = .standard c.maxMemoBytes := rfl
  refine ⟨?_, ?_, fun htells r hr s hs htriggered hdelivered hsame => ?_⟩
  · induction ds using List.reverseRecOn with
    | nil => exact fun _ hmem => absurd hmem List.not_mem_nil
    | append_singleton ds d ih =>
      rw [records_concat, deliver_after, List.forall_mem_append]
      refine ⟨ih, fun r hr href => ?_⟩
      rcases Processor.incorporate_marks hstandard (n.after ds).processor d with
        hnone | ⟨txn, r', rest, hanswer, -, -, hexternal, hrest⟩
      · rw [hnone] at hr
        cases hr
      · rw [hanswer] at hr
        rcases List.mem_cons.1 hr with rfl | hr
        · rw [hexternal] at href
          cases href
        · exact (hrest r hr).1
  · induction ds using List.reverseRecOn with
    | nil =>
      refine iff_of_true (fun _ hmem => absurd hmem List.not_mem_nil) fun es d hprefix => ?_
      exact absurd (List.prefix_nil.1 hprefix) (List.append_ne_nil_of_right_ne_nil es nofun)
    | append_singleton ds d ih =>
      rw [records_concat, List.forall_mem_append, ih, deliver_after,
        Processor.incorporate_tells_iff hstandard]
      simp only [List.prefix_concat_iff]
      constructor
      · rintro ⟨hbefore, hlast⟩ es e (hsame | hprefix) hanswer
        · obtain ⟨rfl, hlast'⟩ := List.append_inj' hsame rfl
          obtain rfl := List.singleton_inj.1 hlast'
          rw [deliver_after] at hanswer
          exact hlast hanswer
        · exact hbefore es e hprefix hanswer
      · intro hall
        refine ⟨fun es e hprefix => hall es e (.inr hprefix), fun hanswer => ?_⟩
        refine hall ds d (.inl rfl) ?_
        rw [deliver_after]
        exact hanswer
  · have hmarked := (htells r hr).2 htriggered
    rw [hsame] at hmarked
    have htriggered' := (htells s hs).1 hmarked
    rw [hdelivered] at htriggered'
    cases htriggered'

/-- A delivered transfer is recorded under the identifier of a scheduled one, and so is the scheduled
one when it runs. -/
theorem scheduled_id_recorded_twice :
    let n := standard {} Sample.book Sample.verification {} Sample.start
    ∃ r ∈ n.records [Sample.creation, Sample.markedTransfer, Sample.approval],
      ∃ s ∈ n.records [Sample.creation, Sample.markedTransfer, Sample.approval],
        r.scheduleRef = none ∧ s.scheduleRef = some (.ofNum 1000) ∧ r.status = .ok ∧ r.id = s.id ∧
          ¬ r.TellsTriggered := by
  decide +kernel

end Node

end ConsensusLedger
