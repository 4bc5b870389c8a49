import ConsensusLedger.Proofs.Authorization
import ConsensusLedger.Proofs.Pipeline.Rejected
import ConsensusLedger.Proofs.Pipeline.Retained
import ConsensusLedger.Proofs.WaitingSchedules

/-!
A rejected transaction has no business effect. Wherever its handling was broken off, it triggers
nothing, changes no schedule and leaves the freeze window alone; all that it moves is what it is
charged, and a transaction that the submitting member should not have sent on costs that member the
network fee at most.
-/

namespace ConsensusLedger

open ScheduleStore

namespace Processor.BriefCall

variable {rules : Rules} {maxMemoBytes : UInt64}
  (hstandard : rules.transitions = .standard maxMemoBytes) {executed : Envelope → Prop}
  {p q : Processor} {d : Delivery} {records : List Record} {first : UInt64} {n : Nat}

include hstandard

theorem readable (h : BriefCall executed rules p d records q)
    (hpending : p.schedules.store.pending = none) (hreadable : p.schedules.Readable) :
    q.schedules.Readable := by
  cases h with
  | dropped => exact hreadable
  | delivered hparse hsane hfirst => exact hfirst.readable hstandard hpending hreadable
  | triggered hparse hsane hfirst hexecuted hsecond =>
    exact hsecond.readable_of_triggered hstandard (hfirst.pending hstandard hpending)
      (hfirst.readable hstandard hpending hreadable)

theorem tracked (h : BriefCall executed rules p d records q)
    (hpending : p.schedules.store.pending = none) (htracked : Tracked first n p.schedules)
    (hn : ∀ body, d.scheduledBody? = some body → n < 0x10000000000000000) :
    ∃ n' ≤ n + d.scheduledBody?.toList.length, Tracked first n' q.schedules := by
  cases h with
  | dropped => exact ⟨n, Nat.le_add_right n _, htracked⟩
  | delivered hparse hsane hfirst =>
    rw [Delivery.scheduledBody?_eq hparse] at hn ⊢
    exact hfirst.tracked hstandard hpending htracked hn
  | triggered hparse hsane hfirst hexecuted hsecond =>
    rw [Delivery.scheduledBody?_eq hparse] at hn ⊢
    obtain ⟨n', hn', htracked'⟩ := hfirst.tracked hstandard hpending htracked hn
    exact ⟨n', hn', hsecond.tracked_of_triggered hstandard (hfirst.pending hstandard hpending)
      htracked'⟩

/-- A call whose first record is a rejection handles nothing else. -/
theorem sole_of_rejected {r : Record} {rest : List Record}
    (h : BriefCall executed rules p d (r :: rest) q) (hpending : p.schedules.store.pending = none)
    (hreadable : p.schedules.Readable) (hok : r.status ≠ .ok)
    (hold : r.status ≠ .noNewValidSignatures) :
    rest = [] ∧ ∃ txn address, Envelope.ofSigned d.bytes = .ok txn ∧
      rules.book.get? d.member = some address ∧
      Recorded rules p txn (.start (effectiveTime txn d.time) d.member (some address.account)) false
        r none q := by
  cases h with
  | delivered hparse hsane hfirst =>
    exact ⟨rfl, _, _, hparse, Gate.sanityCheck_address hsane, hfirst⟩
  | triggered hparse hsane hfirst =>
    obtain ⟨hnext, -, -⟩ := hfirst.schedules_of_rejected hstandard hpending hreadable hok hold
    cases hnext

end Processor.BriefCall

/-- The missing signature of account 0.0.4, delivered after the schedule has expired. -/
def Sample.lateApproval : Delivery := { approval with time := ⟨2000, 0⟩ }

/-- The missing signature, delivered at the first second. -/
def Sample.firstSecondApproval : Delivery := { approval with time := ⟨Int64.minValue, 0⟩ }

namespace Node

variable (c : ProcessingConfig) (book : AddressBook) (verification : Signing.VerifierConfig)
  (fees : FeeSchedule) {start : Processor} {lifetime : Int64} {first : UInt64}
  (hempty : start.schedules = .empty lifetime first) (ds : List Delivery)

include hempty

/-- Between calls no creation is pending and every schedule can be read. -/
theorem readable_after :
    let s := ((standard c book verification fees start).after ds).processor.schedules
    s.store.pending = none ∧ s.Readable := by
  intro s
  induction ds using List.reverseRecOn with
  | nil =>
    have hstart : s = .empty lifetime first := hempty
    rw [hstart]
    exact ⟨rfl, readable_empty lifetime first⟩
  | append_singleton ds d ih =>
    have hbrief := deliver_brief c book verification fees start ds d ih.1
    exact ⟨hbrief.pending rfl ih.1, hbrief.readable rfl ih.1 ih.2⟩

/-- Between calls the queue is exact, as long as fewer schedules were created than there are
numbers. -/
theorem tracked_after (hfew : (scheduledBodies ds).length ≤ 0x10000000000000000) :
    ∃ k ≤ (scheduledBodies ds).length, Tracked first k
      ((standard c book verification fees start).after ds).processor.schedules := by
  induction ds using List.reverseRecOn with
  | nil =>
    refine ⟨0, Nat.le_refl 0, ?_⟩
    have hstart : ((standard c book verification fees start).after []).processor.schedules =
        .empty lifetime first := hempty
    rw [hstart]
    exact .empty lifetime first
  | append_singleton ds d ih =>
    have hlength := congrArg List.length (scheduledBodies_concat ds d)
    rw [List.length_append] at hlength
    obtain ⟨k, hk, htracked⟩ := ih (by omega)
    obtain ⟨hpending, -⟩ := readable_after c book verification fees hempty ds
    obtain ⟨k', hk', htracked'⟩ :=
      (deliver_brief c book verification fees start ds d hpending).tracked rfl hpending htracked (by
        intro body hbody
        rw [hbody, Option.toList_some, List.length_singleton] at hlength
        omega)
    exact ⟨k', by omega, htracked'⟩

/-- A call whose first record is neither a success nor the answer that no signature is new has no
other record and no business effect. The freeze window and the next number are as before. The
schedules left are those that had not expired at the time of the record, and those of the last
second, which never expire. The accounts have changed by one charge to the ledger as it was, or not
at all when the handling was rolled back; when due diligence was neglected, only the submitting
member's account and the funding account have changed, and the member has lost the network fee at
most. -/
theorem rejection_has_no_effect (d : Delivery) {r : Record} {rest : List Record}
    (hanswer : (((standard c book verification fees start).after ds).deliver d).answer = r :: rest)
    (hok : r.status ≠ .ok) (hold : r.status ≠ .noNewValidSignatures) :
    let n := standard c book verification fees start
    let p := (n.after ds).processor
    let q := (n.after (ds ++ [d])).processor
    rest = [] ∧ q.freezeWindow = p.freezeWindow ∧
    q.schedules.nextNumber = p.schedules.nextNumber ∧
    ((scheduledBodies ds).length ≤ 0x10000000000000000 → ∀ id,
      q.schedules.committed? id = (p.schedules.committed? id).filter fun x =>
        decide (r.time.seconds < x.expiry ∨ x.expiry = Int64.maxValue)) ∧
    ∃ txn address, Envelope.ofSigned d.bytes = .ok txn ∧ book.get? d.member = some address ∧
      let context := Context.start r.time d.member (some address.account)
      let charge := p.deliveryCharge n.rules txn context
      ((p.raised? n.rules txn context false = none ∧ Processor.Charges charge p r q) ∨
        ((p.raised? n.rules txn context false).isSome ∧ Processor.RollsBack p r q)) ∧
      ∀ code, p.neglect? n.rules txn context = some code →
        r.status = code ∧ Processor.Charges charge p r q ∧
        (∀ id, id ≠ address.account → id ≠ n.rules.funding →
          q.ledger.accounts.get? id = p.ledger.accounts.get? id) ∧
        ∀ b, p.ledger.committedBalance? address.account = some b →
          ∃ b', q.ledger.committedBalance? address.account = some b' ∧
            b - (p.deliveryFee n.rules txn context).network.toNat ≤ b' := by
  intro n p q
  obtain ⟨hpending, hreadable⟩ := readable_after c book verification fees hempty ds
  have hbrief := deliver_brief c book verification fees start ds d hpending
  simp only [hanswer] at hbrief
  obtain ⟨hsole, txn, address, hparse, haddress, hrecorded⟩ :=
    hbrief.sole_of_rejected rfl hpending hreadable hok hold
  obtain ⟨-, hnext, hpurged⟩ := hrecorded.schedules_of_rejected rfl hpending hreadable hok hold
  obtain ⟨hfreeze, hcharged⟩ := hrecorded.rejected rfl hpending rfl hok
  have htime : r.time = Processor.effectiveTime txn d.time := hrecorded.time
  refine ⟨hsole, hfreeze, hnext, fun hfew id => ?_, txn, address, hparse, haddress, ?_⟩
  · obtain ⟨k, -, htracked⟩ := tracked_after c book verification fees hempty ds hfew
    rw [hpurged, htime]
    exact htracked.committed?_purge hpending _ id
  · rw [htime]
    refine ⟨hcharged, fun code hdue => ?_⟩
    obtain ⟨hcode, hcharges⟩ := hrecorded.neglected rfl hpending rfl hdue
    obtain ⟨hothers, hloss⟩ := Processor.deliveryCharge_of_neglect hdue rfl
    refine ⟨hcode, hcharges, fun id hnode hfunding => ?_, fun b hb => ?_⟩
    · exact hcharges.accounts id (hothers id hnode hfunding)
    · have hmoved := hcharges.balances address.account
      rw [hb, Option.map_some] at hmoved
      refine ⟨_, hmoved, ?_⟩
      rw [Int.sub_eq_add_neg]
      exact Int.add_le_add_left hloss b

omit hempty in
/-- A signature that comes after the schedule has expired is itself too late: the schedule goes, and
only the member that sent it on and the funding account have other balances. -/
theorem rejection_has_no_effect_late :
    ∃ r, ((Sample.after [Sample.creation]).deliver Sample.lateApproval).answer = [r] ∧
      r.status = .transactionExpired ∧
      ((Sample.after [Sample.creation]).processor.schedules.committed? (.ofNum 1000)).isSome =
        true ∧
      (Sample.after ([Sample.creation] ++ [Sample.lateApproval])).processor.schedules.committed?
        (.ofNum 1000) = none ∧
      ∀ id, id ≠ .ofNum 3 → id ≠ .ofNum 98 →
        (Sample.after ([Sample.creation] ++ [Sample.lateApproval])).processor.ledger.accounts.get?
            id =
          (Sample.after [Sample.creation]).processor.ledger.accounts.get? id := by
  obtain ⟨hshape, hneglect, hcreated, hexpired⟩ :
      ((Sample.after [Sample.creation]).deliver Sample.lateApproval).answer.map
        (fun r => (r.status, r.time)) = [(.transactionExpired, ⟨1999, 999999999⟩)] ∧
      (∀ txn ∈ (Envelope.ofSigned Sample.lateApproval.bytes).toOption,
        (Sample.after [Sample.creation]).processor.neglect? (Sample.after []).rules txn
          (.start ⟨1999, 999999999⟩ 0 (some (.ofNum 3))) = some .transactionExpired) ∧
      ((Sample.after [Sample.creation]).processor.schedules.committed? (.ofNum 1000)).isSome =
        true ∧
      (((Sample.after [Sample.creation]).processor.schedules.committed? (.ofNum 1000)).filter
        fun x => decide (1999 < x.expiry ∨ x.expiry = Int64.maxValue)) = none := by
    decide +kernel
  have hfew : (scheduledBodies [Sample.creation]).length ≤ 0x10000000000000000 :=
    Nat.le_trans (List.length_filterMap_le _ _) (by decide)
  obtain ⟨r, hanswer, hr⟩ := List.map_eq_singleton_iff.1 hshape
  obtain ⟨hstatus, htime⟩ := Prod.mk.inj hr
  obtain ⟨-, -, -, hschedules, txn, address, hparse, haddress, -, hneglected⟩ :=
    rejection_has_no_effect {} Sample.book Sample.verification {} rfl [Sample.creation]
      Sample.lateApproval hanswer (by rw [hstatus]; exact nofun) (by rw [hstatus]; exact nofun)
  have hnode : some ⟨1, .ofNum 3⟩ = some address := haddress
  cases hnode
  rw [htime] at hschedules hneglected
  obtain ⟨-, -, hothers, -⟩ := hneglected _ (hneglect txn (by rw [hparse]; rfl))
  have hrun : ∀ ds, Node.after _ ds = Sample.after ds := fun _ => rfl
  rw [hrun, hrun] at hothers
  exact ⟨r, hanswer, hstatus, hcreated, (hschedules hfew _).trans hexpired, hothers⟩

omit hempty in
/-- A schedule of the last second outlives that second. A signature at the first second is handled a
nanosecond earlier, which is at the end of the last one. -/
theorem last_second_outlives_rejection :
    let n := standard {} Sample.book Sample.verification {}
      { Sample.start with schedules := .empty (Int64.maxValue - 100) 1000 }
    let p := (n.after [Sample.creation]).processor
    ¬ ∀ d r, d.time.seconds < Int64.maxValue →
      ((n.after [Sample.creation]).deliver d).answer = [r] → r.status ≠ .ok →
      r.status ≠ .noNewValidSignatures → ∀ id,
      (n.after [Sample.creation, d]).processor.schedules.committed? id =
        (p.schedules.committed? id).filter fun x => decide (r.time.seconds < x.expiry) := by
  intro n p hclaim
  obtain ⟨hshape, hleft, hexpired⟩ :
      ((n.after [Sample.creation]).deliver Sample.firstSecondApproval).answer.map
        (fun r => (r.status, r.time)) =
          [(.transactionExpired, ⟨Int64.maxValue, 999999999⟩)] ∧
      ((n.after [Sample.creation, Sample.firstSecondApproval]).processor.schedules.committed?
        (.ofNum 1000)).isSome = true ∧
      ((p.schedules.committed? (.ofNum 1000)).filter fun x =>
        decide (Int64.maxValue < x.expiry)) = none := by decide +kernel
  obtain ⟨r, hanswer, hr⟩ := List.map_eq_singleton_iff.1 hshape
  obtain ⟨hstatus, htime⟩ := Prod.mk.inj hr
  have hgone := hclaim Sample.firstSecondApproval r (by decide) hanswer
    (by rw [hstatus]; exact nofun) (by rw [hstatus]; exact nofun) (.ofNum 1000)
  rw [htime, hexpired] at hgone
  rw [hgone] at hleft
  cases hleft

end Node

end ConsensusLedger
