import ConsensusLedger.Proofs.Authorization
import ConsensusLedger.Proofs.Pipeline.Departing
import ConsensusLedger.Proofs.TriggerProtocol

/-!
How schedules leave the store along a run. Each does for exactly one reason: it has expired, it was
executed with all the signatures it needs, or it was deleted with the signature of its admin key. It is
executed at most once, and its identifier never comes back.
-/

namespace ConsensusLedger

open Signing ScheduleStore

namespace Processor

/-- A record of the call comes when the schedule has expired. -/
def Lapses (records : List Record) (x : Schedule) : Prop :=
  ∃ r ∈ records, x.expiry ≤ r.time.seconds

/-- The call executes the schedule, which the signatures that the delivery brings have completed. -/
structure Executes (p : Processor) (verifier : Verifier) (d : Delivery) (records : List Record)
    (id : ScheduleId) (x : Schedule) : Prop where
  recorded : ∃ r ∈ records, r.scheduleRef = some id
  completed : ∃ x', x.CompletedBy p.ledger.key? verifier d.scheduledSignatures x'

/-- The delivered transaction deletes the schedule, whose admin key is active over the public keys that
have signed the transaction. -/
structure Deletes (verifier : Verifier) (d : Delivery) (records : List Record) (id : ScheduleId)
    (x : Schedule) : Prop where
  recorded : ∃ txn, Envelope.ofSigned d.bytes = .ok txn ∧ txn.body.data = .scheduleDelete id ∧
    ∃ r ∈ records, r.id = txn.id ∧ r.scheduleRef = none ∧ r.status = .ok
  authorized : ∃ k, x.adminKey = some k ∧ k.isActive (d.attested verifier) = true

/-- The schedule leaves the store for exactly one reason; that it has expired counts as one only if
the call neither executes nor deletes it. -/
def LeavesLawfully (p : Processor) (verifier : Verifier) (d : Delivery) (records : List Record)
    (id : ScheduleId) (x : Schedule) : Prop :=
  (Lapses records x ∧ ¬Executes p verifier d records id x ∧ ¬Deletes verifier d records id x) ∨
    (Executes p verifier d records id x ∧ ¬Deletes verifier d records id x) ∨
    (Deletes verifier d records id x ∧ ¬Executes p verifier d records id x)

variable {rules : Rules} {maxMemoBytes : UInt64}
  (hstandard : rules.transitions = .standard maxMemoBytes) {p q : Processor} {d : Delivery}
  {executed : Envelope → Prop} {records : List Record} {id : ScheduleId} {x : Schedule}

/-- The number of an identifier that has its root in a call is handed out after it. -/
theorem Rooted.num_lt {scheduledId : TransactionId} (h : Rooted p d records q id scheduledId)
    (hindexed : p.schedules.Indexed) (hgrown : p.schedules.nextNumber ≤ q.schedules.nextNumber) :
    id.num < q.schedules.nextNumber := by
  rcases h with ⟨x, hx, -⟩ | ⟨txn, hcreates, -⟩
  · exact UInt64.lt_of_lt_of_le (hindexed.num_lt hx) hgrown
  · rw [hcreates.taken] at hgrown
    rw [hcreates.number, hcreates.taken]
    exact UInt64.lt_add_one_of_le hgrown

/-- An identifier that is spent has no root in a call: its schedule is gone, and a creation takes
another number. -/
theorem not_rooted_of_spent {scheduledId : TransactionId} (hspent : Spent id p.schedules) :
    ¬Rooted p d records q id scheduledId := by
  rintro (⟨x, hx, -⟩ | ⟨txn, hcreates, -⟩)
  · cases hspent.gone.symm.trans hx
  · have hnumber := hspent.number
    rw [hcreates.number] at hnumber
    exact UInt64.lt_irrefl _ hnumber

namespace BriefCall

include hstandard

/-- At most one record of a call is of a triggered transaction. -/
theorem scheduleRefs_nodup (h : BriefCall executed rules p d records q)
    (hpending : p.schedules.store.pending = none) : (records.filterMap (·.scheduleRef)).Nodup := by
  rcases h.triggers hstandard hpending with
    rfl | ⟨r, rfl, hnone, -⟩ | ⟨r, s, id, rfl, htriggered, -⟩
  · exact .nil
  · rw [List.filterMap_cons_none hnone]
    exact .nil
  · rw [List.filterMap_cons_none htriggered.delivered, List.filterMap_cons_some htriggered.scheduleRef]
    exact List.pairwise_singleton _ id

/-- A call that executes a schedule deletes none. -/
theorem not_deletes (h : BriefCall executed rules p d records q)
    (hpending : p.schedules.store.pending = none) {verifier : Verifier}
    (hexecutes : Executes p verifier d records id x) : ¬Deletes verifier d records id x := by
  intro hdeletes
  obtain ⟨s, hs, hid⟩ := hexecutes.recorded
  obtain ⟨txn, hparsed, hdata, -⟩ := hdeletes.recorded
  obtain ⟨r, -, htriggered, -⟩ := h.of_executed hstandard hpending hs hid
  obtain ⟨txn', hparsed', -, hnames⟩ := htriggered.operation
  cases hparsed.symm.trans hparsed'
  rcases hnames with ⟨hfunction, -⟩ | ⟨signatures, hsign⟩
  · rw [Envelope.function, TransactionBody.function, hdata] at hfunction
    cases hfunction
  · cases hdata.symm.trans hsign

theorem queued (h : BriefCall executed rules p d records q)
    (hpending : p.schedules.store.pending = none) (hqueued : Queued p.schedules)
    (hgrown : p.schedules.nextNumber ≤ q.schedules.nextNumber) : Queued q.schedules := by
  cases h with
  | dropped => exact hqueued
  | delivered hparse hsane hfirst => exact hfirst.queued hstandard hpending hqueued hgrown
  | triggered hparse hsane hfirst hexecuted hsecond =>
    have hpending' := hfirst.pending hstandard hpending
    have hsame := hsecond.nextNumber_of_triggered hstandard hpending'
    have hqueued' := hfirst.queued hstandard hpending hqueued (hsame ▸ hgrown)
    exact hsecond.queued hstandard hpending' hqueued' (UInt64.le_of_eq hsame.symm)

/-- An identifier that is spent stays so, and no record of a call names it. -/
theorem spent (h : BriefCall executed rules p d records q)
    (hpending : p.schedules.store.pending = none) (hspent : Spent id p.schedules)
    (hgrown : p.schedules.nextNumber ≤ q.schedules.nextNumber) :
    Spent id q.schedules ∧
      ∀ r ∈ records, r.receipt.schedule ≠ some id ∧ r.scheduleRef ≠ some id := by
  have hunnamed {r : Record} (hr : r ∈ records) :
      ¬(r.receipt.schedule = some id ∨ r.scheduleRef = some id) := by
    intro hnamed
    obtain ⟨scheduledId, hrooted⟩ := h.rooted_of_named hstandard hpending hr hnamed
    exact not_rooted_of_spent hspent hrooted
  refine ⟨⟨UInt64.lt_of_lt_of_le hspent.number hgrown, ?_⟩, fun r hr => not_or.1 (hunnamed hr)⟩
  cases hx : q.schedules.committed? id with
  | none => rfl
  | some x => exact absurd (h.rooted hstandard hpending hx) (not_rooted_of_spent hspent)

/-- The number of an identifier that a record names has been handed out after the call. -/
theorem num_lt_of_named (h : BriefCall executed rules p d records q) (hindexed : p.schedules.Indexed)
    (hgrown : p.schedules.nextNumber ≤ q.schedules.nextNumber) {r : Record} (hr : r ∈ records)
    (hnamed : r.receipt.schedule = some id ∨ r.scheduleRef = some id) :
    id.num < q.schedules.nextNumber := by
  obtain ⟨scheduledId, hrooted⟩ := h.rooted_of_named hstandard hindexed.pending hr hnamed
  exact hrooted.num_lt hindexed hgrown

/-- An identifier whose schedule a call executes is spent after the call. -/
theorem spent_of_executed (h : BriefCall executed rules p d records q)
    (hindexed : p.schedules.Indexed)
    (hgrown : p.schedules.nextNumber ≤ q.schedules.nextNumber) {r : Record} (hr : r ∈ records)
    (hid : r.scheduleRef = some id) : Spent id q.schedules := by
  obtain ⟨s, -, htriggered, hrooted⟩ := h.of_executed hstandard hindexed.pending hr hid
  exact ⟨hrooted.num_lt hindexed hgrown, htriggered.gone⟩

/-- A schedule that a call takes out of the store leaves it lawfully. -/
theorem leavesLawfully (h : BriefCall executed rules p d records q)
    (hschedulable : ∀ inner, executed inner → inner.function.isSchedulable = true)
    {pairs : SignatureMap} {bodies : List (List UInt8)} {first : UInt64} {n : Nat}
    (hkept : Kept p.ledger.key? rules.verification.verifier pairs bodies first n p.schedules)
    (hqueued : Queued p.schedules) (hgrown : p.schedules.nextNumber ≤ q.schedules.nextNumber)
    (hbodies : ∀ body, d.scheduledBody? = some body → body ∈ bodies ∧ n < 0x10000000000000000)
    (hdistinct : Digest.CollisionFree bodies) (hx : p.schedules.committed? id = some x)
    (hgone : q.schedules.committed? id = none) :
    LeavesLawfully p rules.verification.verifier d records id x := by
  have hpending := hkept.tidy.pending
  have hreason : Lapses records x ∨ Executes p rules.verification.verifier d records id x ∨
      Deletes rules.verification.verifier d records id x := by
    cases h with
    | dropped => cases hgone.symm.trans hx
    | delivered hparse hsane hfirst =>
      rw [Delivery.scheduledBody?_eq hparse] at hbodies
      rcases hfirst.departed hstandard hkept hqueued hbodies hdistinct hx hgone with
        hexpired | ⟨hdata, hok, -, k, hk, hactive⟩ | ⟨inner, x', hnext, -⟩
      · exact .inl ⟨_, List.mem_singleton.2 rfl, hexpired⟩
      · refine .inr (.inr ⟨⟨_, hparse, hdata, _, List.mem_singleton.2 rfl, hfirst.id, ?_, hok⟩, k, hk, ?_⟩)
        · exact hfirst.scheduleRef.trans (Envelope.schedule_of_ofSigned hparse)
        · rw [Delivery.attested_eq hparse]
          exact hactive
      · cases hnext
    | triggered hparse hsane hfirst hexecuted hsecond =>
      rename_i txn inner address r s q'
      rw [Delivery.scheduledBody?_eq hparse] at hbodies
      have hpending' := hfirst.pending hstandard hpending
      have hsame := hsecond.nextNumber_of_triggered hstandard hpending'
      cases hleft : q'.schedules.committed? id with
      | none =>
        rcases hfirst.departed hstandard hkept hqueued hbodies hdistinct hx hleft with
          hexpired | ⟨-, -, hnext, -⟩ | ⟨inner', x', hnext, hschedule, hcompleted⟩
        · exact .inl ⟨r, List.mem_cons_self, hexpired⟩
        · cases hnext
        · cases hnext
          refine .inr (.inl ⟨⟨s, List.mem_cons_of_mem _ (List.mem_singleton.2 rfl), ?_⟩, x', ?_⟩)
          · exact hsecond.scheduleRef.trans hschedule
          · rw [Delivery.scheduledSignatures_eq hparse]
            exact hcompleted
      | some y =>
        -- Still there after the first handling, so that it can only have expired.
        have hy := (hfirst.attended hstandard hpending).within_of_triggers id y hleft
        cases hx.symm.trans (purge_within hpending _ id y hy)
        have hqueued' := hfirst.queued hstandard hpending hqueued (hsame ▸ hgrown)
        exact .inl ⟨s, List.mem_cons_of_mem _ (List.mem_singleton.2 rfl),
          hsecond.expired_of_schedulable hstandard hpending' hqueued' (hschedulable inner hexecuted)
            hleft hgone⟩
  by_cases hexecutes : Executes p rules.verification.verifier d records id x
  · exact .inr (.inl ⟨hexecutes, h.not_deletes hstandard hpending hexecutes⟩)
  · by_cases hdeletes : Deletes rules.verification.verifier d records id x
    · exact .inr (.inr ⟨hdeletes, hexecutes⟩)
    · rcases hreason with hlapses | hexecutes' | hdeletes'
      · exact .inl ⟨hlapses, hexecutes, hdeletes⟩
      · exact absurd hexecutes' hexecutes
      · exact absurd hdeletes' hdeletes

end BriefCall

end Processor

namespace Node

/-- The identifier has been that of a schedule: one was committed under it after some of the
deliveries, or a record says that one was created, found or executed. -/
def Held (n : Node) (ds : List Delivery) (id : ScheduleId) : Prop :=
  (∃ es x, es <+: ds ∧ (n.after es).processor.schedules.committed? id = some x) ∨
    ∃ r ∈ n.records ds, r.receipt.schedule = some id ∨ r.scheduleRef = some id

variable (c : ProcessingConfig) (book : AddressBook) (verification : VerifierConfig)
  (fees : FeeSchedule) {start : Processor} {lifetime : Int64} {first : UInt64} {ds : List Delivery}

/-- Schedules wait all along a run whose numbers do not wrap. -/
theorem schedules_kept_of_numbersGrow (hempty : start.schedules = .empty lifetime first)
    (hdistinct : Digest.CollisionFree (scheduledBodies ds))
    (hgrow : (standard c book verification fees start).NumbersGrow ds) :
    let n := standard c book verification fees start
    Kept (n.after ds).processor.ledger.key? verification.verifier (scheduledSignatures ds)
      (scheduledBodies ds) 0 (n.nextNumber ds).toNat (n.after ds).processor.schedules := by
  intro n
  induction ds using List.reverseRecOn with
  | nil =>
    have hschedules : (n.after []).processor.schedules = .empty lifetime first := hempty
    rw [nextNumber, hschedules]
    exact ⟨indexed_empty lifetime first, nofun⟩
  | append_singleton ds d ih =>
    obtain ⟨hgrow, hlast⟩ := numbersGrow_concat.1 hgrow
    have hkept := ih (hdistinct.of_subset (mem_scheduledBodies_concat ds d).1) hgrow
    obtain ⟨⟨k, hk, hkept'⟩, -⟩ := deliver_kept c book verification fees hkept hdistinct
      fun _ _ => UInt64.toNat_lt _
    have hone : d.scheduledBody?.toList.length ≤ 1 := by
      cases d.scheduledBody? with
      | none => exact Nat.zero_le 1
      | some body => exact Nat.le_refl 1
    have hcount : k = (n.nextNumber (ds ++ [d])).toNat :=
      hkept'.tidy.count_eq (Nat.le_trans hk (Nat.add_le_add_left hone _)) hlast
    rw [← hcount]
    exact hkept'

theorem indexed_of_empty (hempty : start.schedules = .empty lifetime first)
    (hgrow : (standard c book verification fees start).NumbersGrow ds) :
    ((standard c book verification fees start).after ds).processor.schedules.Indexed :=
  indexed_after c book verification fees (hempty ▸ indexed_empty lifetime first) hgrow

theorem queued_after (hempty : start.schedules = .empty lifetime first)
    (hgrow : (standard c book verification fees start).NumbersGrow ds) :
    Queued ((standard c book verification fees start).after ds).processor.schedules := by
  induction ds using List.reverseRecOn with
  | nil =>
    have hschedules : ((standard c book verification fees start).after []).processor.schedules =
        .empty lifetime first := hempty
    rw [hschedules]
    exact .empty lifetime first
  | append_singleton ds d ih =>
    obtain ⟨hgrow, hlast⟩ := numbersGrow_concat.1 hgrow
    have hpending := (indexed_of_empty c book verification fees hempty hgrow).pending
    exact (deliver_brief c book verification fees start ds d hpending).queued rfl hpending
      (ih hgrow) hlast

/-- The number of an identifier that has been a schedule's has been handed out. -/
theorem num_lt_of_held (hempty : start.schedules = .empty lifetime first)
    (hgrow : (standard c book verification fees start).NumbersGrow ds) {id : ScheduleId}
    (hheld : (standard c book verification fees start).Held ds id) :
    id.num < (standard c book verification fees start).nextNumber ds := by
  induction ds using List.reverseRecOn with
  | nil =>
    rcases hheld with ⟨es, x, hinitial, hx⟩ | ⟨r, hr, -⟩
    · rw [List.prefix_nil.1 hinitial] at hx
      exact (indexed_of_empty c book verification fees hempty hgrow).num_lt hx
    · cases hr
  | append_singleton ds d ih =>
    have hindexed' := indexed_of_empty c book verification fees hempty hgrow
    obtain ⟨hgrow, hlast⟩ := numbersGrow_concat.1 hgrow
    have hindexed := indexed_of_empty c book verification fees hempty hgrow
    rcases hheld with ⟨es, x, hinitial, hx⟩ | ⟨r, hr, hnamed⟩
    · rcases List.prefix_concat_iff.1 hinitial with rfl | hinitial
      · exact hindexed'.num_lt hx
      · exact UInt64.lt_of_lt_of_le (ih hgrow (.inl ⟨es, x, hinitial, hx⟩)) hlast
    · rw [records_concat] at hr
      rcases List.mem_append.1 hr with hr | hr
      · exact UInt64.lt_of_lt_of_le (ih hgrow (.inr ⟨r, hr, hnamed⟩)) hlast
      · exact (deliver_brief c book verification fees start ds d hindexed.pending).num_lt_of_named
          rfl hindexed hlast hr hnamed

/-- An identifier that is spent stays so along the rest of a run, and no record names it. -/
theorem spent_after (hempty : start.schedules = .empty lifetime first) {es : List Delivery}
    (hgrow : (standard c book verification fees start).NumbersGrow (ds ++ es)) {id : ScheduleId}
    (hspent : Spent id ((standard c book verification fees start).after ds).processor.schedules) :
    let n := standard c book verification fees start
    Spent id (n.after (ds ++ es)).processor.schedules ∧
      ∀ r ∈ (n.after ds).records es, r.receipt.schedule ≠ some id ∧ r.scheduleRef ≠ some id := by
  intro n
  induction es using List.reverseRecOn with
  | nil =>
    rw [List.append_nil]
    exact ⟨hspent, fun r hr => absurd hr List.not_mem_nil⟩
  | append_singleton es d ih =>
    rw [← List.append_assoc] at hgrow ⊢
    obtain ⟨hgrow, hlast⟩ := numbersGrow_concat.1 hgrow
    obtain ⟨hspent', hunnamed⟩ := ih hgrow
    have hpending := (indexed_of_empty c book verification fees hempty hgrow).pending
    obtain ⟨hspent'', hunnamed'⟩ := (deliver_brief c book verification fees start (ds ++ es) d
      hpending).spent rfl hpending hspent' hlast
    refine ⟨hspent'', fun r hr => ?_⟩
    rw [records_concat, ← after_append] at hr
    exact (List.mem_append.1 hr).elim (hunnamed r) (hunnamed' r)

/-- What a run has executed is spent, and no schedule is executed twice. -/
theorem executed_once (hempty : start.schedules = .empty lifetime first)
    (hgrow : (standard c book verification fees start).NumbersGrow ds) :
    let n := standard c book verification fees start
    (∀ r ∈ n.records ds, ∀ id, r.scheduleRef = some id →
      Spent id (n.after ds).processor.schedules) ∧
      ((n.records ds).filterMap (·.scheduleRef)).Nodup := by
  intro n
  induction ds using List.reverseRecOn with
  | nil => exact ⟨fun r hr => absurd hr List.not_mem_nil, .nil⟩
  | append_singleton ds d ih =>
    obtain ⟨hgrow, hlast⟩ := numbersGrow_concat.1 hgrow
    obtain ⟨hspent, hnodup⟩ := ih hgrow
    have hindexed := indexed_of_empty c book verification fees hempty hgrow
    have hbrief := deliver_brief c book verification fees start ds d hindexed.pending
    rw [records_concat, List.filterMap_append]
    refine ⟨fun r hr id hid => ?_, List.nodup_append.2 ⟨hnodup, hbrief.scheduleRefs_nodup rfl
      hindexed.pending, ?_⟩⟩
    · rcases List.mem_append.1 hr with hr | hr
      · exact (hbrief.spent rfl hindexed.pending (hspent r hr id hid) hlast).1
      · exact hbrief.spent_of_executed rfl hindexed hlast hr hid
    · rintro id hbefore _ hnow rfl
      obtain ⟨r, hr, hid⟩ := List.mem_filterMap.1 hbefore
      obtain ⟨s, hs, hsame⟩ := List.mem_filterMap.1 hnow
      obtain ⟨-, hunnamed⟩ := hbrief.spent rfl hindexed.pending (hspent r hr id hid) hlast
      exact (hunnamed s hs).2 hsame

/-- Along a run from no schedules whose inner bodies have different digests and whose numbers do not
wrap: a schedule leaves the store for exactly one reason, each schedule is executed at most once, and an
identifier under which there has been a schedule, and is none any more, is that of no schedule ever
after: none is committed under it again, and no record says that one is created, found or executed. -/
theorem departures_lawful (hempty : start.schedules = .empty lifetime first) (ds : List Delivery)
    (hdistinct : Digest.CollisionFree (scheduledBodies ds))
    (hgrow : (standard c book verification fees start).NumbersGrow ds) :
    let n := standard c book verification fees start
    (∀ es d, es ++ [d] <+: ds → ∀ id x,
      (n.after es).processor.schedules.committed? id = some x →
      (n.after (es ++ [d])).processor.schedules.committed? id = none →
      Processor.LeavesLawfully (n.after es).processor verification.verifier d
        ((n.after es).deliver d).answer id x) ∧
    ((n.records ds).filterMap (·.scheduleRef)).Nodup ∧
    ∀ es es', es ++ es' <+: ds → ∀ id, n.Held es id →
      (n.after es).processor.schedules.committed? id = none →
      (n.after (es ++ es')).processor.schedules.committed? id = none ∧
        ∀ r ∈ (n.after es).records es', r.receipt.schedule ≠ some id ∧ r.scheduleRef ≠ some id := by
  intro n
  refine ⟨fun es d hinitial id x hx hgone => ?_,
    (executed_once c book verification fees hempty hgrow).2, fun es es' hinitial id hheld hgone => ?_⟩
  · obtain ⟨hgrow', hlast⟩ := numbersGrow_concat.1 (hgrow.of_prefix hinitial)
    have hbodies := scheduledBodies_concat es d
    have hdistinct' : Digest.CollisionFree (scheduledBodies (es ++ [d])) :=
      hdistinct.of_subset (hinitial.filterMap _).subset
    have hkept := schedules_kept_of_numbersGrow c book verification fees hempty
      (hdistinct'.of_subset fun body => by rw [hbodies]; exact List.mem_append_left _) hgrow'
    obtain ⟨-, hbrief⟩ := deliver_kept c book verification fees hkept hdistinct'
      fun _ _ => UInt64.toNat_lt _
    refine hbrief.leavesLawfully rfl ?_ (hkept.mono (fun _ hpair => hpair) (fun body => by
      rw [hbodies]; exact List.mem_append_left _))
      (queued_after c book verification fees hempty hgrow') hlast ?_ hdistinct' hx hgone
    · intro inner hinner
      obtain ⟨-, -, hschedulable, -⟩ := hinner.attested hkept.tidy
      exact hschedulable
    · intro body hbody
      refine ⟨?_, UInt64.toNat_lt _⟩
      rw [hbodies, hbody]
      exact List.mem_append_right _ (List.mem_singleton.2 rfl)
  · have hgrow' := hgrow.of_prefix hinitial
    have hnumber := num_lt_of_held c book verification fees hempty
      (hgrow'.of_prefix (List.prefix_append es es')) hheld
    obtain ⟨hspent, hunnamed⟩ := spent_after c book verification fees hempty hgrow'
      ⟨hnumber, hgone⟩
    exact ⟨hspent.gone, hunnamed⟩

/-- The schedule of the sample leaves when account 0.0.4 approves of it. -/
theorem departures_lawful_approval :
    let n := standard {} Sample.book Sample.verification {} Sample.start
    ∃ x, (n.after [Sample.creation]).processor.schedules.committed? (.ofNum 1000) = some x ∧
      Processor.LeavesLawfully (n.after [Sample.creation]).processor Sample.verification.verifier
        Sample.approval ((n.after [Sample.creation]).deliver Sample.approval).answer
        (.ofNum 1000) x := by
  intro n
  have hempty : Sample.start.schedules = .empty 1800 1000 := rfl
  have hdistinct : Digest.CollisionFree (scheduledBodies ([Sample.creation] ++ [Sample.approval])) := by
    have hbodies : scheduledBodies ([Sample.creation] ++ [Sample.approval]) =
        [Sample.transferBody] := by decide +kernel
    rw [hbodies]
    exact Digest.collisionFree_singleton _
  obtain ⟨hcreating, happroving, hcreated, hgone⟩ :
      n.nextNumber [] ≤ n.nextNumber ([] ++ [Sample.creation]) ∧
      n.nextNumber [Sample.creation] ≤ n.nextNumber ([Sample.creation] ++ [Sample.approval]) ∧
      ((n.after [Sample.creation]).processor.schedules.committed? (.ofNum 1000)).isSome = true ∧
      (n.after ([Sample.creation] ++ [Sample.approval])).processor.schedules.committed?
        (.ofNum 1000) = none := by decide +kernel
  have hgrow : n.NumbersGrow ([] ++ [Sample.creation] ++ [Sample.approval]) :=
    numbersGrow_concat.2 ⟨numbersGrow_concat.2 ⟨numbersGrow_nil n, hcreating⟩, happroving⟩
  have hleaves : ∀ es d, es ++ [d] <+: [Sample.creation] ++ [Sample.approval] → ∀ id x,
      (n.after es).processor.schedules.committed? id = some x →
      (n.after (es ++ [d])).processor.schedules.committed? id = none →
      Processor.LeavesLawfully (n.after es).processor Sample.verification.verifier d
        ((n.after es).deliver d).answer id x :=
    (departures_lawful {} Sample.book Sample.verification {} hempty _ hdistinct hgrow).1
  obtain ⟨x, hx⟩ := Option.isSome_iff_exists.1 hcreated
  exact ⟨x, hx, hleaves [Sample.creation] Sample.approval List.prefix_rfl (.ofNum 1000) x hx hgone⟩

end Node

end ConsensusLedger
