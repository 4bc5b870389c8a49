import ConsensusLedger.Proofs.Pipeline.Triggering
import ConsensusLedger.Proofs.Schedule.Queued

/-!
How a schedule leaves the store during a handling: it has expired, or its deletion is signed for with
its admin key, or it has the signatures of all who have to sign it and is executed.
-/

namespace ConsensusLedger

open Signing ScheduleStore
open ScheduleOperation (Settled)

/-- With some signatures added to it, a schedule has all that it needs: the keys of those who have to
sign it are active over its signatories. -/
structure Schedule.CompletedBy (keyOf : AccountId → Option Key) (verifier : Verifier)
    (pairs : SignatureMap) (x x' : Schedule) : Prop where
  same : x' = { x with signatories := x'.signatories }
  kept : ∀ k ∈ x.signatories, k ∈ x'.signatories
  added : ∀ k ∈ x'.signatories, k ∈ x.signatories ∨ attests verifier pairs x.body k = true
  ready : ∃ required, Requirement.Signers keyOf x.body x.payer required ∧
    Key.allActive x'.hasSigned required = true

variable {keyOf : AccountId → Option Key} {config : VerifierConfig} {pairs : SignatureMap}
  {bodies : List (List UInt8)} {first : UInt64} {n : Nat} {s t : ScheduleStore} {txn inner : Envelope}
  {scope : Option ScheduledScope} {now : Int64} {receipt : Receipt} {next : Option Envelope}
  {id : ScheduleId} {x : Schedule}

/-- A committed schedule that an operation finds ready is completed by the signatures that it brings. -/
theorem ScheduleOperation.Settled.completes {expiry : Int64} {op : ScheduleOperation}
    {inScope : ScheduledScope} {outcome : Outcome} {x' : Schedule} {body : List UInt8}
    {payer : AccountId} {signatures : SignatureMap}
    (h : Settled s expiry op inScope id outcome x' t) (hready : outcome.ready = true)
    (hx : s.committed? id = some x) (hkept : Kept keyOf config.verifier pairs bodies first n s)
    (habout : op.About s body payer) (hover : inScope.Over keyOf config body payer signatures)
    (hbodies : ∀ request, op = .create request → request.body ∈ bodies ∧ n < 0x10000000000000000)
    (hdistinct : ∀ a ∈ bodies, ∀ b ∈ bodies, Digest.blake3 a = Digest.blake3 b → a = b) :
    x.CompletedBy keyOf config.verifier signatures x' := by
  cases h with
  | found htarget hy hwitnessed =>
    cases hx.symm.trans hy
    obtain ⟨rfl, rfl⟩ := about_target htarget hx hkept habout
      (fun request hcreate => (hbodies request hcreate).1) hdistinct
    obtain ⟨hsame, hkeeps⟩ := hwitnessed.extends_signatories
    refine ⟨hsame, hkeeps, ?_, inScope.required, hover.signers,
      (hwitnessed.status_of_ready hready).2⟩
    cases hwitnessed with
    | rejected => exact fun k hk => .inl hk
    | settled status hstatus signatories hnodup hmem =>
      intro k hk
      rcases hmem k hk with hold | hvalid
      · exact .inl hold
      · exact .inr (hover.mem_validKeys hvalid).2
  | admitted request hcreate hnew hid =>
    have hfresh := hkept.tidy.committed?_next (hbodies request hcreate).2 (congrArg EntityId.num hid)
    cases hfresh.symm.trans hx

namespace Attended

/-- A schedule leaves by being deleted, or by being executed once it is ready. -/
theorem departed (h : Attended txn scope now s (receipt, next, t)) (hx : s.committed? id = some x)
    (hgone : t.committed? id = none) :
    (txn.body.data = .scheduleDelete id ∧ receipt.status = .ok ∧ x.adminKey.isNone = false ∧
      next = none) ∨
    ∃ op inScope outcome x' t' inner, ScheduleOperation.ofEnvelope? txn = some op ∧
      scope = some inScope ∧ Settled s (now + s.lifetime) op inScope id outcome x' t' ∧
      outcome.ready = true ∧ next = some inner ∧ inner.schedule = some id := by
  -- An operation that settles on a schedule takes none out.
  have hstays {op : ScheduleOperation} {inScope : ScheduledScope} {id' : ScheduleId}
      {outcome : Outcome} {x' : Schedule} {t : ScheduleStore}
      (hsettled : Settled s (now + s.lifetime) op inScope id' outcome x' t) :
      t.committed? id ≠ none := by
    rw [hsettled.committed]
    split
    · exact nofun
    · rw [hx]
      exact nofun
  cases h with
  | aside => cases hgone.symm.trans hx
  | deleted hdata hy hadmin =>
    rw [committed?_without] at hgone
    split at hgone
    · rename_i hid
      subst hid
      cases hx.symm.trans hy
      exact .inl ⟨hdata, rfl, hadmin, rfl⟩
    · cases hgone.symm.trans hx
  | waiting _ _ hsettled => exact absurd hgone (hstays hsettled)
  | executed hop hscope hsettled hready hinner =>
    rw [committed?_without] at hgone
    split at hgone
    · rename_i hid
      subst hid
      exact .inr ⟨_, _, _, _, _, _, hop, hscope, hsettled, hready, rfl,
        (Envelope.origin_of_ofScheduled hinner).2.2⟩
    · exact absurd hgone (hstays hsettled)
  | unreadable _ _ _ _ hsettled => exact absurd hgone (hstays hsettled)

/-- The queue stays right as long as the next number does not fall. -/
theorem queued (h : Attended txn scope now s (receipt, next, t)) (hqueued : Queued s)
    (hgrown : s.nextNumber ≤ t.nextNumber) : Queued t := by
  refine h.store_induction (P := fun t => s.nextNumber ≤ t.nextNumber → Queued t)
    (fun _ => hqueued) ?_ ?_ ?_ hgrown
  · intro id x y t hx hy ht _
    refine hqueued.revised hx ht ?_
    rw [hy]
  · intro request x _ _ _ hgrown
    exact hqueued.admitting rfl hgrown
  · intro t id x _ hqueued' hgrown
    exact (hqueued' hgrown).without id x

end Attended

namespace Processor.Recorded

variable {rules : Rules} {maxMemoBytes : UInt64}
  (hstandard : rules.transitions = .standard maxMemoBytes) {p q : Processor} {time : Timestamp}
  {member : MemberId} {account : AccountId} {r : Record}

include hstandard

/-- A schedule leaves during the handling of a delivered transaction because it has expired, because
the transaction deletes it with the signatures that this takes, or because the transaction completes it
and triggers its inner one. -/
theorem departed (h : Recorded rules p txn (.start time member (some account)) false r next q)
    (hkept : Kept p.ledger.key? rules.verification.verifier pairs bodies first n p.schedules)
    (hqueued : Queued p.schedules)
    (hbodies : ∀ body, txn.body.data.scheduledBody? = some body →
      body ∈ bodies ∧ n < 0x10000000000000000)
    (hdistinct : ∀ a ∈ bodies, ∀ b ∈ bodies, Digest.blake3 a = Digest.blake3 b → a = b)
    (hx : p.schedules.committed? id = some x) (hgone : q.schedules.committed? id = none) :
    x.expiry ≤ r.time.seconds ∨
    (txn.body.data = .scheduleDelete id ∧ r.status = .ok ∧ next = none ∧
      ∃ k, x.adminKey = some k ∧
        k.isActive (attests rules.verification.verifier txn.signatures txn.bodyBytes) = true) ∨
    ∃ inner x', next = some inner ∧ inner.schedule = some id ∧
      x.CompletedBy p.ledger.key? rules.verification.verifier
        txn.body.data.scheduledSignatures x' := by
  have hpending := hkept.tidy.pending
  have hwithin := purge_within hpending time.seconds
  cases hpurged : (p.schedules.purge time.seconds).2.committed? id with
  | none =>
    have htime : r.time.seconds = time.seconds := congrArg Timestamp.seconds h.time
    rw [htime]
    exact .inl (hqueued.expired_of_purge hpending hx hpurged)
  | some y =>
    cases hx.symm.trans (hwithin id y hpurged)
    rcases h.attended_of_delivered hstandard hpending with
      ⟨-, -, -, hschedules⟩ | ⟨hends, hothers, hattended⟩
    · rw [hschedules] at hgone
      cases hgone.symm.trans hpurged
    · rcases hattended.departed hpurged hgone with ⟨hdata, hok, hadmin, hnext⟩ |
        ⟨op, inScope, outcome, x', t', inner, hop, hscope, hsettled, hready, hnext, hschedule⟩
      · obtain ⟨k, hk⟩ := Option.isSome_iff_exists.1 (Option.isNone_eq_false_iff.1 hadmin)
        have hget := get_eq (purge_pending hpending time.seconds) hpurged
        exact .inr (.inl ⟨hdata, hok, hnext, k, hk,
          Requirement.admin_attested hends hothers hdata hget hk⟩)
      · obtain ⟨body, payer, habout, hover⟩ := ScheduleOperation.scope_over hop hends hscope
        have hbrought : ∀ request, op = .create request →
            request.body ∈ bodies ∧ n < 0x10000000000000000 := by
          intro request hcreate
          refine hbodies request.body ?_
          rw [ScheduleOperation.scheduledBody?_eq hop, hcreate]
          rfl
        have hkept' := hkept.within (hkept.tidy.purge time.seconds) hwithin
        exact .inr (.inr ⟨inner, x', hnext, hschedule,
          hsettled.completes hready hpurged hkept' habout hover hbrought hdistinct⟩)

/-- During the handling of a triggered transaction a schedule leaves only because it has expired. -/
theorem expired_of_schedulable
    (h : Recorded rules p txn (.start time member (some account)) true r next q)
    (hpending : p.schedules.store.pending = none) (hqueued : Queued p.schedules)
    (hschedulable : txn.function.isSchedulable = true) (hx : p.schedules.committed? id = some x)
    (hgone : q.schedules.committed? id = none) : x.expiry ≤ r.time.seconds := by
  obtain ⟨-, -, -, hsame⟩ :=
    (h.attended_of_triggered hstandard hpending).of_schedulable hschedulable
  rw [hsame] at hgone
  have htime : r.time.seconds = time.seconds := congrArg Timestamp.seconds h.time
  rw [htime]
  exact hqueued.expired_of_purge hpending hx hgone

theorem queued {triggered : Bool}
    (h : Recorded rules p txn (.start time member (some account)) triggered r next q)
    (hpending : p.schedules.store.pending = none) (hqueued : Queued p.schedules)
    (hgrown : p.schedules.nextNumber ≤ q.schedules.nextNumber) : Queued q.schedules := by
  refine (h.attended hstandard hpending).queued (hqueued.purge hpending time.seconds) ?_
  rw [purge_nextNumber]
  exact hgrown

end Processor.Recorded

end ConsensusLedger
