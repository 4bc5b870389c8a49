import ConsensusLedger.Proofs.Pipeline.Numbering
import ConsensusLedger.Proofs.Schedule.Tracked

/-!
Schedules that a rejected handling leaves. Inner bodies are read before a schedule is admitted, so
that every committed schedule can be executed once it is ready; an operation that is rejected has
therefore changed no schedule and handed out no number, and all that goes is what has expired.
-/

namespace ConsensusLedger

open Signing ScheduleStore
open ScheduleOperation (Settled)

namespace ScheduleStore

/-- The inner body of every committed schedule can be read. -/
def Readable (s : ScheduleStore) : Prop :=
  ∀ id x, s.committed? id = some x → ∃ inner, TransactionBody.ofBytes x.body = .ok inner

theorem readable_empty (lifetime : Int64) (first : UInt64) : Readable (.empty lifetime first) :=
  nofun

theorem Readable.within {s t : ScheduleStore} (h : Readable s) (hwithin : Within t s) :
    Readable t :=
  fun id x hx => h id x (hwithin id x hx)

end ScheduleStore

variable {config : VerifierConfig} {ledger : Ledger} {now : Int64} {first : UInt64} {n : Nat}
  {s t : ScheduleStore} {txn : Envelope} {receipt : Receipt} {next : Option Envelope}

/-- The schedule that an operation settles on can be read: as a committed one, or because the
signatures in scope were resolved over its inner body. -/
theorem ScheduleOperation.Settled.readable {expiry : Int64} {op : ScheduleOperation}
    {scope : ScheduledScope} {id : ScheduleId} {outcome : Outcome} {x : Schedule}
    (h : Settled s expiry op scope id outcome x t) (hreadable : s.Readable)
    (hop : ScheduleOperation.ofEnvelope? txn = some op)
    (hends : (rationalize txn ledger s config).status.code.endsHandling = false)
    (hscope : (rationalize txn ledger s config).scheduled = some scope) :
    ∃ inner, TransactionBody.ofBytes x.body = .ok inner := by
  obtain ⟨body, payer, habout, hover⟩ := ScheduleOperation.scope_over hop hends hscope
  rcases h.origin with ⟨y, hy, hx⟩ | ⟨request, rfl, -, -, hx⟩
  · rw [hx]
    exact hreadable id y hy
  · obtain ⟨rfl, rfl⟩ := habout
    obtain ⟨inner, hinner, -, -⟩ := hover.signers
    rw [hx]
    exact ⟨inner, hinner⟩

namespace Attended

theorem readable
    (h : Attended txn (rationalize txn ledger s config).scheduled now s (receipt, next, t))
    (hends : (rationalize txn ledger s config).status.code.endsHandling = false)
    (hreadable : s.Readable) : t.Readable := by
  have hsettles {op : ScheduleOperation} {inScope : ScheduledScope} {id : ScheduleId}
      {outcome : Outcome} {x : Schedule} {t : ScheduleStore}
      (hop : ScheduleOperation.ofEnvelope? txn = some op)
      (hscope : (rationalize txn ledger s config).scheduled = some inScope)
      (hsettled : Settled s (now + s.lifetime) op inScope id outcome x t) : t.Readable := by
    intro id' y hy
    rw [hsettled.committed] at hy
    split at hy
    · cases hy
      exact hsettled.readable hreadable hop hends hscope
    · exact hreadable id' y hy
  cases h with
  | aside => exact hreadable
  | deleted => exact hreadable.within (without_within _ _ _)
  | waiting hop hscope hsettled => exact hsettles hop hscope hsettled
  | executed hop hscope hsettled =>
    exact (hsettles hop hscope hsettled).within (without_within _ _ _)
  | unreadable _ _ hop hscope hsettled => exact hsettles hop hscope hsettled

/-- A rejected handling has changed no schedule, taken no number and triggered nothing. -/
theorem of_rejected
    (h : Attended txn (rationalize txn ledger s config).scheduled now s (receipt, next, t))
    (hends : (rationalize txn ledger s config).status.code.endsHandling = false)
    (hreadable : s.Readable) (hok : receipt.status ≠ .ok)
    (hold : receipt.status ≠ .noNewValidSignatures) :
    next = none ∧ t.nextNumber = s.nextNumber ∧ ∀ id, t.committed? id = s.committed? id := by
  cases h with
  | aside => exact ⟨rfl, rfl, fun _ => rfl⟩
  | deleted => exact absurd rfl hok
  | waiting hop hscope hsettled hready =>
    cases hsettled with
    | found htarget hx hwitnessed ht =>
      obtain ⟨rfl, -⟩ := hwitnessed.eq_of_rejected hok hold
      refine ⟨rfl, congrArg IdSource.next ht.ids, fun id => ?_⟩
      rw [ht.committed]
      split
      · rename_i hid
        rw [hid, hx]
      · rfl
    | admitted request hcreate hnew hid hwitnessed hstatus =>
      obtain ⟨-, rfl⟩ := hwitnessed.eq_of_rejected hok hold
      exact absurd rfl hstatus
  | executed => exact absurd rfl hok
  | unreadable status e hop hscope hsettled hready hinner =>
    obtain ⟨inner, hread⟩ := hsettled.readable hreadable hop hends hscope
    obtain ⟨executed, hexecuted, -⟩ := Envelope.ofScheduled_eq_ok hread _ _ _
    cases hinner.symm.trans hexecuted

/-- The queue stays exact, with one more number handed out if a schedule is created. -/
theorem tracked {scope : Option ScheduledScope}
    (h : Attended txn scope now s (receipt, next, t)) (htracked : Tracked first n s)
    (hn : ∀ body, txn.body.data.scheduledBody? = some body → n < 0x10000000000000000) :
    ∃ n' ≤ n + txn.body.data.scheduledBody?.toList.length, Tracked first n' t := by
  refine h.store_induction
    (P := fun t => ∃ n' ≤ n + txn.body.data.scheduledBody?.toList.length, Tracked first n' t)
    ⟨n, Nat.le_add_right n _, htracked⟩ ?_ ?_ ?_
  · intro id x y t hx hy ht
    refine ⟨n, Nat.le_add_right n _, htracked.revised hx ht ?_⟩
    rw [hy]
  · intro request x hop hnew hx
    have hbody : txn.body.data.scheduledBody? = some request.body :=
      ScheduleOperation.scheduledBody?_eq hop
    refine ⟨n + 1, ?_, htracked.admitting (hn _ hbody) rfl⟩
    rw [hbody]
    exact Nat.le_refl _
  · rintro t id x - ⟨n', hn', htracked'⟩
    exact ⟨n', hn', htracked'.without id x⟩

end Attended

namespace Processor

variable {rules : Rules} {maxMemoBytes : UInt64}
  (hstandard : rules.transitions = .standard maxMemoBytes) {p q : Processor} {time : Timestamp}
  {member : MemberId} {account : AccountId} {r : Record}

include hstandard

namespace Recorded

theorem readable (h : Recorded rules p txn (.start time member (some account)) false r next q)
    (hpending : p.schedules.store.pending = none) (hreadable : p.schedules.Readable) :
    q.schedules.Readable := by
  have hpurged := hreadable.within (purge_within hpending time.seconds)
  rcases h.attended_of_delivered hstandard hpending with
    ⟨-, -, -, hschedules⟩ | ⟨hends, -, hattended⟩
  · rw [hschedules]
    exact hpurged
  · exact hattended.readable hends hpurged

theorem readable_of_triggered
    (h : Recorded rules p txn (.start time member (some account)) true r next q)
    (hpending : p.schedules.store.pending = none) (hreadable : p.schedules.Readable) :
    q.schedules.Readable :=
  h.triggered_induction hstandard hpending hreadable
    fun s id x _ hs => hs.within (without_within s id x)

/-- A rejected transaction triggers nothing, and what it leaves are the schedules that have not
expired. -/
theorem schedules_of_rejected
    (h : Recorded rules p txn (.start time member (some account)) false r next q)
    (hpending : p.schedules.store.pending = none) (hreadable : p.schedules.Readable)
    (hok : r.status ≠ .ok) (hold : r.status ≠ .noNewValidSignatures) :
    next = none ∧ q.schedules.nextNumber = p.schedules.nextNumber ∧
      ∀ id, q.schedules.committed? id = (p.schedules.purge time.seconds).2.committed? id := by
  rw [← p.schedules.purge_nextNumber time.seconds]
  rcases h.attended_of_delivered hstandard hpending with
    ⟨-, -, hnext, hschedules⟩ | ⟨hends, -, hattended⟩
  · rw [hschedules]
    exact ⟨hnext, rfl, fun _ => rfl⟩
  · have hpurged := hreadable.within (purge_within hpending time.seconds)
    exact hattended.of_rejected hends hpurged hok hold

theorem tracked (h : Recorded rules p txn (.start time member (some account)) false r next q)
    (hpending : p.schedules.store.pending = none) (htracked : Tracked first n p.schedules)
    (hn : ∀ body, txn.body.data.scheduledBody? = some body → n < 0x10000000000000000) :
    ∃ n' ≤ n + txn.body.data.scheduledBody?.toList.length, Tracked first n' q.schedules :=
  (h.attended hstandard hpending).tracked (htracked.purge hpending time.seconds) hn

theorem tracked_of_triggered
    (h : Recorded rules p txn (.start time member (some account)) true r next q)
    (hpending : p.schedules.store.pending = none) (htracked : Tracked first n p.schedules) :
    Tracked first n q.schedules := by
  obtain ⟨-, -, -, hsame | ⟨id, x, -, hwithout⟩⟩ :=
    (h.attended_of_triggered hstandard hpending).of_unscoped
  · rw [hsame]
    exact htracked.purge hpending time.seconds
  · rw [hwithout]
    exact (htracked.purge hpending time.seconds).without id x

end Recorded

end Processor

end ConsensusLedger
