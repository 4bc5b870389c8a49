import ConsensusLedger.Proofs.Pipeline.Brief
import ConsensusLedger.Proofs.Pipeline.Scheduling
import ConsensusLedger.Proofs.Schedule.Indexed

/-!
Numbers of schedules along a run. A call hands out at most one number, so that the index stays exact
as long as no call lets the next number fall.
-/

namespace ConsensusLedger

open ScheduleStore

namespace Processor

variable {rules : Rules} {maxMemoBytes : UInt64}
  (hstandard : rules.transitions = .standard maxMemoBytes) {p q : Processor} {txn : Envelope}
  {time : Timestamp} {member : MemberId} {account : AccountId} {r : Record} {next : Option Envelope}
  {first : UInt64} {n : Nat}

include hstandard

/-- What holds of the schedules with their queue drained, and is kept when one is taken out, holds
after the handling of a triggered transaction. -/
theorem Recorded.triggered_induction {P : ScheduleStore → Prop}
    (h : Recorded rules p txn (.start time member (some account)) true r next q)
    (hpending : p.schedules.store.pending = none)
    (hdrained : P { p.schedules with expiries := (p.schedules.expiries.drain time.seconds).2 })
    (hwithout : ∀ s id x, s.committed? id = some x → P s → P (s.without id x)) : P q.schedules := by
  have hpurged : P (p.schedules.purge time.seconds).2 :=
    purge_induction hpending hdrained fun s id x _ _ hx hs => hwithout s id x hx hs
  obtain ⟨-, -, -, hsame | ⟨id, x, hx, hwithout'⟩⟩ :=
    (h.attended_of_triggered hstandard hpending).of_unscoped
  · rw [hsame]
    exact hpurged
  · rw [hwithout']
    exact hwithout _ id x hx hpurged

theorem Recorded.tidy_of_triggered
    (h : Recorded rules p txn (.start time member (some account)) true r next q)
    (htidy : Tidy first n p.schedules) : Tidy first n q.schedules :=
  h.triggered_induction hstandard htidy.pending ⟨htidy.pending, htidy.index, htidy.next, htidy.numbers⟩
    fun _ _ _ hx hs => hs.without hx

theorem Recorded.nextNumber_of_triggered
    (h : Recorded rules p txn (.start time member (some account)) true r next q)
    (hpending : p.schedules.store.pending = none) :
    q.schedules.nextNumber = p.schedules.nextNumber :=
  h.triggered_induction hstandard hpending
    (P := fun s => s.nextNumber = p.schedules.nextNumber) rfl fun _ _ _ _ hs => hs

theorem Recorded.committed?_eq_none
    (h : Recorded rules p txn (.start time member (some account)) true r next q)
    (hpending : p.schedules.store.pending = none) {id : ScheduleId}
    (hgone : p.schedules.committed? id = none) : q.schedules.committed? id = none := by
  refine h.triggered_induction hstandard hpending (P := fun s => s.committed? id = none) hgone ?_
  intro s id' x _ hs
  rw [committed?_without]
  split
  · rfl
  · exact hs

/-- A handling hands out at most one number. -/
theorem Recorded.tidy_of_delivered
    (h : Recorded rules p txn (.start time member (some account)) false r next q)
    (htidy : Tidy first n p.schedules) (hn : n < 0x10000000000000000) :
    ∃ n' ≤ n + 1, Tidy first n' q.schedules := by
  obtain ⟨n', hn', htidy'⟩ := (h.attended hstandard htidy.pending).tidy
    (htidy.purge time.seconds) fun _ _ => hn
  have hlength : txn.body.data.scheduledBody?.toList.length ≤ 1 := by
    cases txn.body.data.scheduledBody? with
    | none => exact Nat.zero_le 1
    | some body => exact Nat.le_refl 1
  exact ⟨n', by omega, htidy'⟩

/-- So does a call. -/
theorem BriefCall.tidy {executed : Envelope → Prop} {d : Delivery} {records : List Record}
    (h : BriefCall executed rules p d records q) (htidy : Tidy first n p.schedules)
    (hn : n < 0x10000000000000000) : ∃ n' ≤ n + 1, Tidy first n' q.schedules := by
  cases h with
  | dropped => exact ⟨n, Nat.le_succ n, htidy⟩
  | delivered hparse hsane hfirst => exact hfirst.tidy_of_delivered hstandard htidy hn
  | triggered hparse hsane hfirst hexecuted hsecond =>
    obtain ⟨n', hn', htidy'⟩ := hfirst.tidy_of_delivered hstandard htidy hn
    exact ⟨n', hn', hsecond.tidy_of_triggered hstandard htidy'⟩

end Processor

namespace Node

/-- The next number for a schedule after some deliveries. -/
def nextNumber (n : Node) (ds : List Delivery) : UInt64 :=
  (n.after ds).processor.schedules.nextNumber

/-- No call lets the next number fall: the numbers of schedules do not wrap. -/
def NumbersGrow (n : Node) (ds : List Delivery) : Prop :=
  ∀ es d, es ++ [d] <+: ds → n.nextNumber es ≤ n.nextNumber (es ++ [d])

variable {n : Node} {ds : List Delivery} {d : Delivery}

theorem numbersGrow_nil (n : Node) : n.NumbersGrow [] := by
  intro es d hinitial
  exact absurd (List.prefix_nil.1 hinitial) (List.concat_ne_nil d es)

theorem NumbersGrow.of_prefix {es : List Delivery} (h : n.NumbersGrow ds) (hinitial : es <+: ds) :
    n.NumbersGrow es :=
  fun es' d hinitial' => h es' d (hinitial'.trans hinitial)

theorem numbersGrow_concat : n.NumbersGrow (ds ++ [d]) ↔
    n.NumbersGrow ds ∧ n.nextNumber ds ≤ n.nextNumber (ds ++ [d]) := by
  constructor
  · intro hgrow
    exact ⟨hgrow.of_prefix (List.prefix_append ds [d]), hgrow ds d List.prefix_rfl⟩
  · rintro ⟨hgrow, hlast⟩ es e hinitial
    rcases List.prefix_concat_iff.1 hinitial with hwhole | hinitial
    · obtain ⟨rfl, -⟩ := List.append_inj' hwhole rfl
      rwa [hwhole]
    · exact hgrow es e hinitial

variable (c : ProcessingConfig) (book : AddressBook) (verification : Signing.VerifierConfig)
  (fees : FeeSchedule) {start : Processor}

/-- The index stays exact along a run whose numbers do not wrap. -/
theorem indexed_after (hstart : start.schedules.Indexed)
    (hgrow : (standard c book verification fees start).NumbersGrow ds) :
    ((standard c book verification fees start).after ds).processor.schedules.Indexed := by
  induction ds using List.reverseRecOn with
  | nil => exact hstart
  | append_singleton ds d ih =>
    obtain ⟨hgrow, hlast⟩ := numbersGrow_concat.1 hgrow
    have hindexed := ih hgrow
    obtain ⟨n', hn', htidy⟩ := (deliver_brief c book verification fees start ds d
      hindexed.pending).tidy rfl hindexed (UInt64.toNat_lt _)
    rw [Indexed, ← htidy.count_eq hn' hlast]
    exact htidy

end Node

end ConsensusLedger
