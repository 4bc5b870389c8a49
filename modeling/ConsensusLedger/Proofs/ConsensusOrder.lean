import ConsensusLedger.Proofs.Pipeline.Ordering
import ConsensusLedger.Proofs.Timestamp
import ConsensusLedger.Proofs.WaitingSchedules

/-!
Consensus order. The records of a run are strictly ordered in time, although a transaction that can
trigger another is handled a nanosecond early, and nothing is dropped but what cannot be parsed, comes
too late or is submitted without stake.
-/

namespace ConsensusLedger

/-- The member takes part in consensus with a positive stake. -/
def AddressBook.Staked (book : AddressBook) (member : MemberId) : Prop :=
  ∃ address, book.get? member = some address ∧ 0 < address.stake

/-- A consensus time that is a normal timestamp, and for which a nanosecond earlier is in range. -/
structure Delivery.Timely (d : Delivery) : Prop where
  normal : d.time.Normal
  inRange : Int64.minValue < d.time.seconds

/-- Consensus times at least two nanoseconds apart. -/
def Delivery.Spaced (ds : List Delivery) : Prop :=
  ds.Pairwise fun d e => d.time.toNanos + 2 ≤ e.time.toNanos

instance (d : Delivery) : Decidable d.Timely :=
  decidable_of_iff (d.time.nanos.toNat < Timestamp.perSecond ∧ Int64.minValue < d.time.seconds)
    ⟨fun ⟨normal, inRange⟩ => ⟨normal, inRange⟩, fun ⟨normal, inRange⟩ => ⟨normal, inRange⟩⟩

theorem Gate.sanityCheck_eq_ok_iff {book : AddressBook} {time : Timestamp} {last : Option Timestamp}
    {member : MemberId} : (∃ address, sanityCheck book time last member = .ok address) ↔
      (∀ t, last = some t → time.isAfter t = true) ∧ book.Staked member := by
  have hstaked : (∃ address, stakedAddress book member = .ok address) ↔ book.Staked member := by
    unfold stakedAddress AddressBook.Staked
    cases book.get? member with
    | none => simp
    | some address =>
      by_cases hstake : 0 < address.stake
      · simp [hstake]
      · simp [hstake]
  cases last with
  | none => simpa [sanityCheck] using hstaked
  | some t =>
    cases hafter : time.isAfter t with
    | true => simpa [sanityCheck, hafter] using hstaked
    | false => simp [sanityCheck, hafter]

namespace Processor

/-- The lawful reasons for which a call drops what was delivered. -/
inductive Drops (rules : Rules) (p : Processor) (d : Delivery) : Prop
  | unparseable {e : ParseError} (hparse : Envelope.ofSigned d.bytes = .error e)
  | late {txn : Envelope} {t : Timestamp} (hparse : Envelope.ofSigned d.bytes = .ok txn)
      (hlast : p.clock.lastHandled = some t)
      (hlate : (effectiveTime txn d.time).isAfter t = false)
  | unstaked (hstake : ¬ rules.book.Staked d.member)

variable (rules : Rules) (p : Processor) (d : Delivery)

/-- What has no lawful reason to be dropped passes the sanity check. -/
theorem not_drops_iff : ¬ Drops rules p d ↔
    ∃ txn address, Envelope.ofSigned d.bytes = .ok txn ∧
      Gate.sanityCheck rules.book (effectiveTime txn d.time) p.clock.lastHandled d.member =
        .ok address := by
  constructor
  · intro hkept
    cases hparse : Envelope.ofSigned d.bytes with
    | error e => exact absurd (.unparseable hparse) hkept
    | ok txn =>
      have hafter : ∀ t, p.clock.lastHandled = some t →
          (effectiveTime txn d.time).isAfter t = true := by
        intro t ht
        by_contra hlate
        exact hkept (.late hparse ht (Bool.eq_false_iff.2 hlate))
      have hstake : rules.book.Staked d.member := by
        by_contra hstake
        exact hkept (.unstaked hstake)
      obtain ⟨address, hsane⟩ := Gate.sanityCheck_eq_ok_iff.2 ⟨hafter, hstake⟩
      exact ⟨txn, address, rfl, hsane⟩
  · rintro ⟨txn, address, hparse, hsane⟩ hdrops
    obtain ⟨hafter, hstake⟩ := Gate.sanityCheck_eq_ok_iff.1 ⟨address, hsane⟩
    cases hdrops with
    | unparseable hfault => cases hparse.symm.trans hfault
    | late hparse' hlast hlate =>
      cases hparse.symm.trans hparse'
      cases (hafter _ hlast).symm.trans hlate
    | unstaked hno => exact hno hstake

/-- A call brings no record exactly for a lawful reason, and then it leaves everything as it was. -/
theorem incorporate_nil_iff :
    ((p.incorporate rules d.bytes d.time d.member).answer = [] ↔ Drops rules p d) ∧
      ((p.incorporate rules d.bytes d.time d.member).answer = [] →
        (p.incorporate rules d.bytes d.time d.member).processor = p) := by
  by_cases hdrops : Drops rules p d
  · have hleft : (p.incorporate rules d.bytes d.time d.member).answer = [] ∧
        (p.incorporate rules d.bytes d.time d.member).processor = p := by
      cases hparse : Envelope.ofSigned d.bytes with
      | error e => simp only [incorporate, hparse, and_self]
      | ok txn =>
        cases hsane : Gate.sanityCheck rules.book (effectiveTime txn d.time) p.clock.lastHandled
            d.member with
        | error e => simp only [incorporate, hparse, hsane, and_self]
        | ok address => exact absurd hdrops ((not_drops_iff rules p d).2 ⟨txn, address, hparse, hsane⟩)
    exact ⟨iff_of_true hleft.1 hdrops, fun _ => hleft.2⟩
  · obtain ⟨txn, address, hparse, hsane⟩ := (not_drops_iff rules p d).1 hdrops
    have hkept : (p.incorporate rules d.bytes d.time d.member).answer ≠ [] := by
      simp only [incorporate, hparse, hsane, accept]
      exact List.cons_ne_nil _ _
    exact ⟨iff_of_false hkept hdrops, fun hnil => absurd hnil hkept⟩

variable {d}

/-- The effective time is the consensus time, or a nanosecond before it. -/
theorem effectiveTime_timely (htimely : d.Timely) (txn : Envelope) :
    (effectiveTime txn d.time).Normal ∧ (effectiveTime txn d.time).toNanos =
      d.time.toNanos - if txn.canTrigger then 1 else 0 := by
  obtain ⟨hnormal, hrange⟩ := htimely
  unfold effectiveTime
  split
  · refine ⟨Timestamp.normal_ofNanos _, Timestamp.toNanos_ofNanos ?_ ?_⟩
    all_goals
      have hlow := Int64.lt_iff_toInt_lt.1 hrange
      have hmin : Int64.minValue.toInt = -0x8000000000000000 := rfl
      have hone : (1 : UInt64).toNat = 1 := rfl
      have hhigh := d.time.seconds.toInt_lt
      simp only [Timestamp.Normal, Timestamp.perSecond] at hnormal
      simp only [Timestamp.toNanos, Timestamp.perSecond, hone]
      omega
  · exact ⟨hnormal, (Int.sub_zero _).symm⟩

end Processor

/-- Records in the order of their times, none later than what was delivered. -/
structure InOrder (ds : List Delivery) (records : List Record) : Prop where
  normal : ∀ r ∈ records, r.time.Normal
  increasing : records.Pairwise fun r s => r.time.toNanos < s.time.toNanos
  delivered : ∀ r ∈ records, ∃ d ∈ ds, r.time.toNanos ≤ d.time.toNanos

namespace InOrder

variable {ds : List Delivery} {records : List Record}

theorem concat_delivery (h : InOrder ds records) (d : Delivery) : InOrder (ds ++ [d]) records := by
  refine ⟨h.normal, h.increasing, fun r hr => ?_⟩
  obtain ⟨e, he, hle⟩ := h.delivered r hr
  exact ⟨e, List.mem_append_left _ he, hle⟩

/-- One more record at a later time. -/
theorem concat (h : InOrder ds records) {d : Delivery} (hd : d ∈ ds) {r : Record}
    (hnormal : r.time.Normal) (hbefore : ∀ s ∈ records, s.time.toNanos < r.time.toNanos)
    (hle : r.time.toNanos ≤ d.time.toNanos) : InOrder ds (records ++ [r]) := by
  refine ⟨fun s hs => ?_, ?_, fun s hs => ?_⟩
  · rcases List.mem_append.1 hs with hs | hs
    · exact h.normal s hs
    · rwa [List.mem_singleton.1 hs]
  · refine List.pairwise_append.2 ⟨h.increasing, List.pairwise_singleton _ _, fun s hs t ht => ?_⟩
    rw [List.mem_singleton.1 ht]
    exact hbefore s hs
  · rcases List.mem_append.1 hs with hs | hs
    · exact h.delivered s hs
    · rw [List.mem_singleton.1 hs]
      exact ⟨d, hd, hle⟩

/-- No record is later than the last one. -/
theorem le_last (h : InOrder ds records) {r : Record} (hr : r ∈ records) :
    ∃ s ∈ records, records.getLast? = some s ∧ r.time.toNanos ≤ s.time.toNanos := by
  obtain ⟨earlier, s, rfl⟩ := (List.eq_nil_or_concat records).resolve_left (List.ne_nil_of_mem hr)
  rw [List.concat_eq_append] at *
  have hs := List.mem_append_right earlier (List.mem_singleton.2 (rfl : s = s))
  refine ⟨s, hs, List.getLast?_concat, ?_⟩
  rcases List.mem_append.1 hr with hr | hr
  · exact Int.le_of_lt ((List.pairwise_append.1 h.increasing).2.2 r hr s (List.mem_singleton.2 rfl))
  · exact Int.le_of_eq (by rw [List.mem_singleton.1 hr])

/-- What passes the sanity check comes after all records, if the last of them was handled last. -/
theorem before (h : InOrder ds records) {rules : Rules} {p : Processor} {time : Timestamp}
    {member : MemberId} {address : NodeAddress}
    (hlast : p.clock.lastHandled = records.getLast?.map (·.time)) (hnormal : time.Normal)
    (hsane : Gate.sanityCheck rules.book time p.clock.lastHandled member = .ok address) :
    ∀ r ∈ records, r.time.toNanos < time.toNanos := by
  intro r hr
  obtain ⟨s, hs, hgetLast, hle⟩ := h.le_last hr
  rw [hgetLast] at hlast
  have hafter := (Gate.sanityCheck_eq_ok_iff.1 ⟨address, hsane⟩).1 s.time hlast
  rw [Timestamp.isAfter_iff_toNanos hnormal (h.normal s hs)] at hafter
  omega

/-- A call keeps the order: its records come after all others, that of the delivered transaction
first. -/
theorem timed (h : InOrder ds records) {rules : Rules} {p q : Processor} {d : Delivery}
    {new : List Record} (hlast : p.clock.lastHandled = records.getLast?.map (·.time))
    (htimely : d.Timely) (hcall : Processor.Timed rules p d new q) :
    InOrder (ds ++ [d]) (records ++ new) ∧
      q.clock.lastHandled = (records ++ new).getLast?.map (·.time) := by
  have hd : d ∈ ds ++ [d] := List.mem_append_right _ (List.mem_singleton.2 rfl)
  have hds := h.concat_delivery d
  cases hcall with
  | dropped =>
    rw [List.append_nil]
    exact ⟨hds, hlast⟩
  | alone hsane hr hhandled =>
    rename_i txn address r
    obtain ⟨hnormal, hnanos⟩ := Processor.effectiveTime_timely htimely txn
    have hbefore := h.before hlast hnormal hsane
    rw [← hr] at hnormal hnanos hbefore
    refine ⟨hds.concat hd hnormal hbefore ?_, ?_⟩
    · split at hnanos <;> omega
    · rw [hhandled, List.getLast?_concat]
      rfl
  | followed hsane hcan hr hs hhandled =>
    rename_i txn address r s
    obtain ⟨hnormal, hnanos⟩ := Processor.effectiveTime_timely htimely txn
    have hbefore := h.before hlast hnormal hsane
    rw [← hr] at hnormal hnanos hbefore
    rw [if_pos hcan, ← hs] at hnanos
    have hfirst := hds.concat hd hnormal hbefore (by rw [← hs]; omega)
    have hlater : ∀ t ∈ records ++ [r], t.time.toNanos < s.time.toNanos := by
      intro t ht
      rcases List.mem_append.1 ht with ht | ht
      · have hearlier := hbefore t ht
        omega
      · rw [List.mem_singleton.1 ht]
        omega
    have hsecond := hfirst.concat hd (hs ▸ htimely.normal) hlater (Int.le_of_eq (by rw [hs]))
    rw [List.append_assoc] at hsecond
    refine ⟨hsecond, ?_⟩
    rw [hhandled, List.getLast?_append]
    rfl

end InOrder

namespace Node

variable (n : Node) {maxMemoBytes : UInt64}
  (hstandard : n.rules.transitions = .standard maxMemoBytes)

include hstandard

theorem deliver_timed (ds : List Delivery) (d : Delivery) :
    Processor.Timed n.rules (n.after ds).processor d ((n.after ds).deliver d).answer
      (n.after (ds ++ [d])).processor := by
  rw [processor_after_concat, deliver_after]
  exact (Processor.incorporate_call hstandard _ d.bytes d.time d.member).timed hstandard

/-- The records of a run are in order, and the last of them was handled last. -/
theorem records_inOrder (hfresh : n.processor.clock.lastHandled = none) (ds : List Delivery)
    (htimely : ∀ d ∈ ds, d.Timely) :
    InOrder ds (n.records ds) ∧
      (n.after ds).processor.clock.lastHandled = (n.records ds).getLast?.map (·.time) := by
  induction ds using List.reverseRecOn with
  | nil =>
    rw [records_nil, after_nil, hfresh]
    exact ⟨⟨fun r hr => absurd hr List.not_mem_nil, .nil, fun r hr => absurd hr List.not_mem_nil⟩, rfl⟩
  | append_singleton ds d ih =>
    obtain ⟨horder, hlast⟩ := ih fun e he => htimely e (List.mem_append_left _ he)
    rw [records_concat]
    exact horder.timed hlast (htimely d (List.mem_append_right _ (List.mem_singleton.2 rfl)))
      (n.deliver_timed hstandard ds d)

/-- Two nanoseconds are enough for a transaction not to come too late. -/
theorem not_drops_of_spaced (hfresh : n.processor.clock.lastHandled = none) {ds : List Delivery}
    {d : Delivery} (htimely : ∀ e ∈ ds ++ [d], e.Timely) (hspaced : Delivery.Spaced (ds ++ [d]))
    {txn : Envelope} (hparse : Envelope.ofSigned d.bytes = .ok txn)
    (hstake : n.rules.book.Staked d.member) :
    ¬ Processor.Drops n.rules (n.after ds).processor d := by
  intro hdrops
  obtain ⟨horder, hlast⟩ := n.records_inOrder hstandard hfresh ds
    fun e he => htimely e (List.mem_append_left _ he)
  cases hdrops with
  | unparseable hfault => cases hparse.symm.trans hfault
  | unstaked hno => exact hno hstake
  | late hparse' hhandled hlate =>
    rename_i txn' t
    rw [hlast, Option.map_eq_some_iff] at hhandled
    obtain ⟨r, hr, rfl⟩ := hhandled
    have hmem := List.mem_of_getLast? hr
    obtain ⟨e, he, hle⟩ := horder.delivered r hmem
    have hgap := (List.pairwise_append.1 hspaced).2.2 e he d (List.mem_singleton.2 rfl)
    obtain ⟨hnormal, hnanos⟩ := Processor.effectiveTime_timely
      (htimely d (List.mem_append_right _ (List.mem_singleton.2 rfl))) txn'
    have hafter : (Processor.effectiveTime txn' d.time).isAfter r.time = true := by
      rw [Timestamp.isAfter_iff_toNanos hnormal (horder.normal r hmem)]
      split at hnanos <;> omega
    cases hlate.symm.trans hafter

/-- The last handled time does not go back. -/
theorem lastHandled_mono (hfresh : n.processor.clock.lastHandled = none) {ds es : List Delivery}
    (htimely : ∀ d ∈ ds ++ es, d.Timely) {t : Timestamp}
    (ht : (n.after ds).processor.clock.lastHandled = some t) :
    ∃ u, (n.after (ds ++ es)).processor.clock.lastHandled = some u ∧ compare t u ≠ .gt := by
  obtain ⟨-, hbefore⟩ := n.records_inOrder hstandard hfresh ds
    fun d hd => htimely d (List.mem_append_left _ hd)
  obtain ⟨horder, hafter⟩ := n.records_inOrder hstandard hfresh (ds ++ es) htimely
  rw [hbefore, Option.map_eq_some_iff] at ht
  obtain ⟨r, hr, rfl⟩ := ht
  have hmem : r ∈ n.records (ds ++ es) := by
    rw [records_append]
    exact List.mem_append_left _ (List.mem_of_getLast? hr)
  obtain ⟨s, hs, hgetLast, hle⟩ := horder.le_last hmem
  refine ⟨s.time, by rw [hafter, hgetLast]; rfl, fun hgt => ?_⟩
  have hlt := Std.OrientedCmp.lt_of_gt hgt
  rw [Timestamp.compare_eq_lt_iff_toNanos (horder.normal s hs) (horder.normal r hmem)] at hlt
  omega

/-- Consensus order is kept, and only lawful drops happen: the times of all records of a run strictly
increase; the last handled time is that of the last record, and never goes back; a call brings no
record exactly when what was delivered cannot be parsed, comes too late or is submitted without
stake, and then leaves everything as it was; and when the consensus times are two nanoseconds apart,
nothing that can be parsed and is submitted with stake is dropped. -/
theorem consensus_order_kept (hfresh : n.processor.clock.lastHandled = none) (ds : List Delivery)
    (htimely : ∀ d ∈ ds, d.Timely) :
    ((n.records ds).Pairwise fun r s => compare r.time s.time = .lt) ∧
    (n.after ds).processor.clock.lastHandled = (n.records ds).getLast?.map (·.time) ∧
    ∀ es d fs, ds = es ++ d :: fs →
      let p := (n.after es).processor
      let q := (n.after (es ++ [d])).processor
      let answer := ((n.after es).deliver d).answer
      (∀ t, p.clock.lastHandled = some t →
        ∃ u, q.clock.lastHandled = some u ∧ compare t u ≠ .gt) ∧
      (answer = [] ↔ Processor.Drops n.rules p d) ∧
      (answer = [] → q = p) ∧
      (Delivery.Spaced ds → n.rules.book.Staked d.member →
        ∀ txn, Envelope.ofSigned d.bytes = .ok txn → answer ≠ []) := by
  obtain ⟨horder, hlast⟩ := n.records_inOrder hstandard hfresh ds htimely
  refine ⟨?_, hlast, ?_⟩
  · refine horder.increasing.imp_of_mem fun {r s} hr hs hlt => ?_
    rwa [Timestamp.compare_eq_lt_iff_toNanos (horder.normal r hr) (horder.normal s hs)]
  · rintro es d fs rfl p q answer
    have hsplit : es ++ d :: fs = (es ++ [d]) ++ fs := by
      rw [List.append_assoc, List.singleton_append]
    have htimely' : ∀ e ∈ es ++ [d], e.Timely := fun e he =>
      htimely e (hsplit ▸ List.mem_append_left _ he)
    obtain ⟨hdrops, hleft⟩ := p.incorporate_nil_iff n.rules d
    have hanswer : answer = (p.incorporate n.rules d.bytes d.time d.member).answer := by
      rw [← deliver_after]
    have hafter : q = (p.incorporate n.rules d.bytes d.time d.member).processor := by
      rw [← deliver_after, ← processor_after_concat]
    rw [hanswer, hafter]
    refine ⟨fun t ht => ?_, hdrops, hleft, fun hspaced hstake txn hparse hnil => ?_⟩
    · rw [← hafter]
      exact n.lastHandled_mono hstandard hfresh htimely' ht
    · rw [hsplit] at hspaced
      exact n.not_drops_of_spaced hstandard hfresh htimely' (List.pairwise_append.1 hspaced).1 hparse
        hstake (hdrops.1 hnil)

omit hstandard in
/-- A schedule's creation, its last signature and its execution are recorded in this order. -/
theorem consensus_order_kept_approval :
    let n := standard {} Sample.book Sample.verification {} Sample.start
    let ds := [Sample.creation, Sample.approval]
    (n.records ds).length = 3 ∧
    ((n.records ds).Pairwise fun r s => compare r.time s.time = .lt) ∧
    (n.after ds).processor.clock.lastHandled = (n.records ds).getLast?.map (·.time) := by
  intro n ds
  have hlength : (n.records ds).length = 3 := by decide +kernel
  have htimely : ∀ d ∈ ds, d.Timely := by decide +kernel
  obtain ⟨hincreasing, hlast, -⟩ := n.consensus_order_kept rfl rfl ds htimely
  exact ⟨hlength, hincreasing, hlast⟩

end Node

end ConsensusLedger
