import ConsensusLedger.Proofs.Schedule.Store
import ConsensusLedger.Proofs.Timestamp

/-!
Expiry and the end of an identifier. An entry of the queue stays behind when its schedule leaves
early; as the identifier is not handed out again while the numbers do not wrap, the entry never meets
another schedule, so that a purge takes out only schedules that have expired.
-/

namespace ConsensusLedger

theorem UInt64.lt_add_one_of_le {a : UInt64} (h : a ≤ a + 1) : a < a + 1 := by
  have hbound := a.toNat_lt
  have hone : (1 : UInt64).toNat = 1 := rfl
  rw [UInt64.le_iff_toNat_le, UInt64.toNat_add, hone] at h
  rw [UInt64.lt_iff_toNat_lt, UInt64.toNat_add, hone]
  omega

namespace ExpiryQueue

variable {q : ExpiryQueue} {now : Int64} {id : EntityId} {e : Int64 × EntityId}

/-- An entry is due once its second has come, but never one of the largest second. -/
theorem isDue_iff : isDue now e = true ↔ e.1 ≤ now ∧ e.1 ≠ Int64.maxValue := by
  have hsum := toInt_saturatingAdd now 1
  have hone : (1 : Int64).toInt = 1 := rfl
  have hmax : Int64.maxValue.toInt = 0x7fffffffffffffff := rfl
  have hlow := now.le_toInt
  have hhigh := now.toInt_lt
  have hlater := (saturatingAdd now 1).toInt_lt
  rw [isDue, decide_eq_true_eq, Int64.lt_iff_toInt_lt, Int64.le_iff_toInt_le, ne_eq,
    ← Int64.toInt_inj]
  omega

theorem mem_drain :
    id ∈ (q.drain now).1 ↔
      ∃ second, (second, id) ∈ q.entries ∧ second ≤ now ∧ second ≠ Int64.maxValue := by
  constructor
  · intro h
    obtain ⟨⟨second, id'⟩, he, rfl⟩ := List.mem_map.1 h
    obtain ⟨he, hdue⟩ := List.mem_filter.1 he
    exact ⟨second, he, isDue_iff.1 hdue⟩
  · rintro ⟨second, he, hdue⟩
    exact List.mem_map.2 ⟨(second, id), List.mem_filter.2 ⟨he, isDue_iff.2 hdue⟩, rfl⟩

theorem mem_of_mem_drained (h : e ∈ (q.drain now).2.entries) : e ∈ q.entries :=
  (List.mem_filter.1 h).1

theorem mem_drained (he : e ∈ q.entries) (hdrain : e.2 ∉ (q.drain now).1) :
    e ∈ (q.drain now).2.entries := by
  refine List.mem_filter.2 ⟨he, ?_⟩
  rw [Bool.not_eq_true', Bool.eq_false_iff]
  exact fun hdue => hdrain (List.mem_map.2 ⟨e, List.mem_filter.2 ⟨he, hdue⟩, rfl⟩)

end ExpiryQueue

namespace ScheduleStore

variable {s t : ScheduleStore} {id : ScheduleId} {x y : Schedule}

/-- An entry of the queue has the second at which the schedule expires that is committed under its
identifier, if one still is. -/
def Dated (s : ScheduleStore) : Prop :=
  ∀ e ∈ s.expiries.entries, ∀ x, s.committed? e.2 = some x → e.1 = x.expiry

namespace Dated

/-- It is enough that entries and schedules do not come in, and that no expiry changes. -/
theorem of_frame (h : Dated s) (hentries : ∀ e ∈ t.expiries.entries, e ∈ s.expiries.entries)
    (hkept : ∀ id x, t.committed? id = some x →
      ∃ y, s.committed? id = some y ∧ y.expiry = x.expiry) : Dated t := by
  intro e he x hx
  obtain ⟨y, hy, hsame⟩ := hkept e.2 x hx
  exact (h e (hentries e he) y hy).trans hsame

/-- A new schedule is tracked under an identifier that no entry has yet. -/
theorem admitting (h : Dated s) (hfresh : ∀ e ∈ s.expiries.entries, e.2 ≠ id) :
    Dated (s.admitting id x) := by
  intro e he y hy
  rw [committed?_admitting] at hy
  rcases ExpiryQueue.mem_place.1 he with rfl | he
  · rw [if_pos rfl] at hy
    cases hy
    rfl
  · rw [if_neg (hfresh e he)] at hy
    exact h e he y hy

end Dated

/-- A revision keeps the expiry of every schedule if it does so for the revised one. -/
theorem Revised.expiry_kept (ht : Revised s id y t) (hx : s.committed? id = some x)
    (hexpiry : y.expiry = x.expiry) {id' : ScheduleId} {z : Schedule}
    (hz : t.committed? id' = some z) :
    ∃ z', s.committed? id' = some z' ∧ z'.expiry = z.expiry := by
  rw [ht.committed] at hz
  split at hz
  · rename_i hid
    cases hz
    exact ⟨x, hid ▸ hx, hexpiry.symm⟩
  · exact ⟨z, hz, rfl⟩

/-- Every entry of the queue is for a number that was handed out, and has the second at which the
schedule expires that is committed under its identifier, if one still is. -/
structure Queued (s : ScheduleStore) : Prop where
  numbers : ∀ e ∈ s.expiries.entries, e.2.num < s.nextNumber
  expiry : Dated s

namespace Queued

theorem empty (lifetime : Int64) (first : UInt64) : Queued (.empty lifetime first) :=
  ⟨nofun, nofun⟩

/-- It is enough that entries and schedules do not come in, and that no expiry changes. -/
theorem of_frame (h : Queued s) (hentries : ∀ e ∈ t.expiries.entries, e ∈ s.expiries.entries)
    (hnext : t.nextNumber = s.nextNumber)
    (hkept : ∀ id x, t.committed? id = some x →
      ∃ y, s.committed? id = some y ∧ y.expiry = x.expiry) : Queued t :=
  ⟨fun e he => hnext ▸ h.numbers e (hentries e he), h.expiry.of_frame hentries hkept⟩

theorem without (h : Queued s) (id : ScheduleId) (x : Schedule) : Queued (s.without id x) :=
  h.of_frame (fun _ he => he) rfl fun id' y hy => ⟨y, without_within s id x id' y hy, rfl⟩

theorem drained (h : Queued s) (now : Int64) :
    Queued { s with expiries := (s.expiries.drain now).2 } :=
  h.of_frame (fun _ he => ExpiryQueue.mem_of_mem_drained he) rfl fun _ y hy => ⟨y, hy, rfl⟩

theorem purge (h : Queued s) (hpending : s.store.pending = none) (now : Int64) :
    Queued (s.purge now).2 :=
  purge_induction hpending (h.drained now) fun _ id x _ _ _ hs => hs.without id x

theorem revised (h : Queued s) (hx : s.committed? id = some x) (ht : Revised s id y t)
    (hexpiry : y.expiry = x.expiry) : Queued t :=
  h.of_frame (fun _ he => ht.expiries ▸ he) (congrArg IdSource.next ht.ids)
    fun _ _ hz => ht.expiry_kept hx hexpiry hz

/-- A new schedule is tracked under a number that no entry has yet. -/
theorem admitting (h : Queued s) (hid : id.num = s.nextNumber)
    (hgrown : s.nextNumber ≤ (s.admitting id x).nextNumber) : Queued (s.admitting id x) := by
  have hnext : s.nextNumber < (s.admitting id x).nextNumber := UInt64.lt_add_one_of_le hgrown
  refine ⟨fun e he => ?_, h.expiry.admitting fun e he hsame => ?_⟩
  · rcases ExpiryQueue.mem_place.1 he with rfl | he
    · rw [hid]
      exact hnext
    · exact UInt64.lt_trans (h.numbers e he) hnext
  · have hnum := h.numbers e he
    rw [hsame, hid] at hnum
    exact UInt64.lt_irrefl _ hnum

/-- A purge takes out only schedules that have expired. -/
theorem expired_of_purge (h : Queued s) (hpending : s.store.pending = none) {now : Int64}
    (hx : s.committed? id = some x) (hgone : (s.purge now).2.committed? id = none) :
    x.expiry ≤ now := by
  rw [committed?_purge hpending] at hgone
  split at hgone
  · rename_i hdue
    obtain ⟨second, he, hsecond, -⟩ := ExpiryQueue.mem_drain.1 hdue
    have hexpiry : second = x.expiry := h.expiry (second, id) he x hx
    rw [← hexpiry]
    exact hsecond
  · cases hgone.symm.trans hx

end Queued

/-- The number of the identifier was handed out, and no schedule is committed under it any more. -/
structure Spent (id : ScheduleId) (s : ScheduleStore) : Prop where
  number : id.num < s.nextNumber
  gone : s.committed? id = none

end ScheduleStore

end ConsensusLedger
