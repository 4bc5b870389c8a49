import ConsensusLedger.Proofs.Schedule.Queued

/-!
What a purge takes out, exactly. As long as the numbers handed out do not repeat, the queue has an
entry for every committed schedule, and none that is left over for another one; so a purge takes out
the schedules whose second has come and leaves all the others.
-/

namespace ConsensusLedger

namespace ScheduleStore

variable {first : UInt64} {n : Nat} {s t : ScheduleStore} {id : ScheduleId} {x y : Schedule}

/-- After so many numbers were handed out, the queue dates every committed schedule. -/
structure Tracked (first : UInt64) (n : Nat) (s : ScheduleStore) : Prop where
  next : s.nextNumber = first + UInt64.ofNat n
  numbers : ∀ e ∈ s.expiries.entries, ∃ j < n, e.2.num = first + UInt64.ofNat j
  dated : Dated s
  complete : ∀ id x, s.committed? id = some x → (x.expiry, id) ∈ s.expiries.entries

namespace Tracked

theorem empty (lifetime : Int64) (first : UInt64) : Tracked first 0 (.empty lifetime first) :=
  ⟨(UInt64.add_zero first).symm, nofun, nofun, nofun⟩

/-- It is enough that no number is handed out, and that entries go only without their schedules. -/
theorem of_frame (h : Tracked first n s) (hnext : t.nextNumber = s.nextNumber)
    (hentries : ∀ e ∈ t.expiries.entries, e ∈ s.expiries.entries)
    (hkept : ∀ id x, t.committed? id = some x →
      ∃ y, s.committed? id = some y ∧ y.expiry = x.expiry)
    (hstill : ∀ e ∈ s.expiries.entries, (t.committed? e.2).isSome = true →
      e ∈ t.expiries.entries) : Tracked first n t := by
  refine ⟨hnext.trans h.next, fun e he => h.numbers e (hentries e he),
    h.dated.of_frame hentries hkept, fun id x hx => ?_⟩
  obtain ⟨y, hy, hsame⟩ := hkept id x hx
  refine hstill _ (hsame ▸ h.complete id y hy) ?_
  rw [hx]
  rfl

theorem without (h : Tracked first n s) (id : ScheduleId) (x : Schedule) :
    Tracked first n (s.without id x) :=
  h.of_frame rfl (fun _ he => he) (fun id' y hy => ⟨y, without_within s id x id' y hy, rfl⟩)
    fun _ he _ => he

theorem revised (h : Tracked first n s) (hx : s.committed? id = some x) (ht : Revised s id y t)
    (hexpiry : y.expiry = x.expiry) : Tracked first n t :=
  h.of_frame (congrArg IdSource.next ht.ids) (fun _ he => ht.expiries ▸ he)
    (fun _ _ hz => ht.expiry_kept hx hexpiry hz) fun _ he _ => ht.expiries ▸ he

theorem purge (h : Tracked first n s) (hpending : s.store.pending = none) (now : Int64) :
    Tracked first n (s.purge now).2 := by
  refine h.of_frame (s.purge_nextNumber now) ?_
    (fun id x hx => ⟨x, purge_within hpending now id x hx, rfl⟩) ?_
  · rw [purge_expiries]
    exact fun _ he => ExpiryQueue.mem_of_mem_drained he
  · intro e he hleft
    rw [purge_expiries]
    rw [committed?_purge hpending] at hleft
    refine ExpiryQueue.mem_drained he fun hdue => ?_
    rw [if_pos hdue] at hleft
    cases hleft

/-- A new schedule takes a number that no entry has yet, as the numbers have not wrapped. -/
theorem admitting (h : Tracked first n s) (hn : n < 0x10000000000000000)
    (hid : id.num = s.nextNumber) : Tracked first (n + 1) (s.admitting id x) := by
  have hfresh : ∀ e ∈ s.expiries.entries, e.2 ≠ id := by
    intro e he hsame
    obtain ⟨j, hj, hnum⟩ := h.numbers e he
    rw [hsame, hid, h.next] at hnum
    exact number_injective hj hn hnum.symm
  refine ⟨?_, fun e he => ?_, h.dated.admitting hfresh, fun id' y hy => ?_⟩
  · have hsucc : UInt64.ofNat (n + 1) = UInt64.ofNat n + 1 := UInt64.ofNat_add n 1
    have hnext : (s.admitting id x).nextNumber = s.nextNumber + 1 := rfl
    rw [hnext, h.next, hsucc, UInt64.add_assoc]
  · rcases ExpiryQueue.mem_place.1 he with rfl | he
    · exact ⟨n, Nat.lt_succ_self n, hid.trans h.next⟩
    · obtain ⟨j, hj, hnum⟩ := h.numbers e he
      exact ⟨j, Nat.lt_succ_of_lt hj, hnum⟩
  · rw [committed?_admitting] at hy
    split at hy
    · rename_i hsame
      cases hy
      exact ExpiryQueue.mem_place.2 (.inl (hsame ▸ rfl))
    · exact ExpiryQueue.mem_place.2 (.inr (h.complete id' y hy))

/-- A purge takes out the schedules that have expired, but never one of the largest second. -/
theorem committed?_purge (h : Tracked first n s) (hpending : s.store.pending = none) (now : Int64)
    (id : ScheduleId) :
    (s.purge now).2.committed? id = (s.committed? id).filter fun x =>
      decide (now < x.expiry ∨ x.expiry = Int64.maxValue) := by
  rw [ScheduleStore.committed?_purge hpending]
  cases hx : s.committed? id with
  | none => exact ite_self none
  | some x =>
    have hdue : id ∈ (s.expiries.drain now).1 ↔ ¬(now < x.expiry ∨ x.expiry = Int64.maxValue) := by
      rw [ExpiryQueue.mem_drain, not_or, Int64.not_lt]
      constructor
      · rintro ⟨second, he, hdue⟩
        have hsecond : second = x.expiry := h.dated _ he x hx
        exact hsecond ▸ hdue
      · exact fun hdue => ⟨x.expiry, h.complete id x hx, hdue⟩
    by_cases hleft : now < x.expiry ∨ x.expiry = Int64.maxValue
    · rw [if_neg fun hd => hdue.1 hd hleft, Option.filter_some, decide_eq_true hleft]
      rfl
    · rw [if_pos (hdue.2 hleft), Option.filter_some, decide_eq_false hleft]
      rfl

end Tracked

end ScheduleStore

end ConsensusLedger
