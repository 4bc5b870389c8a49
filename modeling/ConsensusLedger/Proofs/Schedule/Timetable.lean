import ConsensusLedger.Proofs.Schedule.Call
import ConsensusLedger.Proofs.Schedule.Queued
import ConsensusLedger.Proofs.Schedule.Witness
import Mathlib.Data.List.Nodup

/-!
The expiry queue along calls, whether or not a creation is pending. As long as numbers do not start
again and changes of schedules only sign them, the queue has every committed schedule at its own
second, and nothing that is left over in it will name the pending schedule or another one.
-/

namespace ConsensusLedger

theorem Collection.size_remove {κ ν : Type} [Ord κ] [Std.LawfulEqOrd κ] [DecidableEq κ]
    {c : Collection κ ν} {k : κ} {v : ν} (h : c.get? k = some v) :
    (c.remove k).size + 1 = c.size := by
  have hone : c.entries.countP (fun e => decide (e.1 = k)) = 1 := by
    have hmem : k ∈ c.table.keys := List.mem_map_of_mem (c.table.get?_eq_some_iff.1 h)
    have hcount := List.count_eq_one_of_mem c.table.nodup_keys hmem
    rw [List.count, Table.keys, List.countP_map] at hcount
    exact hcount
  have hleft : (c.remove k).size = (c.entries.filter (·.1 ≠ k)).length :=
    congrArg List.length (c.entries_remove k)
  have hsize : c.size = c.entries.length := rfl
  rw [hleft, hsize, ← List.countP_eq_length_filter,
    List.length_eq_countP_add_countP (fun e : κ × ν => decide (e.1 = k)), hone]
  simp [Nat.add_comm]

theorem ExpiryQueue.mem_foldl_track {l : List (ScheduleId × Schedule)} {q : ExpiryQueue}
    {e : Int64 × ScheduleId} :
    e ∈ (l.foldl (fun q f => q.track f.1 f.2.expiry) q).entries ↔
      e ∈ q.entries ∨ ∃ f ∈ l, (f.2.expiry, f.1) = e := by
  induction l generalizing q with
  | nil => simp
  | cons f rest ih =>
    rw [List.foldl_cons, ih, track, mem_place, @eq_comm _ e, or_assoc, or_left_comm]
    simp only [List.mem_cons, exists_eq_or_imp]

namespace ScheduleStore

variable {s t : ScheduleStore} {id : ScheduleId} {x : Schedule}

/-- The expired schedules are counted. -/
theorem length_expireAll {due : List ScheduleId}
    (hapart : ∀ id ∈ due, s.store.isPending id = false) :
    (s.expireAll due).1.length + (s.expireAll due).2.size = s.size := by
  induction due generalizing s with
  | nil => simp [expireAll]
  | cons id rest ih =>
    obtain ⟨hid, hrest⟩ := List.forall_mem_cons.1 hapart
    cases hx : s.committed? id with
    | none => rw [expireAll_cons_of_gone hid hx, ih hrest]
    | some x =>
      have hone : (s.without id x).size + 1 = s.size := Collection.size_remove hx
      have hlater := ih (s := s.without id x) hrest
      simp only [expireAll_cons_of_committed hid hx, List.length_cons]
      omega

/-- The number of the pending schedule, or else the next one: no other number from here on is used. -/
def frontier (s : ScheduleStore) : UInt64 :=
  match s.store.pending with
  | some p => p.id.num
  | none => s.nextNumber

/-- The queue has every committed schedule at its own second, all numbers in it were handed out to
committed schedules, and the pending schedule has the last number that was handed out. -/
structure Timetabled (s : ScheduleStore) : Prop where
  numbers : ∀ e ∈ s.expiries.entries, e.2.num < s.frontier
  last : ∀ p, s.store.pending = some p → s.nextNumber = p.id.num + 1
  dated : Dated s
  complete : ∀ id x, s.committed? id = some x → (x.expiry, id) ∈ s.expiries.entries

namespace Timetabled

/-- It is enough that the pending identifier and the next number stay, and that entries go only
without their schedules. -/
theorem of_frame (h : Timetabled s) (hids : t.store.ids = s.store.ids)
    (hpending : t.store.pending.map (·.id) = s.store.pending.map (·.id))
    (hentries : ∀ e ∈ t.expiries.entries, e ∈ s.expiries.entries)
    (hkept : ∀ id x, t.committed? id = some x →
      ∃ y, s.committed? id = some y ∧ y.expiry = x.expiry)
    (hstill : ∀ e ∈ s.expiries.entries, (t.committed? e.2).isSome = true →
      e ∈ t.expiries.entries) : Timetabled t := by
  have hnext : t.nextNumber = s.nextNumber := congrArg IdSource.next hids
  have hfrontier : t.frontier = s.frontier := by
    cases hs : s.store.pending <;> cases ht : t.store.pending <;> simp_all [frontier]
  refine ⟨fun e he => hfrontier ▸ h.numbers e (hentries e he), fun p hp => ?_,
    h.dated.of_frame hentries hkept, fun id x hx => ?_⟩
  · rw [hp, Option.map_some] at hpending
    obtain ⟨q, hq, hsame⟩ := Option.map_eq_some_iff.1 hpending.symm
    rw [hnext, ← hsame]
    exact h.last q hq
  · obtain ⟨y, hy, hsame⟩ := hkept id x hx
    refine hstill _ (hsame ▸ h.complete id y hy) ?_
    rw [hx]
    rfl

/-- A store over schedules with numbers that were handed out. -/
theorem ofCollection (lifetime : Int64) {ids : IdSource} {c : Collection ScheduleId Schedule}
    (hnumbers : ∀ e ∈ c.entries, e.1.num < ids.next) :
    Timetabled (.ofCollection lifetime ids c) := by
  have hentries (e : Int64 × ScheduleId) :
      e ∈ (ScheduleStore.ofCollection lifetime ids c).expiries.entries ↔
        ∃ f ∈ c.entries, (f.2.expiry, f.1) = e := by
    rw [ScheduleStore.ofCollection, ExpiryQueue.mem_foldl_track]
    simp [ExpiryQueue.empty]
  refine ⟨fun e he => ?_, nofun, fun e he x hx => ?_, fun id x hx => ?_⟩
  · obtain ⟨f, hf, rfl⟩ := (hentries e).1 he
    exact hnumbers f hf
  · obtain ⟨f, hf, rfl⟩ := (hentries e).1 he
    have hsome : c.get? f.1 = some f.2 := c.table.get?_eq_some_iff.2 hf
    cases hsome.symm.trans hx
    rfl
  · exact (hentries _).2 ⟨(id, x), c.table.get?_eq_some_iff.1 hx, rfl⟩

/-- No entry of the queue is for the pending schedule. -/
theorem apart (h : Timetabled s) {e : Int64 × ScheduleId} (he : e ∈ s.expiries.entries) :
    s.store.isPending e.2 = false := by
  rw [Bool.eq_false_iff]
  intro hpending
  obtain ⟨p, hp, hid⟩ := (Option.any_eq_true _ _).1 hpending
  have hnum := h.numbers e he
  rw [frontier, hp, ← of_decide_eq_true hid] at hnum
  exact UInt64.lt_irrefl _ hnum

theorem apart_of_due (h : Timetabled s) (now : Int64) :
    ∀ id ∈ (s.expiries.drain now).1, s.store.isPending id = false := by
  intro id hdue
  obtain ⟨second, he, -⟩ := ExpiryQueue.mem_drain.1 hdue
  exact h.apart he

theorem purge (h : Timetabled s) (now : Int64) : Timetabled (s.purge now).2 := by
  have hapart := h.apart_of_due now
  obtain ⟨hpending, hids, hexpiries⟩ := s.purge_frame now
  have hcommitted (id : ScheduleId) : (s.purge now).2.committed? id =
      if id ∈ (s.expiries.drain now).1 then none else s.committed? id :=
    committed?_expireAll (s := { s with expiries := (s.expiries.drain now).2 }) hapart id
  refine h.of_frame hids (congrArg _ hpending) (fun e he => ?_) (fun id x hx => ?_)
    fun e he hleft => ?_
  · rw [hexpiries] at he
    exact ExpiryQueue.mem_of_mem_drained he
  · rw [hcommitted] at hx
    split at hx
    · cases hx
    · exact ⟨x, hx, rfl⟩
  · rw [hexpiries]
    apply ExpiryQueue.mem_drained he
    intro hdue
    rw [hcommitted, if_pos hdue] at hleft
    cases hleft

theorem creating (h : Timetabled s) (hpending : s.store.pending = none)
    (hid : id.num = s.nextNumber) (x : Schedule) : Timetabled (s.creating id x) := by
  have hfrontier : s.frontier = s.nextNumber := by rw [frontier, hpending]
  refine ⟨fun e he => ?_, fun p hp => ?_, h.dated, h.complete⟩
  · have hnum := h.numbers e he
    rw [hfrontier, ← hid] at hnum
    exact hnum
  · obtain rfl : ⟨id, x⟩ = p := Option.some.inj hp
    exact congrArg (· + 1) hid.symm

theorem committing {p : PendingCreation Schedule} (h : Timetabled s)
    (hpending : s.store.pending = some p) (hgrown : p.id.num < s.nextNumber) :
    Timetabled (s.committing p) := by
  have hfrontier : s.frontier = p.id.num := by rw [frontier, hpending]
  have hfresh : ∀ e ∈ s.expiries.entries, e.2 ≠ p.id := by
    rintro e he hsame
    have hnum := h.numbers e he
    rw [hfrontier, hsame] at hnum
    exact UInt64.lt_irrefl _ hnum
  have hcommitted (id : ScheduleId) : (s.committing p).committed? id =
      if id = p.id then some p.entity else s.committed? id := Collection.get?_put _ _ _ _
  refine ⟨fun e he => ?_, nofun, fun e he x hx => ?_, fun id x hx => ?_⟩
  · rcases ExpiryQueue.mem_place.1 he with rfl | he
    · exact hgrown
    · exact UInt64.lt_trans (hfrontier ▸ h.numbers e he) hgrown
  · rw [hcommitted] at hx
    rcases ExpiryQueue.mem_place.1 he with rfl | he
    · rw [if_pos rfl] at hx
      cases hx
      rfl
    · rw [if_neg (hfresh e he)] at hx
      exact h.dated e he x hx
  · rw [hcommitted] at hx
    split at hx
    · rename_i hid
      cases hx
      exact ExpiryQueue.mem_place.2 (.inl (hid ▸ rfl))
    · exact ExpiryQueue.mem_place.2 (.inr (h.complete id x hx))

/-- The number of the schedule that is dropped is the next one again. -/
theorem discarding {p : PendingCreation Schedule} (h : Timetabled s)
    (hpending : s.store.pending = some p) : Timetabled s.discarding := by
  have hfrontier : s.frontier = s.discarding.frontier := by
    have hnext : s.discarding.nextNumber = s.nextNumber - 1 := rfl
    rw [frontier, hpending, frontier, ScheduleStore.discarding]
    exact (hnext.trans (by rw [h.last p hpending, UInt64.add_sub_cancel])).symm
  refine ⟨fun e he => hfrontier ▸ h.numbers e he, fun q hq => ?_, h.dated, h.complete⟩
  cases hq

theorem rewriting {y : Schedule} (h : Timetabled s) (hx : s.committed? id = some x)
    (hexpiry : y.expiry = x.expiry) : Timetabled (s.rewriting id y) := by
  have hrevised : Revised s id y (s.rewriting id y) := (revised_self hx).put y
  exact h.of_frame rfl rfl (fun _ he => he) (fun _ _ hz => hrevised.expiry_kept hx hexpiry hz)
    fun _ he _ => he

end Timetabled

/-- The call changes no schedule other than by signing it. -/
def Call.Signs : Call → Prop
  | .apply _ change => ∀ x, ∃ keys, (change x).2 = (x.witnessAll keys).2
  | _ => True

/-- Numbers do not start again along calls: whenever a creation is pending, its number is below the
next one. -/
def NumbersGrow (s : ScheduleStore) (calls : List Call) : Prop :=
  ∀ before, before <+: calls →
    ∀ p ∈ (s.after before).store.pending, p.id.num < (s.after before).nextNumber

theorem numbersGrow_nil :
    s.NumbersGrow [] ↔ ∀ p ∈ s.store.pending, p.id.num < s.nextNumber := by
  simp [NumbersGrow, after]

theorem numbersGrow_cons {c : Call} {calls : List Call} : s.NumbersGrow (c :: calls) ↔
    (∀ p ∈ s.store.pending, p.id.num < s.nextNumber) ∧ (s.call c).NumbersGrow calls := by
  simp only [NumbersGrow, List.prefix_cons_iff, or_imp, forall_and, forall_eq,
    forall_exists_index, and_imp]
  refine and_congr_right fun _ => ⟨fun h before hbefore => h _ before rfl hbefore, ?_⟩
  rintro h _ before rfl hbefore
  exact h before hbefore

/-- One call. -/
theorem Timetabled.call (h : Timetabled s) {c : Call} (hsigns : c.Signs)
    (hgrow : ∀ p ∈ s.store.pending, p.id.num < s.nextNumber) : Timetabled (s.call c) := by
  have hcalled := s.call_called c
  generalize s.call c = t at hcalled
  cases hcalled with
  | kept => exact h
  | began hpending x => exact h.creating hpending rfl x
  | committed hpending => exact h.committing hpending (hgrow _ hpending)
  | discarded hpending => exact h.discarding hpending
  | redrafted hpending =>
    exact h.of_frame rfl (by rw [hpending]; rfl) (fun _ he => he) (fun _ y hy => ⟨y, hy, rfl⟩)
      fun _ he _ => he
  | @rewritten id x hx change =>
    obtain ⟨keys, hkeys⟩ := hsigns x
    obtain ⟨signatories, hsigned, -⟩ := x.witnessAll_eq keys
    exact h.rewriting hx (by rw [hkeys, hsigned])
  | hidden => exact ⟨h.numbers, h.last, h.dated, h.complete⟩
  | @dropped id x =>
    exact h.of_frame rfl rfl (fun _ he => he)
      (fun id' y hy => ⟨y, without_within s id x id' y hy, rfl⟩) fun _ he _ => he
  | purged => exact h.purge _

/-- Any number of calls. -/
theorem Timetabled.after (h : Timetabled s) {calls : List Call} (hsigns : ∀ c ∈ calls, c.Signs)
    (hgrow : s.NumbersGrow calls) : Timetabled (s.after calls) := by
  induction calls generalizing s with
  | nil => exact h
  | cons c rest ih =>
    obtain ⟨hc, hrest⟩ := List.forall_mem_cons.1 hsigns
    obtain ⟨hnow, hlater⟩ := numbersGrow_cons.1 hgrow
    rw [after_cons]
    exact ih (h.call hc hnow) hrest hlater

end ScheduleStore

end ConsensusLedger
