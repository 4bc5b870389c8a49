import ConsensusLedger.Proofs.Schedule.Timetable

/-!
What a purge removes, exactly. Whatever the store has been asked, the schedules that are due go and
all others stay, a pending one among them; and until another schedule is committed there is nothing
more to remove.
-/

namespace ConsensusLedger

namespace ExpiryQueue

variable {q : ExpiryQueue} {now : Int64}

/-- All entries of the queue are after the second. -/
def Ahead (now : Int64) (q : ExpiryQueue) : Prop := ∀ e ∈ q.entries, now < e.1

theorem ahead_drained (hnow : now < Int64.maxValue) : Ahead now (q.drain now).2 := by
  intro e he
  obtain ⟨-, hkept⟩ := List.mem_filter.1 he
  rw [Bool.not_eq_true', Bool.eq_false_iff, ne_eq, isDue_iff] at hkept
  by_contra hdue
  have hle : e.1 ≤ now := Int64.not_lt.1 hdue
  refine hkept ⟨hle, fun hlast => hdue ?_⟩
  rw [hlast]
  exact hnow

theorem Ahead.drained (h : Ahead now q) (other : Int64) : Ahead now (q.drain other).2 :=
  fun e he => h e (mem_of_mem_drained he)

theorem Ahead.drain_eq (h : Ahead now q) : q.drain now = ([], q) := by
  have hnone : ∀ e ∈ q.entries, isDue now e = false := by
    intro e he
    rw [Bool.eq_false_iff, ne_eq, isDue_iff, not_and_or]
    exact .inl (Int64.not_le.2 (h e he))
  obtain ⟨entries, ordered⟩ := q
  have hkept : entries.filter (fun e => !isDue now e) = entries :=
    List.filter_eq_self.2 fun e he => by rw [hnone e he]; rfl
  have hdue : entries.filter (isDue now) = [] :=
    List.filter_eq_nil_iff.2 fun e he => by simp [hnone e he]
  simp only [drain, hkept, hdue, List.map_nil]

end ExpiryQueue

namespace ScheduleStore

open ExpiryQueue

variable {s : ScheduleStore} {now : Int64}

/-- Only a commit brings an entry into the queue. -/
theorem ahead_call (h : s.expiries.Ahead now) {c : Call}
    (hcommit : c = .commit → s.store.pending = none) : (s.call c).expiries.Ahead now := by
  have hcalled := s.call_called c
  generalize s.call c = t at hcalled
  cases hcalled with
  | committed hpending =>
    rw [hcommit rfl] at hpending
    cases hpending
  | @purged other =>
    rw [purge_expiries]
    exact h.drained other
  | kept | began | discarded | redrafted | rewritten | hidden | dropped => exact h

theorem ahead_after (h : s.expiries.Ahead now) {calls : List Call}
    (hcommit : ∀ before rest, calls = before ++ .commit :: rest →
      (s.after before).store.pending = none) : (s.after calls).expiries.Ahead now := by
  induction calls generalizing s with
  | nil => exact h
  | cons c rest ih =>
    rw [after_cons]
    apply ih
    · exact ahead_call h fun hc => hcommit [] rest (by rw [hc]; rfl)
    · rintro before later rfl
      exact hcommit (c :: before) later rfl

theorem purge_of_ahead (h : s.expiries.Ahead now) : s.purge now = ([], s) := by
  rw [purge, h.drain_eq]
  rfl

/-- What is due in a timetabled store is what has expired. -/
theorem Timetabled.mem_drain_iff (h : Timetabled s) (hnow : now < Int64.maxValue)
    {e : ScheduleId × Schedule} (he : e ∈ s.store.committed.entries) :
    e.1 ∈ (s.expiries.drain now).1 ↔ e.2.expiry ≤ now := by
  have hx : s.committed? e.1 = some e.2 := s.store.committed.table.get?_eq_some_iff.2 he
  rw [mem_drain]
  constructor
  · rintro ⟨second, hentry, hdue, -⟩
    exact h.dated (second, e.1) hentry e.2 hx ▸ hdue
  · intro hdue
    refine ⟨e.2.expiry, h.complete e.1 e.2 hx, hdue, ?_⟩
    rintro hlast
    rw [hlast] at hdue
    exact Int64.not_lt.2 hdue hnow

/-- Let the store be over schedules with numbers that were handed out, let it be asked anything in any
order, where changes of schedules only sign them, and let the numbers not start again. A purge before
the last second then leaves exactly the committed schedules that expire later and the pending one, and
lists as many as it removed. Until a schedule is committed after it, a purge at that second or an
earlier one does nothing. -/
theorem purge_removes_due (lifetime : Int64) {ids : IdSource}
    {schedules : Collection ScheduleId Schedule}
    (hnumbers : ∀ e ∈ schedules.entries, e.1.num < ids.next) {calls : List Call}
    (hsigns : ∀ c ∈ calls, c.Signs)
    (hgrow : (ofCollection lifetime ids schedules).NumbersGrow calls)
    {now : Int64} (hnow : now < Int64.maxValue) :
    let s := (ofCollection lifetime ids schedules).after calls
    let purged := (s.purge now).2
    purged.store.committed.entries =
        s.store.committed.entries.filter (fun e => now < e.2.expiry) ∧
      (s.purge now).1.length =
        s.store.committed.entries.countP (fun e => e.2.expiry ≤ now) ∧
      purged.store.pending = s.store.pending ∧
      ∀ more, (∀ before rest, more = before ++ .commit :: rest →
          (purged.after before).store.pending = none) →
        ∀ earlier ≤ now, (purged.after more).purge earlier = ([], purged.after more) := by
  intro s purged
  have htimetabled : Timetabled s := (Timetabled.ofCollection lifetime hnumbers).after hsigns hgrow
  have hapart := htimetabled.apart_of_due now
  let drained : ScheduleStore := { s with expiries := (s.expiries.drain now).2 }
  have hleft : purged.store.committed.entries =
      s.store.committed.entries.filter (fun e => now < e.2.expiry) := by
    refine (entries_expireAll (s := drained) hapart).trans (List.filter_congr fun e he => ?_)
    rw [decide_eq_decide, htimetabled.mem_drain_iff hnow he, Int64.not_le]
  refine ⟨hleft, ?_, (s.purge_frame now).1, ?_⟩
  · have hcount : (s.purge now).1.length + purged.size = s.size :=
      length_expireAll (s := drained) hapart
    have hsize : purged.size = s.store.committed.entries.countP (fun e => now < e.2.expiry) := by
      rw [List.countP_eq_length_filter, ← hleft]
      rfl
    have hall := List.length_eq_countP_add_countP (fun e : EntityId × Schedule =>
      decide (e.2.expiry ≤ now)) (l := s.store.committed.entries)
    have htotal : s.size = s.store.committed.entries.length := rfl
    simp only [decide_eq_true_eq, Int64.not_le] at hall
    omega
  · intro more hcommit earlier hearlier
    have hexpiries : purged.expiries = (s.expiries.drain now).2 := s.purge_expiries now
    have hahead : (purged.after more).expiries.Ahead now :=
      ahead_after (hexpiries ▸ ahead_drained hnow) hcommit
    exact purge_of_ahead fun e he => Int64.lt_of_le_of_lt hearlier (hahead e he)

end ScheduleStore

namespace Sample

/-- A schedule that is there from the start. -/
def lasting : Schedule := ⟨[], .ofNum 4, .ofNum 2, ⟨90, 0⟩, 5000, none, "lasting", []⟩

/-- The request for another one. -/
def brief : NewSchedule := ⟨[], .ofNum 4, .ofNum 2, ⟨90, 0⟩, none, "brief"⟩

/-- It is created twice; the first one is committed and signed, the second one stays pending. -/
def creations : List ScheduleStore.Call :=
  [.create (fun _ => true) brief (.ofSeconds 50), .commit,
    .apply (.ofNum 1000) (fun x => (.ok (), (x.witnessAll [Octets.replicate 32 1]).2)),
    .create (fun _ => true) brief (.ofSeconds 60)]

end Sample

open Sample ScheduleStore in
/-- The schedule of second 150 is due then, the one of second 5000 is not, and the pending one stays. -/
theorem ScheduleStore.purge_removes_due_brief :
    let schedules := Collection.empty.put (.ofNum 999) lasting
    let s := (ofCollection 100 ⟨1000⟩ schedules).after creations
    (∀ e ∈ schedules.entries, e.1.num < 1000) ∧ (∀ c ∈ creations, c.Signs) ∧
      (ofCollection 100 ⟨1000⟩ schedules).NumbersGrow creations ∧
      (150 : Int64) < Int64.maxValue ∧ s.size = 2 ∧ (s.purge 150).1.length = 1 ∧
      (s.purge 150).2.store.committed.entries = [(.ofNum 999, lasting)] ∧
      (s.purge 150).2.store.pending = s.store.pending ∧ s.isCreationPending = true ∧
      (s.purge 150).2.purge 150 = ([], (s.purge 150).2) := by
  intro schedules s
  have hnumbers : ∀ e ∈ schedules.entries, e.1.num < 1000 := by decide
  have hsigns : ∀ c ∈ creations, c.Signs := by
    simp only [creations, List.forall_mem_cons, Call.Signs, List.not_mem_nil, false_imp_iff,
      implies_true, and_true, true_and]
    exact fun _ => ⟨_, rfl⟩
  have hgrow : (ofCollection 100 ⟨1000⟩ schedules).NumbersGrow creations := by
    simp only [creations, numbersGrow_cons, numbersGrow_nil]
    refine ⟨?_, ?_, ?_, ?_, ?_⟩ <;> decide +kernel
  have hnow : (150 : Int64) < Int64.maxValue := by decide
  have hs : (ofCollection 100 ⟨1000⟩ schedules).after creations = s := rfl
  have hpurge := purge_removes_due 100 hnumbers hsigns hgrow hnow
  rw [hs] at hpurge
  obtain ⟨hleft, hcount, hpending, hidle⟩ := hpurge
  have hpair : s.size = 2 := by decide +kernel
  have hdue : s.store.committed.entries.countP (fun e => e.2.expiry ≤ 150) = 1 := by decide +kernel
  have hlasting : s.store.committed.entries.filter (fun e => (150 : Int64) < e.2.expiry) =
      [(.ofNum 999, lasting)] := by decide +kernel
  have hdraft : s.isCreationPending = true := by decide +kernel
  refine ⟨hnumbers, hsigns, hgrow, hnow, hpair, hcount.trans hdue, hleft.trans hlasting, hpending,
    hdraft, ?_⟩
  exact hidle [] (fun _ _ h => absurd h (by simp)) 150 (by decide)

end ConsensusLedger
