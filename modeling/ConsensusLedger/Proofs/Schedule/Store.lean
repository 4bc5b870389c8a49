import ConsensusLedger.Schedule.Store
import ConsensusLedger.Proofs.Table

/-!
The schedule store seen through its committed schedules. While no creation is pending every operation
of the store revises a committed schedule, takes one out, or admits a new one. Between two handlings
the index finds exactly the committed schedules by their fingerprints, and the identifiers of
committed schedules have been handed out before; each of the three keeps this.
-/

namespace ConsensusLedger

/-- The schedule that a request makes, before anyone has signed it. -/
def NewSchedule.schedule (r : NewSchedule) (expiry : Int64) : Schedule :=
  ⟨r.body, r.payer, r.schedulingAccount, r.validStart, expiry, r.adminKey, r.memo, []⟩

/-- What a request is known by. -/
def NewSchedule.fingerprint (r : NewSchedule) : Fingerprint :=
  .of r.body r.payer r.adminKey r.memo

namespace ScheduleStore

variable {first : UInt64} {n : Nat} {s t : ScheduleStore} {id : ScheduleId} {x : Schedule}

/-- The committed schedule under an identifier. -/
def committed? (s : ScheduleStore) (id : ScheduleId) : Option Schedule := s.store.committed.get? id

/-- What is committed in the first store is committed in the second. -/
def Within (s s' : ScheduleStore) : Prop :=
  ∀ id x, s.committed? id = some x → s'.committed? id = some x

/-- The number that the next schedule gets. -/
def nextNumber (s : ScheduleStore) : UInt64 := s.store.ids.next

/-- The identifier that the next schedule of a request gets. -/
def nextId (s : ScheduleStore) (request : NewSchedule) : ScheduleId :=
  (s.store.ids.allocate request.schedulingAccount).1

/-- The store while a schedule is being created under the next number. -/
def creating (s : ScheduleStore) (id : ScheduleId) (x : Schedule) : ScheduleStore :=
  { s with store := { s.store with ids := ⟨s.store.ids.next + 1⟩, pending := some ⟨id, x⟩ } }

/-- The store with a new schedule, which took the next number. -/
def admitting (s : ScheduleStore) (id : ScheduleId) (x : Schedule) : ScheduleStore :=
  { s with
    store := ⟨⟨s.store.ids.next + 1⟩, s.store.committed.put id x, none⟩
    index := s.index.insert x.fingerprint id
    expiries := s.expiries.track id x.expiry }

/-- The store without a schedule that was committed. -/
def without (s : ScheduleStore) (id : ScheduleId) (x : Schedule) : ScheduleStore :=
  { s with
    store := { s.store with committed := s.store.committed.remove id }
    index := s.index.erase x.fingerprint }

/-- A schedule is committed under an identifier, and all else is as it was. -/
structure Revised (s : ScheduleStore) (id : ScheduleId) (x : Schedule) (t : ScheduleStore) :
    Prop where
  pending : t.store.pending = s.store.pending
  ids : t.store.ids = s.store.ids
  index : t.index = s.index
  expiries : t.expiries = s.expiries
  committed : ∀ id', t.committed? id' = if id' = id then some x else s.committed? id'

theorem committed?_admitting (s : ScheduleStore) (id : ScheduleId) (x : Schedule)
    (id' : ScheduleId) :
    (s.admitting id x).committed? id' = if id' = id then some x else s.committed? id' :=
  Collection.get?_put _ _ _ _

theorem committed?_without (s : ScheduleStore) (id : ScheduleId) (x : Schedule)
    (id' : ScheduleId) :
    (s.without id x).committed? id' = if id' = id then none else s.committed? id' :=
  Collection.get?_remove _ _ _

theorem without_within (s : ScheduleStore) (id : ScheduleId) (x : Schedule) :
    Within (s.without id x) s := by
  intro id' y hy
  rw [committed?_without] at hy
  split at hy
  · cases hy
  · exact hy

theorem revised_self (hx : s.committed? id = some x) : Revised s id x s := by
  refine ⟨rfl, rfl, rfl, rfl, fun id' => ?_⟩
  split
  · rename_i hid
    rw [hid, hx]
  · rfl

/-- Another write to the same schedule. -/
theorem Revised.put (h : Revised s id x t) (y : Schedule) : Revised s id y
    { t with store := { t.store with committed := t.store.committed.put id y } } := by
  refine ⟨h.pending, h.ids, h.index, h.expiries, fun id' => ?_⟩
  simp only [committed?, Collection.get?_put]
  by_cases hid : id' = id
  · rw [if_pos hid, if_pos hid]
  · rw [if_neg hid, if_neg hid]
    exact (h.committed id').trans (if_neg hid)

theorem remove_frame (s : ScheduleStore) (id : ScheduleId) :
    (s.remove id).2.store.pending = s.store.pending ∧
      (s.remove id).2.store.ids = s.store.ids ∧ (s.remove id).2.expiries = s.expiries := by
  unfold remove
  split
  · exact ⟨rfl, rfl, rfl⟩
  · split
    · exact ⟨rfl, rfl, rfl⟩
    · rename_i hremoved
      unfold EntityStore.remove at hremoved
      split at hremoved
      · cases hremoved
        exact ⟨rfl, rfl, rfl⟩
      · split at hremoved
        · cases hremoved
          exact ⟨rfl, rfl, rfl⟩
        · cases hremoved

theorem expireAll_frame (s : ScheduleStore) (due : List ScheduleId) :
    (s.expireAll due).2.store.pending = s.store.pending ∧
      (s.expireAll due).2.store.ids = s.store.ids ∧ (s.expireAll due).2.expiries = s.expiries := by
  induction due generalizing s with
  | nil => exact ⟨rfl, rfl, rfl⟩
  | cons id rest ih =>
    unfold expireAll
    split
    · obtain ⟨hpending, hids, hexpiries⟩ := s.remove_frame id
      obtain ⟨hpending', hids', hexpiries'⟩ := ih (s.remove id).2
      exact ⟨hpending'.trans hpending, hids'.trans hids, hexpiries'.trans hexpiries⟩
    · exact ih s

theorem purge_frame (s : ScheduleStore) (now : Int64) :
    (s.purge now).2.store.pending = s.store.pending ∧
      (s.purge now).2.store.ids = s.store.ids ∧
      (s.purge now).2.expiries = (s.expiries.drain now).2 :=
  expireAll_frame { s with expiries := (s.expiries.drain now).2 } (s.expiries.drain now).1

theorem purge_nextNumber (s : ScheduleStore) (now : Int64) :
    (s.purge now).2.nextNumber = s.nextNumber :=
  congrArg IdSource.next (s.purge_frame now).2.1

theorem purge_expiries (s : ScheduleStore) (now : Int64) :
    (s.purge now).2.expiries = (s.expiries.drain now).2 :=
  (s.purge_frame now).2.2

section Apart

variable (hapart : s.store.isPending id = false)

include hapart

/-- Apart from the pending schedule, those are in the store that are committed. -/
theorem get?_of_apart : s.store.get? id = s.committed? id := by
  unfold EntityStore.get?
  split
  · rename_i p hpending
    have hne : p.id ≠ id := by simpa [EntityStore.isPending, hpending] using hapart
    exact if_neg hne
  · rfl

theorem contains_of_apart : s.contains id = (s.committed? id).isSome := by
  rw [contains, EntityStore.contains, hapart, Bool.false_or, Collection.contains_eq]
  rfl

theorem remove_of_apart (hx : s.committed? id = some x) :
    s.remove id = (.ok, s.without id x) := by
  have hget : s.store.committed.get? id = some x := hx
  simp only [remove, get?_of_apart hapart, hx, EntityStore.remove, hapart, hget,
    Bool.false_eq_true, ↓reduceIte]
  rfl

theorem expireAll_cons_of_committed (hx : s.committed? id = some x) (rest : List ScheduleId) :
    s.expireAll (id :: rest) =
      (id :: ((s.without id x).expireAll rest).1, ((s.without id x).expireAll rest).2) := by
  have hexpire : s.expire id = (.ok, s.without id x) := remove_of_apart hapart hx
  rw [expireAll, contains_of_apart hapart, hx, Option.isSome_some, if_pos rfl, hexpire]
  rfl

theorem expireAll_cons_of_gone (hx : s.committed? id = none) (rest : List ScheduleId) :
    s.expireAll (id :: rest) = s.expireAll rest := by
  rw [expireAll, contains_of_apart hapart, hx]
  rfl

end Apart

/-- An identifier that is not in the store is passed over either way. -/
theorem expireAll_cons (s : ScheduleStore) (id : ScheduleId) (rest : List ScheduleId) :
    (s.expireAll (id :: rest)).2 = ((s.expire id).2.expireAll rest).2 := by
  rw [expireAll]
  cases hcontains : s.contains id with
  | true => rfl
  | false =>
    obtain ⟨hapart, -⟩ := Bool.or_eq_false_iff.1 hcontains
    rw [contains_of_apart hapart, Option.isSome_eq_false_iff, Option.isNone_iff_eq_none]
      at hcontains
    have hexpire : s.expire id = (.invalidScheduleId, s) := by
      simp only [expire, markExecuted, remove, get?_of_apart hapart, hcontains]
    rw [hexpire]
    rfl

section AllApart

variable {due : List ScheduleId} (hapart : ∀ id ∈ due, s.store.isPending id = false)

include hapart

/-- What holds of a store and is kept when a due schedule is taken out holds after the due schedules
have expired. -/
theorem expireAll_induction {P : ScheduleStore → Prop}
    (hstep : ∀ s' id x, s'.store.pending = s.store.pending → id ∈ due →
      s'.committed? id = some x → P s' → P (s'.without id x)) (hs : P s) :
    P (s.expireAll due).2 := by
  induction due generalizing s with
  | nil => exact hs
  | cons id rest ih =>
    obtain ⟨hid, hrest⟩ := List.forall_mem_cons.1 hapart
    have hlater : ∀ s' id' x, s'.store.pending = s.store.pending → id' ∈ rest →
        s'.committed? id' = some x → P s' → P (s'.without id' x) :=
      fun s' id' x hsame hmem => hstep s' id' x hsame (List.mem_cons_of_mem _ hmem)
    cases hx : s.committed? id with
    | none =>
      rw [expireAll_cons_of_gone hid hx]
      exact ih hrest hlater hs
    | some x =>
      rw [expireAll_cons_of_committed hid hx]
      exact ih (s := s.without id x) hrest hlater (hstep s id x rfl List.mem_cons_self hx hs)

/-- What is due is taken out, and nothing else. -/
theorem committed?_expireAll (id : ScheduleId) :
    (s.expireAll due).2.committed? id = if id ∈ due then none else s.committed? id := by
  induction due generalizing s with
  | nil => exact (if_neg List.not_mem_nil).symm
  | cons id' rest ih =>
    obtain ⟨hid', hrest⟩ := List.forall_mem_cons.1 hapart
    cases hx : s.committed? id' with
    | none =>
      rw [expireAll_cons_of_gone hid' hx, ih hrest]
      by_cases hid : id = id'
      · rw [hid, hx, ite_self, ite_self]
      · simp only [List.mem_cons, hid, false_or]
    | some x =>
      rw [expireAll_cons_of_committed hid' hx, ih (s := s.without id' x) hrest, committed?_without]
      by_cases hid : id = id'
      · rw [if_pos hid, ite_self, if_pos (hid ▸ List.mem_cons_self)]
      · simp only [List.mem_cons, hid, false_or, ↓reduceIte]

/-- The schedules that are left are those that are not due. -/
theorem entries_expireAll : (s.expireAll due).2.store.committed.entries =
    s.store.committed.entries.filter (·.1 ∉ due) := by
  induction due generalizing s with
  | nil => exact (List.filter_eq_self.2 (by simp)).symm
  | cons id rest ih =>
    obtain ⟨hid, hrest⟩ := List.forall_mem_cons.1 hapart
    cases hx : s.committed? id with
    | none =>
      rw [expireAll_cons_of_gone hid hx, ih hrest]
      apply List.filter_congr
      intro e he
      have hne : e.1 ≠ id := by
        rintro rfl
        have hsome : s.committed? e.1 = some e.2 := s.store.committed.table.get?_eq_some_iff.2 he
        rw [hx] at hsome
        cases hsome
      simp [hne]
    | some x =>
      have hleft : (s.without id x).store.committed.entries =
          s.store.committed.entries.filter (·.1 ≠ id) := s.store.committed.entries_remove id
      rw [expireAll_cons_of_committed hid hx, ih (s := s.without id x) hrest, hleft,
        List.filter_filter]
      apply List.filter_congr
      intro e _
      simp [Bool.and_comm]

end AllApart

section NothingPending

variable (hpending : s.store.pending = none)

include hpending

theorem isPending_eq_false (id : ScheduleId) : s.store.isPending id = false := by
  rw [EntityStore.isPending, hpending]
  rfl

theorem get?_eq (id : ScheduleId) : s.store.get? id = s.committed? id :=
  get?_of_apart (isPending_eq_false hpending id)

theorem get_eq (hx : s.committed? id = some x) : s.get id = .ok x := by
  rw [get, EntityStore.get, get?_eq hpending, hx]

theorem get_eq_error (hx : s.committed? id = none) : s.get id = .error (.notFound id) := by
  rw [get, EntityStore.get, get?_eq hpending, hx]

theorem committed?_of_get (hget : s.get id = .ok x) : s.committed? id = some x := by
  cases hx : s.committed? id with
  | none =>
    rw [get_eq_error hpending hx] at hget
    cases hget
  | some y =>
    rw [get_eq hpending hx] at hget
    rw [Except.ok.inj hget]

theorem contains_eq (id : ScheduleId) : s.contains id = (s.committed? id).isSome :=
  contains_of_apart (isPending_eq_false hpending id)

theorem remove_eq (hx : s.committed? id = some x) : s.remove id = (.ok, s.without id x) :=
  remove_of_apart (isPending_eq_false hpending id) hx

/-- Only a committed schedule that has an admin key is deleted. -/
theorem delete_eq (id : ScheduleId) : s.delete id = match s.committed? id with
    | none => (.invalidScheduleId, s)
    | some x => if x.adminKey.isNone then (.scheduleIsImmutable, s) else (.ok, s.without id x) := by
  rw [delete, get?_eq hpending]
  cases hx : s.committed? id with
  | none => rfl
  | some x => simp only [remove_eq hpending hx]

/-- A creation begins under the next identifier if both accounts of the request are usable; if not, it
is refused with a code. -/
theorem create_decided (usable : AccountId → Bool) (request : NewSchedule) (now : Timestamp) :
    if usable request.schedulingAccount && usable request.payer then
      s.create usable request now = .ok (⟨.ok, some (s.nextId request)⟩,
        s.creating (s.nextId request) (request.schedule (now.seconds + s.lifetime)))
    else ∃ code, code ≠ .ok ∧ s.create usable request now = .ok (⟨code, none⟩, s) := by
  simp only [create, hpending]
  cases usable request.schedulingAccount with
  | false => exact ⟨.invalidScheduleAccountId, by decide, rfl⟩
  | true =>
    cases usable request.payer with
    | false => exact ⟨.invalidSchedulePayerId, by decide, rfl⟩
    | true => rfl

/-- A creation is refused with a code, or begins under the next identifier. -/
theorem create_eq (usable : AccountId → Bool) (request : NewSchedule) (now : Timestamp) :
    (∃ code, code ≠ .ok ∧ s.create usable request now = .ok (⟨code, none⟩, s)) ∨
      s.create usable request now = .ok (⟨.ok, some (s.nextId request)⟩,
        s.creating (s.nextId request) (request.schedule (now.seconds + s.lifetime))) := by
  have hcreate := create_decided hpending usable request now
  split at hcreate
  · exact .inr hcreate
  · exact .inl hcreate

/-- A creation that is rolled back leaves the store as it was. -/
theorem rollbackCreation_creating (id : ScheduleId) (x : Schedule) :
    (s.creating id x).rollbackCreation = .ok (⟨id, x⟩, s) := by
  obtain ⟨lifetime, ⟨⟨next⟩, committed, pending⟩, index, expiries⟩ := s
  cases hpending
  simp only [creating, rollbackCreation, EntityStore.rollbackCreation, IdSource.reclaim,
    UInt64.add_sub_cancel]

omit hpending in
theorem commitCreation_creating (s : ScheduleStore) (id : ScheduleId) (x : Schedule) :
    (s.creating id x).commitCreation = .ok (⟨id, x⟩, s.admitting id x) := rfl

/-- What holds of a store whose queue was drained and is kept when a due schedule is taken out holds
after the purge. -/
theorem purge_induction {P : ScheduleStore → Prop} {now : Int64}
    (hdrained : P { s with expiries := (s.expiries.drain now).2 })
    (hstep : ∀ s' id x, s'.store.pending = none → id ∈ (s.expiries.drain now).1 →
      s'.committed? id = some x → P s' → P (s'.without id x)) : P (s.purge now).2 :=
  expireAll_induction (s := { s with expiries := (s.expiries.drain now).2 })
    (fun id _ => isPending_eq_false hpending id)
    (fun s' id x hsame => hstep s' id x (hsame.trans hpending)) hdrained

theorem committed?_purge (now : Int64) (id : ScheduleId) :
    (s.purge now).2.committed? id =
      if id ∈ (s.expiries.drain now).1 then none else s.committed? id :=
  committed?_expireAll (s := { s with expiries := (s.expiries.drain now).2 })
    (fun id _ => isPending_eq_false hpending id) id

theorem purge_pending (now : Int64) : (s.purge now).2.store.pending = none :=
  (s.purge_frame now).1.trans hpending

theorem purge_within (now : Int64) : Within (s.purge now).2 s :=
  purge_induction (P := fun s' => Within s' s) hpending (fun _ _ hx => hx)
    fun s' id x _ _ _ h id' y hy => h id' y (without_within s' id x id' y hy)

end NothingPending

/-- Numbers handed out fewer than 2^64 handings apart differ. -/
theorem number_injective {j k : Nat} (hj : j < k) (hk : k < 0x10000000000000000) :
    first + UInt64.ofNat j ≠ first + UInt64.ofNat k := by
  intro h
  have hnat := congrArg UInt64.toNat ((UInt64.add_right_inj first).1 h)
  rw [UInt64.toNat_ofNat', UInt64.toNat_ofNat'] at hnat
  omega

/-- The state of a store between two handlings, after so many identifiers were handed out. -/
structure Tidy (first : UInt64) (n : Nat) (s : ScheduleStore) : Prop where
  pending : s.store.pending = none
  index : ∀ key id, s.index.get? key = some id ↔
    ∃ x, s.committed? id = some x ∧ x.fingerprint = key
  next : s.nextNumber = first + UInt64.ofNat n
  numbers : ∀ id x, s.committed? id = some x → ∃ j < n, id.num = first + UInt64.ofNat j

theorem tidy_empty (lifetime : Int64) (first : UInt64) : Tidy first 0 (.empty lifetime first) := by
  refine ⟨rfl, fun key id => ?_, ?_, nofun⟩
  · constructor
    · intro hnone
      cases hnone
    · rintro ⟨x, hx, -⟩
      cases hx
  · exact (UInt64.add_zero first).symm

namespace Tidy

theorem find?_eq_some_iff (h : Tidy first n s) {key : Fingerprint} :
    s.find? key = some id ↔ ∃ x, s.committed? id = some x ∧ x.fingerprint = key := by
  rw [find?, h.pending]
  exact h.index key id

/-- An identifier that is handed out next is not in use. -/
theorem committed?_next (h : Tidy first n s) (hn : n < 0x10000000000000000)
    (hid : id.num = s.nextNumber) : s.committed? id = none := by
  rw [Option.eq_none_iff_forall_not_mem]
  intro x hx
  obtain ⟨j, hj, hnum⟩ := h.numbers id x hx
  rw [hid, h.next] at hnum
  exact number_injective hj hn hnum.symm

theorem without (h : Tidy first n s) (hx : s.committed? id = some x) :
    Tidy first n (s.without id x) := by
  refine ⟨h.pending, fun key id' => ?_, h.next,
    fun id' y hy => h.numbers id' y (without_within s id x id' y hy)⟩
  simp only [committed?_without]
  rw [ScheduleStore.without, Index.get?_erase]
  by_cases hkey : key = x.fingerprint
  · -- The schedule that is taken out was the only one with its fingerprint.
    rw [if_pos hkey]
    constructor
    · intro hnone
      cases hnone
    · rintro ⟨y, hy, hfingerprint⟩
      split at hy
      · cases hy
      · rename_i hid
        have hfound := (h.index key id').2 ⟨y, hy, hfingerprint⟩
        rw [(h.index key id).2 ⟨x, hx, hkey.symm⟩] at hfound
        exact absurd (Option.some.inj hfound).symm hid
  · rw [if_neg hkey, h.index]
    constructor
    · rintro ⟨y, hy, hfingerprint⟩
      refine ⟨y, ?_, hfingerprint⟩
      rw [if_neg]
      · exact hy
      · rintro rfl
        cases hx.symm.trans hy
        exact hkey hfingerprint.symm
    · rintro ⟨y, hy, hfingerprint⟩
      split at hy
      · cases hy
      · exact ⟨y, hy, hfingerprint⟩

theorem purge (h : Tidy first n s) (now : Int64) : Tidy first n (s.purge now).2 :=
  purge_induction (P := Tidy first n) h.pending ⟨h.pending, h.index, h.next, h.numbers⟩
    fun _ _ _ _ _ hx hs' => hs'.without hx

/-- A committed schedule may change as long as it keeps its fingerprint. -/
theorem revised {y : Schedule} (h : Tidy first n s) (hx : s.committed? id = some x)
    (ht : Revised s id y t) (hfingerprint : y.fingerprint = x.fingerprint) : Tidy first n t := by
  have hnext : t.nextNumber = s.nextNumber := congrArg IdSource.next ht.ids
  refine ⟨ht.pending.trans h.pending, fun key id' => ?_, hnext.trans h.next, fun id' z hz => ?_⟩
  · rw [ht.index, ht.committed, h.index]
    by_cases hid : id' = id
    · subst hid
      rw [if_pos rfl]
      constructor
      · rintro ⟨z, hz, hkey⟩
        cases hx.symm.trans hz
        exact ⟨y, rfl, hfingerprint.trans hkey⟩
      · rintro ⟨z, hz, hkey⟩
        cases hz
        exact ⟨x, hx, hfingerprint.symm.trans hkey⟩
    · rw [if_neg hid]
  · rw [ht.committed] at hz
    split at hz
    · rename_i hid
      exact h.numbers id' x (hid ▸ hx)
    · exact h.numbers id' z hz

/-- A new schedule may be admitted if no schedule has its fingerprint and the numbers have not
wrapped. -/
theorem admitting (h : Tidy first n s) (hn : n < 0x10000000000000000) (hid : id.num = s.nextNumber)
    (hnew : s.find? x.fingerprint = none) : Tidy first (n + 1) (s.admitting id x) := by
  have hfresh := h.committed?_next hn hid
  refine ⟨rfl, fun key id' => ?_, ?_, fun id' y hy => ?_⟩
  · simp only [committed?_admitting]
    rw [ScheduleStore.admitting, Index.get?_insert]
    by_cases hkey : key = x.fingerprint
    · rw [if_pos hkey]
      constructor
      · rintro ⟨⟩
        exact ⟨x, if_pos rfl, hkey.symm⟩
      · rintro ⟨y, hy, hfingerprint⟩
        split at hy
        · rename_i hid'
          rw [hid']
        · have hfound := h.find?_eq_some_iff.2 ⟨y, hy, hfingerprint.trans hkey⟩
          rw [hnew] at hfound
          cases hfound
    · rw [if_neg hkey, h.index]
      constructor
      · rintro ⟨y, hy, hfingerprint⟩
        refine ⟨y, ?_, hfingerprint⟩
        rw [if_neg]
        · exact hy
        · rintro rfl
          cases hfresh.symm.trans hy
      · rintro ⟨y, hy, hfingerprint⟩
        split at hy
        · cases hy
          exact absurd hfingerprint.symm hkey
        · exact ⟨y, hy, hfingerprint⟩
  · have hsucc : UInt64.ofNat (n + 1) = UInt64.ofNat n + 1 := UInt64.ofNat_add n 1
    have hnext : (s.admitting id x).nextNumber = s.nextNumber + 1 := rfl
    rw [hnext, h.next, hsucc, UInt64.add_assoc]
  · rw [committed?_admitting] at hy
    split at hy
    · rename_i hid'
      exact ⟨n, Nat.lt_succ_self n, by rw [hid', hid, h.next]⟩
    · obtain ⟨j, hj, hnum⟩ := h.numbers id' y hy
      exact ⟨j, Nat.lt_succ_of_lt hj, hnum⟩

end Tidy

end ScheduleStore

end ConsensusLedger
