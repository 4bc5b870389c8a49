import ConsensusLedger.Proofs.Schedule.Call
import Mathlib.Data.List.Induction

/-!
Removals of the pending schedule. Only a rollback drops it, so that a removal leaves it where it is,
and nothing that can be asked tells the removal as long as it is there. But the removal has struck its
fingerprint out of the index, and a committed schedule with the same fingerprint is not found any more
once the pending one is rolled back.
-/

namespace ConsensusLedger

namespace ScheduleStore

variable {first s : ScheduleStore} {p : PendingCreation Schedule} {c : Call} {calls : List Call}

/-- The fingerprints that a removal strikes out of the index. -/
def struckBy (s : ScheduleStore) (id : ScheduleId) (way : Removal) : List Fingerprint :=
  if (s.removeBy id way).1 = .ok then ((s.store.get? id).map Schedule.fingerprint).toList else []

def struckByExpiry (s : ScheduleStore) : List ScheduleId → List Fingerprint
  | [] => []
  | id :: rest => s.struckBy id .expiry ++ (s.expire id).2.struckByExpiry rest

/-- The fingerprints that a call strikes out of the index. -/
def struckIn (s : ScheduleStore) : Call → List Fingerprint
  | .remove way id => s.struckBy id way
  | .purge now => { s with expiries := (s.expiries.drain now).2 }.struckByExpiry (s.expiries.drain now).1
  | .create _ _ _ | .commit | .rollback | .apply _ _ | .ask _ => []

/-- The fingerprints that calls strike out of the index. -/
def struckAlong (s : ScheduleStore) : List Call → List Fingerprint
  | [] => []
  | c :: rest => s.struckIn c ++ (s.call c).struckAlong rest

/-- The calls begin a creation under an identifier and do not end it. -/
structure Creates (s : ScheduleStore) (id : ScheduleId) (calls : List Call) : Prop where
  pending : s.store.pending = none
  begins : ∃ usable request now t, calls.head? = some (.create usable request now) ∧
    s.create usable request now = .ok (⟨.ok, some id⟩, t)
  uncommitted : ∀ c ∈ calls, c ≠ .commit
  kept : ∀ c ∈ calls, c ≠ .rollback

section Index

variable (key : Fingerprint)

theorem index_removeBy (s : ScheduleStore) (id : ScheduleId) (way : Removal) :
    (s.removeBy id way).2.index.get? key =
      if key ∈ s.struckBy id way then none else s.index.get? key := by
  obtain ⟨code, hcode, hrefused⟩ | hremoved := s.removeBy_eq id way
  · simp [struckBy, hrefused, hcode]
  · rw [struckBy, hremoved]
    cases hx : s.store.get? id with
    | none => simp [remove, hx]
    | some x => cases hstore : s.store.remove id <;> simp [remove, hx, hstore, Index.get?_erase]

theorem index_expireAll (s : ScheduleStore) (due : List ScheduleId) :
    (s.expireAll due).2.index.get? key =
      if key ∈ s.struckByExpiry due then none else s.index.get? key := by
  induction due generalizing s with
  | nil => simp [expireAll, struckByExpiry]
  | cons id rest ih =>
    have hexpire : (s.expire id).2.index.get? key =
        if key ∈ s.struckBy id .expiry then none else s.index.get? key :=
      index_removeBy key s id .expiry
    rw [expireAll_cons, ih, hexpire, struckByExpiry]
    simp only [List.mem_append]
    split <;> simp_all

/-- Only a commit puts a fingerprint into the index. -/
theorem index_call (s : ScheduleStore) (hcommit : c ≠ .commit) :
    (s.call c).index.get? key = if key ∈ s.struckIn c then none else s.index.get? key := by
  cases c with
  | commit => exact absurd rfl hcommit
  | remove way id => exact index_removeBy key s id way
  | purge now => exact index_expireAll key { s with expiries := (s.expiries.drain now).2 } _
  | create usable request now =>
    have hcalled := s.call_called (.create usable request now)
    generalize s.call (.create usable request now) = t at hcalled
    cases hcalled <;> rfl
  | rollback =>
    have hcalled := s.call_called .rollback
    generalize s.call .rollback = t at hcalled
    cases hcalled <;> rfl
  | apply id change => rfl
  | ask query => rfl

theorem index_after (s : ScheduleStore) (hcommit : ∀ c ∈ calls, c ≠ .commit) :
    (s.after calls).index.get? key =
      if key ∈ s.struckAlong calls then none else s.index.get? key := by
  induction calls generalizing s with
  | nil => simp [after, struckAlong]
  | cons c rest ih =>
    obtain ⟨hc, hrest⟩ := List.forall_mem_cons.1 hcommit
    rw [after_cons, ih _ hrest, index_call key s hc, struckAlong]
    simp only [List.mem_append]
    split <;> simp_all

end Index

section Beginning

variable {id : ScheduleId}

theorem Creates.append (h : s.Creates id calls) (hcommit : c ≠ .commit) (hrollback : c ≠ .rollback) :
    s.Creates id (calls ++ [c]) := by
  obtain ⟨usable, request, now, t, hhead, hcreate⟩ := h.begins
  refine ⟨h.pending, ⟨usable, request, now, t, ?_, hcreate⟩, ?_, ?_⟩
  · rw [List.head?_append, hhead]
    rfl
  · exact List.forall_mem_append.2 ⟨h.uncommitted, List.forall_mem_singleton.2 hcommit⟩
  · exact List.forall_mem_append.2 ⟨h.kept, List.forall_mem_singleton.2 hrollback⟩

/-- Only a creation that succeeds makes a schedule pending. -/
theorem creates_of_call (hnone : s.store.pending = none)
    (hpending : (s.call c).store.pending = some p) : s.Creates p.id [c] := by
  have hcalled := s.call_called c
  generalize hcall : s.call c = t at hcalled
  rw [hcall] at hpending
  cases hcalled with
  | @began usable request now _ x =>
    obtain ⟨code, -, hcreate⟩ | hcreate := create_eq hnone usable request now
    · rw [call, hcreate] at hcall
      rw [← hcall, orKeep, hnone] at hpending
      cases hpending
    · obtain rfl : ⟨s.nextId request, x⟩ = p := Option.some.inj hpending
      exact ⟨hnone, ⟨usable, request, now, _, rfl, hcreate⟩, by simp, by simp⟩
  | committed hsome | discarded hsome | redrafted hsome | hidden hsome =>
    rw [hnone] at hsome
    cases hsome
  | kept | rewritten | dropped =>
    cases hnone.symm.trans hpending
  | purged =>
    rw [purge_pending hnone] at hpending
    cases hpending

/-- A schedule that is pending before and after a call is the same one, and the call does not end its
creation. -/
theorem continues_of_call {q : PendingCreation Schedule} (hbefore : s.store.pending = some q)
    (hafter : (s.call c).store.pending = some p) : p.id = q.id ∧ c ≠ .commit ∧ c ≠ .rollback := by
  have hcommit : c ≠ .commit := by
    rintro rfl
    rw [call, commitCreation_pending hbefore] at hafter
    cases hafter
  have hrollback : c ≠ .rollback := by
    rintro rfl
    rw [call, rollbackCreation_pending hbefore] at hafter
    cases hafter
  refine ⟨?_, hcommit, hrollback⟩
  have hcalled := s.call_called c
  generalize s.call c = t at hcalled hafter
  cases hcalled with
  | began hnone =>
    rw [hbefore] at hnone
    cases hnone
  | committed | discarded => cases hafter
  | redrafted hsome =>
    cases hbefore.symm.trans hsome
    cases hafter
    rfl
  | kept | rewritten | dropped | hidden =>
    cases hbefore.symm.trans hafter
    rfl
  | purged =>
    rw [(s.purge_frame _).1, hbefore] at hafter
    cases hafter
    rfl

/-- Where a schedule is pending, its creation has begun. -/
theorem exists_creates (hfirst : first.store.pending = none)
    (hpending : (first.after calls).store.pending = some p) :
    ∃ earlier work, calls = earlier ++ work ∧ (first.after earlier).Creates p.id work := by
  induction calls using List.reverseRecOn generalizing p with
  | nil => cases hfirst.symm.trans hpending
  | append_singleton calls c ih =>
    rw [after_append] at hpending
    cases hbefore : (first.after calls).store.pending with
    | none => exact ⟨calls, [c], rfl, creates_of_call hbefore hpending⟩
    | some q =>
      obtain ⟨earlier, work, rfl, hcreates⟩ := ih hbefore
      obtain ⟨hid, hcommit, hrollback⟩ := continues_of_call hbefore hpending
      rw [← hid] at hcreates
      exact ⟨earlier, work ++ [c], List.append_assoc .., hcreates.append hcommit hrollback⟩

end Beginning

section Forgetting

variable (hpending : s.store.pending = some p)

include hpending

/-- As long as the pending schedule is there, its fingerprint is not looked up in the index. -/
theorem find?_forgetting (key : Fingerprint) :
    (s.forgetting p.entity.fingerprint).find? key = s.find? key := by
  simp only [find?, forgetting, hpending]
  split
  · rfl
  · rename_i hkey
    rw [Index.get?_erase, if_neg (Ne.symm hkey)]

theorem ask_forgetting (query : Query) :
    (s.forgetting p.entity.fingerprint).ask query = s.ask query := by
  cases query with
  | find body payer adminKey memo => exact congrArg Reply.identifier (find?_forgetting hpending _)
  | get | contains | isCreationPending | rootHash => rfl

theorem struckBy_pending (way : Removal) : s.struckBy p.id way =
    if way = .deletion ∧ p.entity.adminKey = none then [] else [p.entity.fingerprint] := by
  rw [struckBy, removeBy_pending hpending, get?_pending hpending]
  by_cases himmutable : way = .deletion ∧ p.entity.adminKey = none
  · simp [himmutable]
  · simp [himmutable]

/-- A removal of the pending schedule does at most one thing: its fingerprint is forgotten. -/
theorem removeBy_pending_eq (way : Removal) : (s.removeBy p.id way).2 = s ∨
    (s.removeBy p.id way).2 = s.forgetting p.entity.fingerprint := by
  rw [removeBy_pending hpending]
  split
  · exact .inl rfl
  · exact .inr rfl

end Forgetting

/-- Let a creation be pending after any calls on a store without one. No question tells a removal of
the pending schedule, which leaves the collection, the draft and the queue as they are. After the
rollback the store is as it would be without the removal, except that the fingerprint of the pending
schedule is not found unless the removal was refused. Compared to the store in which the creation began,
exactly those fingerprints are not found any more that were struck out since then. -/
theorem pending_removal_frame (hfirst : first.store.pending = none)
    (hpending : (first.after calls).store.pending = some p) (way : Removal) :
    let s := first.after calls
    let removed := (s.removeBy p.id way).2
    (∀ query, removed.ask query = s.ask query) ∧ removed.store = s.store ∧
      removed.expiries = s.expiries ∧
      ∃ left kept, removed.rollbackCreation = .ok (p, left) ∧ s.rollbackCreation = .ok (p, kept) ∧
        left.store = kept.store ∧ left.expiries = kept.expiries ∧
        (∀ key, left.find? key =
          if key = p.entity.fingerprint ∧ ¬(way = .deletion ∧ p.entity.adminKey = none) then none
          else kept.find? key) ∧
        ∃ earlier work, calls = earlier ++ work ∧ (first.after earlier).Creates p.id work ∧
          ∀ key, left.find? key =
            if key ∈ (first.after earlier).struckAlong (work ++ [.remove way p.id]) then none
            else (first.after earlier).find? key := by
  intro s removed
  obtain ⟨hstore, hexpiries, hask⟩ : removed.store = s.store ∧ removed.expiries = s.expiries ∧
      ∀ query, removed.ask query = s.ask query := by
    obtain hsame | hforgets := removeBy_pending_eq hpending way
    · rw [show removed = s from hsame]
      exact ⟨rfl, rfl, fun _ => rfl⟩
    · rw [show removed = s.forgetting p.entity.fingerprint from hforgets]
      exact ⟨rfl, rfl, ask_forgetting hpending⟩
  have hstill : removed.store.pending = some p := by rw [hstore, hpending]
  refine ⟨hask, hstore, hexpiries, removed.discarding, s.discarding,
    rollbackCreation_pending hstill, rollbackCreation_pending hpending, ?_, hexpiries,
    fun key => ?_, ?_⟩
  · simp only [discarding, hstore]
  · show removed.index.get? key = _
    rw [index_removeBy, struckBy_pending hpending]
    by_cases himmutable : way = .deletion ∧ p.entity.adminKey = none
    · simp [himmutable, find?, discarding]
    · simp [himmutable, find?, discarding]
  · obtain ⟨earlier, work, hcalls, hcreates⟩ := exists_creates hfirst hpending
    refine ⟨earlier, work, hcalls, hcreates, fun key => ?_⟩
    have hrun : (first.after earlier).after (work ++ [.remove way p.id]) = removed := by
      rw [after_append, ← after_append first, ← hcalls]
      rfl
    have hcommit : ∀ c ∈ work ++ [.remove way p.id], c ≠ .commit :=
      List.forall_mem_append.2 ⟨hcreates.uncommitted, by simp⟩
    have hindex := index_after key (first.after earlier) hcommit
    rw [hrun] at hindex
    rw [find?, find?, hcreates.pending]
    exact hindex

end ScheduleStore

namespace Sample

def rent : NewSchedule := ⟨[], .ofNum 4, .ofNum 2, ⟨90, 0⟩, none, "rent"⟩

def deposit : NewSchedule := ⟨[], .ofNum 4, .ofNum 2, ⟨90, 0⟩, none, "deposit"⟩

/-- The first schedule is committed. -/
def renting : List ScheduleStore.Call :=
  [.create (fun _ => true) rent (.ofSeconds 50), .commit]

end Sample

open Sample in
/-- The pending schedule has a fingerprint of its own: the committed one is still found. -/
theorem ScheduleStore.pending_removal_frame_deposit :
    let first := empty 100 1000
    let p : PendingCreation Schedule := ⟨.ofNum 1001, deposit.schedule 160⟩
    let s := first.after (renting ++ [.create (fun _ => true) deposit (.ofSeconds 60)])
    first.store.pending = none ∧ s.store.pending = some p ∧
      ∃ left, (s.removeBy p.id .expiry).2.rollbackCreation = .ok (p, left) ∧
        left.committed? (.ofNum 1000) = some (rent.schedule 150) ∧
        left.find? rent.fingerprint = some (.ofNum 1000) := by
  intro first p s
  have hfirst : first.store.pending = none := rfl
  have hpending : s.store.pending = some p := rfl
  obtain ⟨-, -, -, left, kept, hleft, hkept, hstore, -, hfind, -⟩ :=
    pending_removal_frame hfirst hpending .expiry
  have hother : rent.fingerprint ≠ p.entity.fingerprint :=
    fun hsame => absurd (congrArg Fingerprint.memo hsame) (by decide)
  obtain rfl : s.discarding = kept := by
    have hdiscards : s.rollbackCreation = .ok (p, s.discarding) := rfl
    cases hdiscards.symm.trans hkept
    rfl
  refine ⟨hfirst, hpending, left, hleft, ?_, ?_⟩
  · rw [committed?, hstore]
    rfl
  · rw [hfind, if_neg fun hkey => hother hkey.1]
    decide +kernel

open Sample ScheduleStore in
/-- The pending schedule is the twin of a committed one. After its removal and the rollback the
committed one is not found any more, though nobody has touched it. -/
theorem ScheduleStore.twin_of_pending_lost :
    let before := (empty 100 1000).after renting
    let s := before.after [.create (fun _ => true) rent (.ofSeconds 60)]
    let left := s.after [.remove .execution (.ofNum 1001), .rollback]
    s.store.pending = some ⟨.ofNum 1001, rent.schedule 160⟩ ∧
      before.find? rent.fingerprint = some (.ofNum 1000) ∧
      left.committed? (.ofNum 1000) = before.committed? (.ofNum 1000) ∧
      left.committed? (.ofNum 1000) = some (rent.schedule 150) ∧
      left.find? rent.fingerprint = none := by
  refine ⟨rfl, ?_, ?_, ?_, ?_⟩ <;> decide +kernel

end ConsensusLedger
