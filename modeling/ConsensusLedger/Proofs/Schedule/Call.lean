import ConsensusLedger.Proofs.Schedule.Store

/-!
Calls on the schedule store, in any order and with any arguments. What a call does depends on the
pending creation: under its identifier the pending schedule is worked on, and under all others the
committed schedules are.
-/

namespace ConsensusLedger

namespace ScheduleStore

/-- A way in which a schedule leaves the store. -/
inductive Removal where
  | deletion
  | execution
  | expiry
  deriving DecidableEq, Repr

def removeBy (s : ScheduleStore) (id : ScheduleId) : Removal → Status × ScheduleStore
  | .deletion => s.delete id
  | .execution => s.markExecuted id
  | .expiry => s.expire id

/-- A question to the store. -/
inductive Query where
  | get (id : ScheduleId)
  | contains (id : ScheduleId)
  | find (body : List UInt8) (payer : AccountId) (adminKey : Option Key) (memo : String)
  | isCreationPending
  | rootHash

/-- The answer to a question. -/
inductive Reply where
  | schedule (found : Except StoreError Schedule)
  | truth (holds : Bool)
  | identifier (found : Option ScheduleId)
  | hash (root : Octets 32)

def ask (s : ScheduleStore) : Query → Reply
  | .get id => .schedule (s.get id)
  | .contains id => .truth (s.contains id)
  | .find body payer adminKey memo => .identifier (s.find? (.of body payer adminKey memo))
  | .isCreationPending => .truth s.isCreationPending
  | .rootHash => .hash s.rootHash

/-- What can be asked of the store. -/
inductive Call where
  | create (usable : AccountId → Bool) (request : NewSchedule) (now : Timestamp)
  | commit
  | rollback
  | apply (id : ScheduleId) (change : Schedule → Except String Unit × Schedule)
  | remove (way : Removal) (id : ScheduleId)
  | purge (now : Int64)
  | ask (query : Query)

/-- The store that an operation leaves; one that fails leaves it as it was. -/
def orKeep {α : Type} (s : ScheduleStore) : Except StoreError (α × ScheduleStore) → ScheduleStore
  | .ok (_, t) => t
  | .error _ => s

/-- The store after a call. -/
def call (s : ScheduleStore) : Call → ScheduleStore
  | .create usable request now => s.orKeep (s.create usable request now)
  | .commit => s.orKeep s.commitCreation
  | .rollback => s.orKeep s.rollbackCreation
  | .apply id change => (s.apply id change).2
  | .remove way id => (s.removeBy id way).2
  | .purge now => (s.purge now).2
  | .ask _ => s

/-- The store after calls, one after the other. -/
def after (s : ScheduleStore) (calls : List Call) : ScheduleStore := calls.foldl call s

/-- The store with its pending schedule committed. -/
def committing (s : ScheduleStore) (p : PendingCreation Schedule) : ScheduleStore :=
  { s with
    store := { s.store with committed := s.store.committed.put p.id p.entity, pending := none }
    index := s.index.insert p.entity.fingerprint p.id
    expiries := s.expiries.track p.id p.entity.expiry }

/-- The store with its pending schedule dropped. -/
def discarding (s : ScheduleStore) : ScheduleStore :=
  { s with store := { s.store with ids := s.store.ids.reclaim, pending := none } }

/-- The store with another schedule pending under an identifier. -/
def redrafting (s : ScheduleStore) (id : ScheduleId) (x : Schedule) : ScheduleStore :=
  { s with store := { s.store with pending := some ⟨id, x⟩ } }

/-- The store with another schedule committed under an identifier. -/
def rewriting (s : ScheduleStore) (id : ScheduleId) (x : Schedule) : ScheduleStore :=
  { s with store := { s.store with committed := s.store.committed.put id x } }

/-- The store whose index does not find a fingerprint any more. -/
def forgetting (s : ScheduleStore) (key : Fingerprint) : ScheduleStore :=
  { s with index := s.index.erase key }

variable {s : ScheduleStore} {p : PendingCreation Schedule} {id : ScheduleId} {x : Schedule}

theorem after_cons (s : ScheduleStore) (c : Call) (calls : List Call) :
    s.after (c :: calls) = (s.call c).after calls := rfl

theorem after_append (s : ScheduleStore) (calls more : List Call) :
    s.after (calls ++ more) = (s.after calls).after more := by
  simp [after]

/-- A removal is refused with a code, or is the one that all ways share. -/
theorem removeBy_eq (s : ScheduleStore) (id : ScheduleId) (way : Removal) :
    (∃ code, code ≠ .ok ∧ s.removeBy id way = (code, s)) ∨ s.removeBy id way = s.remove id := by
  cases way with
  | deletion =>
    simp only [removeBy, delete]
    split
    · exact .inl ⟨.invalidScheduleId, by decide, rfl⟩
    · split
      · exact .inl ⟨.scheduleIsImmutable, by decide, rfl⟩
      · exact .inr rfl
  | execution | expiry => exact .inr rfl

section Pending

variable (hpending : s.store.pending = some p)

include hpending

theorem isPending_iff : s.store.isPending id = true ↔ p.id = id := by
  simp [EntityStore.isPending, hpending]

theorem get?_pending : s.store.get? p.id = some p.entity := by
  simp [EntityStore.get?, hpending]

theorem create_pending (usable : AccountId → Bool) (request : NewSchedule) (now : Timestamp) :
    s.create usable request now = .error (.creationAlreadyPending p.id) := by
  simp [create, hpending]

theorem commitCreation_pending : s.commitCreation = .ok (p, s.committing p) := by
  simp [commitCreation, EntityStore.commitCreation, hpending, committing]

theorem rollbackCreation_pending : s.rollbackCreation = .ok (p, s.discarding) := by
  simp [rollbackCreation, EntityStore.rollbackCreation, hpending, discarding]

theorem apply_pending (change : Schedule → Except String Unit × Schedule) :
    (s.apply p.id change).2 = s.redrafting p.id (change p.entity).2 := by
  simp [apply, EntityStore.apply, hpending, Option.filter_some, redrafting]

/-- A removal of the pending schedule is answered as one of a committed schedule is, and takes its
fingerprint out of the index. -/
theorem removeBy_pending (way : Removal) : s.removeBy p.id way =
    if way = .deletion ∧ p.entity.adminKey = none then (.scheduleIsImmutable, s)
    else (.ok, s.forgetting p.entity.fingerprint) := by
  have hremove : s.remove p.id = (.ok, s.forgetting p.entity.fingerprint) := by
    simp [remove, EntityStore.remove, get?_pending hpending, (isPending_iff hpending).2, forgetting]
  cases way with
  | deletion =>
    cases hkey : p.entity.adminKey <;> simp [removeBy, delete, get?_pending hpending, hkey, hremove]
  | execution => simp [removeBy, markExecuted, hremove]
  | expiry => simp [removeBy, expire, markExecuted, hremove]

end Pending

section NothingPending

variable (hpending : s.store.pending = none)

include hpending

theorem commitCreation_eq_error : s.commitCreation = .error .noCreationPending := by
  simp [commitCreation, EntityStore.commitCreation, hpending]

theorem rollbackCreation_eq_error : s.rollbackCreation = .error .noCreationPending := by
  simp [rollbackCreation, EntityStore.rollbackCreation, hpending]

end NothingPending

section Apart

variable (hapart : s.store.isPending id = false)

include hapart

theorem apply_of_apart (change : Schedule → Except String Unit × Schedule) :
    (s.apply id change).2 =
      match s.committed? id with
      | some x => s.rewriting id (change x).2
      | none => s := by
  have hnone : s.store.pending.filter (fun p => decide (p.id = id)) = none := by
    rw [Option.filter_eq_none_iff]
    intro p hp hid
    rw [EntityStore.isPending, hp, Option.any_some, hid] at hapart
    cases hapart
  simp only [apply, EntityStore.apply, hnone, committed?]
  cases hx : s.store.committed.get? id <;> simp [rewriting]

theorem removeBy_of_apart (way : Removal) : (s.removeBy id way).2 = s ∨
    ∃ x, s.committed? id = some x ∧ (s.removeBy id way).2 = s.without id x := by
  obtain ⟨code, -, hrefused⟩ | hremoved := s.removeBy_eq id way
  · exact .inl (congrArg Prod.snd hrefused)
  · rw [hremoved]
    cases hx : s.committed? id with
    | none => simp [remove, get?_of_apart hapart, hx]
    | some x => exact .inr ⟨x, rfl, congrArg Prod.snd (remove_of_apart hapart hx)⟩

end Apart

/-- What a call can do to a store. -/
inductive Called (s : ScheduleStore) : Call → ScheduleStore → Prop
  | kept {c : Call} : Called s c s
  | began {usable : AccountId → Bool} {request : NewSchedule} {now : Timestamp}
      (hpending : s.store.pending = none) (x : Schedule) :
      Called s (.create usable request now) (s.creating (s.nextId request) x)
  | committed {p : PendingCreation Schedule} (hpending : s.store.pending = some p) :
      Called s .commit (s.committing p)
  | discarded {p : PendingCreation Schedule} (hpending : s.store.pending = some p) :
      Called s .rollback s.discarding
  | redrafted {p : PendingCreation Schedule} (hpending : s.store.pending = some p)
      {change : Schedule → Except String Unit × Schedule} :
      Called s (.apply p.id change) (s.redrafting p.id (change p.entity).2)
  | rewritten {id : ScheduleId} {x : Schedule} (hx : s.committed? id = some x)
      {change : Schedule → Except String Unit × Schedule} :
      Called s (.apply id change) (s.rewriting id (change x).2)
  | hidden {p : PendingCreation Schedule} (hpending : s.store.pending = some p) {way : Removal} :
      Called s (.remove way p.id) (s.forgetting p.entity.fingerprint)
  | dropped {id : ScheduleId} {x : Schedule} (hx : s.committed? id = some x) {way : Removal} :
      Called s (.remove way id) (s.without id x)
  | purged {now : Int64} : Called s (.purge now) (s.purge now).2

theorem call_called (s : ScheduleStore) (c : Call) : Called s c (s.call c) := by
  cases c with
  | create usable request now =>
    cases hpending : s.store.pending with
    | none =>
      obtain ⟨code, -, hcreate⟩ | hcreate := create_eq hpending usable request now
      · simp only [call, hcreate]
        exact .kept
      · simp only [call, hcreate]
        exact .began hpending _
    | some p =>
      simp only [call, create_pending hpending]
      exact .kept
  | commit =>
    cases hpending : s.store.pending with
    | none =>
      simp only [call, commitCreation_eq_error hpending]
      exact .kept
    | some p =>
      simp only [call, commitCreation_pending hpending]
      exact .committed hpending
  | rollback =>
    cases hpending : s.store.pending with
    | none =>
      simp only [call, rollbackCreation_eq_error hpending]
      exact .kept
    | some p =>
      simp only [call, rollbackCreation_pending hpending]
      exact .discarded hpending
  | apply id change =>
    cases hpending : s.store.isPending id with
    | false =>
      simp only [call, apply_of_apart hpending]
      cases hx : s.committed? id with
      | none => exact .kept
      | some x => exact .rewritten hx
    | true =>
      obtain ⟨p, hp, hid⟩ := (Option.any_eq_true _ _).1 hpending
      obtain rfl : p.id = id := of_decide_eq_true hid
      simp only [call, apply_pending hp]
      exact .redrafted hp
  | remove way id =>
    cases hpending : s.store.isPending id with
    | false =>
      simp only [call]
      obtain hsame | ⟨x, hx, hwithout⟩ := removeBy_of_apart hpending way
      · rw [hsame]
        exact .kept
      · rw [hwithout]
        exact .dropped hx
    | true =>
      obtain ⟨p, hp, hid⟩ := (Option.any_eq_true _ _).1 hpending
      obtain rfl : p.id = id := of_decide_eq_true hid
      simp only [call, removeBy_pending hp]
      split
      · exact .kept
      · exact .hidden hp
  | purge now => exact .purged
  | ask query => exact .kept

end ScheduleStore

end ConsensusLedger
