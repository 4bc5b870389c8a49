import ConsensusLedger.Schedule.Basic
import ConsensusLedger.Schedule.Expiry
import ConsensusLedger.Status
import ConsensusLedger.Store.EntityStore
import ConsensusLedger.Store.Index

/-!
The store of schedules: the managed collection, an index that finds a schedule by its fingerprint,
and the queue of expiry seconds. Schedules leave by deletion, execution or expiry; entries of the
queue are left behind then and are skipped when their second comes.
-/

namespace ConsensusLedger

structure ScheduleStore where
  /-- The lifetime of a new schedule in seconds. -/
  lifetime : Int64
  store : EntityStore Schedule
  index : Index Fingerprint ScheduleId
  expiries : ExpiryQueue

structure CreationResult where
  status : Status
  created : Option ScheduleId
  deriving DecidableEq, Repr

namespace ScheduleStore

/-- A store over schedules that exist already. Of two with the same fingerprint the index finds the
one with the larger identifier. -/
def ofCollection (lifetime : Int64) (ids : IdSource) (c : Collection EntityId Schedule) :
    ScheduleStore where
  lifetime := lifetime
  store := .ofCollection ids c
  index := c.entries.foldl (fun m e => m.insert e.2.fingerprint e.1) []
  expiries := c.entries.foldl (fun q e => q.track e.1 e.2.expiry) .empty

def empty (lifetime : Int64) (first : UInt64) : ScheduleStore :=
  ofCollection lifetime ⟨first⟩ .empty

def size (s : ScheduleStore) : Nat := s.store.committed.size

def contains (s : ScheduleStore) (id : ScheduleId) : Bool := s.store.contains id

def get (s : ScheduleStore) (id : ScheduleId) : Except StoreError Schedule := s.store.get id

def isCreationPending (s : ScheduleStore) : Bool := s.store.pending.isSome

def apply {ρ : Type} (s : ScheduleStore) (id : ScheduleId)
    (change : Schedule → Except String ρ × Schedule) : Except StoreError ρ × ScheduleStore :=
  let (r, store) := s.store.apply id change
  (r, { s with store := store })

/-- Creates a schedule that is pending until it is committed or rolled back. Both accounts of the
request have to be usable. -/
def create (s : ScheduleStore) (usable : AccountId → Bool) (request : NewSchedule)
    (now : Timestamp) : Except StoreError (CreationResult × ScheduleStore) :=
  match s.store.pending with
  | some p => .error (.creationAlreadyPending p.id)
  | none =>
    if !usable request.schedulingAccount then .ok (⟨.invalidScheduleAccountId, none⟩, s)
    else if !usable request.payer then .ok (⟨.invalidSchedulePayerId, none⟩, s)
    else
      let (id, ids) := s.store.ids.allocate request.schedulingAccount
      let schedule : Schedule :=
        { body := request.body
          payer := request.payer
          schedulingAccount := request.schedulingAccount
          validStart := request.validStart
          expiry := now.seconds + s.lifetime
          adminKey := request.adminKey
          memo := request.memo
          signatories := [] }
      .ok (⟨.ok, some id⟩,
        { s with store := { s.store with ids := ids, pending := some ⟨id, schedule⟩ } })

/-- Commits the pending schedule: it can be found by its fingerprint and will expire. -/
def commitCreation (s : ScheduleStore) :
    Except StoreError (PendingCreation Schedule × ScheduleStore) :=
  match s.store.commitCreation with
  | .error e => .error e
  | .ok (p, store) =>
    .ok (p, { s with
      store := store
      index := s.index.insert p.entity.fingerprint p.id
      expiries := s.expiries.track p.id p.entity.expiry })

def rollbackCreation (s : ScheduleStore) :
    Except StoreError (PendingCreation Schedule × ScheduleStore) :=
  match s.store.rollbackCreation with
  | .error e => .error e
  | .ok (p, store) => .ok (p, { s with store := store })

/-- The schedule with a fingerprint; the pending one comes first. -/
def find? (s : ScheduleStore) (key : Fingerprint) : Option ScheduleId :=
  match s.store.pending with
  | some p => if p.entity.fingerprint = key then some p.id else s.index.get? key
  | none => s.index.get? key

/-- Takes a schedule out of the collection and the index. -/
def remove (s : ScheduleStore) (id : ScheduleId) : Status × ScheduleStore :=
  match s.store.get? id with
  | none => (.invalidScheduleId, s)
  | some schedule =>
    match s.store.remove id with
    | .error _ => (.failInvalid, s)
    | .ok (_, store) =>
      (.ok, { s with store := store, index := s.index.erase schedule.fingerprint })

/-- Deletes a schedule that has an admin key. -/
def delete (s : ScheduleStore) (id : ScheduleId) : Status × ScheduleStore :=
  match s.store.get? id with
  | none => (.invalidScheduleId, s)
  | some schedule => if schedule.adminKey.isNone then (.scheduleIsImmutable, s) else s.remove id

/-- Removes a schedule whose inner transaction is about to run. -/
def markExecuted (s : ScheduleStore) (id : ScheduleId) : Status × ScheduleStore := s.remove id

def expire (s : ScheduleStore) (id : ScheduleId) : Status × ScheduleStore := s.markExecuted id

/-- Expires the listed schedules that still exist, and lists those that did. -/
def expireAll (s : ScheduleStore) : List ScheduleId → List ScheduleId × ScheduleStore
  | [] => ([], s)
  | id :: rest =>
    if s.contains id then
      let (status, s) := s.expire id
      let (expired, s) := s.expireAll rest
      (if status.isOk then id :: expired else expired, s)
    else s.expireAll rest

def purge (s : ScheduleStore) (now : Int64) : List ScheduleId × ScheduleStore :=
  let (due, queue) := s.expiries.drain now
  { s with expiries := queue }.expireAll due

def rootHash (s : ScheduleStore) : Octets 32 :=
  s.store.committed.rootHash EntityId.codec Schedule.codec

end ScheduleStore

end ConsensusLedger
