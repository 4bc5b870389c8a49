import ConsensusLedger.Entity
import ConsensusLedger.Store.Collection

/-!
A managed collection of entities. At most one creation is pending; its entity can be seen and
changed under its identifier, and is committed to the collection or rolled back as a whole.
-/

namespace ConsensusLedger

/-- Hands out consecutive entity numbers. -/
structure IdSource where
  next : UInt64
  deriving DecidableEq, Repr

namespace IdSource

/-- A fresh identifier in the shard and realm of its sponsor. -/
def allocate (s : IdSource) (sponsor : EntityId) : EntityId × IdSource :=
  (⟨sponsor.shard, sponsor.realm, s.next⟩, ⟨s.next + 1⟩)

def reclaim (s : IdSource) : IdSource := ⟨s.next - 1⟩

end IdSource

inductive StoreError where
  | notFound (id : EntityId)
  | noCreationPending
  | creationAlreadyPending (id : EntityId)
  | changeFailed (id : EntityId) (reason : String)
  deriving DecidableEq, Repr

def StoreError.message : StoreError → String
  | notFound id => s!"Argument 'id={id}' does not refer to an extant entity"
  | noCreationPending => "No pending creation"
  | creationAlreadyPending id => s!"Creation of {id} is still pending"
  | changeFailed id reason => s!"Change to {id} failed unexpectedly: {reason}"

structure PendingCreation (ν : Type) where
  id : EntityId
  entity : ν

/-- Committed entities, and at most one whose creation is pending. -/
structure EntityStore (ν : Type) where
  ids : IdSource
  committed : Collection EntityId ν
  pending : Option (PendingCreation ν)

namespace EntityStore

variable {ν ρ : Type}

def ofCollection (ids : IdSource) (committed : Collection EntityId ν) : EntityStore ν :=
  ⟨ids, committed, none⟩

def isPending (s : EntityStore ν) (id : EntityId) : Bool := s.pending.any (·.id = id)

/-- The entity under an identifier; a pending one comes first. -/
def get? (s : EntityStore ν) (id : EntityId) : Option ν :=
  match s.pending with
  | some p => if p.id = id then some p.entity else s.committed.get? id
  | none => s.committed.get? id

def get (s : EntityStore ν) (id : EntityId) : Except StoreError ν :=
  match s.get? id with
  | some e => .ok e
  | none => .error (.notFound id)

def contains (s : EntityStore ν) (id : EntityId) : Bool := s.isPending id || s.committed.contains id

/-- Changes the entity under an identifier. What the change leaves is kept even when it fails, and
a committed entity counts as written. -/
def apply (s : EntityStore ν) (id : EntityId) (change : ν → Except String ρ × ν) :
    Except StoreError ρ × EntityStore ν :=
  let outcome (r : Except String ρ) := r.mapError (StoreError.changeFailed id)
  match s.pending.filter (·.id = id) with
  | some p =>
    let (r, entity) := change p.entity
    (outcome r, { s with pending := some ⟨p.id, entity⟩ })
  | none =>
    match s.committed.get? id with
    | some e =>
      let (r, entity) := change e
      (outcome r, { s with committed := s.committed.put id entity })
    | none => (.error (.notFound id), s)

def allocate (s : EntityStore ν) (sponsor : EntityId) : Except StoreError (EntityId × EntityStore ν) :=
  match s.pending with
  | some p => .error (.creationAlreadyPending p.id)
  | none =>
    let (id, ids) := s.ids.allocate sponsor
    .ok (id, { s with ids := ids })

def beginCreation (s : EntityStore ν) (id : EntityId) (entity : ν) :
    Except StoreError (EntityStore ν) :=
  match s.pending with
  | some p => .error (.creationAlreadyPending p.id)
  | none => .ok { s with pending := some ⟨id, entity⟩ }

def commitCreation (s : EntityStore ν) : Except StoreError (PendingCreation ν × EntityStore ν) :=
  match s.pending with
  | some p => .ok (p, { s with committed := s.committed.put p.id p.entity, pending := none })
  | none => .error .noCreationPending

/-- Drops the pending entity and takes its number back. -/
def rollbackCreation (s : EntityStore ν) : Except StoreError (PendingCreation ν × EntityStore ν) :=
  match s.pending with
  | some p => .ok (p, { s with ids := s.ids.reclaim, pending := none })
  | none => .error .noCreationPending

/-- Removes a committed entity. A pending one stays, for only a rollback drops it. -/
def remove (s : EntityStore ν) (id : EntityId) : Except StoreError (Option ν × EntityStore ν) :=
  if s.isPending id then .ok (none, s)
  else
    match s.committed.get? id with
    | some e => .ok (some e, { s with committed := s.committed.remove id })
    | none => .error (.notFound id)

end EntityStore

end ConsensusLedger
