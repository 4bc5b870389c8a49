import ConsensusLedger.Proofs.Schedule.Witness

/-!
What a store has in it, committed or pending. A property of all that is in a store is kept by each of
its operations, whether a creation is pending or not, as long as it does not look at what the
operation changes; only a creation adds anything that has to have the property.
-/

namespace ConsensusLedger

namespace EntityStore

variable {ν ρ : Type} {P : EntityId → ν → Prop} {s t : EntityStore ν} {id : EntityId} {e : ν}

/-- The entity is in the store under an identifier, committed or pending. -/
def Holds (s : EntityStore ν) (id : EntityId) (e : ν) : Prop :=
  s.committed.get? id = some e ∨ s.pending = some ⟨id, e⟩

/-- All entities in the store have the property. -/
def All (P : EntityId → ν → Prop) (s : EntityStore ν) : Prop := ∀ id e, s.Holds id e → P id e

theorem holds_of_get? (h : s.get? id = some e) : s.Holds id e := by
  unfold get? at h
  split at h
  · rename_i p hpending
    split at h
    · rename_i hid
      cases h
      exact .inr (hid ▸ hpending)
    · exact .inl h
  · exact .inl h

namespace All

theorem apply (h : s.All P) {change : ν → Except String ρ × ν}
    (hchange : ∀ e, P id e → P id (change e).2) : (s.apply id change).2.All P := by
  unfold EntityStore.apply
  split
  · rename_i p hp
    obtain ⟨hpending, hid⟩ := Option.filter_eq_some_iff.1 hp
    have hid : p.id = id := of_decide_eq_true hid
    rintro id' e' (hcommitted | hchanged)
    · exact h id' e' (.inl hcommitted)
    · cases hchanged
      subst hid
      exact hchange _ (h _ _ (.inr hpending))
  · split
    · rename_i e he
      rintro id' e' (hcommitted | hpending)
      · rw [Collection.get?_put] at hcommitted
        split at hcommitted
        · rename_i hid
          cases hcommitted
          subst hid
          exact hchange e (h _ _ (.inl he))
        · exact h id' e' (.inl hcommitted)
      · exact h id' e' (.inr hpending)
    · exact h

theorem commitCreation (h : s.All P) {p : PendingCreation ν}
    (hcommit : s.commitCreation = .ok (p, t)) : t.All P := by
  unfold EntityStore.commitCreation at hcommit
  split at hcommit
  · rename_i hpending
    cases hcommit
    rintro id e (hcommitted | hnone)
    · rw [Collection.get?_put] at hcommitted
      split at hcommitted
      · rename_i hid
        cases hcommitted
        subst hid
        exact h _ _ (.inr hpending)
      · exact h id e (.inl hcommitted)
    · cases hnone
  · cases hcommit

theorem rollbackCreation (h : s.All P) {p : PendingCreation ν}
    (hrollback : s.rollbackCreation = .ok (p, t)) : t.All P := by
  unfold EntityStore.rollbackCreation at hrollback
  split at hrollback
  · cases hrollback
    rintro id e (hcommitted | hnone)
    · exact h id e (.inl hcommitted)
    · cases hnone
  · cases hrollback

theorem remove (h : s.All P) {removed : Option ν} (hremove : s.remove id = .ok (removed, t)) :
    t.All P := by
  unfold EntityStore.remove at hremove
  split at hremove
  · cases hremove
    exact h
  · split at hremove
    · cases hremove
      rintro id' e (hcommitted | hpending)
      · rw [Collection.get?_remove] at hcommitted
        split at hcommitted
        · cases hcommitted
        · exact h id' e (.inl hcommitted)
      · exact h id' e (.inr hpending)
    · cases hremove

end All

end EntityStore

/-- The property does not depend on who has signed the schedule. -/
def Schedule.IgnoresSignatories (P : ScheduleId → Schedule → Prop) : Prop :=
  ∀ id x signatories, P id x → P id { x with signatories := signatories }

namespace ScheduleStore

/-- All schedules in the store, committed or pending, have the property. -/
def All (P : ScheduleId → Schedule → Prop) (s : ScheduleStore) : Prop := s.store.All P

namespace All

variable {P : ScheduleId → Schedule → Prop} {s t : ScheduleStore} {id : ScheduleId} {x : Schedule}

theorem of_get (h : s.All P) (hx : s.get id = .ok x) : P id x := by
  unfold ScheduleStore.get EntityStore.get at hx
  split at hx
  · rename_i hget
    cases hx
    exact h id x (EntityStore.holds_of_get? hget)
  · cases hx

theorem apply {ρ : Type} (h : s.All P) {change : Schedule → Except String ρ × Schedule}
    (hchange : ∀ x, P id x → P id (change x).2) : (s.apply id change).2.All P :=
  EntityStore.All.apply (s := s.store) h hchange

/-- Witnessing changes signatories only. -/
theorem witnessScope (hP : Schedule.IgnoresSignatories P) (h : s.All P) (id : ScheduleId)
    (scope : ScheduledScope) : (s.witnessScope id scope).2.All P := by
  have hsettle (t : ScheduleStore) (ht : t.All P) (status : Status) :
      ((witnessTarget id scope).calls.settle status t).2.All P := by
    rw [Signing.TargetCalls.settle, Signing.WitnessTarget.calls_isReady]
    cases (witnessTarget id scope).isReady t <;> exact ht
  have hwitness (keys : List PublicKey) : ((witnessTarget id scope).witness keys s).2.All P := by
    refine h.apply fun x hx => ?_
    obtain ⟨signatories, heq, -⟩ := x.witnessAll_eq keys
    rw [heq]
    exact hP id x signatories hx
  unfold ScheduleStore.witnessScope Signing.witnessInScope Signing.TargetCalls.witnessInScope
  rw [Signing.WitnessTarget.calls_witness]
  split
  · exact h
  · split
    · exact hsettle s h _
    · split <;> rename_i heq <;> have hwitnessed := hwitness (Signing.validKeys scope.signatures) <;>
        rw [heq] at hwitnessed
      · exact hwitnessed
      · exact hsettle _ hwitnessed _

/-- The schedule of the request is the only one that a creation adds. -/
theorem create (h : s.All P) {usable : AccountId → Bool} {request : NewSchedule} {now : Timestamp}
    {result : CreationResult} (hcreate : s.create usable request now = .ok (result, t))
    (hnew : P (s.nextId request) (request.schedule (now.seconds + s.lifetime))) : t.All P := by
  unfold ScheduleStore.create at hcreate
  split at hcreate
  · cases hcreate
  · split at hcreate
    · cases hcreate
      exact h
    · split at hcreate
      · cases hcreate
        exact h
      · cases hcreate
        rintro id x (hcommitted | hpending)
        · exact h id x (.inl hcommitted)
        · cases hpending
          exact hnew

theorem commitCreation (h : s.All P) {p : PendingCreation Schedule}
    (hcommit : s.commitCreation = .ok (p, t)) : t.All P := by
  unfold ScheduleStore.commitCreation at hcommit
  split at hcommit
  · cases hcommit
  · rename_i hstore
    cases hcommit
    exact EntityStore.All.commitCreation h hstore

theorem rollbackCreation (h : s.All P) {p : PendingCreation Schedule}
    (hrollback : s.rollbackCreation = .ok (p, t)) : t.All P := by
  unfold ScheduleStore.rollbackCreation at hrollback
  split at hrollback
  · cases hrollback
  · rename_i hstore
    cases hrollback
    exact EntityStore.All.rollbackCreation h hstore

theorem remove (h : s.All P) (id : ScheduleId) : (s.remove id).2.All P := by
  unfold ScheduleStore.remove
  split
  · exact h
  · split
    · exact h
    · rename_i hstore
      exact EntityStore.All.remove h hstore

theorem delete (h : s.All P) (id : ScheduleId) : (s.delete id).2.All P := by
  unfold ScheduleStore.delete
  split
  · exact h
  · split
    · exact h
    · exact h.remove id

theorem expireAll (h : s.All P) (due : List ScheduleId) : (s.expireAll due).2.All P := by
  induction due generalizing s with
  | nil => exact h
  | cons id rest ih =>
    unfold ScheduleStore.expireAll
    split
    · exact ih (h.remove id)
    · exact ih h

theorem purge (h : s.All P) (now : Int64) : (s.purge now).2.All P :=
  expireAll (s := { s with expiries := (s.expiries.drain now).2 }) h _

end All

end ScheduleStore

end ConsensusLedger
