import ConsensusLedger.Proofs.Table
import ConsensusLedger.Store.EntityStore
import Mathlib.Data.List.Induction

/-!
Operations on a managed store, in any order. What an operation does is said once, with its guard; all
that is known of a run follows from it. Numbers are used up to a frontier, which is the number of the
pending entity or else the next one, and which never falls unless the numbers start again.
-/

namespace ConsensusLedger.EntityStore

/-- An operation on a store. An identifier is handed out only for the creation that begins under it. -/
inductive Operation (ν : Type) : Type 1 where
  | create (sponsor : EntityId) (entity : ν)
  | commit
  | rollback
  | apply {ρ : Type} (id : EntityId) (change : ν → Except String ρ × ν)
  | remove (id : EntityId)
  | get (id : EntityId)
  | contains (id : EntityId)

variable {ν : Type}

/-- Begins a creation under the identifier that is handed out for it. -/
def create (s : EntityStore ν) (sponsor : EntityId) (entity : ν) :
    Except StoreError (EntityId × EntityStore ν) :=
  match s.allocate sponsor with
  | .error e => .error e
  | .ok (id, t) => (t.beginCreation id entity).map fun u => (id, u)

/-- The store that an operation leaves; one that fails leaves it as it was. -/
def orKeep {α : Type} (s : EntityStore ν) : Except StoreError (α × EntityStore ν) → EntityStore ν
  | .ok (_, t) => t
  | .error _ => s

/-- The store after an operation. -/
def perform (s : EntityStore ν) : Operation ν → EntityStore ν
  | .create sponsor entity => s.orKeep (s.create sponsor entity)
  | .commit => s.orKeep s.commitCreation
  | .rollback => s.orKeep s.rollbackCreation
  | .apply id change => (s.apply id change).2
  | .remove id => s.orKeep (s.remove id)
  | .get _ | .contains _ => s

/-- The store after operations, one after the other. -/
def after (s : EntityStore ν) (ops : List (Operation ν)) : EntityStore ν := ops.foldl perform s

/-- The operation finds nothing to do: it only reads, or is refused. -/
def Operation.Inert (s : EntityStore ν) : Operation ν → Prop
  | .create _ _ => s.pending.isSome = true
  | .commit | .rollback => s.pending = none
  | .apply id _ => s.get? id = none
  | .remove id => s.isPending id = true ∨ s.get? id = none
  | .get _ | .contains _ => True

/-- What an operation can do to a store. -/
inductive Performed (s : EntityStore ν) : Operation ν → EntityStore ν → Prop
  | kept {op : Operation ν} (hinert : op.Inert s) : Performed s op s
  | began {sponsor : EntityId} {entity : ν} (hidle : s.pending = none) :
      Performed s (.create sponsor entity) { s with
        ids := (s.ids.allocate sponsor).2
        pending := some ⟨(s.ids.allocate sponsor).1, entity⟩ }
  | committed {p : PendingCreation ν} (hpending : s.pending = some p) :
      Performed s .commit { s with committed := s.committed.put p.id p.entity, pending := none }
  | discarded {p : PendingCreation ν} (hpending : s.pending = some p) :
      Performed s .rollback { s with ids := s.ids.reclaim, pending := none }
  | redrafted {p : PendingCreation ν} (hpending : s.pending = some p) {ρ : Type}
      {change : ν → Except String ρ × ν} :
      Performed s (.apply p.id change) { s with pending := some ⟨p.id, (change p.entity).2⟩ }
  | rewritten {id : EntityId} {x : ν} (hapart : s.isPending id = false)
      (hx : s.committed.get? id = some x) {ρ : Type} {change : ν → Except String ρ × ν} :
      Performed s (.apply id change) { s with committed := s.committed.put id (change x).2 }
  | removed {id : EntityId} {x : ν} (hapart : s.isPending id = false)
      (hx : s.committed.get? id = some x) :
      Performed s (.remove id) { s with committed := s.committed.remove id }

variable {s t : EntityStore ν} {p : PendingCreation ν} {id : EntityId} {x : ν} {op : Operation ν}

theorem after_concat (s : EntityStore ν) (ops : List (Operation ν)) (op : Operation ν) :
    s.after (ops ++ [op]) = (s.after ops).perform op := by
  simp [after]

theorem isPending_iff : s.isPending id = true ↔ ∃ p, s.pending = some p ∧ p.id = id := by
  simp [isPending, Option.any_eq_true]

section Pending

variable (hpending : s.pending = some p)

include hpending

theorem get?_of_pending (id : EntityId) :
    s.get? id = if id = p.id then some p.entity else s.committed.get? id := by
  simp only [get?, hpending, eq_comm]

theorem get?_pending : s.get? p.id = some p.entity := by
  rw [get?_of_pending hpending, if_pos rfl]

end Pending

theorem get?_of_idle (hidle : s.pending = none) (id : EntityId) :
    s.get? id = s.committed.get? id := by
  simp only [get?, hidle]

theorem get?_of_apart (hapart : s.isPending id = false) : s.get? id = s.committed.get? id := by
  cases hpending : s.pending with
  | none => exact get?_of_idle hpending id
  | some p =>
    rw [get?_of_pending hpending, if_neg]
    rintro rfl
    rw [isPending_iff.2 ⟨p, hpending, rfl⟩] at hapart
    cases hapart

/-- A write to a committed entity is seen under its identifier only. -/
theorem get?_of_committed {c : Collection EntityId ν} {y : Option ν}
    (hapart : s.isPending id = false)
    (hc : ∀ id', c.get? id' = if id' = id then y else s.committed.get? id') (id' : EntityId) :
    { s with committed := c }.get? id' = if id' = id then y else s.get? id' := by
  cases hpending : s.pending with
  | none => rw [get?_of_idle hpending, get?_of_idle rfl, hc]
  | some p =>
    have hother : p.id ≠ id := by
      rintro rfl
      rw [isPending_iff.2 ⟨p, hpending, rfl⟩] at hapart
      cases hapart
    rw [get?_of_pending hpending, get?_of_pending rfl, hc]
    by_cases hid : id' = id
    · rw [if_neg (fun hsame => hother (hsame.symm.trans hid)), if_pos hid, if_pos hid]
    · rw [if_neg hid, if_neg hid]

theorem contains_eq (s : EntityStore ν) (id : EntityId) : s.contains id = (s.get? id).isSome := by
  cases hapart : s.isPending id with
  | false => rw [get?_of_apart hapart, contains, hapart, Bool.false_or, Collection.contains_eq]
  | true =>
    obtain ⟨p, hpending, rfl⟩ := isPending_iff.1 hapart
    rw [get?_pending hpending, contains, hapart]
    rfl

section Apply

variable {ρ : Type} (change : ν → Except String ρ × ν)

/-- The draft is changed in place. -/
theorem apply_pending (hpending : s.pending = some p) : s.apply p.id change =
    ((change p.entity).1.mapError (StoreError.changeFailed p.id),
      { s with pending := some ⟨p.id, (change p.entity).2⟩ }) := by
  simp [apply, hpending, Option.filter_some]

/-- A committed entity is written back, whatever the change answers. -/
theorem apply_of_apart (hapart : s.isPending id = false) : s.apply id change =
    match s.committed.get? id with
    | some x => ((change x).1.mapError (StoreError.changeFailed id),
        { s with committed := s.committed.put id (change x).2 })
    | none => (.error (.notFound id), s) := by
  have hnone : s.pending.filter (fun p => decide (p.id = id)) = none := by
    rw [Option.filter_eq_none_iff]
    intro p hp hid
    rw [isPending_iff.2 ⟨p, hp, of_decide_eq_true hid⟩] at hapart
    cases hapart
  cases hentity : s.committed.get? id <;> simp only [apply, hnone, hentity]

theorem apply_fst (s : EntityStore ν) (id : EntityId) : (s.apply id change).1 =
    match s.get? id with
    | some x => (change x).1.mapError (StoreError.changeFailed id)
    | none => .error (.notFound id) := by
  cases hapart : s.isPending id with
  | false =>
    rw [apply_of_apart change hapart, get?_of_apart hapart]
    cases s.committed.get? id <;> rfl
  | true =>
    obtain ⟨p, hpending, rfl⟩ := isPending_iff.1 hapart
    rw [apply_pending change hpending, get?_pending hpending]

end Apply

theorem perform_performed (s : EntityStore ν) (op : Operation ν) : Performed s op (s.perform op) := by
  cases op with
  | create sponsor entity =>
    cases hpending : s.pending with
    | some p =>
      have hrefused : s.create sponsor entity = .error (.creationAlreadyPending p.id) := by
        simp [create, allocate, hpending]
      rw [perform, hrefused]
      exact .kept (by simp [Operation.Inert, hpending])
    | none =>
      have hbegun : s.create sponsor entity = .ok ((s.ids.allocate sponsor).1, { s with
          ids := (s.ids.allocate sponsor).2
          pending := some ⟨(s.ids.allocate sponsor).1, entity⟩ }) := by
        simp [create, allocate, beginCreation, hpending, Except.map]
      rw [perform, hbegun]
      exact .began hpending
  | commit =>
    cases hpending : s.pending with
    | none =>
      simp only [perform, commitCreation, hpending]
      exact .kept hpending
    | some p =>
      simp only [perform, commitCreation, hpending]
      exact .committed hpending
  | rollback =>
    cases hpending : s.pending with
    | none =>
      simp only [perform, rollbackCreation, hpending]
      exact .kept hpending
    | some p =>
      simp only [perform, rollbackCreation, hpending]
      exact .discarded hpending
  | apply id change =>
    cases hapart : s.isPending id with
    | false =>
      simp only [perform, apply_of_apart change hapart]
      cases hx : s.committed.get? id with
      | none => exact .kept ((get?_of_apart hapart).trans hx)
      | some x => exact .rewritten hapart hx
    | true =>
      obtain ⟨p, hpending, rfl⟩ := isPending_iff.1 hapart
      rw [perform, apply_pending change hpending]
      exact .redrafted hpending
  | remove id =>
    cases hapart : s.isPending id with
    | true =>
      have hkept : s.remove id = .ok (none, s) := if_pos hapart
      rw [perform, hkept]
      exact .kept (.inl hapart)
    | false =>
      simp only [perform, remove, hapart]
      cases hx : s.committed.get? id with
      | none => exact .kept (.inr ((get?_of_apart hapart).trans hx))
      | some x => exact .removed hapart hx
  | get id => exact .kept trivial
  | contains id => exact .kept trivial

/-- The identifier under which an operation may change what is found. -/
def Operation.target? (s : EntityStore ν) : Operation ν → Option EntityId
  | .create sponsor _ => some (s.ids.allocate sponsor).1
  | .rollback => s.pending.map (·.id)
  | .apply id _ | .remove id => some id
  | .commit | .get _ | .contains _ => none

/-- The operation writes to the committed entities. -/
def Operation.modifies (s : EntityStore ν) : Operation ν → Bool
  | .commit => s.pending.isSome
  | .apply id _ | .remove id => s.committed.contains id
  | .create _ _ | .rollback | .get _ | .contains _ => false

theorem get_eq (s : EntityStore ν) (id : EntityId) :
    s.get id = (s.get? id).elim (.error (.notFound id)) .ok := by
  rw [get]
  cases s.get? id <;> rfl

theorem get_eq_ok_iff : s.get id = .ok x ↔ s.get? id = some x := by
  rw [get_eq]
  cases s.get? id <;> simp

/-- A change fails in its own way, so that it is not found is said of missing identifiers only. -/
theorem apply_ne_notFound_iff {ρ : Type} (s : EntityStore ν) (id : EntityId)
    (change : ν → Except String ρ × ν) :
    (∀ id', (s.apply id change).1 ≠ .error (.notFound id')) ↔ (s.get? id).isSome = true := by
  rw [apply_fst]
  cases hx : s.get? id with
  | none => simp
  | some x => cases hanswer : (change x).1 <;> simp [hanswer, Except.mapError]

/-- What is found under other identifiers stays. -/
theorem get?_perform (s : EntityStore ν) (op : Operation ν) (htarget : op.target? s ≠ some id) :
    (s.perform op).get? id = s.get? id := by
  have hperformed := s.perform_performed op
  generalize s.perform op = t at hperformed
  cases hperformed with
  | kept => rfl
  | began hidle =>
    rw [get?_of_pending rfl, get?_of_idle hidle, if_neg]
    exact fun hid => htarget (congrArg some hid.symm)
  | committed hpending =>
    rw [get?_of_idle rfl, Collection.get?_put, get?_of_pending hpending]
  | @discarded p hpending =>
    rw [get?_of_idle rfl, get?_of_pending hpending, if_neg]
    rintro rfl
    exact htarget (by rw [Operation.target?, hpending, Option.map_some])
  | redrafted hpending =>
    have hother : ¬id = _ := fun hid => htarget (congrArg some hid.symm)
    rw [get?_of_pending rfl, get?_of_pending hpending, if_neg hother, if_neg hother]
  | rewritten hapart =>
    rw [get?_of_committed hapart (Collection.get?_put _ _ _), if_neg]
    exact fun hid => htarget (congrArg some hid.symm)
  | removed hapart =>
    rw [get?_of_committed hapart (Collection.get?_remove _ _), if_neg]
    exact fun hid => htarget (congrArg some hid.symm)

/-- The number of the pending entity, or else the next one: no other number from here on is used. -/
def frontier (s : EntityStore ν) : UInt64 :=
  match s.pending with
  | some p => p.id.num
  | none => s.ids.next

/-- An identifier is handed out at the frontier. -/
theorem num_of_allocate {sponsor : EntityId} (h : s.allocate sponsor = .ok (id, t)) :
    id.num = s.frontier := by
  cases hpending : s.pending with
  | some p =>
    simp only [allocate, hpending] at h
    cases h
  | none =>
    simp only [allocate, hpending] at h
    cases h
    simp only [IdSource.allocate, frontier, hpending]

/-- Committed entities have numbers that were used up, and the pending one has the last number that was
handed out. -/
structure Numbered (s : EntityStore ν) : Prop where
  committed : ∀ id, s.committed.contains id = true → id.num < s.frontier
  last : ∀ p, s.pending = some p → s.ids.next = p.id.num + 1

/-- Numbers do not start again along operations: whenever an entity is pending, its number is below the
next one. -/
def NumbersGrow (s : EntityStore ν) (ops : List (Operation ν)) : Prop :=
  ∀ before, before <+: ops → ∀ p ∈ (s.after before).pending, p.id.num < (s.after before).ids.next

theorem NumbersGrow.of_prefix {ops before : List (Operation ν)} (h : s.NumbersGrow ops)
    (hinitial : before <+: ops) : s.NumbersGrow before :=
  fun earlier hearlier => h earlier (hearlier.trans hinitial)

theorem numbered_ofCollection {ids : IdSource} {c : Collection EntityId ν}
    (hnumbers : ∀ e ∈ c.entries, e.1.num < ids.next) : (ofCollection ids c).Numbered := by
  refine ⟨fun id hid => ?_, nofun⟩
  obtain ⟨x, hx⟩ := Option.isSome_iff_exists.1 hid
  exact hnumbers (id, x) (c.table.get?_eq_some_iff.1 hx)

namespace Numbered

/-- The pending identifier is not among the committed ones. -/
theorem pending_apart (h : s.Numbered) (hpending : s.pending = some p) :
    s.committed.contains p.id = false := by
  rw [Bool.eq_false_iff]
  intro hcommitted
  have hnum := h.committed p.id hcommitted
  rw [frontier, hpending] at hnum
  exact UInt64.lt_irrefl _ hnum

theorem contains_of_get? (h : s.Numbered) (hmissing : s.isPending id = true ∨ s.get? id = none) :
    s.committed.contains id = false := by
  rw [Collection.contains_eq]
  cases hapart : s.isPending id with
  | true =>
    obtain ⟨p, hpending, rfl⟩ := isPending_iff.1 hapart
    exact h.pending_apart hpending
  | false =>
    have hnone := hmissing.resolve_left (by simp [hapart])
    rw [get?_of_apart hapart] at hnone
    rw [hnone]
    rfl

/-- The writes to the committed entities are counted. -/
theorem modifications_perform (h : s.Numbered) (op : Operation ν) :
    (s.perform op).committed.modifications =
      s.committed.modifications + (op.modifies s).toNat := by
  have hperformed := s.perform_performed op
  generalize s.perform op = t at hperformed
  cases hperformed with
  | kept hinert =>
    have hnone : op.modifies s = false := by
      cases op with
      | commit => exact Option.isSome_eq_false_iff.2 (Option.isNone_iff_eq_none.2 hinert)
      | apply id change => exact h.contains_of_get? (.inr hinert)
      | remove id => exact h.contains_of_get? hinert
      | create | rollback | get | contains => rfl
    rw [hnone]
    rfl
  | began | discarded => rfl
  | committed hpending => simp [Operation.modifies, Collection.put, hpending]
  | redrafted hpending => simp [Operation.modifies, h.pending_apart hpending]
  | rewritten hapart hx => simp [Operation.modifies, Collection.contains_eq, hx, Collection.put]
  | removed hapart hx => simp [Operation.modifies, Collection.contains_eq, hx, Collection.remove]

variable (h : s.Numbered) (hgrow : ∀ p ∈ s.pending, p.id.num < s.ids.next)

include h hgrow

/-- A number that is used up stays so. -/
theorem frontier_le (op : Operation ν) : s.frontier ≤ (s.perform op).frontier := by
  have hperformed := s.perform_performed op
  generalize s.perform op = t at hperformed
  cases hperformed with
  | began hidle =>
    rw [frontier, hidle]
    exact UInt64.le_refl _
  | committed hpending =>
    rw [frontier, hpending]
    exact UInt64.le_of_lt (hgrow _ hpending)
  | @discarded p hpending =>
    have hback : s.ids.reclaim.next = p.id.num := by
      rw [IdSource.reclaim, h.last p hpending, UInt64.add_sub_cancel]
    rw [frontier, hpending, frontier, hback]
    exact UInt64.le_refl _
  | redrafted hpending =>
    rw [frontier, hpending]
    exact UInt64.le_refl _
  | kept | rewritten | removed => exact UInt64.le_refl _

theorem perform (op : Operation ν) : (s.perform op).Numbered := by
  have hfrontier := h.frontier_le hgrow op
  have hperformed := s.perform_performed op
  generalize s.perform op = t at hperformed hfrontier
  have hstill {id : EntityId} (hid : s.committed.contains id = true) : id.num < t.frontier :=
    UInt64.lt_of_lt_of_le (h.committed id hid) hfrontier
  cases hperformed with
  | kept => exact h
  | began hidle =>
    refine ⟨fun id hid => hstill hid, fun p hp => ?_⟩
    cases hp
    rfl
  | @committed p hpending =>
    refine ⟨fun id hid => ?_, nofun⟩
    rw [Collection.contains_eq, Collection.get?_put] at hid
    split at hid
    · rename_i hsame
      rw [hsame]
      exact hgrow p hpending
    · exact hstill hid
  | discarded => exact ⟨fun id hid => hstill hid, nofun⟩
  | @redrafted p hpending =>
    refine ⟨fun id hid => hstill hid, fun q hq => ?_⟩
    cases hq
    exact h.last p hpending
  | @rewritten id x hapart hx =>
    refine ⟨fun id' hid' => hstill ?_, h.last⟩
    rw [Collection.contains_eq, Collection.get?_put] at hid'
    split at hid'
    · rename_i hsame
      rw [hsame, Collection.contains_eq, hx]
      rfl
    · exact hid'
  | removed =>
    refine ⟨fun id' hid' => hstill ?_, h.last⟩
    rw [Collection.contains_eq, Collection.get?_remove] at hid'
    split at hid'
    · cases hid'
    · exact hid'

end Numbered

/-- Any number of operations. -/
theorem Numbered.after {ops : List (Operation ν)} (h : s.Numbered) (hgrow : s.NumbersGrow ops) :
    (s.after ops).Numbered := by
  induction ops using List.reverseRecOn with
  | nil => exact h
  | append_singleton ops op ih =>
    rw [after_concat]
    exact (ih (hgrow.of_prefix (List.prefix_append ops [op]))).perform
      (hgrow ops (List.prefix_append ops [op])) op

theorem Numbered.frontier_le_after {ops before : List (Operation ν)} (h : s.Numbered)
    (hgrow : s.NumbersGrow ops) (hinitial : before <+: ops) :
    (s.after before).frontier ≤ (s.after ops).frontier := by
  induction ops using List.reverseRecOn with
  | nil =>
    rw [List.prefix_nil.1 hinitial]
    exact UInt64.le_refl _
  | append_singleton ops op ih =>
    rcases List.prefix_concat_iff.1 hinitial with rfl | hinitial
    · exact UInt64.le_refl _
    · have hearlier : s.NumbersGrow ops := hgrow.of_prefix (List.prefix_append ops [op])
      refine UInt64.le_trans (ih hearlier hinitial) ?_
      rw [after_concat]
      exact (h.after hearlier).frontier_le (hgrow ops (List.prefix_append ops [op])) op

end ConsensusLedger.EntityStore
