import ConsensusLedger.Proofs.Store.Operation
import Mathlib.Data.List.Infix

/-!
A managed store behaves as one map with one slot. The map is given by the writes made to it, of which
the last one under an identifier counts; the slot says which entry is provisional. Where the entries
are kept, and when they move from one place to the other, cannot be told from outside.
-/

namespace ConsensusLedger

open EntityStore (Operation)

/-- A map with a slot for one provisional entry. -/
structure SlotMap (ν : Type) where
  /-- The latest write comes first. A write of nothing takes the entry out. -/
  writes : List (EntityId × Option ν)
  /-- The identifier of the provisional entry. -/
  slot : Option EntityId
  ids : IdSource
  /-- Writes to the provisional entry do not count before it is settled. -/
  modifications : Nat

namespace SlotMap

variable {ν : Type}

def ofCollection (ids : IdSource) (c : Collection EntityId ν) : SlotMap ν :=
  ⟨c.entries.map fun e => (e.1, some e.2), none, ids, c.modifications⟩

/-- What the last write under an identifier has left there. -/
def value (m : SlotMap ν) (id : EntityId) : Option ν := (m.writes.lookup id).join

def write (m : SlotMap ν) (id : EntityId) (x : Option ν) : SlotMap ν :=
  { m with
    writes := (id, x) :: m.writes
    modifications := if m.slot = some id then m.modifications else m.modifications + 1 }

/-- The map after an operation. -/
def step (m : SlotMap ν) : Operation ν → SlotMap ν
  | .create sponsor entity =>
    match m.slot with
    | some _ => m
    | none =>
      let (id, ids) := m.ids.allocate sponsor
      { m with ids := ids, slot := some id }.write id (some entity)
  | .commit =>
    match m.slot with
    | some _ => { m with slot := none, modifications := m.modifications + 1 }
    | none => m
  | .rollback =>
    match m.slot with
    | some id => { m.write id none with ids := m.ids.reclaim, slot := none }
    | none => m
  | .apply id change =>
    match m.value id with
    | some x => m.write id (some (change x).2)
    | none => m
  | .remove id =>
    if m.slot = some id ∨ m.value id = none then m else m.write id none
  | .get _ | .contains _ => m

/-- The map after operations, one after the other. -/
def after (m : SlotMap ν) (ops : List (Operation ν)) : SlotMap ν := ops.foldl step m

theorem after_concat (m : SlotMap ν) (ops : List (Operation ν)) (op : Operation ν) :
    m.after (ops ++ [op]) = (m.after ops).step op := by
  simp [after]

theorem value_write (m : SlotMap ν) (id : EntityId) (x : Option ν) (id' : EntityId) :
    (m.write id x).value id' = if id' = id then x else m.value id' := by
  simp only [value, write, List.lookup_cons]
  by_cases hid : id' = id
  · simp [hid]
  · rw [if_neg hid, beq_eq_false_iff_ne.2 hid]

theorem value_ofCollection (ids : IdSource) (c : Collection EntityId ν) (id : EntityId) :
    (ofCollection ids c).value id = c.get? id := by
  show ((c.entries.map fun e => (e.1, some e.2)).lookup id).join = Table.lookup id c.entries
  induction c.entries with
  | nil => rfl
  | cons e rest ih =>
    rw [List.map_cons, List.lookup_cons, Table.lookup]
    by_cases hid : id = e.1
    · simp [hid, Std.ReflCmp.compare_self]
    · rw [beq_eq_false_iff_ne.2 hid, if_neg (fun heq => hid (Std.LawfulEqCmp.eq_of_compare heq))]
      exact ih

/-- The store shows what the map has. -/
structure Shows (s : EntityStore ν) (m : SlotMap ν) : Prop where
  slot : s.pending.map (·.id) = m.slot
  value : ∀ id, s.get? id = m.value id
  ids : s.ids = m.ids
  modifications : s.committed.modifications = m.modifications

namespace Shows

open EntityStore

variable {s : EntityStore ν} {m : SlotMap ν} {op : Operation ν}

theorem ofCollection (ids : IdSource) (c : Collection EntityId ν) :
    Shows (.ofCollection ids c) (.ofCollection ids c) :=
  ⟨rfl, fun id => (value_ofCollection ids c id).symm, rfl, rfl⟩

theorem slot_eq_iff (h : Shows s m) {id : EntityId} : m.slot = some id ↔ s.isPending id = true := by
  rw [← h.slot, Option.map_eq_some_iff, isPending_iff]

theorem slot_of_pending (h : Shows s m) {p : PendingCreation ν} (hpending : s.pending = some p) :
    m.slot = some p.id := by
  rw [← h.slot, hpending, Option.map_some]

theorem step_of_inert (h : Shows s m) (hinert : op.Inert s) : m.step op = m := by
  have hslot := h.slot
  cases op with
  | create sponsor entity =>
    obtain ⟨p, hpending⟩ := Option.isSome_iff_exists.1 hinert
    simp only [step, ← hslot, hpending, Option.map_some]
  | commit | rollback =>
    have hidle : s.pending = none := hinert
    simp only [step, ← hslot, hidle, Option.map_none]
  | apply id change =>
    have hmissing : s.get? id = none := hinert
    simp only [step, ← h.value, hmissing]
  | remove id =>
    have hkept : s.isPending id = true ∨ s.get? id = none := hinert
    simp only [step, h.slot_eq_iff, ← h.value, hkept, ↓reduceIte]
  | get id | contains id => rfl

/-- One operation. -/
theorem perform (h : Shows s m) (hnumbered : s.Numbered) (op : Operation ν) :
    Shows (s.perform op) (m.step op) := by
  have hperformed := s.perform_performed op
  generalize s.perform op = t at hperformed
  cases hperformed with
  | kept hinert =>
    rw [h.step_of_inert hinert]
    exact h
  | @began sponsor entity hidle =>
    have hslot : m.slot = none := by rw [← h.slot, hidle, Option.map_none]
    have hstep : m.step (.create sponsor entity) =
        { m with
          ids := (s.ids.allocate sponsor).2
          slot := some (s.ids.allocate sponsor).1 }.write (s.ids.allocate sponsor).1 (some entity) := by
      simp only [step, hslot, h.ids]
    rw [hstep]
    refine ⟨rfl, fun id => ?_, rfl, ?_⟩
    · rw [value_write, get?_of_pending rfl]
      exact if_congr Iff.rfl rfl ((get?_of_idle hidle id).symm.trans (h.value id))
    · simp [write, h.modifications]
  | @committed p hpending =>
    have hstep : m.step .commit = { m with slot := none, modifications := m.modifications + 1 } := by
      simp only [step, h.slot_of_pending hpending]
    rw [hstep]
    refine ⟨rfl, fun id => ?_, h.ids, congrArg (· + 1) h.modifications⟩
    rw [get?_of_idle rfl, Collection.get?_put, ← get?_of_pending hpending]
    exact h.value id
  | @discarded p hpending =>
    have hslot := h.slot_of_pending hpending
    have hstep : m.step .rollback =
        { m.write p.id none with ids := s.ids.reclaim, slot := none } := by
      simp only [step, hslot, h.ids]
    have hgone : s.committed.get? p.id = none := by
      simpa [Collection.contains_eq] using hnumbered.pending_apart hpending
    rw [hstep]
    refine ⟨rfl, fun id => ?_, rfl, ?_⟩
    · have hvalue := h.value id
      rw [get?_of_pending hpending] at hvalue
      refine Eq.trans ?_ (m.value_write p.id none id).symm
      rw [get?_of_idle rfl, ← hvalue]
      split
      · rename_i hid
        rw [hid, hgone]
      · rfl
    · simp [write, hslot, h.modifications]
  | @redrafted p hpending ρ change =>
    have hslot := h.slot_of_pending hpending
    have hstep : m.step (.apply p.id change) = m.write p.id (some (change p.entity).2) := by
      simp only [step, ← h.value, get?_pending hpending]
    rw [hstep]
    refine ⟨hslot.symm, fun id => ?_, h.ids, ?_⟩
    · have hvalue := h.value id
      rw [get?_of_pending hpending] at hvalue
      rw [value_write, get?_of_pending rfl, ← hvalue]
      split <;> rfl
    · simp [write, hslot, h.modifications]
  | @rewritten id x hapart hx ρ change =>
    have hstep : m.step (.apply id change) = m.write id (some (change x).2) := by
      simp only [step, ← h.value, get?_of_apart hapart, hx]
    rw [hstep]
    refine ⟨h.slot, fun id' => ?_, h.ids, ?_⟩
    · rw [value_write, ← h.value]
      exact get?_of_committed hapart (Collection.get?_put _ _ _) id'
    · simp [write, h.slot_eq_iff, hapart, Collection.put, h.modifications]
  | @removed id x hapart hx =>
    have hcontains : s.committed.contains id = true := by rw [Collection.contains_eq, hx]; rfl
    have hstep : m.step (.remove id) = m.write id none := by
      simp [step, h.slot_eq_iff, hapart, ← h.value, get?_of_apart hapart, hx]
    rw [hstep]
    refine ⟨h.slot, fun id' => ?_, h.ids, ?_⟩
    · rw [value_write, ← h.value]
      exact get?_of_committed hapart (Collection.get?_remove _ _) id'
    · simp [write, h.slot_eq_iff, hapart, Collection.remove, hcontains, h.modifications]

/-- Any number of operations. -/
theorem after (h : Shows s m) (hnumbered : s.Numbered) {ops : List (Operation ν)}
    (hgrow : s.NumbersGrow ops) : Shows (s.after ops) (m.after ops) := by
  induction ops using List.reverseRecOn with
  | nil => exact h
  | append_singleton ops op ih =>
    have hearlier : s.NumbersGrow ops := hgrow.of_prefix (List.prefix_append ops [op])
    rw [EntityStore.after_concat, SlotMap.after_concat]
    exact (ih hearlier).perform (hnumbered.after hearlier) op

end Shows

end SlotMap

namespace EntityStore

variable {ν : Type} {s : EntityStore ν}

/-- What holds of a managed store at any time. -/
structure Managed (s : EntityStore ν) : Prop where
  /-- The pending identifier is not among the committed ones. -/
  apart : ∀ p, s.pending = some p → s.committed.contains p.id = false
  /-- An identifier exists for all operations or for none. -/
  found : ∀ id, s.contains id = true ↔ ∃ x, s.get id = .ok x
  applied : ∀ {ρ : Type} (id : EntityId) (change : ν → Except String ρ × ν),
    (∃ x, s.get id = .ok x) ↔ ∀ id', (s.apply id change).1 ≠ .error (.notFound id')
  /-- A creation is ended if and only if there is one, and then there is none. -/
  commits : (∃ p t, s.commitCreation = .ok (p, t)) ↔ s.pending.isSome = true
  rollsBack : (∃ p t, s.rollbackCreation = .ok (p, t)) ↔ s.pending.isSome = true
  ended : (s.perform .commit).pending = none ∧ (s.perform .rollback).pending = none
  /-- No operation changes what is found under another identifier. -/
  framed : ∀ op id, Operation.target? s op ≠ some id → (s.perform op).get id = s.get id
  /-- The writes to the committed entities are counted, and nothing else is. -/
  counted : ∀ op, (s.perform op).committed.modifications =
    s.committed.modifications + (Operation.modifies s op).toNat

theorem Numbered.managed (h : s.Numbered) : s.Managed where
  apart p hpending := h.pending_apart hpending
  found id := by simp only [contains_eq, get_eq_ok_iff, Option.isSome_iff_exists]
  applied id change := by
    simp only [apply_ne_notFound_iff, get_eq_ok_iff, Option.isSome_iff_exists]
  commits := by cases hpending : s.pending <;> simp [commitCreation, hpending]
  rollsBack := by cases hpending : s.pending <;> simp [rollbackCreation, hpending]
  ended := by
    cases hpending : s.pending <;>
      simp [EntityStore.perform, orKeep, commitCreation, rollbackCreation, hpending]
  framed op id htarget := by rw [get_eq, get_eq, get?_perform s op htarget]
  counted := h.modifications_perform

/-- Over a collection whose numbers were handed out, and as long as numbers do not start again, a store
after any operations shows what the map with a slot has: under each identifier the value of the last
write, or nothing. It is managed, and no identifier that was ever committed is handed out again. -/
theorem managed_as_slot_map {ids : IdSource} {c : Collection EntityId ν}
    (hnumbers : ∀ e ∈ c.entries, e.1.num < ids.next) {ops : List (Operation ν)}
    (hgrow : (ofCollection ids c).NumbersGrow ops) :
    let s := (ofCollection ids c).after ops
    let m := (SlotMap.ofCollection ids c).after ops
    (∀ id, s.get id = (m.value id).elim (.error (.notFound id)) .ok) ∧
      s.pending.map (·.id) = m.slot ∧ s.ids = m.ids ∧
      s.committed.modifications = m.modifications ∧ s.Managed ∧
      ∀ before, before <+: ops → ∀ id,
        ((ofCollection ids c).after before).committed.contains id = true →
          ∀ sponsor id' t, s.allocate sponsor = .ok (id', t) → id' ≠ id := by
  intro s m
  have hstart : (ofCollection ids c).Numbered := numbered_ofCollection hnumbers
  have hnumbered : s.Numbered := hstart.after hgrow
  have hshows : SlotMap.Shows s m := (SlotMap.Shows.ofCollection ids c).after hstart hgrow
  refine ⟨fun id => by rw [get_eq, hshows.value], hshows.slot, hshows.ids, hshows.modifications,
    hnumbered.managed, ?_⟩
  rintro before hinitial id hcommitted sponsor id' t hallocate rfl
  have hused := (hstart.after (hgrow.of_prefix hinitial)).committed id' hcommitted
  have hunused : id'.num = s.frontier := num_of_allocate hallocate
  rw [hunused] at hused
  exact UInt64.lt_irrefl _ (UInt64.lt_of_lt_of_le hused (hstart.frontier_le_after hgrow hinitial))

end EntityStore

namespace Sample

/-- A single note, which was there before. -/
def notes : Collection EntityId Nat := Collection.empty.put (.ofNum 999) 5

/-- A note is drafted, changed by a change that fails, and committed. The next one is rolled back, and
the first one is taken out. -/
def noting : List (Operation Nat) :=
  [.create (.ofNum 2) 7, .apply (.ofNum 1000) (fun x => ((.error "late" : Except String Unit), x + 1)),
    .commit, .create (.ofNum 2) 9, .rollback, .remove (.ofNum 999)]

end Sample

open Sample in
/-- What the change that failed has left of the note is kept, and the number of the draft that was
rolled back is handed out again. -/
theorem EntityStore.managed_as_slot_map_notes :
    let s := (ofCollection ⟨1000⟩ notes).after noting
    (∀ e ∈ notes.entries, e.1.num < 1000) ∧ (ofCollection ⟨1000⟩ notes).NumbersGrow noting ∧
      s.get (.ofNum 1000) = .ok 8 ∧ s.get (.ofNum 999) = .error (.notFound (.ofNum 999)) ∧
      s.pending.map (·.id) = none ∧ s.ids = ⟨1001⟩ ∧ s.committed.modifications = 3 := by
  intro s
  have hnumbers : ∀ e ∈ notes.entries, e.1.num < (⟨1000⟩ : IdSource).next := by decide
  have hgrow : (ofCollection ⟨1000⟩ notes).NumbersGrow noting := by
    have hall : ∀ before ∈ noting.inits, ∀ p ∈ ((ofCollection ⟨1000⟩ notes).after before).pending,
        p.id.num < ((ofCollection ⟨1000⟩ notes).after before).ids.next := by decide
    exact fun before hinitial => hall before ((List.mem_inits _ _).2 hinitial)
  obtain ⟨hvalue, hslot, hids, hmodifications, -, -⟩ := managed_as_slot_map hnumbers hgrow
  refine ⟨hnumbers, hgrow, (hvalue _).trans ?_, (hvalue _).trans ?_, hslot.trans ?_, hids.trans ?_,
    hmodifications.trans ?_⟩ <;> rfl

end ConsensusLedger
