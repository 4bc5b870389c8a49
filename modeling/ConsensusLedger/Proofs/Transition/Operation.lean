import ConsensusLedger.Proofs.Schedule.Witness
import ConsensusLedger.Transition.Schedule

/-!
Schedule operations. While no creation is pending, an operation that brings signatures is refused, or
loses its schedule because the index led nowhere, or settles on a schedule, found or newly created.
The schedule then waits, or is executed if it is ready and its inner body can be read. Nothing else
can come of it, and no creation is left pending.
-/

namespace ConsensusLedger

open Signing ScheduleStore

/-- The operations that bring signatures for a schedule. -/
inductive ScheduleOperation where
  | create (request : NewSchedule)
  | sign (id : ScheduleId)

namespace ScheduleOperation

/-- The operation that a transaction asks for. -/
def ofEnvelope? (txn : Envelope) : Option ScheduleOperation :=
  match txn.body.data with
  | .scheduleCreate body payer adminKey memo _ =>
    some (.create ⟨body, payer.getD txn.payer, txn.payer, txn.id.validStart, adminKey, memo⟩)
  | .scheduleSign id _ => some (.sign id)
  | _ => none

/-- The identifier under which the operation looks for its schedule. -/
def target? (s : ScheduleStore) : ScheduleOperation → Option ScheduleId
  | create request => s.find? request.fingerprint
  | sign id => some id

/-- What the receipt says was created, when the operation settles on a schedule. -/
def receipted (id : ScheduleId) (before : Option ScheduleId) : ScheduleOperation → Option ScheduleId
  | create _ => some id
  | sign _ => before

def run (h : Handling) (scope : ScheduledScope) :
    ScheduleOperation → Except ProcessingError Unit × Handling
  | create request => h.createSchedule request scope
  | sign id => h.signSchedule id scope

/-- An operation settles on a schedule, which the signatures in scope leave as it is in the store that
holds it. -/
inductive Settled (s : ScheduleStore) (expiry : Int64) (op : ScheduleOperation)
    (scope : ScheduledScope) (id : ScheduleId) (outcome : Outcome) (x' : Schedule) :
    ScheduleStore → Prop
  | found {x : Schedule} {t : ScheduleStore} (htarget : op.target? s = some id)
      (hx : s.committed? id = some x) (hwitnessed : x.Witnessed scope outcome x')
      (ht : Revised s id x' t) : Settled s expiry op scope id outcome x' t
  | admitted (request : NewSchedule) (hop : op = .create request)
      (hnew : s.find? request.fingerprint = none) (hid : id = s.nextId request)
      (hwitnessed : (request.schedule expiry).Witnessed scope outcome x')
      (hstatus : outcome.status ≠ .someSignaturesWereInvalid) :
      Settled s expiry op scope id outcome x' (s.admitting id x')

end ScheduleOperation

namespace Handling

open ScheduleOperation (Settled)

/-- What becomes of a committed schedule once its signatures are witnessed. -/
inductive Concluded (h : Handling) (id : ScheduleId) (x : Schedule) (outcome : Outcome) :
    Except ProcessingError Unit × Handling → Prop
  | waiting (hready : outcome.ready = false) :
      Concluded h id x outcome (.ok (), h.setStatus outcome.status)
  | executed (txn : Envelope) (notices : List Notice) (hready : outcome.ready = true)
      (htxn : Envelope.ofScheduled x.body x.scheduledId x.payer id = .ok txn) :
      Concluded h id x outcome (.ok (), setStatus
        { h with
          schedules := h.schedules.without id x
          context := h.context.trigger txn
          notices := notices } outcome.status)
  | unreadable (e : ParseError) (hready : outcome.ready = true)
      (htxn : Envelope.ofScheduled x.body x.scheduledId x.payer id = .error e) :
      Concluded h id x outcome (.error (.parse e), h)

/-- What an operation that brings signatures can come to. -/
inductive Operated (h : Handling) (op : ScheduleOperation) (scope : ScheduledScope) :
    Except ProcessingError Unit × Handling → Prop
  | refused (code : Status) (notices : List Notice) (hcode : code ≠ .ok) :
      Operated h op scope (.ok (), { h with notices := notices }.setStatus code)
  | lost (id : ScheduleId) (notices : List Notice) (htarget : op.target? h.schedules = some id)
      (hx : h.schedules.committed? id = none) :
      Operated h op scope (.error (.store (.notFound id)), { h with notices := notices })
  | settled {id : ScheduleId} {outcome : Outcome} {x : Schedule} {t : ScheduleStore}
      {result : Except ProcessingError Unit × Handling} (notices : List Notice)
      (hsettled : Settled h.schedules (h.context.time.seconds + h.schedules.lifetime) op scope id
        outcome x t)
      (hconcluded : Concluded
        { h with
          schedules := t
          context := { h.context with created := op.receipted id h.context.created }
          notices := notices } id x outcome result) :
      Operated h op scope result

variable {h : Handling} {id : ScheduleId} {x : Schedule}

theorem rollbackPending_eq (hpending : h.schedules.store.pending = none) : h.rollbackPending = h := by
  simp only [rollbackPending, ScheduleStore.rollbackCreation, EntityStore.rollbackCreation, hpending]

theorem commitPending_eq (hpending : h.schedules.store.pending = none) : h.commitPending = h := by
  simp only [commitPending, ScheduleStore.commitCreation, EntityStore.commitCreation, hpending]

theorem conclude_concluded (hpending : h.schedules.store.pending = none)
    (hx : h.schedules.committed? id = some x) (outcome : Outcome) :
    Concluded h id x outcome (h.conclude id outcome) := by
  unfold conclude
  cases hready : outcome.ready with
  | false => exact .waiting hready
  | true =>
    simp only [↓reduceIte, executeReady, get_eq hpending hx]
    cases htxn : Envelope.ofScheduled x.body x.scheduledId x.payer id with
    | error e => exact .unreadable e hready htxn
    | ok txn =>
      have hexecuted : h.schedules.markExecuted id = (.ok, h.schedules.without id x) :=
        remove_eq hpending hx
      simp only [hexecuted]
      exact .executed txn _ hready htxn

theorem signSchedule_operated (hpending : h.schedules.store.pending = none) (id : ScheduleId)
    (scope : ScheduledScope) : Operated h (.sign id) scope (h.signSchedule id scope) := by
  unfold signSchedule
  rw [contains_eq hpending]
  cases hx : h.schedules.committed? id with
  | none => exact .refused .invalidScheduleId h.notices nofun
  | some x =>
    obtain ⟨outcome, x', t, ht, hwitnessed, hrevised, -⟩ := witnessScope_committed hpending hx scope
    simp only [Option.isSome_some, ↓reduceIte, ht]
    refine .settled h.notices (.found rfl hx hwitnessed hrevised) ?_
    exact conclude_concluded (hrevised.pending.trans hpending)
      ((hrevised.committed id).trans (if_pos rfl)) outcome

/-- A creation that repeats a schedule is about that one. -/
theorem createSchedule_found (hpending : h.schedules.store.pending = none) {request : NewSchedule}
    (scope : ScheduledScope) (hfind : h.schedules.find? request.fingerprint = some id) :
    Operated h (.create request) scope (h.createSchedule request scope) := by
  have hfound : h.findOrCreate request = (.ok (some id), h.note (.scheduleReused id)) := by
    have hfind' : h.schedules.find?
      (.of request.body request.payer request.adminKey request.memo) = some id := hfind
    simp only [findOrCreate, hfind']
  have hnoted : (h.note (.scheduleReused id)).schedules = h.schedules := rfl
  have hkeeping : Handling.rollbackPending { h.note (.scheduleReused id) with
      schedules := h.schedules } = h.note (.scheduleReused id) := rollbackPending_eq hpending
  simp only [createSchedule, hfound, hnoted]
  cases hx : h.schedules.committed? id with
  | none =>
    rcases witnessScope_missing hpending hx scope with hrejected | hlost
    · simp only [hrejected, ↓reduceIte, hkeeping]
      exact .refused .someSignaturesWereInvalid _ nofun
    · simp only [hlost]
      exact .lost id _ hfind hx
  | some x =>
    obtain ⟨outcome, x', t, ht, hwitnessed, hrevised, hrejected⟩ :=
      witnessScope_committed hpending hx scope
    have hpending' := hrevised.pending.trans hpending
    have hcommitting : Handling.commitPending { h.note (.scheduleReused id) with
        schedules := t } = { h.note (.scheduleReused id) with schedules := t } :=
      commitPending_eq hpending'
    simp only [ht]
    split
    · rename_i hinvalid
      cases hrejected hinvalid
      rw [hkeeping, hinvalid]
      exact .refused .someSignaturesWereInvalid _ nofun
    · rw [hcommitting]
      exact .settled _ (.found hfind hx hwitnessed hrevised)
        (conclude_concluded hpending' ((hrevised.committed id).trans (if_pos rfl)) outcome)

/-- A creation that repeats no schedule makes one, unless an account is missing or its signatures are
rejected. -/
theorem createSchedule_new (hpending : h.schedules.store.pending = none) {request : NewSchedule}
    (scope : ScheduledScope) (hfind : h.schedules.find? request.fingerprint = none) :
    Operated h (.create request) scope (h.createSchedule request scope) := by
  have hfind' : h.schedules.find?
    (.of request.body request.payer request.adminKey request.memo) = none := hfind
  rcases create_eq hpending h.ledger.contains request h.context.time with
    ⟨code, hcode, hcreate⟩ | hcreate
  · have hrefused : h.findOrCreate request = (.ok none, h.setStatus code) := by
      simp only [findOrCreate, hfind', hcreate]
    simp only [createSchedule, hrefused]
    exact .refused code h.notices hcode
  · obtain ⟨outcome, x, hs, hwitnessed⟩ := h.schedules.witnessScope_creating
      (h.schedules.nextId request)
      (request.schedule (h.context.time.seconds + h.schedules.lifetime)) scope
    simp only [createSchedule, findOrCreate, hfind', hcreate, note, hs]
    split
    · rename_i hinvalid
      obtain ⟨hx, -⟩ := hwitnessed.eq_of_rejected (by rw [hinvalid]; exact nofun)
        (by rw [hinvalid]; exact nofun)
      simp only [rollbackPending, rollbackCreation_creating hpending, hinvalid]
      exact .refused .someSignaturesWereInvalid _ nofun
    · rename_i hstatus
      simp only [commitPending, commitCreation_creating]
      exact .settled _ (.admitted request rfl hfind rfl hwitnessed hstatus)
        (conclude_concluded rfl ((committed?_admitting _ _ _ _).trans (if_pos rfl)) outcome)

/-- A deletion is refused, or takes out a committed schedule that has an admin key. -/
theorem deleteSchedule_eq (hpending : h.schedules.store.pending = none) (id : ScheduleId) :
    (∃ code notices, h.deleteSchedule id = { h with notices := notices }.setStatus code) ∨
      ∃ x notices, h.schedules.committed? id = some x ∧ x.adminKey.isNone = false ∧
        h.deleteSchedule id =
          setStatus { h with schedules := h.schedules.without id x, notices := notices } .ok := by
  have hdelete := delete_eq hpending id
  cases hx : h.schedules.committed? id with
  | none =>
    rw [hx] at hdelete
    exact .inl ⟨.invalidScheduleId, _, by simp only [deleteSchedule, hdelete]; rfl⟩
  | some x =>
    rw [hx] at hdelete
    cases hadmin : x.adminKey.isNone with
    | true =>
      simp only [hadmin, ↓reduceIte] at hdelete
      exact .inl ⟨.scheduleIsImmutable, _, by simp only [deleteSchedule, hdelete]; rfl⟩
    | false =>
      simp only [hadmin, Bool.false_eq_true, ↓reduceIte] at hdelete
      exact .inr ⟨x, _, rfl, hadmin, by simp only [deleteSchedule, hdelete]; rfl⟩

/-- Every operation that brings signatures comes to one of the listed results. -/
theorem run_operated (hpending : h.schedules.store.pending = none) (op : ScheduleOperation)
    (scope : ScheduledScope) : Operated h op scope (op.run h scope) := by
  cases op with
  | create request =>
    cases hfind : h.schedules.find? request.fingerprint with
    | none => exact createSchedule_new hpending scope hfind
    | some id => exact createSchedule_found hpending scope hfind
  | sign id => exact signSchedule_operated hpending id scope

end Handling

end ConsensusLedger
