import ConsensusLedger.Proofs.Schedule.Call

/-!
A creation that is rolled back leaves no trace. While it is pending, the work on its draft and calls
that only read or are refused change nothing but the draft itself, and the rollback drops the draft
and takes its number back.
-/

namespace ConsensusLedger

namespace ScheduleStore

variable {s : ScheduleStore} {id : ScheduleId}

/-- The call works on the draft under an identifier, asks for another creation, or asks a question. -/
def Call.Drafts (id : ScheduleId) : Call → Prop
  | .create _ _ _ => True
  | .apply id' _ => id' = id
  | .ask _ => True
  | .commit | .rollback | .remove _ _ | .purge _ => False

/-- One call leaves another draft at most. -/
theorem call_creating (s : ScheduleStore) (x : Schedule) {c : Call} (hdrafts : c.Drafts id) :
    ∃ y, (s.creating id x).call c = s.creating id y := by
  cases c with
  | create usable request now =>
    refine ⟨x, ?_⟩
    rw [call, create_pending rfl]
    rfl
  | apply id' change =>
    obtain rfl : id' = id := hdrafts
    exact ⟨(change x).2, apply_pending (s := s.creating id' x) (p := ⟨id', x⟩) rfl change⟩
  | ask query => exact ⟨x, rfl⟩
  | commit | rollback | remove | purge => cases hdrafts

/-- Any number of calls. -/
theorem after_creating (s : ScheduleStore) (x : Schedule) {work : List Call}
    (hdrafts : ∀ c ∈ work, c.Drafts id) :
    ∃ y, (s.creating id x).after work = s.creating id y := by
  induction work generalizing x with
  | nil => exact ⟨x, rfl⟩
  | cons c rest ih =>
    obtain ⟨hc, hrest⟩ := List.forall_mem_cons.1 hdrafts
    obtain ⟨y, hy⟩ := s.call_creating x hc
    rw [after_cons, hy]
    exact ih y hrest

/-- Let no creation be pending. A creation is answered with success exactly when both accounts of the
request are usable. One that is not leaves the store as it was. One that is may be followed by any
work on its draft, by questions and by other creations, which are all refused; the rollback then
returns the store as it was before. -/
theorem rolled_back_creation_traceless (hpending : s.store.pending = none)
    (usable : AccountId → Bool) (request : NewSchedule) (now : Timestamp) :
    ∃ result t, s.create usable request now = .ok (result, t) ∧
      (result.status = .ok ↔
        usable request.schedulingAccount = true ∧ usable request.payer = true) ∧
      (result.status ≠ .ok → result.created = none ∧ t = s) ∧
      (result.status = .ok → ∃ id, result.created = some id ∧
        ∀ work, (∀ c ∈ work, c.Drafts id) →
          (∀ usable' request' now', (t.after work).create usable' request' now' =
            .error (.creationAlreadyPending id)) ∧
          ∃ x, (t.after work).rollbackCreation = .ok (⟨id, x⟩, s)) := by
  have hcreate := create_decided hpending usable request now
  rw [← Bool.and_eq_true]
  split at hcreate
  · rename_i husable
    refine ⟨_, _, hcreate, iff_of_true rfl husable, fun hfailed => absurd rfl hfailed,
      fun _ => ⟨_, rfl, fun work hdrafts => ?_⟩⟩
    obtain ⟨y, hy⟩ := after_creating s (request.schedule (now.seconds + s.lifetime)) hdrafts
    rw [hy]
    exact ⟨create_pending (p := ⟨_, y⟩) rfl, y, rollbackCreation_creating hpending _ y⟩
  · rename_i husable
    obtain ⟨code, hcode, hcreate⟩ := hcreate
    exact ⟨_, _, hcreate, iff_of_false hcode husable, fun _ => ⟨rfl, rfl⟩,
      fun hok => absurd hok hcode⟩

end ScheduleStore

namespace Sample

/-- The last identifier before the numbers start again. -/
def lastId : ScheduleId := .ofNum 0xFFFFFFFFFFFFFFFF

def draft : NewSchedule := ⟨[], .ofNum 4, .ofNum 2, ⟨90, 0⟩, none, "draft"⟩

/-- The draft is signed, though the change is said to have failed; another creation is refused, and
the draft is looked up. -/
def drafting : List ScheduleStore.Call :=
  [.apply lastId (fun x => (.error "late", (x.witness (Octets.replicate 32 1)).2)),
    .create (fun _ => true) draft (.ofSeconds 60), .ask (.find [] (.ofNum 4) none "draft")]

end Sample

open Sample in
/-- The draft took the last number and is signed; the rollback still returns the store as it was. -/
theorem ScheduleStore.rolled_back_creation_traceless_last :
    let s := ScheduleStore.empty 100 0xFFFFFFFFFFFFFFFF
    let t := s.after (.create (fun _ => true) draft (.ofSeconds 50) :: drafting)
    s.store.pending = none ∧ t.nextNumber = 0 ∧
      (t.store.get? lastId).map (·.signatories) = some [Octets.replicate 32 1] ∧
      ∃ x, t.rollbackCreation = .ok (⟨lastId, x⟩, s) := by
  intro s t
  have hpending : s.store.pending = none := rfl
  obtain ⟨result, begun, hcreate, hstatus, -, hdone⟩ :=
    rolled_back_creation_traceless hpending (fun _ => true) draft (.ofSeconds 50)
  obtain ⟨id, hid, hwork⟩ := hdone (hstatus.2 ⟨rfl, rfl⟩)
  have hbegun : s.call (.create (fun _ => true) draft (.ofSeconds 50)) = begun := by
    rw [call, hcreate]
    rfl
  have hlast : id = lastId := by
    have hfirst : s.create (fun _ => true) draft (.ofSeconds 50) =
        .ok (⟨.ok, some lastId⟩, s.creating lastId (draft.schedule 150)) := rfl
    rw [hfirst] at hcreate
    cases hcreate
    exact (Option.some.inj hid).symm
  subst hlast
  obtain ⟨-, hrollback⟩ := hwork drafting (by simp [drafting, Call.Drafts])
  refine ⟨hpending, by decide, by decide, ?_⟩
  rw [← hbegun] at hrollback
  exact hrollback

end ConsensusLedger
