import ConsensusLedger.Proofs.Pipeline.Numbering
import ConsensusLedger.Proofs.WaitingSchedules

/-!
The fingerprint index along a run. The store itself would admit a second schedule with the fingerprint
of a committed one; that a creation looks for its schedule first, and leaves nothing pending on any of
its ways out, is what keeps the index exact.
-/

namespace ConsensusLedger

open ScheduleStore

namespace Sample

/-- A schedule for the transfer that was committed before the node started. -/
def earlier : Schedule :=
  ⟨transferBody, .ofNum 4, .ofNum 2, ⟨90, 0⟩, 5000, none, "earlier", []⟩

/-- The network with that schedule in its store. -/
def stocked : Processor :=
  { start with schedules := .ofCollection 1800 ⟨1000⟩ (Collection.empty.put (.ofNum 999) earlier) }

end Sample

namespace Node

variable (c : ProcessingConfig) (book : AddressBook) (verification : Signing.VerifierConfig)
  (fees : FeeSchedule) {start : Processor} {lifetime : Int64} {ids : IdSource}
  {schedules : Collection ScheduleId Schedule}

/-- From schedules whose fingerprints differ and whose numbers were handed out, as long as the numbers
do not wrap: after every call no creation is pending, and a look-up by body, payer, admin key and memo
finds an identifier just when the schedule committed under it has that fingerprint. So no two
committed schedules share a fingerprint, and each is found by its own. -/
theorem lookup_exact (hstart : start.schedules = .ofCollection lifetime ids schedules)
    (hdistinct : schedules.entries.Pairwise fun a b => a.2.fingerprint ≠ b.2.fingerprint)
    (hnumbers : ∀ e ∈ schedules.entries, e.1.num < ids.next) (ds : List Delivery)
    (hgrow : (standard c book verification fees start).NumbersGrow ds) :
    let s := ((standard c book verification fees start).after ds).processor.schedules
    s.store.pending = none ∧
      (∀ body payer adminKey memo id, s.find? (.of body payer adminKey memo) = some id ↔
        ∃ x, s.committed? id = some x ∧ x.fingerprint = .of body payer adminKey memo) ∧
      (∀ id id' x x', s.committed? id = some x → s.committed? id' = some x' →
        x.fingerprint = x'.fingerprint → id = id') ∧
      ∀ id x, s.committed? id = some x → s.find? x.fingerprint = some id := by
  intro s
  have hindexed : s.Indexed := by
    refine indexed_after c book verification fees ?_ hgrow
    rw [hstart]
    exact indexed_ofCollection lifetime hdistinct hnumbers
  have hfound {id : ScheduleId} {x : Schedule} (hx : s.committed? id = some x) :
      s.find? x.fingerprint = some id :=
    hindexed.find?_eq_some_iff.2 ⟨x, hx, rfl⟩
  refine ⟨hindexed.pending, fun body payer adminKey memo id => hindexed.find?_eq_some_iff, ?_,
    fun id x hx => hfound hx⟩
  intro id id' x x' hx hx' hsame
  have hfound' := hfound hx'
  rw [← hsame, hfound hx] at hfound'
  exact Option.some.inj hfound'

/-- The schedule that the network starts with and the one that is created are both found by their
fingerprints, although they are for the same transfer. -/
theorem lookup_exact_creation :
    let p := ((standard {} Sample.book Sample.verification {} Sample.stocked).after
      [Sample.creation]).processor
    p.schedules.find? Sample.earlier.fingerprint = some (.ofNum 999) ∧
      ∃ x : Schedule, x.body = Sample.transferBody ∧
        p.schedules.find? x.fingerprint = some (.ofNum 1000) := by
  intro p
  have hstart : Sample.stocked.schedules =
      .ofCollection 1800 ⟨1000⟩ (Collection.empty.put (.ofNum 999) Sample.earlier) := rfl
  have hgrow : (standard {} Sample.book Sample.verification {} Sample.stocked).NumbersGrow
      [Sample.creation] :=
    numbersGrow_concat.2 ⟨numbersGrow_nil _, by decide +kernel⟩
  obtain ⟨-, -, -, hfound⟩ := lookup_exact {} Sample.book Sample.verification {} hstart
    (List.pairwise_singleton _ _) (by decide +kernel) [Sample.creation] hgrow
  have hearlier : p.schedules.committed? (.ofNum 999) = some Sample.earlier := by decide +kernel
  have hcreated : (p.schedules.committed? (.ofNum 1000)).any
      (fun x => x.body = Sample.transferBody) = true := by decide +kernel
  obtain ⟨x, hx, hbody⟩ := (Option.any_eq_true _ _).1 hcreated
  exact ⟨hfound _ _ hearlier, x, of_decide_eq_true hbody, hfound _ _ hx⟩

end Node

end ConsensusLedger
