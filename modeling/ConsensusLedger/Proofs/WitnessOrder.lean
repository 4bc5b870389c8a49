import ConsensusLedger.Proofs.Schedule.Signed
import ConsensusLedger.Proofs.Signing.Activation
import Mathlib.Data.Fin.Rev

/-!
The order in which signers come does not matter. Operations that sign one schedule, one after the
other, leave the same signatories and are rejected alike in every order, and with the signatures of
each in every order; and once one finds the schedule ready, all later ones do.
-/

namespace ConsensusLedger

open Signing

namespace Schedule

variable {x y : Schedule} {required : List Key} {b : SignatureBatch} {bs cs : List SignatureBatch}

/-- The schedule after operations, one after the other. -/
def signedByAll (x : Schedule) (bs : List SignatureBatch) : Schedule := bs.foldl signedBy x

/-- Who has signed is who had signed, and who contributed. -/
theorem mem_signedByAll {k : PublicKey} :
    k ∈ (x.signedByAll bs).signatories ↔ k ∈ x.signatories ∨ ∃ b ∈ bs, k ∈ b.contributed := by
  induction bs generalizing x with
  | nil => simp [signedByAll]
  | cons b rest ih =>
    have hstep : x.signedByAll (b :: rest) = (x.signedBy b).signedByAll rest := rfl
    rw [hstep, ih, mem_signedBy, or_assoc]
    simp

theorem allActive_congr (hsame : ∀ k, k ∈ x.signatories ↔ k ∈ y.signatories) :
    Key.allActive x.hasSigned required = Key.allActive y.hasSigned required := by
  have hsigned : x.hasSigned = y.hasSigned := funext fun k => decide_eq_decide.2 (hsame k)
  rw [hsigned]

theorem allActive_mono (hmore : ∀ k ∈ x.signatories, k ∈ y.signatories)
    (hactive : Key.allActive x.hasSigned required = true) :
    Key.allActive y.hasSigned required = true := by
  rw [Key.allActive_eq_true_iff] at hactive ⊢
  refine fun key hkey => Key.isActive_mono (fun k hk => ?_) key (hactive key hkey)
  exact decide_eq_true (hmore k (of_decide_eq_true hk))

theorem ready_verdict (h : (x.verdict required b).ready = true) :
    Key.allActive (x.signedBy b).hasSigned required = true := by
  unfold verdict at h
  split at h
  · cases h
  · exact h

theorem verdict_of_active (hkept : ¬b.Rejected)
    (hactive : Key.allActive (x.signedBy b).hasSigned required = true) :
    x.verdict required b = ⟨.ok, true⟩ := by
  simp [verdict, hkept, hactive]

/-- The answers to operations, one after the other. -/
def verdicts (x : Schedule) (required : List Key) (bs : List SignatureBatch) (i : Fin bs.length) :
    Outcome :=
  (x.signedByAll (bs.take i)).verdict required bs[i]

theorem signedByAll_take_succ (x : Schedule) (bs : List SignatureBatch) (i : Fin bs.length) :
    (x.signedByAll (bs.take i)).signedBy bs[i] = x.signedByAll (bs.take (i + 1)) := by
  rw [List.take_add_one, List.getElem?_eq_getElem i.isLt, Option.toList_some, signedByAll,
    signedByAll, List.foldl_append]
  rfl

/-- A ready schedule stays ready. -/
theorem verdicts_of_ready {i j : Fin bs.length} (hij : i < j)
    (hready : (x.verdicts required bs i).ready = true) (hkept : ¬bs[j].Rejected) :
    x.verdicts required bs j = ⟨.ok, true⟩ := by
  apply verdict_of_active hkept
  refine allActive_mono (fun k hk => ?_) (ready_verdict hready)
  rw [signedByAll_take_succ, mem_signedByAll] at hk ⊢
  obtain hk | ⟨b, hb, hk⟩ := hk
  · exact .inl hk
  · exact .inr ⟨b, (List.take_sublist_take_left (by omega)).subset hb, hk⟩

end Schedule

namespace ScheduleStore

variable {s : ScheduleStore} {id : ScheduleId} {x : Schedule}

/-- Operations that sign a schedule, one after the other: their answers, and the store after them. -/
def witnessEach (s : ScheduleStore) (id : ScheduleId) (required : List Key) :
    List SignatureBatch → List (Except StoreError Outcome) × ScheduleStore
  | [] => ([], s)
  | b :: rest =>
    let (answer, s) := s.witnessScope id (b.scope required)
    let (answers, s) := s.witnessEach id required rest
    (answer :: answers, s)

/-- Every operation is answered with its verdict, and the schedule is signed by all of them. -/
theorem witnessEach_of_get (hx : s.get id = .ok x) (required : List Key)
    (bs : List SignatureBatch) :
    (s.witnessEach id required bs).1 = List.ofFn (fun i => .ok (x.verdicts required bs i)) ∧
      (s.witnessEach id required bs).2.get id = .ok (x.signedByAll bs) := by
  induction bs generalizing s x with
  | nil => exact ⟨rfl, hx⟩
  | cons b rest ih =>
    obtain ⟨t, hstep, ht⟩ := witnessScope_of_get hx required b
    obtain ⟨hanswers, hget⟩ := ih ht
    simp only [witnessEach, hstep]
    refine ⟨?_, hget⟩
    rw [hanswers]
    let answer (i : Fin (rest.length + 1)) : Except StoreError Outcome :=
      .ok (x.verdicts required (b :: rest) i)
    exact (List.ofFn_succ (f := answer)).symm

/-- The operations are answered with these outcomes, and leave the schedule like this. -/
structure Signs (s : ScheduleStore) (id : ScheduleId) (required : List Key)
    (bs : List SignatureBatch) (outcomes : Fin bs.length → Outcome) (y : Schedule) : Prop where
  answers : (s.witnessEach id required bs).1 = List.ofFn fun i => .ok (outcomes i)
  left : (s.witnessEach id required bs).2.get id = .ok y

end ScheduleStore

namespace Sample

/-- A schedule that nobody has signed. -/
def unsigned : Schedule := ⟨[], .ofNum 4, .ofNum 2, ⟨90, 0⟩, 5000, none, "", []⟩

/-- A first signer with a stray invalid signature, a second one with a forged attempt, and the second
one again with one attempt. -/
def signings : List SignatureBatch :=
  let first := Octets.replicate 32 1
  let second := Octets.replicate 32 2
  [⟨1, [⟨first, true⟩, ⟨second, false⟩]⟩, ⟨2, [⟨second, true⟩, ⟨first, false⟩]⟩,
    ⟨1, [⟨second, true⟩, ⟨second, true⟩, ⟨first, false⟩]⟩]

/-- The same operations in the opposite order, with their signatures in the opposite order. -/
def signingsReversed : List SignatureBatch :=
  (signings.map fun b => ⟨b.attempts, b.signatures.reverse⟩).reverse

/-- Where each operation stands in the opposite order. -/
def reversal : Fin signings.length ≃ Fin signingsReversed.length := Fin.revPerm (n := 3)

/-- Both signers are required. -/
def bothSigners : List Key :=
  [.list [.ed25519 (Octets.replicate 32 1), .ed25519 (Octets.replicate 32 2)]]

end Sample

open ScheduleStore in
/-- Signing does not depend on the order of the operations, nor on the order of the signatures in
each of them. Let the operations `cs` be the operations `bs` in other places, with the same attempts
and with their signatures in another order. Then each of them is rejected in one order if and only if
it is in the other; the signatories in the end are the ones from the start and the valid keys of the
operations with an attempt that are not rejected; so they are the same, and the schedule is ready in
one order if and only if it is in the other. Once an operation finds the schedule ready, every later
one that is not rejected does, and succeeds. -/
theorem ScheduleStore.signing_order_free {s : ScheduleStore} {id : ScheduleId} {x : Schedule}
    (hx : s.get id = .ok x) (required : List Key) {bs cs : List SignatureBatch}
    (place : Fin bs.length ≃ Fin cs.length) (hplace : ∀ i : Fin bs.length, bs[i].Rearranged cs[place i]) :
    ∃ outcomes y outcomes' y', s.Signs id required bs outcomes y ∧
      s.Signs id required cs outcomes' y' ∧
      (∀ i, (outcomes i).status = .someSignaturesWereInvalid ↔
        (outcomes' (place i)).status = .someSignaturesWereInvalid) ∧
      (∀ k, k ∈ y.signatories ↔ k ∈ x.signatories ∨
        ∃ i, 0 < bs[i].attempts ∧ (outcomes i).status ≠ .someSignaturesWereInvalid ∧
          ⟨k, true⟩ ∈ bs[i].signatures) ∧
      (∀ k, k ∈ y.signatories ↔ k ∈ y'.signatories) ∧
      Key.allActive y.hasSigned required = Key.allActive y'.hasSigned required ∧
      ∀ i j, i < j → (outcomes i).ready = true →
        (outcomes j).status ≠ .someSignaturesWereInvalid → outcomes j = ⟨.ok, true⟩ := by
  obtain ⟨hanswers, hleft⟩ := witnessEach_of_get hx required bs
  obtain ⟨hanswers', hleft'⟩ := witnessEach_of_get hx required cs
  have hrejected (i : Fin bs.length) :
      (x.verdicts required bs i).status = .someSignaturesWereInvalid ↔ bs[i].Rejected :=
    Schedule.verdict_rejected_iff
  have hsame (k : PublicKey) : k ∈ (x.signedByAll bs).signatories ↔
      k ∈ (x.signedByAll cs).signatories := by
    rw [Schedule.mem_signedByAll, Schedule.mem_signedByAll, List.exists_mem_iff_get,
      List.exists_mem_iff_get]
    exact or_congr_right (place.exists_congr fun i => (hplace i).mem_contributed)
  refine ⟨_, _, _, _, ⟨hanswers, hleft⟩, ⟨hanswers', hleft'⟩, fun i => ?_, fun k => ?_, hsame,
    Schedule.allActive_congr hsame, fun i j hij hready hkept => ?_⟩
  · rw [hrejected, (hplace i).rejected_iff]
    exact Schedule.verdict_rejected_iff.symm
  · simp only [Schedule.mem_signedByAll, List.exists_mem_iff_get, List.get_eq_getElem,
      SignatureBatch.mem_contributed, ne_eq, hrejected]
    rfl
  · exact Schedule.verdicts_of_ready hij hready fun h => hkept ((hrejected j).2 h)

open Sample in
/-- In both orders the forged attempt is rejected, and both signers have signed in the end. -/
theorem ScheduleStore.signing_order_free_reversed :
    let s := (ScheduleStore.empty 1800 1000).creating (.ofNum 1000) unsigned
    s.get (.ofNum 1000) = .ok unsigned ∧
      (∀ i : Fin signings.length, signings[i].Rearranged signingsReversed[reversal i]) ∧
      (s.witnessEach (.ofNum 1000) bothSigners signings).1 =
        [.ok ⟨.ok, false⟩, .ok ⟨.someSignaturesWereInvalid, false⟩, .ok ⟨.ok, true⟩] ∧
      ∃ outcomes y outcomes' y', s.Signs (.ofNum 1000) bothSigners signings outcomes y ∧
        s.Signs (.ofNum 1000) bothSigners signingsReversed outcomes' y' ∧
        (∀ i, (outcomes i).status = .someSignaturesWereInvalid ↔
          (outcomes' (reversal i)).status = .someSignaturesWereInvalid) ∧
        Key.allActive y.hasSigned bothSigners = true ∧
        Key.allActive y'.hasSigned bothSigners = true := by
  intro s
  have hget : s.get (.ofNum 1000) = .ok unsigned := rfl
  have hplace : ∀ i : Fin signings.length,
      signings[i].Rearranged signingsReversed[reversal i] := by
    unfold SignatureBatch.Rearranged
    decide
  obtain ⟨outcomes, y, outcomes', y', hsigns, hsigns', hrejected, -, -, hready, -⟩ :=
    signing_order_free hget bothSigners reversal hplace
  obtain rfl : y = unsigned.signedByAll signings :=
    Except.ok.inj (hsigns.left.symm.trans (witnessEach_of_get hget bothSigners signings).2)
  have hactive : Key.allActive (unsigned.signedByAll signings).hasSigned bothSigners = true := by
    decide +kernel
  exact ⟨hget, hplace, by decide +kernel, outcomes, _, outcomes', y', hsigns, hsigns', hrejected,
    hactive, hready ▸ hactive⟩

end ConsensusLedger
