import ConsensusLedger.Proofs.Schedule.Store
import ConsensusLedger.Proofs.Signing.Attribution
import ConsensusLedger.Transition.Witness

/-!
Witnessing on a schedule. Whether the schedule is committed or pending, the signatures in scope
either change nothing, when they are rejected, or add distinct valid keys to the signatories, and
then the answer says whether the required keys are active over all of them.
-/

namespace ConsensusLedger

open Signing

namespace Schedule

theorem witness_eq (x : Schedule) (key : PublicKey) :
    (x.witness key).2 = { x with
      signatories := if key ∈ x.signatories then x.signatories else x.signatories ++ [key] } := by
  unfold witness hasSigned
  by_cases hkey : key ∈ x.signatories
  · rw [if_pos (decide_eq_true hkey), if_pos hkey]
  · rw [if_neg (by simpa only [decide_eq_true_eq] using hkey), if_neg hkey]

/-- Witnessing adds the keys that are new to the signatories. -/
theorem witnessAll_eq (x : Schedule) (keys : List PublicKey) :
    ∃ signatories, (x.witnessAll keys).2 = { x with signatories := signatories } ∧
      (x.signatories.Nodup → signatories.Nodup) ∧
      ∀ k, k ∈ signatories ↔ k ∈ x.signatories ∨ k ∈ keys := by
  induction keys generalizing x with
  | nil => exact ⟨x.signatories, rfl, id, fun k => by simp only [List.not_mem_nil, or_false]⟩
  | cons key rest ih =>
    obtain ⟨signatories, heq, hnodup, hmem⟩ := ih { x with
      signatories := if key ∈ x.signatories then x.signatories else x.signatories ++ [key] }
    have hstep : (x.witnessAll (key :: rest)).2 = ((x.witness key).2.witnessAll rest).2 := rfl
    rw [x.witness_eq] at hstep
    refine ⟨signatories, hstep.trans heq, fun hx => hnodup ?_, fun k => ?_⟩
    · dsimp only
      split
      · exact hx
      · rename_i hkey
        refine List.nodup_append.2 ⟨hx, List.nodup_cons.2 ⟨nofun, .nil⟩, ?_⟩
        intro a ha b hb hab
        rw [List.mem_singleton] at hb
        exact hkey (hb ▸ hab ▸ ha)
    · rw [hmem, List.mem_cons]
      dsimp only
      split
      · rename_i hkey
        constructor
        · rintro (h | h)
          · exact .inl h
          · exact .inr (.inr h)
        · rintro (h | rfl | h)
          · exact .inl h
          · exact .inl hkey
          · exact .inr h
      · rw [List.mem_append, List.mem_singleton, or_assoc]

/-- What witnessing the signatures in scope can make of a schedule, with the answer to it. -/
inductive Witnessed (scope : ScheduledScope) (x : Schedule) : Outcome → Schedule → Prop
  | rejected : Witnessed scope x ⟨.someSignaturesWereInvalid, false⟩ x
  | settled (status : Status) (hstatus : status = .ok ∨ status = .noNewValidSignatures)
      (signatories : List PublicKey) (hnodup : x.signatories.Nodup → signatories.Nodup)
      (hmem : ∀ k ∈ signatories, k ∈ x.signatories ∨ k ∈ validKeys scope.signatures)
      (hkept : ∀ k ∈ x.signatories, k ∈ signatories)
      (hready : scope.isSatisfied { x with signatories := signatories }.hasSigned = true →
        status = .ok) :
      Witnessed scope x
        ⟨status, scope.isSatisfied { x with signatories := signatories }.hasSigned⟩
        { x with signatories := signatories }

namespace Witnessed

variable {scope : ScheduledScope} {x x' : Schedule} {outcome : Outcome}

/-- Witnessing adds to the signatories and changes nothing else. -/
theorem extends_signatories (h : x.Witnessed scope outcome x') :
    x' = { x with signatories := x'.signatories } ∧ ∀ k ∈ x.signatories, k ∈ x'.signatories := by
  cases h with
  | rejected => exact ⟨rfl, fun _ hk => hk⟩
  | settled _ _ _ _ _ hkept => exact ⟨rfl, hkept⟩

/-- Signatures that bring an operation neither success nor the answer that none of them is new were
rejected, and have changed nothing. -/
theorem eq_of_rejected (h : x.Witnessed scope outcome x') (hok : outcome.status ≠ .ok)
    (hold : outcome.status ≠ .noNewValidSignatures) :
    x' = x ∧ outcome = ⟨.someSignaturesWereInvalid, false⟩ := by
  cases h with
  | rejected => exact ⟨rfl, rfl⟩
  | settled status hstatus =>
    rcases hstatus with rfl | rfl
    · exact absurd rfl hok
    · exact absurd rfl hold

/-- An operation that finds its schedule ready succeeds. -/
theorem status_of_ready (h : x.Witnessed scope outcome x') (hready : outcome.ready = true) :
    outcome.status = .ok ∧ scope.isSatisfied x'.hasSigned = true := by
  cases h with
  | rejected => cases hready
  | settled status _ _ _ _ _ hok => exact ⟨hok hready, hready⟩

end Witnessed

end Schedule

namespace ScheduleStore

variable {s : ScheduleStore} {id : ScheduleId} {x : Schedule}

/-- Witnessing through a target that records the signatories of a schedule wherever it is kept. -/
theorem witnessInScope_witnessed {σ : Type} (target : WitnessTarget σ StoreError)
    (scope : ScheduledScope) (Holds : σ → Schedule → Prop)
    (hwitness : ∀ s x keys, Holds s x →
      ∃ new s', target.witness keys s = (.ok new, s') ∧ Holds s' (x.witnessAll keys).2)
    (hready : ∀ s x, Holds s x → target.isReady s = .ok (scope.isSatisfied x.hasSigned))
    {s : σ} (hx : Holds s x) :
    ∃ outcome x' s', witnessInScope scope.attempts scope.signatures target s = (.ok outcome, s') ∧
      x.Witnessed scope outcome x' ∧ Holds s' x' ∧
      (outcome.status = .someSignaturesWereInvalid → s' = s) := by
  have hsettle (status : Status) (hstatus : status = .ok ∨ status = .noNewValidSignatures) {s' : σ}
      (signatories : List PublicKey) (hnodup : x.signatories.Nodup → signatories.Nodup)
      (hmem : ∀ k ∈ signatories, k ∈ x.signatories ∨ k ∈ validKeys scope.signatures)
      (hkept : ∀ k ∈ x.signatories, k ∈ signatories)
      (hs' : Holds s' { x with signatories := signatories }) :
      ∃ outcome x' s'', target.calls.settle status s' = (.ok outcome, s'') ∧
        x.Witnessed scope outcome x' ∧ Holds s'' x' ∧
        (outcome.status = .someSignaturesWereInvalid → s'' = s) := by
    have hverdict : (if scope.isSatisfied { x with signatories := signatories }.hasSigned
        then .ok else status) = Status.ok ∨ (if scope.isSatisfied
          { x with signatories := signatories }.hasSigned then .ok else status) =
        Status.noNewValidSignatures := by
      split
      · exact .inl rfl
      · exact hstatus
    refine ⟨_, _, s', ?_, .settled _ hverdict signatories hnodup hmem hkept (fun hok => if_pos hok),
      hs', fun hinvalid => absurd hinvalid ?_⟩
    · simp only [TargetCalls.settle, WitnessTarget.calls_isReady, hready s' _ hs']
    · rcases hverdict with hok | hold
      · rw [hok]
        exact nofun
      · rw [hold]
        exact nofun
  unfold witnessInScope TargetCalls.witnessInScope
  split
  · exact ⟨_, x, s, rfl, .rejected, hx, fun _ => rfl⟩
  · split
    · exact hsettle .ok (.inl rfl) x.signatories (fun h => h) (fun k hk => .inl hk) (fun k hk => hk) hx
    · obtain ⟨new, s', hs', hholds⟩ := hwitness s x (validKeys scope.signatures) hx
      obtain ⟨signatories, heq, hnodup, hmem⟩ := x.witnessAll_eq (validKeys scope.signatures)
      rw [heq] at hholds
      rw [WitnessTarget.calls_witness, hs']
      exact hsettle _ (by split <;> simp only [true_or, or_true]) signatories hnodup (fun k hk => (hmem k).1 hk)
        (fun k hk => (hmem k).2 (.inl hk)) hholds

/-- Witnessing on a committed schedule changes that schedule only. -/
theorem witnessScope_committed (hpending : s.store.pending = none)
    (hx : s.committed? id = some x) (scope : ScheduledScope) :
    ∃ outcome x' s', s.witnessScope id scope = (.ok outcome, s') ∧ x.Witnessed scope outcome x' ∧
      Revised s id x' s' ∧ (outcome.status = .someSignaturesWereInvalid → s' = s) := by
  refine witnessInScope_witnessed (witnessTarget id scope) scope
    (fun s' x' => Revised s id x' s') ?_ ?_ (revised_self hx)
  · intro s' x' keys hrevised
    have hx' : s'.store.committed.get? id = some x' := (hrevised.committed id).trans (if_pos rfl)
    refine ⟨(x'.witnessAll keys).1.count true, _, ?_, hrevised.put (x'.witnessAll keys).2⟩
    simp only [witnessTarget, witness, ScheduleStore.apply, EntityStore.apply,
      hrevised.pending.trans hpending, Option.filter_none, hx']
    rfl
  · intro s' x' hrevised
    have hx' : s'.committed? id = some x' := (hrevised.committed id).trans (if_pos rfl)
    simp only [witnessTarget, isReady, get_eq (hrevised.pending.trans hpending) hx']
    rfl

/-- Witnessing on a schedule that is not there is rejected for its signatures, or fails; either way it
changes nothing. -/
theorem witnessScope_missing (hpending : s.store.pending = none) (hx : s.committed? id = none)
    (scope : ScheduledScope) :
    s.witnessScope id scope = (.ok ⟨.someSignaturesWereInvalid, false⟩, s) ∨
      s.witnessScope id scope = (.error (.notFound id), s) := by
  have hready : (witnessTarget id scope).isReady s = .error (.notFound id) := by
    simp only [witnessTarget, isReady, get_eq_error hpending hx]
    rfl
  have hwitness (keys : List PublicKey) :
      (witnessTarget id scope).witness keys s = (.error (.notFound id), s) := by
    have hx' : s.store.committed.get? id = none := hx
    simp only [witnessTarget, witness, ScheduleStore.apply, EntityStore.apply, hpending,
      Option.filter_none, hx']
  unfold witnessScope witnessInScope TargetCalls.witnessInScope
  split
  · exact .inl rfl
  · right
    split
    · simp only [TargetCalls.settle, WitnessTarget.calls_isReady, hready]
    · rw [WitnessTarget.calls_witness, hwitness]

/-- Witnessing on a schedule that is being created changes that schedule only. -/
theorem witnessScope_creating (s : ScheduleStore) (id : ScheduleId) (x : Schedule)
    (scope : ScheduledScope) :
    ∃ outcome x', (s.creating id x).witnessScope id scope = (.ok outcome, s.creating id x') ∧
      x.Witnessed scope outcome x' := by
  obtain ⟨outcome, x', s', hs', hwitnessed, rfl, -⟩ := witnessInScope_witnessed
    (x := x) (witnessTarget id scope) scope (fun s' x' => s' = s.creating id x') (by
      rintro s' x' keys rfl
      refine ⟨(x'.witnessAll keys).1.count true, _, ?_, rfl⟩
      simp only [creating, witnessTarget, witness, ScheduleStore.apply, EntityStore.apply,
        Option.filter_some, decide_true, ↓reduceIte]
      rfl) (by
      rintro s' x' rfl
      simp only [creating, witnessTarget, isReady, ScheduleStore.get, EntityStore.get,
        EntityStore.get?, ↓reduceIte]
      rfl) rfl
  exact ⟨outcome, x', hs', hwitnessed⟩

end ScheduleStore

end ConsensusLedger
