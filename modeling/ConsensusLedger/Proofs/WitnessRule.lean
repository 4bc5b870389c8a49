import ConsensusLedger.Proofs.Signing.Rule

/-!
The rule by which a signing operation is decided, for whatever it signs: which calls it makes, with
which keys, in which order, and what it answers to their results.
-/

namespace ConsensusLedger.Signing

/-- A call on a target, with the state in which it finds the target. -/
inductive TargetCall (σ : Type) where
  | witness (keys : List PublicKey) (before : σ)
  | isReady (before : σ)

namespace TargetCalls

variable {σ ε : Type} {calls : TargetCalls σ ε} {attempts : Nat} {sigs : List ScopedSignature} {s : σ}

/-- The same calls, which are listed as they are made. -/
def logged (calls : TargetCalls σ ε) : TargetCalls (σ × List (TargetCall σ)) ε where
  witness keys s :=
    let (r, after) := calls.witness keys s.1
    (r, after, s.2 ++ [.witness keys s.1])
  isReady s :=
    let (r, after) := calls.isReady s.1
    (r, after, s.2 ++ [.isReady s.1])

@[simp] theorem logged_witness (keys : List PublicKey) (s : σ) (log : List (TargetCall σ)) :
    calls.logged.witness keys (s, log) = ((calls.witness keys s).1, (calls.witness keys s).2,
      log ++ [.witness keys s]) := rfl

@[simp] theorem logged_isReady (s : σ) (log : List (TargetCall σ)) :
    calls.logged.isReady (s, log) = ((calls.isReady s).1, (calls.isReady s).2,
      log ++ [.isReady s]) := rfl

/-- To list the calls changes neither the answer nor the state. -/
theorem logged_witnessInScope (calls : TargetCalls σ ε) (attempts : Nat)
    (sigs : List ScopedSignature) (s : σ) (log : List (TargetCall σ)) :
    let run := calls.logged.witnessInScope attempts sigs (s, log)
    (run.1, run.2.1) = calls.witnessInScope attempts sigs s := by
  have hsettle (status : Status) (s : σ) (log : List (TargetCall σ)) :
      ((calls.logged.settle status (s, log)).1, (calls.logged.settle status (s, log)).2.1) =
        calls.settle status s := by
    simp [settle_eq]
  intro run
  simp only [run, witnessInScope]
  split
  · rfl
  · split
    · exact hsettle .ok s log
    · rw [logged_witness]
      cases hwitness : calls.witness (validKeys sigs) s with
      | mk answer after =>
        cases answer with
        | error e => rfl
        | ok new => exact hsettle _ after _

end TargetCalls

/-- The decision on a signing operation: its answer, the state that it leaves and the calls that it
makes. -/
structure Decided {σ ε : Type} (calls : TargetCalls σ ε) (attempts : Nat)
    (sigs : List ScopedSignature) (s : σ) (answer : Except ε Outcome) (after : σ)
    (log : List (TargetCall σ)) : Prop where
  rejected_iff : answer = .ok ⟨.someSignaturesWereInvalid, false⟩ ↔ Rejects attempts sigs
  rejected : Rejects attempts sigs → after = s ∧ log = []
  /-- Without an attempt nothing is witnessed. -/
  rechecked : ¬Rejects attempts sigs → attempts = 0 →
    answer = (calls.isReady s).1.map (fun ready => ⟨.ok, ready⟩) ∧ after = (calls.isReady s).2 ∧
      log = [.isReady s]
  failed : ¬Rejects attempts sigs → 0 < attempts →
    ∀ e t, calls.witness (signers sigs) s = (.error e, t) →
      answer = .error e ∧ after = t ∧ log = [.witness (signers sigs) s]
  witnessed : ¬Rejects attempts sigs → 0 < attempts →
    ∀ new t, calls.witness (signers sigs) s = (.ok new, t) →
      answer = (calls.isReady t).1.map (fun ready =>
        ⟨if ready ∨ 0 < new then .ok else .noNewValidSignatures, ready⟩) ∧
      after = (calls.isReady t).2 ∧ log = [.witness (signers sigs) s, .isReady t]
  ready : ∀ outcome, answer = .ok outcome → outcome.ready = true → outcome.status = .ok

theorem TargetCalls.decided {σ ε : Type} (calls : TargetCalls σ ε) (attempts : Nat)
    (sigs : List ScopedSignature) (s : σ) :
    let run := calls.logged.witnessInScope attempts sigs (s, [])
    Decided calls attempts sigs s run.1 run.2.1 run.2.2 := by
  intro run
  have hrun : run.1 = (calls.witnessInScope attempts sigs s).1 :=
    congrArg Prod.fst (calls.logged_witnessInScope attempts sigs s [])
  constructor
  case rejected_iff =>
    constructor
    · intro hanswer
      by_contra hkept
      exact (status_ne_of_not_rejects hkept (hrun.symm.trans hanswer)).1 rfl
    · intro hrejects
      rw [hrun, witnessInScope_of_rejects hrejects]
  case rejected =>
    intro hrejects
    simp [run, witnessInScope_of_rejects hrejects]
  case rechecked =>
    rintro - rfl
    simp [run, witnessInScope_zero]
  case failed =>
    intro hkept hattempts e t he
    have hlogged : calls.logged.witness (signers sigs) (s, []) =
        (.error e, t, [.witness (signers sigs) s]) := by
      simp [he]
    simp [run, witnessInScope_of_witness_error hattempts hkept hlogged]
  case witnessed =>
    intro hkept hattempts new t hnew
    have hlogged : calls.logged.witness (signers sigs) (s, []) =
        (.ok new, t, [.witness (signers sigs) s]) := by
      simp [hnew]
    simp [run, witnessInScope_of_witness_ok hattempts hkept hlogged]
  case ready =>
    intro outcome hok hready
    by_cases hrejects : Rejects attempts sigs
    · rw [hrun, witnessInScope_of_rejects hrejects] at hok
      cases hok
      cases hready
    · exact (status_ne_of_not_rejects hrejects (hrun.symm.trans hok)).2 hready

/-- Every signing operation is decided by this rule, from every state of its target and whatever the
two calls on it do. It is rejected without a call when it has fewer valid keys than attempts and some
signature is invalid. Otherwise its valid keys are witnessed in one call, unless nothing was attempted,
and then readiness is asked for in one call; the first error is the answer. To list the calls changes
nothing, and a target whose readiness leaves no mark is a case of this. -/
theorem operation_decided {σ ε : Type} (calls : TargetCalls σ ε) (attempts : Nat)
    (sigs : List ScopedSignature) (s : σ) :
    let run := calls.logged.witnessInScope attempts sigs (s, [])
    Decided calls attempts sigs s run.1 run.2.1 run.2.2 ∧
      calls.witnessInScope attempts sigs s = (run.1, run.2.1) ∧
      ∀ target : WitnessTarget σ ε, target.calls = calls →
        witnessInScope attempts sigs target s = (run.1, run.2.1) := by
  intro run
  have hrun : calls.witnessInScope attempts sigs s = (run.1, run.2.1) :=
    (calls.logged_witnessInScope attempts sigs s []).symm
  refine ⟨calls.decided attempts sigs s, hrun, fun target hcalls => ?_⟩
  rw [witnessInScope, hcalls, hrun]

end ConsensusLedger.Signing
