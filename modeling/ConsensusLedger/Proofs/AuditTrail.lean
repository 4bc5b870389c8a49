import ConsensusLedger.Proofs.Pipeline.Run

/-!
The records as an audit trail. Whatever is delivered, the balances that a call commits differ from
those before it by exactly what its records list, and a handling leaves no ledger transaction open.
-/

namespace ConsensusLedger

/-- What some records list for an account. -/
def Record.sumFor (id : AccountId) (records : List Record) : Int :=
  AccountAmount.sumFor id (records.flatMap (·.transfers))

namespace Record

@[simp] theorem sumFor_nil (id : AccountId) : sumFor id [] = 0 := rfl

theorem sumFor_cons (id : AccountId) (r : Record) (rest : List Record) :
    sumFor id (r :: rest) = AccountAmount.sumFor id r.transfers + sumFor id rest := by
  simp only [sumFor, List.flatMap_cons, AccountAmount.sumFor_append]

/-- A record lists each account once, in account order, and no account that has not changed. -/
def Listed (r : Record) : Prop :=
  (r.transfers.Pairwise fun a b => compare a.account b.account = .lt) ∧
    ∀ a ∈ r.transfers, a.amount ≠ 0

end Record

namespace Processor

/-- What some records account for between two states of the processor. -/
structure Audited (p : Processor) (records : List Record) (q : Processor) : Prop where
  balances : ∀ id, q.ledger.committedBalance? id =
    (p.ledger.committedBalance? id).map (· + Record.sumFor id records)
  listed : ∀ r ∈ records, r.Listed
  inTransaction : q.ledger.inTransaction = (p.ledger.inTransaction && records.isEmpty)

namespace Audited

protected theorem refl (p : Processor) : Audited p [] p := by
  refine ⟨fun id => ?_, fun r hr => ?_, (Bool.and_true _).symm⟩
  · simp only [Record.sumFor_nil, Int.add_zero, Option.map_id']
  · cases hr

/-- One more record in front. -/
theorem cons {rules : Rules} {p q q' : Processor} {txn : Envelope} {context : Context}
    {triggered : Bool} {r : Record} {next : Option Envelope} {rest : List Record}
    {maxMemoBytes : UInt64} (hstandard : rules.transitions = .standard maxMemoBytes)
    (hfirst : Recorded rules p txn context triggered r next q) (hrest : Audited q rest q') :
    Audited p (r :: rest) q' := by
  refine ⟨fun id => ?_, ?_, ?_⟩
  · rw [hrest.balances, hfirst.committedBalance? hstandard, Record.sumFor_cons, Option.map_map]
    congr 1
    funext b
    exact Int.add_assoc b _ _
  · intro s hs
    rcases List.mem_cons.1 hs with rfl | hs
    · exact ⟨hfirst.increasing, hfirst.ne_zero⟩
    · exact hrest.listed s hs
  · have hclosed : q.ledger.inTransaction = false := by
      rw [Ledger.inTransaction, hfirst.changes]
      rfl
    rw [hrest.inTransaction, hclosed, Bool.false_and, List.isEmpty_cons, Bool.and_false]

end Audited

variable {rules : Rules} {maxMemoBytes : UInt64}
  (hstandard : rules.transitions = .standard maxMemoBytes)

include hstandard

theorem Chain.audited {time : Timestamp} {member : MemberId} {account : AccountId} {p q : Processor}
    {next : Option Envelope} {records : List Record}
    (h : Chain rules time member account p next records q) : Audited p records q := by
  induction h with
  | ended p next => exact .refl p
  | triggered hfirst _ ih => exact ih.cons hstandard hfirst

theorem Call.audited {p q : Processor} {bytes : List UInt8} {time : Timestamp} {member : MemberId}
    {records : List Record} (h : Call rules p bytes time member records q) :
    Audited p records q := by
  cases h with
  | dropped => exact .refl p
  | accepted _ _ hfirst hrest => exact (hrest.audited hstandard).cons hstandard hfirst

end Processor

namespace Node

variable (c : ProcessingConfig) (book : AddressBook) (verification : Signing.VerifierConfig)
  (fees : FeeSchedule) (start : Processor) (ds : List Delivery)

/-- Along a run a ledger transaction is open only if it was at the start and nothing has been
recorded since. -/
theorem inTransaction_after :
    let n := standard c book verification fees start
    (n.after ds).processor.ledger.inTransaction =
      (start.ledger.inTransaction && (n.records ds).isEmpty) := by
  intro n
  induction ds using List.reverseRecOn with
  | nil => exact (Bool.and_true _).symm
  | append_singleton ds d ih =>
    have hcall := (deliver_call c book verification fees start ds d).audited rfl
    rw [hcall.inTransaction, ih, records_concat, Bool.and_assoc]
    cases n.records ds with
    | nil => rfl
    | cons r rest => rfl

/-- A call changes the committed balances by what its records list and by nothing else; the records
list changes of distinct accounts in order; and no change set is open after the call, unless one was
open at the start and no call has brought a record yet. -/
theorem records_audit_ledger (d : Delivery) :
    let n := standard c book verification fees start
    let records := ((n.after ds).deliver d).answer
    (∀ id, (n.after (ds ++ [d])).processor.ledger.committedBalance? id =
      ((n.after ds).processor.ledger.committedBalance? id).map (· + Record.sumFor id records)) ∧
    (∀ r ∈ records, r.Listed) ∧
    (n.after (ds ++ [d])).processor.ledger.inTransaction =
      (start.ledger.inTransaction && (n.records (ds ++ [d])).isEmpty) := by
  intro n records
  have hcall := (deliver_call c book verification fees start ds d).audited rfl
  exact ⟨hcall.balances, hcall.listed, inTransaction_after c book verification fees start (ds ++ [d])⟩

/-- A ledger that starts with an open change set keeps it open through a delivery that is dropped. -/
theorem open_changes_outlive_dropped_call :
    let start := Processor.start {} .standard ⟨.empty, some ∅⟩ (.empty 0 0)
      (.emitter (.ofSeed (Octets.replicate 48 0)))
    let n := standard {} ∅ Rules.standardVerification {} start
    ¬ ∀ d, (n.after [d]).processor.ledger.inTransaction = false := by
  intro start n h
  have hdropped := h ⟨[], ⟨1, 0⟩, 0⟩
  exact absurd hdropped (by decide)

end Node

end ConsensusLedger
