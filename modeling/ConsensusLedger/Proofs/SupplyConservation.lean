import ConsensusLedger.Proofs.Pipeline.Solvency
import ConsensusLedger.Proofs.WaitingSchedules

/-!
Conservation of the supply. Whatever is delivered, the balances keep adding up to what they added up
to at the start, the transfers of every record cancel out, and no handling is given up because of
the ledger.
-/

namespace ConsensusLedger

open Transition (netAmount)

namespace Processor

/-- Nothing has been created or destroyed, and nothing was given up because of the ledger. -/
structure Conserved (p : Processor) (done : Handled (List Record)) : Prop where
  supply : done.processor.ledger.supply = p.ledger.supply
  cancelled : ∀ r ∈ done.answer, netAmount r.transfers = 0
  unbroken : ∀ n ∈ done.notices, n.blamesLedger = false

namespace Conserved

theorem nothing (p : Processor) {notices : List Notice}
    (h : ∀ n ∈ notices, n.blamesLedger = false) : Conserved p ⟨[], notices, p⟩ := by
  refine ⟨rfl, fun r hr => ?_, h⟩
  cases hr

/-- What is conserved by one handling and by those that follow it is conserved by all of them. -/
theorem cons {p : Processor} {r : Record} {notices : List Notice} {q : Processor}
    {rest : Handled (List Record)} (hfirst : Conserved p ⟨[r], notices, q⟩)
    (hrest : Conserved q rest) :
    Conserved p ⟨r :: rest.answer, notices ++ rest.notices, rest.processor⟩ := by
  refine ⟨hrest.supply.trans hfirst.supply, fun s hs => ?_, fun n hn => ?_⟩
  · rcases List.mem_cons.1 hs with rfl | hs
    · exact hfirst.cancelled s List.mem_cons_self
    · exact hrest.cancelled s hs
  · exact (List.mem_append.1 hn).elim (hfirst.unbroken n) (hrest.unbroken n)

end Conserved

variable {rules : Rules} {maxMemoBytes : UInt64}
  (hstandard : rules.transitions = .standard maxMemoBytes)

include hstandard

/-- A handling moves coins and makes none: what its run gathers cancels out, and is written as a
whole or not at all. -/
theorem Recorded.cancelled {p q : Processor} {txn : Envelope} {context : Context} {triggered : Bool}
    {r : Record} {next : Option Envelope} (h : Recorded rules p txn context triggered r next q)
    (hsupply : p.ledger.supply ≤ AccountAmount.maximum) :
    q.ledger.supply = p.ledger.supply ∧ netAmount r.transfers = 0 := by
  obtain ⟨hnet, hholders⟩ :
      netAmount r.transfers = 0 ∧ ∀ x ∈ r.transfers, x.account ∈ p.ledger.holders := by
    obtain ⟨l, htransfers, -, hl⟩ := h.accounts
    rw [htransfers]
    rcases hl with rfl | rfl
    · have hadjusted := (running_course rules p txn context triggered hstandard).ledger
      have hsolvent := (running_unbroken hstandard p hsupply txn context triggered).solvent
      have haccounts : (p.running rules txn context triggered).2.ledger.accounts =
          p.ledger.accounts := hadjusted.accounts_eq
      rw [← Ledger.holders_congr haccounts]
      exact hsolvent.netTransfers (hadjusted.settleable (Ledger.settleable_opened p.ledger.accounts))
    · exact ⟨rfl, nofun⟩
  have hmoved := Ledger.supply_of_committedBalance? (h.committedBalance? hstandard) hholders
  exact ⟨by omega, hnet⟩

variable (p : Processor) (time : Timestamp) (member : MemberId) (account : AccountId)

theorem handleAndRecord_conserved (hsupply : p.ledger.supply ≤ AccountAmount.maximum)
    (txn : Envelope) (triggered : Bool) :
    let done := p.handleAndRecord rules txn time member account triggered
    Conserved p ⟨[done.answer.1], done.notices, done.processor⟩ := by
  intro done
  obtain ⟨hsame, hnet⟩ := (handleAndRecord_recorded rules p txn triggered hstandard time member
    account).cancelled hstandard hsupply
  refine ⟨hsame, fun r hr => ?_, fun n hn => ?_⟩
  · rw [List.mem_singleton.1 hr]
    exact hnet
  · rcases List.mem_append.1 hn with hhandled | hfinished
    · exact handle_notices hstandard p hsupply txn _ triggered n hhandled
    · exact finish_notices _ txn _ n hfinished

/-- The chain of triggered transactions conserves the supply, however long it is. -/
theorem follow_conserved (count : Nat) (next : Option Envelope)
    (hsupply : p.ledger.supply ≤ AccountAmount.maximum) :
    Conserved p (follow rules time member account count p next) := by
  induction count generalizing p next with
  | zero => exact .nothing p (List.forall_mem_nil _)
  | succ count ih =>
    cases next with
    | none => exact .nothing p (List.forall_mem_nil _)
    | some txn =>
      have hfirst := handleAndRecord_conserved hstandard p time member account hsupply txn true
      exact hfirst.cons (ih _ _ (hfirst.supply.trans_le hsupply))

theorem accept_conserved (txn : Envelope) (hsupply : p.ledger.supply ≤ AccountAmount.maximum) :
    Conserved p (p.accept rules txn time member account) := by
  have hfirst := handleAndRecord_conserved hstandard p (effectiveTime txn time) member account
    hsupply txn false
  have hrest := follow_conserved hstandard _ time member account chainLimit
    (p.handleAndRecord rules txn (effectiveTime txn time) member account false).answer.2
    (hfirst.supply.trans_le hsupply)
  unfold accept
  exact hfirst.cons hrest

theorem incorporate_conserved (bytes : List UInt8)
    (hsupply : p.ledger.supply ≤ AccountAmount.maximum) :
    Conserved p (p.incorporate rules bytes time member) := by
  unfold incorporate
  split
  · refine .nothing p fun n hn => ?_
    rw [List.mem_singleton.1 hn]
    rfl
  · split
    · rename_i e _
      refine .nothing p fun n hn => ?_
      rw [List.mem_singleton.1 hn]
      cases e <;> rfl
    · rename_i txn _ _ address _
      exact accept_conserved hstandard p time member address.account txn hsupply

end Processor

namespace Node

variable (c : ProcessingConfig) (book : AddressBook) (verification : Signing.VerifierConfig)
  (fees : FeeSchedule) {start : Processor}

theorem deliver_conserved (hsupply : start.ledger.supply ≤ AccountAmount.maximum)
    (ds : List Delivery) (d : Delivery) :
    let n := standard c book verification fees start
    (n.after ds).processor.ledger.supply = start.ledger.supply ∧
      Processor.Conserved (n.after ds).processor ((n.after ds).deliver d) := by
  intro n
  have hdeliver {ds : List Delivery} (d : Delivery)
      (hsame : (n.after ds).processor.ledger.supply = start.ledger.supply) :
      Processor.Conserved (n.after ds).processor ((n.after ds).deliver d) := by
    rw [deliver_after]
    exact Processor.incorporate_conserved rfl _ d.time d.member d.bytes (hsame.trans_le hsupply)
  induction ds using List.reverseRecOn generalizing d with
  | nil => exact ⟨rfl, hdeliver d rfl⟩
  | append_singleton ds d' ih =>
    obtain ⟨hsame, hconserved⟩ := ih d'
    have hsame' : (n.after (ds ++ [d'])).processor.ledger.supply = start.ledger.supply := by
      rw [processor_after_concat]
      exact hconserved.supply.trans hsame
    exact ⟨hsame', hdeliver d hsame'⟩

/-- From balances that add up to an amount, whatever the prices, the rates and the schedules: after
every call the balances add up to what they added up to at the start, the transfers of every record
cancel out, and no handling is given up because of the ledger. -/
theorem supply_conserved (hsupply : start.ledger.supply ≤ AccountAmount.maximum)
    (ds : List Delivery) (d : Delivery) :
    let n := standard c book verification fees start
    let done := (n.after ds).deliver d
    (n.after (ds ++ [d])).processor.ledger.supply = start.ledger.supply ∧
      (∀ r ∈ done.answer, netAmount r.transfers = 0) ∧
      ∀ notice ∈ done.notices, notice.blamesLedger = false := by
  intro n done
  obtain ⟨hsame, hconserved⟩ := deliver_conserved c book verification fees hsupply ds d
  refine ⟨?_, hconserved.cancelled, hconserved.unbroken⟩
  rw [processor_after_concat]
  exact hconserved.supply.trans hsame

/-- The approval of the scheduled transfer has both transactions charged, and the coins of all four
accounts are still there. -/
theorem supply_conserved_approval :
    let done := (Sample.after [Sample.creation]).deliver Sample.approval
    Sample.start.ledger.supply = 1000010 ∧ done.answer.length = 2 ∧
      (Sample.after [Sample.creation, Sample.approval]).processor.ledger.supply = 1000010 ∧
      (∀ r ∈ done.answer, netAmount r.transfers = 0) ∧
      ∀ notice ∈ done.notices, notice.blamesLedger = false := by
  intro done
  have hsupply : Sample.start.ledger.supply = 1000010 := by decide +kernel
  have hamount : Sample.start.ledger.supply ≤ AccountAmount.maximum := by decide +kernel
  have hlength : done.answer.length = 2 := by decide +kernel
  obtain ⟨hsame, hcancelled, hunbroken⟩ := supply_conserved {} Sample.book Sample.verification {}
    hamount [Sample.creation] Sample.approval
  exact ⟨hsupply, hlength, hsame.trans hsupply, hcancelled, hunbroken⟩

end Node

end ConsensusLedger
