import ConsensusLedger.Node
import ConsensusLedger.Proofs.Pipeline.Recorded
import Mathlib.Data.List.Induction

/-!
Calls and runs. A call either drops what was delivered and leaves the processor as it was, or handles
the delivered transaction and after it the chain of those that are triggered. A run makes one call
for each delivery.
-/

namespace ConsensusLedger

namespace Processor

/-- The records of triggered transactions that follow one another, and the processor after them. -/
inductive Chain (rules : Rules) (time : Timestamp) (member : MemberId) (account : AccountId) :
    Processor → Option Envelope → List Record → Processor → Prop
  | ended (p : Processor) (next : Option Envelope) : Chain rules time member account p next [] p
  | triggered {p q q' : Processor} {txn : Envelope} {r : Record} {next : Option Envelope}
      {rest : List Record}
      (hfirst : Recorded rules p txn (.start time member (some account)) true r next q)
      (hrest : Chain rules time member account q next rest q') :
      Chain rules time member account p (some txn) (r :: rest) q'

theorem follow_chain {rules : Rules} {maxMemoBytes : UInt64}
    (hstandard : rules.transitions = .standard maxMemoBytes) (time : Timestamp) (member : MemberId)
    (account : AccountId) (n : Nat) (p : Processor) (next : Option Envelope) :
    Chain rules time member account p next (follow rules time member account n p next).answer
      (follow rules time member account n p next).processor := by
  induction n generalizing p next with
  | zero => exact .ended p next
  | succ n ih =>
    cases next with
    | none => exact .ended p none
    | some txn =>
      exact .triggered (handleAndRecord_recorded rules p txn true hstandard time member account)
        (ih _ _)

/-- The records that a call brings, and the processor after it. -/
inductive Call (rules : Rules) (p : Processor) (bytes : List UInt8) (time : Timestamp)
    (member : MemberId) : List Record → Processor → Prop
  | dropped : Call rules p bytes time member [] p
  | accepted {txn : Envelope} {address : NodeAddress} {r : Record} {next : Option Envelope}
      {q q' : Processor} {rest : List Record}
      (hparse : Envelope.ofSigned bytes = .ok txn)
      (hsane : Gate.sanityCheck rules.book (effectiveTime txn time) p.clock.lastHandled member =
        .ok address)
      (hfirst : Recorded rules p txn
        (.start (effectiveTime txn time) member (some address.account)) false r next q)
      (hrest : Chain rules time member address.account q next rest q') :
      Call rules p bytes time member (r :: rest) q'

section Incorporate

variable {rules : Rules} {maxMemoBytes : UInt64}
  (hstandard : rules.transitions = .standard maxMemoBytes) (p : Processor)

include hstandard

/-- What passes the sanity check is handled. -/
theorem incorporate_accepted {bytes : List UInt8} {time : Timestamp} {member : MemberId}
    {txn : Envelope} {address : NodeAddress} (hparse : Envelope.ofSigned bytes = .ok txn)
    (hsane : Gate.sanityCheck rules.book (effectiveTime txn time) p.clock.lastHandled member =
      .ok address) :
    ∃ r next q rest, (p.incorporate rules bytes time member).answer = r :: rest ∧
      Recorded rules p txn (.start (effectiveTime txn time) member (some address.account)) false r
        next q ∧
      Chain rules time member address.account q next rest
        (p.incorporate rules bytes time member).processor := by
  simp only [incorporate, hparse, hsane]
  exact ⟨_, _, _, _, rfl,
    handleAndRecord_recorded rules p txn false hstandard _ member address.account,
    follow_chain hstandard time member address.account chainLimit _ _⟩

theorem incorporate_call (bytes : List UInt8) (time : Timestamp) (member : MemberId) :
    Call rules p bytes time member (p.incorporate rules bytes time member).answer
      (p.incorporate rules bytes time member).processor := by
  cases hparse : Envelope.ofSigned bytes with
  | error e =>
    simp only [incorporate, hparse]
    exact .dropped
  | ok txn =>
    cases hsane : Gate.sanityCheck rules.book (effectiveTime txn time) p.clock.lastHandled member with
    | error e =>
      simp only [incorporate, hparse, hsane]
      exact .dropped
    | ok address =>
      obtain ⟨r, next, q, rest, hanswer, hfirst, hrest⟩ := incorporate_accepted hstandard p hparse hsane
      rw [hanswer]
      exact .accepted hparse hsane hfirst hrest

end Incorporate

end Processor

namespace Node

/-- A node with the standard transitions. What tests signatures, the prices, the settings, the members
and the state that the node starts from are left open. -/
def standard (c : ProcessingConfig) (book : AddressBook) (verification : Signing.VerifierConfig)
    (fees : FeeSchedule) (start : Processor) : Node :=
  ⟨{ Rules.standard c book with verification := verification, fees := fees }, start⟩

/-- The node after some deliveries. -/
def after (n : Node) (ds : List Delivery) : Node := (n.run .zero ds).2

/-- The records that some deliveries bring, call by call. -/
def calls (n : Node) : List Delivery → List (List Record)
  | [] => []
  | d :: rest =>
    let done := n.deliver d
    done.answer :: calls { n with processor := done.processor } rest

/-- The records that some deliveries bring, in order. -/
def records (n : Node) (ds : List Delivery) : List Record := (n.calls ds).flatten

variable (n : Node)

private theorem run_tally (ds : List Delivery) (t t' : Tally) : (n.run t ds).2 = (n.run t' ds).2 := by
  induction ds generalizing n t t' with
  | nil => rfl
  | cons d rest ih => exact ih _ _ _

@[simp] theorem after_nil : n.after [] = n := rfl

theorem after_cons (d : Delivery) (ds : List Delivery) :
    n.after (d :: ds) = after { n with processor := (n.deliver d).processor } ds :=
  run_tally _ ds _ _

theorem after_append (ds es : List Delivery) : n.after (ds ++ es) = (n.after ds).after es := by
  induction ds generalizing n with
  | nil => rfl
  | cons d rest ih => rw [List.cons_append, after_cons, after_cons, ih]

@[simp] theorem rules_after (ds : List Delivery) : (n.after ds).rules = n.rules := by
  induction ds generalizing n with
  | nil => rfl
  | cons d rest ih => rw [after_cons, ih]

theorem deliver_after (ds : List Delivery) (d : Delivery) :
    (n.after ds).deliver d =
      (n.after ds).processor.incorporate n.rules d.bytes d.time d.member := by
  rw [deliver, rules_after]

theorem processor_after_concat (ds : List Delivery) (d : Delivery) :
    (n.after (ds ++ [d])).processor = ((n.after ds).deliver d).processor := by
  rw [after_append]
  rfl

theorem calls_append (ds es : List Delivery) :
    n.calls (ds ++ es) = n.calls ds ++ (n.after ds).calls es := by
  induction ds generalizing n with
  | nil => rfl
  | cons d rest ih =>
    simp only [List.cons_append, calls, after_cons, ih]

@[simp] theorem records_nil : n.records [] = [] := rfl

theorem records_append (ds es : List Delivery) :
    n.records (ds ++ es) = n.records ds ++ (n.after ds).records es := by
  simp only [records, calls_append, List.flatten_append]

theorem records_concat (ds : List Delivery) (d : Delivery) :
    n.records (ds ++ [d]) = n.records ds ++ ((n.after ds).deliver d).answer := by
  rw [records_append]
  simp only [records, calls, List.flatten_cons, List.flatten_nil, List.append_nil]

/-- Every delivery of a run is a call. -/
theorem deliver_call (c : ProcessingConfig) (book : AddressBook)
    (verification : Signing.VerifierConfig) (fees : FeeSchedule) (start : Processor)
    (ds : List Delivery) (d : Delivery) :
    let n := standard c book verification fees start
    Processor.Call n.rules (n.after ds).processor d.bytes d.time d.member
      ((n.after ds).deliver d).answer (n.after (ds ++ [d])).processor := by
  intro n
  rw [processor_after_concat, deliver_after]
  exact Processor.incorporate_call rfl (n.after ds).processor d.bytes d.time d.member

end Node

end ConsensusLedger
