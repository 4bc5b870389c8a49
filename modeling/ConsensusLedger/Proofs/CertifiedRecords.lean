import ConsensusLedger.Proofs.Pipeline.Handled
import ConsensusLedger.Proofs.Transaction.Wire
import ConsensusLedger.Proofs.WaitingSchedules

/-!
What is streamed certifies its record. The streamed bytes have the hash of the record and decode to a
transaction with the record's identifier and memo. They are the delivered bytes, or those written for
the inner transaction of the schedule that the record names.
-/

namespace ConsensusLedger

open ScheduleStore

theorem TransactionId.length_write (id : TransactionId) : (codec.write id).length = 37 := rfl

/-- A body takes up as many bytes under another identifier. -/
theorem TransactionBody.length_toBytes_id (b : TransactionBody) (id : TransactionId) :
    (TransactionBody.toBytes { b with id := id }).length = b.toBytes.length := by
  change (TransactionId.codec.write id ++ _).length = (TransactionId.codec.write b.id ++ _).length
  rw [List.length_append, List.length_append, TransactionId.length_write,
    TransactionId.length_write]

namespace Envelope

/-- The bytes of a transaction have its hash and decode to its body. -/
structure Certified (txn : Envelope) (signed : SignedTransaction) : Prop where
  hash : Digest.sha384 txn.signedBytes = txn.hash
  decodes : SignedTransaction.ofBytes txn.signedBytes = .ok signed
  reads : TransactionBody.ofBytes signed.bodyBytes = .ok txn.body

/-- A delivered transaction keeps the bytes that it came as, with whatever follows it in them. -/
theorem certified_of_ofSigned {bytes : List UInt8} {txn : Envelope} (h : ofSigned bytes = .ok txn) :
    txn.signedBytes = bytes ∧ ∃ signed, txn.Certified signed := by
  obtain ⟨signed, body, hsigned, hbody, rfl⟩ := ofSigned_eq_ok h
  exact ⟨rfl, signed, rfl, hsigned, hbody⟩

/-- An inner transaction is decoded from the body of its schedule, gets another identifier, and is
written again, without signatures. Its own body starts with what was read of the schedule's, so it is
no longer. -/
theorem certified_of_ofScheduled {body : List UInt8} {id : TransactionId} {payer : AccountId}
    {schedule : ScheduleId} {txn : Envelope} (h : ofScheduled body id payer schedule = .ok txn)
    (hlength : body.length < 0x10000000000000000) :
    txn.Certified ⟨txn.bodyBytes, []⟩ ∧
      ∃ inner, TransactionBody.ofBytes body = .ok inner ∧
        txn.body = { inner with id := id.asScheduled } := by
  unfold ofScheduled at h
  cases hinner : TransactionBody.ofBytes body with
  | error e =>
    rw [hinner] at h
    cases h
  | ok inner =>
    rw [hinner] at h
    cases h
    obtain ⟨hfits, hprefix⟩ := TransactionBody.ofBytes_eq_ok.1 hinner
    have hshort : (TransactionBody.toBytes { inner with id := id.asScheduled }).length <
        0x10000000000000000 := by
      rw [TransactionBody.length_toBytes_id]
      exact Nat.lt_of_le_of_lt hprefix.length_le hlength
    refine ⟨⟨rfl, ?_, ?_⟩, inner, rfl, rfl⟩
    · have hunsigned : SignatureMap.Fits [] := ⟨by decide, nofun⟩
      exact SignedTransaction.ofBytes_eq_ok.2 ⟨⟨hshort, hunsigned⟩, List.prefix_rfl⟩
    · exact TransactionBody.ofBytes_eq_ok.2 ⟨hfits, List.prefix_rfl⟩

end Envelope

/-- The streamed bytes have the hash of the record, and decode to a signed transaction whose body has
the identifier and the memo of the record. -/
structure StreamObject.Certifies (o : StreamObject) (signed : SignedTransaction)
    (body : TransactionBody) : Prop where
  hash : Digest.sha384 o.signedBytes = o.record.hash
  decodes : SignedTransaction.ofBytes o.signedBytes = .ok signed
  reads : TransactionBody.ofBytes signed.bodyBytes = .ok body
  id : body.id = o.record.id
  memo : body.memo = o.record.memo

theorem Envelope.Certified.certifies {h : HandledTransaction} {signed : SignedTransaction}
    (hcertified : h.txn.Certified signed) (hid : h.record.id = h.txn.id)
    (hcontents : h.record.hash = h.txn.hash ∧ h.record.memo = h.txn.body.memo) :
    h.object.Certifies signed h.txn.body :=
  ⟨hcertified.hash.trans hcontents.1.symm, hcertified.decodes, hcertified.reads, hid.symm,
    hcontents.2.symm⟩

/-- The bytes of the inner transactions are as short as byte strings in memory are. -/
def ScheduleStore.BodiesFit : ScheduleStore → Prop :=
  All fun _ x => x.body.length < 0x10000000000000000

theorem ScheduleStore.bodiesFit_empty (lifetime : Int64) (first : UInt64) :
    (ScheduleStore.empty lifetime first).BodiesFit := by
  rintro id x (hnone | hnone) <;> cases hnone

/-- A creation that was read brings a body with a length of eight bytes. -/
theorem Envelope.fits_of_ofSigned {bytes : List UInt8} {txn : Envelope}
    (h : ofSigned bytes = .ok txn) {request : NewSchedule}
    (hop : ScheduleOperation.ofEnvelope? txn = some (.create request)) :
    request.body.length < 0x10000000000000000 := by
  obtain ⟨signed, body, -, hbody, rfl⟩ := ofSigned_eq_ok h
  obtain ⟨⟨-, hfits⟩, -⟩ := TransactionBody.ofBytes_eq_ok.1 hbody
  unfold ScheduleOperation.ofEnvelope? at hop
  split at hop
  · rename_i hdata
    cases hop
    rw [show body.data = _ from hdata] at hfits
    exact hfits.1
  · cases hop
  · cases hop

namespace Processor

/-- A schedule that a call can execute under an identifier: it is in the store once what is due has
expired, or the delivered transaction creates it under the next identifier. -/
def Executable (p : Processor) (d : Delivery) (id : ScheduleId) (x : Schedule) : Prop :=
  ∃ txn, Envelope.ofSigned d.bytes = .ok txn ∧
    let now := (effectiveTime txn d.time).seconds
    let s := (p.schedules.purge now).2
    s.store.Holds id x ∨
      ∃ request, ScheduleOperation.ofEnvelope? txn = some (.create request) ∧
        id = s.nextId request ∧ x = request.schedule (now + s.lifetime)

/-- What is streamed for a transaction of a call certifies its record. Without a schedule reference
its bytes are the delivered ones. With one they hold no signatures, and the body is the decoded one of
a schedule that the call can execute, with the scheduled identifier in place of its own. -/
def Certified (p : Processor) (d : Delivery) (o : StreamObject) : Prop :=
  ∃ signed body, o.Certifies signed body ∧
    (o.record.scheduleRef = none → o.signedBytes = d.bytes) ∧
    ∀ id, o.record.scheduleRef = some id → signed.signatures = [] ∧
      ∃ x inner, p.Executable d id x ∧ TransactionBody.ofBytes x.body = .ok inner ∧
        body = { inner with id := x.scheduledId }

/-- The schedule has the body and the scheduled identifier of one that the call can execute, and the
body is short enough to be written. -/
def RunsExecutable (p : Processor) (d : Delivery) (id : ScheduleId) (y : Schedule) : Prop :=
  ∃ x, p.Executable d id x ∧ y.body = x.body ∧ y.scheduledId = x.scheduledId ∧
    x.body.length < 0x10000000000000000

variable {rules : Rules} {maxMemoBytes : UInt64} {p q : Processor} {d : Delivery}

theorem HandledCall.bodiesFit {handled : List HandledTransaction}
    (h : HandledCall rules p d handled q) (hstandard : rules.transitions = .standard maxMemoBytes)
    (hfits : p.schedules.BodiesFit) : q.schedules.BodiesFit :=
  h.all hstandard (fun _ _ _ hx => hx) hfits
    fun _ hparse _ _ hop => Envelope.fits_of_ofSigned hparse hop

/-- What a delivered transaction triggers stems from a schedule that the call can execute. -/
theorem Recorded.stemsFrom_executable {txn inner : Envelope} {account : Option AccountId} {r : Record}
    (h : Recorded rules p txn (.start (effectiveTime txn d.time) d.member account) false r
      (some inner) q) (hstandard : rules.transitions = .standard maxMemoBytes)
    (hparse : Envelope.ofSigned d.bytes = .ok txn) (hfits : p.schedules.BodiesFit) :
    inner.StemsFrom (p.RunsExecutable d) := by
  refine (h.traced hstandard (fun _ _ _ hx => hx) rfl ?_ ?_).2 inner rfl
  · intro id x hx
    exact ⟨x, ⟨txn, hparse, .inl hx⟩, rfl, rfl, hfits.purge _ id x hx⟩
  · intro _ request hop
    exact ⟨_, ⟨txn, hparse, .inr ⟨request, hop, rfl, rfl⟩⟩, rfl, rfl,
      Envelope.fits_of_ofSigned hparse hop⟩

/-- What is streamed for a call certifies the records that it returns. -/
theorem HandledCall.certified {handled : List HandledTransaction}
    (h : HandledCall rules p d handled q) (hstandard : rules.transitions = .standard maxMemoBytes)
    (hfits : p.schedules.BodiesFit)
    (hcontents : ∀ h ∈ handled, h.record.hash = h.txn.hash ∧ h.record.memo = h.txn.body.memo) :
    ∀ h ∈ handled, p.Certified d h.object := by
  have hdelivered {txn : Envelope} {r : Record} (hparse : Envelope.ofSigned d.bytes = .ok txn)
      (hid : r.id = txn.id) (href : r.scheduleRef = txn.schedule)
      (hsame : r.hash = txn.hash ∧ r.memo = txn.body.memo) :
      p.Certified d (HandledTransaction.mk txn r).object := by
    obtain ⟨hbytes, signed, hcertified⟩ := Envelope.certified_of_ofSigned hparse
    refine ⟨signed, txn.body, hcertified.certifies hid hsame, fun _ => hbytes, fun id hsome => ?_⟩
    cases (href.trans (Envelope.schedule_of_ofSigned hparse)).symm.trans hsome
  cases h with
  | dropped => exact fun _ hmem => absurd hmem List.not_mem_nil
  | alone hparse hsane hfirst =>
    rw [List.forall_mem_singleton] at hcontents ⊢
    exact hdelivered hparse hfirst.id hfirst.scheduleRef hcontents
  | followed hparse hsane hfirst hsecond =>
    rename_i txn inner address r s q
    rw [List.forall_mem_cons, List.forall_mem_singleton] at hcontents ⊢
    refine ⟨hdelivered hparse hfirst.id hfirst.scheduleRef hcontents.1, ?_⟩
    obtain ⟨id, y, ⟨x, hx, hbody, hscheduledId, hlength⟩, hinner⟩ :=
      hfirst.stemsFrom_executable hstandard hparse hfits
    rw [hbody, hscheduledId] at hinner
    obtain ⟨hcertified, body, hread, hsame⟩ := Envelope.certified_of_ofScheduled hinner hlength
    have href : s.scheduleRef = some id :=
      hsecond.scheduleRef.trans (Envelope.origin_of_ofScheduled hinner).2.2
    refine ⟨_, inner.body, hcertified.certifies hsecond.id hcontents.2, fun hnone => ?_,
      fun id' hsome => ⟨rfl, x, body, ?_, hread, hsame⟩⟩
    · cases href.symm.trans hnone
    · cases href.symm.trans hsome
      exact hx

end Processor

/-- The missing signature, followed by a byte that nobody reads. -/
def Sample.trailingApproval : Delivery :=
  { approval with bytes := approval.bytes ++ [7] }

namespace Node

variable (c : ProcessingConfig) (book : AddressBook) (verification : Signing.VerifierConfig)
  (fees : FeeSchedule) {start : Processor}

theorem bodiesFit_after (hfits : start.schedules.BodiesFit) (ds : List Delivery) :
    ((standard c book verification fees start).after ds).processor.schedules.BodiesFit := by
  induction ds using List.reverseRecOn with
  | nil => exact hfits
  | append_singleton ds d ih =>
    rw [processor_after_concat, deliver_after]
    exact (Processor.incorporate_handledCall rfl _ d).bodiesFit rfl ih

/-- Every streamed object certifies its own record. A call offers the stream one object for each
record that it returns. The streamed bytes have the hash of the record, and decode to a signed
transaction and its body, which has the identifier and the memo of the record. Without a schedule
reference they are the delivered bytes; with one, the transaction has no signatures, and its body is
the decoded one of the schedule with the scheduled identifier in place of its own. -/
theorem objects_certify_records (hfits : start.schedules.BodiesFit) (ds : List Delivery)
    (d : Delivery) :
    let n := (standard c book verification fees start).after ds
    ∃ objects : List StreamObject,
      objects.map (·.record) = (n.deliver d).answer ∧
      (n.deliver d).processor.records = n.processor.records.appendAll objects ∧
      ∀ o ∈ objects, n.processor.Certified d o := by
  intro n
  have hstandard : n.rules.transitions = .standard c.maxMemoBytes := by
    rw [rules_after]
    rfl
  have hfits' := bodiesFit_after c book verification fees hfits ds
  obtain ⟨hanswer, hrecords⟩ := n.processor.incorporate_handled n.rules d
  have hcertified := (Processor.incorporate_handledCall hstandard n.processor d).certified hstandard
    hfits' (n.processor.handled_contents n.rules d)
  refine ⟨_, ?_, hrecords, fun o ho => ?_⟩
  · rw [List.map_map]
    exact hanswer.symm
  · obtain ⟨h, hh, rfl⟩ := List.mem_map.1 ho
    exact hcertified h hh

/-- The approval is streamed as it was delivered, with the byte that follows it, and the transfer that
it executes as the scheduled body under its scheduled identifier. -/
theorem objects_certify_records_approval :
    let n := (standard {} Sample.book Sample.verification {} Sample.start).after [Sample.creation]
    let d := Sample.trailingApproval
    ∃ o o' : StreamObject, (n.deliver d).answer = [o.record, o'.record] ∧
      o.signedBytes = Sample.approval.bytes ++ [7] ∧ n.processor.Certified d o ∧
      o'.record.scheduleRef = some (.ofNum 1000) ∧ n.processor.Certified d o' := by
  intro n d
  have hrefs : (n.deliver d).answer.map (·.scheduleRef) = [none, some (.ofNum 1000)] := by
    decide +kernel
  have hfits : Sample.start.schedules.BodiesFit := bodiesFit_empty 1800 1000
  obtain ⟨objects, hanswer, -, hcertified⟩ := objects_certify_records {} Sample.book
    Sample.verification {} hfits [Sample.creation] d
  rw [← hanswer, List.map_map] at hrefs
  obtain ⟨o, rest, rfl, href, hrest⟩ := List.map_eq_cons_iff.1 hrefs
  obtain ⟨o', rest', rfl, href', hrest'⟩ := List.map_eq_cons_iff.1 hrest
  obtain rfl := List.map_eq_nil_iff.1 hrest'
  have ho := hcertified o List.mem_cons_self
  have hbytes : o.signedBytes = d.bytes := by
    obtain ⟨-, -, -, hexternal, -⟩ := ho
    exact hexternal href
  exact ⟨o, o', hanswer.symm, hbytes, ho, href',
    hcertified o' (List.mem_cons_of_mem o List.mem_cons_self)⟩

end Node

end ConsensusLedger
