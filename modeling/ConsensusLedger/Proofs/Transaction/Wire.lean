import ConsensusLedger.Proofs.Transaction.Envelope
import ConsensusLedger.Proofs.Wire.Entities

/-!
The written forms of transactions are canonical. A byte string is read as a transaction exactly when
it begins with the transaction's written form, so two byte strings that are read as one transaction
differ only in what comes after that form.
-/

namespace ConsensusLedger

open Wire Codec

theorem TransactionId.canonical_codec : codec.Canonical anyValue :=
  ((EntityId.canonical_codec.pair (Timestamp.canonical_codec.pair canonical_bool)).imap
    (fun _ => rfl) fun _ _ => rfl).of_iff fun _ => iff_true_intro ⟨trivial, trivial, trivial⟩

theorem AccountAmount.canonical_codec : codec.Canonical anyValue :=
  ((EntityId.canonical_codec.pair canonical_i64).imap (fun _ => rfl) fun _ _ => rfl).of_iff
    fun _ => iff_true_intro ⟨trivial, trivial⟩

theorem FreezeWindow.canonical_codec : codec.Canonical anyValue :=
  ((canonical_u8.pair (canonical_u8.pair (canonical_u8.pair canonical_u8))).imap (fun _ => rfl)
    fun _ _ => rfl).of_iff fun _ => iff_true_intro ⟨trivial, trivial, trivial, trivial⟩

/-!
What a written form can hold: every length fits its field of eight bytes.
-/

def SignaturePair.Fits (s : SignaturePair) : Prop :=
  s.keyPrefix.length < 0x10000000000000000 ∧ s.signature.length < 0x10000000000000000

def SignatureMap.Fits (sigs : SignatureMap) : Prop :=
  sigs.length < 0x10000000000000000 ∧ ∀ s ∈ sigs, s.Fits

def TransactionData.Fits : TransactionData → Prop
  | cryptoTransfer transfers => transfers.length < 0x10000000000000000
  | scheduleCreate body _ adminKey memo sigs =>
    body.length < 0x10000000000000000 ∧ (∀ key, adminKey = some key → key.Fits) ∧
      Text.utf8Length memo < 0x10000000000000000 ∧ SignatureMap.Fits sigs
  | scheduleSign _ sigs => SignatureMap.Fits sigs
  | scheduleDelete _ => True
  | freeze _ => True

def TransactionBody.Fits (b : TransactionBody) : Prop :=
  Text.utf8Length b.memo < 0x10000000000000000 ∧ b.data.Fits

def SignedTransaction.Fits (t : SignedTransaction) : Prop :=
  t.bodyBytes.length < 0x10000000000000000 ∧ SignatureMap.Fits t.signatures

theorem SignaturePair.canonical_codec : codec.Canonical Fits :=
  (canonical_octets.pair canonical_octets).imap (fun _ => rfl) fun _ _ => rfl

theorem SignatureMap.canonical_codec : codec.Canonical Fits := SignaturePair.canonical_codec.list

namespace TransactionData

theorem canonical_transfers :
    (Codec.list AccountAmount.codec).Canonical fun transfers =>
      transfers.length < 0x10000000000000000 :=
  AccountAmount.canonical_codec.list.of_iff fun _ => and_iff_left fun _ _ => trivial

theorem canonical_createCodec :
    createCodec.Canonical fun (body, payer, adminKey, memo, sigs) =>
      Fits (scheduleCreate body payer adminKey memo sigs) :=
  (canonical_octets.pair (EntityId.canonical_codec.option.pair (Key.canonical_codec.option.pair
    (canonical_text.pair SignatureMap.canonical_codec)))).of_iff
      fun _ => and_congr_right fun _ => and_iff_right fun _ _ => trivial

theorem canonical_signCodec :
    (EntityId.codec.pair SignatureMap.codec).Canonical fun x => SignatureMap.Fits x.2 :=
  (EntityId.canonical_codec.pair SignatureMap.canonical_codec).of_iff fun _ => and_iff_right trivial

/-- One case for each kind of transaction: its tag, then its own fields. -/
theorem canonical_codec : codec.Canonical Fits := by
  intro bytes data rest
  simp only [codec, read, Reads.bind_eq_ok (canonical_number 4)]
  constructor
  · rintro ⟨t, tail, -, rfl, hread⟩
    split at hread
    · obtain ⟨transfers, after, hfits, rfl, hdata⟩ := (Reads.bind_eq_ok canonical_transfers).1 hread
      cases hdata
      exact ⟨hfits, (List.append_assoc ..).symm⟩
    · obtain ⟨fields, after, hfits, rfl, hdata⟩ := (Reads.bind_eq_ok canonical_createCodec).1 hread
      cases hdata
      exact ⟨hfits, (List.append_assoc ..).symm⟩
    · obtain ⟨fields, after, hfits, rfl, hdata⟩ := (Reads.bind_eq_ok canonical_signCodec).1 hread
      cases hdata
      exact ⟨hfits, (List.append_assoc ..).symm⟩
    · obtain ⟨id, after, -, rfl, hdata⟩ := (Reads.bind_eq_ok EntityId.canonical_codec).1 hread
      cases hdata
      exact ⟨trivial, (List.append_assoc ..).symm⟩
    · obtain ⟨window, after, -, rfl, hdata⟩ :=
        (Reads.bind_eq_ok FreezeWindow.canonical_codec).1 hread
      cases hdata
      exact ⟨trivial, (List.append_assoc ..).symm⟩
    · cases hread
  · rintro ⟨hfits, rfl⟩
    cases data with
    | cryptoTransfer transfers =>
      refine ⟨0, _, by decide, List.append_assoc .., ?_⟩
      exact (Reads.bind_eq_ok canonical_transfers).2 ⟨_, rest, hfits, rfl, rfl⟩
    | scheduleCreate body payer adminKey memo sigs =>
      refine ⟨1, _, by decide, List.append_assoc .., ?_⟩
      exact (Reads.bind_eq_ok canonical_createCodec).2 ⟨(body, payer, adminKey, memo, sigs), rest,
        hfits, rfl, rfl⟩
    | scheduleSign id sigs =>
      refine ⟨2, _, by decide, List.append_assoc .., ?_⟩
      exact (Reads.bind_eq_ok canonical_signCodec).2 ⟨(id, sigs), rest, hfits, rfl, rfl⟩
    | scheduleDelete id =>
      refine ⟨3, _, by decide, List.append_assoc .., ?_⟩
      exact (Reads.bind_eq_ok EntityId.canonical_codec).2 ⟨id, rest, trivial, rfl, rfl⟩
    | freeze window =>
      refine ⟨4, _, by decide, List.append_assoc .., ?_⟩
      exact (Reads.bind_eq_ok FreezeWindow.canonical_codec).2 ⟨window, rest, trivial, rfl, rfl⟩

end TransactionData

theorem TransactionBody.canonical_codec : codec.Canonical Fits :=
  ((TransactionId.canonical_codec.pair (EntityId.canonical_codec.pair (canonical_u64.pair
    (canonical_i64.pair (canonical_text.pair TransactionData.canonical_codec))))).imap
      (fun _ => rfl) fun _ _ => rfl).of_iff fun _ => by simp only [anyValue, true_and, Fits]

theorem SignedTransaction.canonical_codec : codec.Canonical Fits :=
  (canonical_octets.pair SignatureMap.canonical_codec).imap (fun _ => rfl) fun _ _ => rfl

theorem mapError_eq_ok {ε ε' α : Type} {f : ε → ε'} {r : Except ε α} {x : α} :
    r.mapError f = .ok x ↔ r = .ok x := by
  cases r with
  | error e => constructor <;> intro h <;> cases h
  | ok y => constructor <;> intro h <;> cases h <;> rfl

theorem TransactionBody.ofBytes_eq_ok {bytes : List UInt8} {body : TransactionBody} :
    ofBytes bytes = .ok body ↔ body.Fits ∧ body.toBytes <+: bytes :=
  mapError_eq_ok.trans canonical_codec.decode_eq_ok

theorem SignedTransaction.ofBytes_eq_ok {bytes : List UInt8} {signed : SignedTransaction} :
    ofBytes bytes = .ok signed ↔ signed.Fits ∧ signed.toBytes <+: bytes :=
  mapError_eq_ok.trans canonical_codec.decode_eq_ok

/-- The wire format is canonical up to what follows: a byte string is read as a value exactly when
it begins with the bytes that are written for the value, for bodies and for signed transactions. The
value then fits, since the lengths that were read do. -/
theorem transactions_read_iff_written :
    (∀ (bytes : List UInt8) (body : TransactionBody),
      TransactionBody.ofBytes bytes = .ok body ↔ body.Fits ∧ body.toBytes <+: bytes) ∧
    ∀ (bytes : List UInt8) (signed : SignedTransaction),
      SignedTransaction.ofBytes bytes = .ok signed ↔ signed.Fits ∧ signed.toBytes <+: bytes :=
  ⟨fun _ _ => TransactionBody.ofBytes_eq_ok, fun _ _ => SignedTransaction.ofBytes_eq_ok⟩

/-- What is delivered is read as what was written. -/
theorem Envelope.ofSigned_toBytes {body : TransactionBody} {signatures : SignatureMap}
    (hbody : body.Fits) (hlength : body.toBytes.length < 0x10000000000000000)
    (hsignatures : SignatureMap.Fits signatures) :
    let bytes := (SignedTransaction.mk body.toBytes signatures).toBytes
    ofSigned bytes = .ok ⟨bytes, body.toBytes, body, signatures, Digest.sha384 bytes,
      body.id.payer, none⟩ := by
  intro bytes
  have hsigned : SignedTransaction.ofBytes bytes = .ok ⟨body.toBytes, signatures⟩ :=
    SignedTransaction.ofBytes_eq_ok.2 ⟨⟨hlength, hsignatures⟩, List.prefix_rfl⟩
  have hinner : TransactionBody.ofBytes body.toBytes = .ok body :=
    TransactionBody.ofBytes_eq_ok.2 ⟨hbody, List.prefix_rfl⟩
  simp only [ofSigned, hsigned, hinner, bind, Except.bind]
  rfl

end ConsensusLedger
