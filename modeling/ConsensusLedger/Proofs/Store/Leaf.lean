import ConsensusLedger.Ledger.Account
import ConsensusLedger.Proofs.Wire.Entities
import ConsensusLedger.Schedule.Basic

/-!
What a collection is hashed from. An entry is written as its key and its value, and each written entry
is preceded by its length. A value that is too long for one of its length fields has a written form
that is too long for any memory; so what is hashed can always be taken apart again, into the entries
that it was made from.
-/

namespace ConsensusLedger

open Wire

/-- Byte strings whose length fits a field of eight bytes, as that of every byte string in memory
does. -/
def Addressable (bytes : List UInt8) : Prop := bytes.length < 0x10000000000000000

instance (bytes : List UInt8) : Decidable (Addressable bytes) :=
  inferInstanceAs (Decidable (_ < _))

theorem Addressable.of_append {bytes bytes' : List UInt8} (h : Addressable (bytes ++ bytes')) :
    Addressable bytes ∧ Addressable bytes' := by
  unfold Addressable at h ⊢
  rw [List.length_append] at h
  omega

namespace Wire.Codec

variable {α β : Type}

/-- Every value whose written form fits into memory is read from that form, whatever follows it. -/
def ReadsBack (c : Codec α) : Prop :=
  ∀ x rest, Addressable (c.write x) → c.read (c.write x ++ rest) = .ok (x, rest)

theorem Canonical.readsBack {c : Codec α} {fits : α → Prop} (h : c.Canonical fits)
    (hfits : ∀ x, Addressable (c.write x) → fits x) : c.ReadsBack :=
  fun x rest hx => Reads.read_write h (hfits x hx) rest

namespace ReadsBack

variable {c : Codec α} {a : Codec α} {b : Codec β}

theorem imap {f : α → β} {g : β → α} (h : c.ReadsBack) (hf : ∀ y, f (g y) = y) :
    (c.imap f g).ReadsBack := by
  intro y rest hy
  have hread := h (g y) rest hy
  simp only [Codec.imap, hread, bind, Except.bind, pure, Except.pure, hf]

theorem pair (ha : a.ReadsBack) (hb : b.ReadsBack) : (a.pair b).ReadsBack := by
  intro x rest hx
  obtain ⟨hfirst, hsecond⟩ := hx.of_append
  have hread := ha x.1 (b.write x.2 ++ rest) hfirst
  have hread' := hb x.2 rest hsecond
  simp only [Codec.pair, List.append_assoc, hread, hread', bind, Except.bind, pure, Except.pure]

theorem option (h : c.ReadsBack) : (Codec.option c).ReadsBack := by
  intro x rest hx
  cases x with
  | none => rfl
  | some value =>
    have hwritten : Addressable ([1] ++ c.write value) := hx
    have hread := h value rest hwritten.of_append.2
    change (c.read (c.write value ++ rest) >>= fun r => pure (some r.1, r.2)) = _
    rw [hread]
    rfl

theorem decode_write (h : c.ReadsBack) {x : α} (hx : Addressable (c.write x)) :
    c.decode (c.write x) = .ok x := by
  have hread := h x [] hx
  rw [List.append_nil] at hread
  rw [decode, hread]
  rfl

theorem inj (h : c.ReadsBack) {x y : α} (hx : Addressable (c.write x))
    (heq : c.write x = c.write y) : x = y := by
  have hdecode := h.decode_write hx
  rw [heq, h.decode_write (heq ▸ hx)] at hdecode
  cases hdecode
  rfl

end ReadsBack

/-- Elements that take up a byte each are no more than the bytes of all. -/
theorem length_le_flatMap {write : α → List UInt8} (h : ∀ x, 1 ≤ (write x).length) (xs : List α) :
    xs.length ≤ (xs.flatMap write).length := by
  induction xs with
  | nil => exact Nat.le_refl 0
  | cons x xs ih =>
    have hfirst := h x
    rw [List.length_cons, List.flatMap_cons, List.length_append]
    omega

theorem octets_write (bytes : List UInt8) :
    octets.write bytes = littleEndian 8 bytes.length ++ bytes := by
  have hbyte (b : UInt8) : u8.write b = [b] := by
    simp only [u8, Codec.imap, number, littleEndian, UInt8.ofNat_toNat]
  change littleEndian 8 bytes.length ++ bytes.flatMap u8.write = _
  rw [funext hbyte, List.flatMap_singleton']

theorem readsBack_octets : octets.ReadsBack :=
  canonical_octets.readsBack fun bytes h => (octets_write bytes ▸ h).of_append.2

theorem readsBack_text : text.ReadsBack :=
  canonical_text.readsBack fun _ h => h.of_append.2

end Wire.Codec

open Codec

namespace Digest

/-- Byte strings are framed as they are written. -/
theorem framed_eq_flatMap (parts : List (List UInt8)) : framed parts = parts.flatMap octets.write := by
  rw [framed, funext octets_write]

/-- Each part says where it ends, so the parts are found again one after the other. -/
theorem framed_inj {ps qs : List (List UInt8)} (hps : ∀ p ∈ ps, Addressable p)
    (hqs : ∀ q ∈ qs, Addressable q) (h : framed ps = framed qs) : ps = qs := by
  rw [framed_eq_flatMap, framed_eq_flatMap] at h
  induction ps generalizing qs with
  | nil =>
    cases qs with
    | nil => rfl
    | cons q qs =>
      rw [List.flatMap_cons, octets_write] at h
      cases h
  | cons p ps ih =>
    cases qs with
    | nil =>
      rw [List.flatMap_cons, octets_write] at h
      cases h
    | cons q qs =>
      rw [List.forall_mem_cons] at hps hqs
      rw [List.flatMap_cons, List.flatMap_cons] at h
      obtain ⟨rfl, hrest⟩ := canonical_octets.append_inj hps.1 hqs.1 h
      rw [ih hps.2 hqs.2 hrest]

end Digest

theorem EntityId.readsBack_codec : codec.ReadsBack :=
  canonical_codec.readsBack fun _ _ => trivial

theorem Timestamp.readsBack_codec : codec.ReadsBack :=
  canonical_codec.readsBack fun _ _ => trivial

namespace Key

theorem length_le_writeAll (ks : List Key) : ks.length ≤ (writeAll ks).length := by
  rw [writeAll_eq_flatMap]
  refine length_le_flatMap (fun k => ?_) ks
  cases k <;> simp only [write, tag, List.length_append, length_littleEndian] <;> omega

mutual

theorem fits_of_addressable (k : Key) (h : Addressable k.write) : k.Fits := by
  match k with
  | .ed25519 key => exact trivial
  | .list ks =>
    have hmembers : Addressable (writeAll ks) := h.of_append.2
    exact ⟨Nat.lt_of_le_of_lt (length_le_writeAll ks) hmembers, allFit_of_addressable ks hmembers⟩
  | .threshold count ks =>
    have hmembers : Addressable (writeAll ks) := h.of_append.2
    exact ⟨Nat.lt_of_le_of_lt (length_le_writeAll ks) hmembers, allFit_of_addressable ks hmembers⟩

theorem allFit_of_addressable (ks : List Key) (h : Addressable (writeAll ks)) : AllFit ks := by
  match ks with
  | [] => exact trivial
  | k :: ks =>
    obtain ⟨hfirst, hrest⟩ := h.of_append
    exact ⟨fits_of_addressable k hfirst, allFit_of_addressable ks hrest⟩

end

theorem readsBack_codec : codec.ReadsBack := canonical_codec.readsBack fits_of_addressable

end Key

theorem Account.readsBack_codec : codec.ReadsBack :=
  ((canonical_u64.readsBack fun _ _ => trivial).pair
    (Key.readsBack_codec.pair (canonical_bool.readsBack fun _ _ => trivial))).imap fun _ => rfl

namespace Schedule

theorem readsBack_signatories : (Codec.list PublicKey.codec).ReadsBack :=
  PublicKey.canonical_codec.list.readsBack fun keys h => by
    have hlength (key : PublicKey) : 1 ≤ (PublicKey.codec.write key).length := by
      change 1 ≤ key.val.length
      rw [key.property]
      decide
    exact ⟨Nat.lt_of_le_of_lt (length_le_flatMap hlength keys) h.of_append.2, fun _ _ => trivial⟩

theorem readsBack_codec : codec.ReadsBack :=
  (readsBack_octets.pair (EntityId.readsBack_codec.pair (EntityId.readsBack_codec.pair
    (Timestamp.readsBack_codec.pair ((canonical_i64.readsBack fun _ _ => trivial).pair
      (Key.readsBack_codec.option.pair (readsBack_text.pair readsBack_signatories))))))).imap
        fun _ => rfl

end Schedule

end ConsensusLedger
