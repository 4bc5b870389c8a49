import ConsensusLedger.Proofs.Transaction.Wire
import ConsensusLedger.Record.Basic
import Mathlib.Data.List.Basic

/-!
The written form of a record says where each field ends. So what is streamed for two handled
transactions is written as the same bytes only if it is the same.
-/

namespace ConsensusLedger

open Wire Codec

/-!
What a written form can hold: a memo, a list of transfers and the bytes of a transaction have a
length of eight bytes, which is more than what fits into memory.
-/

def Record.Fits (r : Record) : Prop :=
  Text.utf8Length r.memo < 0x10000000000000000 ∧ r.transfers.length < 0x10000000000000000

def StreamObject.Fits (o : StreamObject) : Prop :=
  o.record.Fits ∧ o.signedBytes.length < 0x10000000000000000

instance (o : StreamObject) : Decidable o.Fits :=
  inferInstanceAs (Decidable ((_ ∧ _) ∧ _))

theorem Status.mem_all (s : Status) : s ∈ all := by
  cases s <;> decide

namespace Record

/-- Each code has a tag of its own, which fits four bytes. -/
theorem tag_append_inj {s s' : Status} {rest rest' : List UInt8}
    (h : tag (statusTag s) ++ rest = tag (statusTag s') ++ rest') : s = s' ∧ rest = rest' := by
  have hfits (s : Status) : statusTag s < Nat.pow 256 4 :=
    Nat.lt_trans (List.idxOf_lt_length_of_mem (Status.mem_all s)) (by decide)
  obtain ⟨htag, hrest⟩ := (canonical_number 4).append_inj (hfits s) (hfits s') h
  exact ⟨(List.idxOf_inj (Status.mem_all s)).1 htag, hrest⟩

theorem receiptBytes_append_inj {r r' : Receipt} {rest rest' : List UInt8}
    (h : receiptBytes r ++ rest = receiptBytes r' ++ rest') : r = r' ∧ rest = rest' := by
  simp only [receiptBytes, List.append_assoc] at h
  obtain ⟨hstatus, h⟩ := tag_append_inj h
  obtain ⟨hschedule, h⟩ :=
    EntityId.canonical_codec.option.append_inj (fun _ _ => trivial) (fun _ _ => trivial) h
  obtain ⟨hscheduled, hrest⟩ :=
    TransactionId.canonical_codec.option.append_inj (fun _ _ => trivial) (fun _ _ => trivial) h
  cases r
  cases r'
  exact ⟨Receipt.mk.injEq .. ▸ ⟨hstatus, hschedule, hscheduled⟩, hrest⟩

/-- A digest is written with its length, like any byte string. -/
theorem digest_append_inj {hash hash' : Octets 48} {rest rest' : List UInt8}
    (h : octets.write hash.val ++ rest = octets.write hash'.val ++ rest') :
    hash = hash' ∧ rest = rest' := by
  have hfits (hash : Octets 48) : hash.val.length < 0x10000000000000000 := by
    rw [hash.property]
    decide
  obtain ⟨hval, hrest⟩ := canonical_octets.append_inj (hfits hash) (hfits hash') h
  exact ⟨Subtype.ext hval, hrest⟩

/-- Field by field, in the order in which they are written. -/
theorem toBytes_append_inj {r r' : Record} {rest rest' : List UInt8} (hr : r.Fits) (hr' : r'.Fits)
    (h : r.toBytes ++ rest = r'.toBytes ++ rest') : r = r' ∧ rest = rest' := by
  simp only [toBytes, List.append_assoc] at h
  obtain ⟨hreceipt, h⟩ := receiptBytes_append_inj h
  obtain ⟨hhash, h⟩ := digest_append_inj h
  obtain ⟨htime, h⟩ := Timestamp.canonical_codec.append_inj trivial trivial h
  obtain ⟨hid, h⟩ := TransactionId.canonical_codec.append_inj trivial trivial h
  obtain ⟨hmemo, h⟩ := canonical_text.append_inj hr.1 hr'.1 h
  obtain ⟨hfee, h⟩ := canonical_u64.append_inj trivial trivial h
  obtain ⟨htransfers, h⟩ := TransactionData.canonical_transfers.append_inj hr.2 hr'.2 h
  obtain ⟨href, hrest⟩ :=
    EntityId.canonical_codec.option.append_inj (fun _ _ => trivial) (fun _ _ => trivial) h
  cases r
  cases r'
  exact ⟨Record.mk.injEq .. ▸ ⟨hreceipt, hhash, htime, hid, hmemo, hfee, htransfers, href⟩, hrest⟩

end Record

theorem StreamObject.content_inj {o o' : StreamObject} (ho : o.Fits) (ho' : o'.Fits)
    (h : o.content = o'.content) : o = o' := by
  simp only [content, List.append_assoc] at h
  obtain ⟨hrecord, h⟩ := Record.toBytes_append_inj ho.1 ho'.1 h
  obtain ⟨hsigned, h⟩ := canonical_octets.append_inj ho.2 ho'.2 h
  rw [← List.append_nil (Timestamp.codec.write o.time),
    ← List.append_nil (Timestamp.codec.write o'.time)] at h
  obtain ⟨htime, -⟩ := Timestamp.canonical_codec.append_inj trivial trivial h
  cases o
  cases o'
  exact StreamObject.mk.injEq .. ▸ ⟨hrecord, hsigned, htime⟩

end ConsensusLedger
