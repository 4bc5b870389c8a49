import ConsensusLedger.Proofs.Calendar
import ConsensusLedger.Proofs.Timestamp
import ConsensusLedger.Record.File

/-!
Names of record files. Times of the calendar are told from the others by their last letter, and among
themselves by their texts; so files that begin at different times have different names.
-/

namespace ConsensusLedger

namespace Timestamp

theorem notMem_digits {c : Char} (hc : c.isDigit = false) (n : Nat) : c ∉ Nat.toDigits 10 n := by
  intro hmem
  rw [Nat.isDigit_of_mem_toDigits (by decide) (by decide) hmem] at hc
  cases hc

/-- Whole seconds in digits. Only a negative number of them starts with a sign. -/
theorem toList_repr (n : Int) : n.repr.toList =
    if 0 ≤ n then Nat.toDigits 10 n.natAbs else '-' :: Nat.toDigits 10 n.natAbs := by
  rw [Int.repr_eq_if]
  split
  · have habs : n.toNat = n.natAbs := by omega
    simp [habs]
  · have habs : (-n).toNat = n.natAbs := by omega
    simp [habs]

theorem repr_inj {n m : Int} (h : n.repr.toList = m.repr.toList) : n = m := by
  have hvalue {k l : Nat} (h : Nat.toDigits 10 k = Nat.toDigits 10 l) : k = l := by
    rw [← Nat.ofDigitChars_ten_toDigits (n := k), h, Nat.ofDigitChars_ten_toDigits]
  have hsigned {k : Nat} {cs : List Char} (h : Nat.toDigits 10 k = '-' :: cs) : False :=
    notMem_digits rfl k (h ▸ List.mem_cons_self)
  rw [toList_repr, toList_repr] at h
  split at h <;> split at h
  · have habs := hvalue h
    omega
  · exact (hsigned h).elim
  · exact (hsigned h.symm).elim
  · have habs := hvalue (List.cons.inj h).2
    omega

theorem toList_text (t : Timestamp) :
    t.text.toList = t.seconds.toInt.repr.toList ++ '.' :: (Date.padded 9 t.nanos.toNat).toList := by
  have htext : t.text = t.seconds.toInt.repr ++ "." ++ Date.padded 9 t.nanos.toNat := rfl
  have hpoint : ".".toList = ['.'] := rfl
  simp only [htext, String.toList_append, List.append_assoc, hpoint, List.cons_append,
    List.nil_append]

theorem text_inj {t u : Timestamp} (ht : t.Normal) (hu : u.Normal)
    (h : t.text.toList = u.text.toList) : t = u := by
  have hwidth {t : Timestamp} (ht : t.Normal) := Date.length_padded (by decide : 0 < 9) ht
  rw [toList_text, toList_text] at h
  obtain ⟨hseconds, h⟩ := List.append_inj' h (by
    rw [List.length_cons, List.length_cons, hwidth ht, hwidth hu])
  exact eq_of_toInt (repr_inj hseconds) (Date.padded_inj (List.cons.inj h).2)

/-- A time in seconds is written in digits, with a point and perhaps a sign. -/
theorem z_notMem_text (t : Timestamp) : 'Z' ∉ t.text.toList := by
  have hseconds : 'Z' ∉ t.seconds.toInt.repr.toList := by
    rw [toList_repr]
    split <;> simp [notMem_digits]
  have hnanos : 'Z' ∉ (Date.padded 9 t.nanos.toNat).toList := Date.notMem_padded rfl
  rw [toList_text]
  simp [hseconds, hnanos]

end Timestamp

namespace RecordFiles

/-- A text with underscores for colons, as in the name of a file. -/
def withoutColons (text : List Char) : List Char := text.map fun c => if c = ':' then '_' else c

theorem withoutColons_inj {xs ys : List Char} (hxs : '_' ∉ xs) (hys : '_' ∉ ys)
    (h : withoutColons xs = withoutColons ys) : xs = ys := by
  -- Colons are found again from the underscores, since there was no underscore before.
  have hback {xs : List Char} (hxs : '_' ∉ xs) :
      (withoutColons xs).map (fun c => if c = '_' then ':' else c) = xs := by
    rw [withoutColons, List.map_map]
    refine (List.map_congr_left fun c hc => ?_).trans (List.map_id xs)
    have hne : c ≠ '_' := ne_of_mem_of_not_mem hc hxs
    by_cases hcolon : c = ':' <;> simp [hcolon, hne]
  rw [← hback hxs, h, hback hys]

theorem z_mem_withoutColons {xs : List Char} (h : 'Z' ∈ xs) : 'Z' ∈ withoutColons xs :=
  List.mem_map.2 ⟨'Z', h, rfl⟩

/-- The two kinds of names. -/
theorem fileName_cases {t : Timestamp} (ht : t.Normal) :
    (∃ text, dateTime? t.seconds.toInt t.nanos.toNat = some text ∧ '_' ∉ text.toList ∧
      'Z' ∈ text.toList ∧
      (fileName t).toList = withoutColons text.toList ++ ".rcd.jsonl".toList) ∨
    (fileName t).toList = t.text.toList ++ ".rcd.jsonl".toList := by
  unfold fileName
  cases hdate : dateTime? t.seconds.toInt t.nanos.toNat with
  | some text =>
    refine .inl ⟨text, rfl, underscore_notMem_dateTime ht hdate, z_mem_dateTime ht hdate, ?_⟩
    simp only [String.toList_append, String.toList_ofList, withoutColons]
  | none => exact .inr String.toList_append

/-- Files that begin at different times have different names. -/
theorem fileName_inj {t u : Timestamp} (ht : t.Normal) (hu : u.Normal) (h : fileName t = fileName u) :
    t = u := by
  have hname := congrArg String.toList h
  rcases fileName_cases ht with ⟨text, hdate, htext, hz, hfile⟩ | hfile <;>
    rcases fileName_cases hu with ⟨text', hdate', htext', hz', hfile'⟩ | hfile' <;>
    rw [hfile, hfile'] at hname <;> replace hname := List.append_cancel_right hname
  · obtain rfl : text = text' := String.toList_inj.1 (withoutColons_inj htext htext' hname)
    obtain ⟨hseconds, hnanos⟩ := dateTime?_inj ht hu hdate hdate'
    exact Timestamp.eq_of_toInt hseconds hnanos
  · exact (u.z_notMem_text (hname ▸ z_mem_withoutColons hz)).elim
  · exact (t.z_notMem_text (hname ▸ z_mem_withoutColons hz')).elim
  · exact Timestamp.text_inj ht hu hname

end RecordFiles

end ConsensusLedger
