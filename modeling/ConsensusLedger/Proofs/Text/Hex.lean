import ConsensusLedger.Text.Hex
import Mathlib.Data.List.Basic

/-!
Hexadecimal texts. A text is read as some bytes exactly if it is what they are written as, up to the
case of its letters; any other text is refused for its odd length or for its first bad digit.
-/

namespace ConsensusLedger.Text

/-- The lowercase form of a byte of text: capital letters of ASCII become small, and every other byte
stays. -/
def lowerByte (b : UInt8) : UInt8 := if 0x41 ≤ b ∧ b ≤ 0x5a then b + 0x20 else b

theorem utf8_eq (s : String) : utf8 s = s.toList.flatMap String.utf8EncodeChar := by
  rw [utf8, ← String.utf8Encode_toList, List.utf8Encode, List.data_toByteArray]

theorem utf8_inj {s t : String} : utf8 s = utf8 t ↔ s = t := by
  unfold utf8
  rw [Array.toList_inj, ← ByteArray.ext_iff, String.toByteArray_inj]

theorem lowerByte_of_le {n : Nat} (h : 128 ≤ n) (hn : n < 256) :
    lowerByte (UInt8.ofNat n) = UInt8.ofNat n := by
  rw [lowerByte, if_neg]
  rintro ⟨-, hle⟩
  have hle := UInt8.le_iff_toNat_le.1 hle
  rw [UInt8.toNat_ofNat'] at hle
  have hlast : (0x5a : UInt8).toNat = 90 := rfl
  omega

/-- The bytes of a character outside ASCII are no letters of ASCII. -/
theorem utf8EncodeChar_toLower (c : Char) :
    String.utf8EncodeChar c.toLower = (String.utf8EncodeChar c).map lowerByte := by
  by_cases hascii : c.toNat < 128
  · have hall : ∀ n < 128, String.utf8EncodeChar (Char.ofNat n).toLower =
        (String.utf8EncodeChar (Char.ofNat n)).map lowerByte := by decide +kernel
    rw [← Char.ofNat_toNat c]
    exact hall c.toNat hascii
  · have hlower : c.toLower = c := by
      unfold Char.toLower
      rw [dif_neg]
      rintro ⟨-, hle⟩
      have hle := UInt32.le_iff_toNat_le.1 hle
      change c.toNat ≤ 90 at hle
      omega
    have hlarge : ¬c.val.toNat ≤ 127 := by
      change ¬c.toNat ≤ 127
      omega
    rw [hlower]
    simp only [String.utf8EncodeChar, hlarge, if_false]
    split
    · simp (disch := omega) only [List.map_cons, List.map_nil, lowerByte_of_le]
    · split
      · simp (disch := omega) only [List.map_cons, List.map_nil, lowerByte_of_le]
      · simp (disch := omega) only [List.map_cons, List.map_nil, lowerByte_of_le]

theorem toList_toLower (s : String) : s.toLower.toList = s.toList.map Char.toLower :=
  String.toList_map

theorem utf8_toLower (s : String) : utf8 s.toLower = (utf8 s).map lowerByte := by
  rw [utf8_eq, utf8_eq, toList_toLower, List.flatMap_map, List.map_flatMap]
  simp only [utf8EncodeChar_toLower]

/-- The digit of a number below 16, as a byte. -/
def digit (n : Nat) : UInt8 := UInt8.ofNat (hexDigit n).toNat

/-- The digits that bytes are written with. -/
def digits (bytes : List UInt8) : List UInt8 :=
  bytes.flatMap fun b => [digit (b.toNat / 16), digit (b.toNat % 16)]

theorem utf8_hex (bytes : List UInt8) : utf8 (hex bytes) = digits bytes := by
  have hdigit : ∀ n < 16, String.utf8EncodeChar (hexDigit n) = [digit n] := by decide +kernel
  rw [utf8_eq, hex, String.toList_ofList, List.flatMap_assoc]
  refine List.flatMap_congr fun b _ => ?_
  have hb := b.toNat_lt
  simp only [List.flatMap_cons, List.flatMap_nil, hdigit (b.toNat / 16) (by omega),
    hdigit (b.toNat % 16) (by omega), List.cons_append, List.nil_append]

theorem hexValue?_lt {b v : UInt8} (h : hexValue? b = some v) : v.toNat < 16 := by
  have hall : ∀ n < 256, ∀ v ∈ hexValue? (UInt8.ofNat n), v.toNat < 16 := by decide +kernel
  have hb := hall b.toNat b.toNat_lt
  rw [UInt8.ofNat_toNat] at hb
  exact hb v h

/-- A byte has a value exactly if it is the digit of that value in one of the two cases. -/
theorem lowerByte_eq_digit_iff {b : UInt8} {n : Nat} (hn : n < 16) :
    lowerByte b = digit n ↔ hexValue? b = some (UInt8.ofNat n) := by
  have hread : ∀ n < 256, ∀ v ∈ hexValue? (UInt8.ofNat n),
      lowerByte (UInt8.ofNat n) = digit v.toNat := by decide +kernel
  have hcase : ∀ n < 256, hexValue? (lowerByte (UInt8.ofNat n)) = hexValue? (UInt8.ofNat n) := by
    decide +kernel
  have hwritten : ∀ n < 16, hexValue? (digit n) = some (UInt8.ofNat n) := by decide +kernel
  constructor
  · intro hb
    have hsame := hcase b.toNat b.toNat_lt
    rw [UInt8.ofNat_toNat, hb, hwritten n hn] at hsame
    exact hsame.symm
  · intro hv
    have hb := hread b.toNat b.toNat_lt
    rw [UInt8.ofNat_toNat] at hb
    rw [hb _ hv, UInt8.toNat_ofNat', Nat.mod_eq_of_lt (by omega)]

/-- Two digits make up the byte whose halves are their values. -/
theorem join_eq_iff {h l b : UInt8} (hh : h.toNat < 16) (hl : l.toNat < 16) :
    16 * h + l = b ↔ h = UInt8.ofNat (b.toNat / 16) ∧ l = UInt8.ofNat (b.toNat % 16) := by
  have hb := b.toNat_lt
  have h16 : (16 : UInt8).toNat = 16 := rfl
  simp only [← UInt8.toNat_inj, UInt8.toNat_add, UInt8.toNat_mul, UInt8.toNat_ofNat', h16]
  omega

/-- The first byte shows in the first two digits. -/
theorem lower_eq_digits_cons_iff {hi lo b : UInt8} {rest bytes : List UInt8} :
    (hi :: lo :: rest).map lowerByte = digits (b :: bytes) ↔
      hexValue? hi = some (UInt8.ofNat (b.toNat / 16)) ∧
        hexValue? lo = some (UInt8.ofNat (b.toNat % 16)) ∧ rest.map lowerByte = digits bytes := by
  have hb := b.toNat_lt
  rw [← lowerByte_eq_digit_iff (by omega), ← lowerByte_eq_digit_iff (by omega)]
  simp only [digits, List.map_cons, List.flatMap_cons, List.cons_append, List.nil_append,
    List.cons.injEq]

theorem unhexFrom_eq_ok_iff {index : Nat} {l bytes : List UInt8} :
    unhexFrom index l = .ok bytes ↔ l.map lowerByte = digits bytes := by
  fun_induction unhexFrom index l generalizing bytes with
  | case1 => cases bytes <;> simp [digits]
  | case2 index b => cases bytes <;> simp [digits]
  | case3 index hi lo rest hhi =>
    cases bytes with
    | nil => simp [digits]
    | cons b bytes => simp only [lower_eq_digits_cons_iff, hhi, reduceCtorEq, false_and]
  | case4 index hi lo rest hlo hhi =>
    cases bytes with
    | nil => simp [digits]
    | cons b bytes => simp only [lower_eq_digits_cons_iff, hlo, reduceCtorEq, false_and, and_false]
  | case5 index hi lo rest h l hlo hhi ih =>
    have hmap : (unhexFrom (index + 2) rest).map ((16 * h + l) :: ·) = .ok bytes ↔
        ∃ more, (16 * h + l) :: more = bytes ∧ unhexFrom (index + 2) rest = .ok more := by
      cases unhexFrom (index + 2) rest <;> simp [Except.map, and_comm]
    rw [hmap]
    cases bytes with
    | nil => simp [digits]
    | cons b bytes =>
      rw [lower_eq_digits_cons_iff, hhi, hlo, Option.some_inj, Option.some_inj, ← and_assoc,
        ← join_eq_iff (hexValue?_lt hhi) (hexValue?_lt hlo), ← ih]
      simp only [List.cons.injEq, and_assoc, exists_and_left, exists_eq_left]

theorem length_digits (bytes : List UInt8) : (digits bytes).length = 2 * bytes.length := by
  simp [digits, Nat.mul_comm]

/-- Bytes are read from a text exactly if the text is what they are written as, in either case. -/
theorem unhex_eq_ok_iff {s : String} {bytes : List UInt8} :
    unhex s = .ok bytes ↔ s.toLower = hex bytes := by
  rw [← utf8_inj, utf8_toLower, utf8_hex, unhex]
  split
  · rename_i hodd
    have hne : (utf8 s).map lowerByte ≠ digits bytes := by
      intro heq
      have hlength := congrArg List.length heq
      rw [List.length_map, length_digits] at hlength
      rw [utf8Length] at hodd
      omega
    simp only [hne, reduceCtorEq]
  · exact unhexFrom_eq_ok_iff

/-- The first byte of a text that is no digit, with its place. -/
def badDigit? (s : String) : Option (UInt8 × Nat) :=
  (utf8 s).zipIdx.find? fun b => (hexValue? b.1).isNone

/-- What is wrong with a text that is no hexadecimal text. -/
def HexFault.OccursIn (s : String) : HexFault → Prop
  | oddLength => utf8Length s % 2 = 1
  | badDigit byte index => utf8Length s % 2 = 0 ∧ badDigit? s = some (byte, index)

theorem unhexFrom_eq_error_iff {index : Nat} {l : List UInt8} {fault : HexFault}
    (heven : l.length % 2 = 0) : unhexFrom index l = .error fault ↔
      ∃ byte place, (l.zipIdx index).find? (fun b => (hexValue? b.1).isNone) = some (byte, place) ∧
        fault = .badDigit byte place := by
  fun_induction unhexFrom index l with
  | case1 => simp
  | case2 index b => simp at heven
  | case3 index hi lo rest hhi => simp [hhi, eq_comm]
  | case4 index hi lo rest hlo hhi =>
    obtain ⟨h, hh⟩ := Option.ne_none_iff_exists'.1 hhi
    simp [hh, hlo, eq_comm]
  | case5 index hi lo rest h l hlo hhi ih =>
    have hrest : rest.length % 2 = 0 := by
      simp only [List.length_cons] at heven
      omega
    have hmap : (unhexFrom (index + 2) rest).map ((16 * h + l) :: ·) = .error fault ↔
        unhexFrom (index + 2) rest = .error fault := by
      cases unhexFrom (index + 2) rest <;> simp [Except.map]
    rw [hmap, ih hrest]
    simp [hhi, hlo]

theorem unhex_eq_error_iff {s : String} {fault : HexFault} :
    unhex s = .error fault ↔ fault.OccursIn s := by
  unfold unhex
  split
  · rename_i hodd
    cases fault <;> simp [HexFault.OccursIn, hodd]
  · rename_i heven
    have heven : utf8Length s % 2 = 0 := by omega
    rw [unhexFrom_eq_error_iff heven]
    cases fault <;> simp [HexFault.OccursIn, badDigit?, heven]

end ConsensusLedger.Text
