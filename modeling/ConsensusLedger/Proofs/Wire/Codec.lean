import ConsensusLedger.Wire.Codec

/-!
What is written can be read back, and nothing else can be read. A reader gives a value exactly when
the bytes begin with the value's written form, and then leaves what follows; so a value has one
written form, and every value that is read has sizes that its length fields can hold.
-/

namespace ConsensusLedger.Wire

variable {α β γ : Type}

/-- The values that the reader gives are those that fit, each from its written form alone. -/
def Reads (read : Reader α) (write : α → List UInt8) (fits : α → Prop) : Prop :=
  ∀ bytes x rest, read bytes = .ok (x, rest) ↔ fits x ∧ bytes = write x ++ rest

namespace Reads

variable {read : Reader α} {write : α → List UInt8} {fits : α → Prop}

theorem of_iff {fits' : α → Prop} (h : Reads read write fits) (hfits : ∀ x, fits x ↔ fits' x) :
    Reads read write fits' := by
  intro bytes x rest
  rw [h, hfits]

theorem read_write (h : Reads read write fits) {x : α} (hx : fits x) (rest : List UInt8) :
    read (write x ++ rest) = .ok (x, rest) :=
  (h _ x rest).2 ⟨hx, rfl⟩

/-- What a reader that goes on after a first one gives. -/
theorem bind_eq_ok (h : Reads read write fits) {next : α × List UInt8 → Except Fault γ}
    {bytes : List UInt8} {y : γ} :
    (read bytes >>= next) = .ok y ↔
      ∃ x rest, fits x ∧ bytes = write x ++ rest ∧ next (x, rest) = .ok y := by
  constructor
  · intro hread
    cases hfirst : read bytes with
    | error fault =>
      rw [hfirst] at hread
      cases hread
    | ok result =>
      rw [hfirst] at hread
      obtain ⟨hx, hbytes⟩ := (h _ _ _).1 hfirst
      exact ⟨result.1, result.2, hx, hbytes, hread⟩
  · rintro ⟨x, rest, hx, rfl, hnext⟩
    rw [h.read_write hx]
    exact hnext

theorem readTimes (h : Reads read write fits) (n : Nat) :
    Reads (Codec.readTimes read n) (·.flatMap write)
      fun xs => xs.length = n ∧ ∀ x ∈ xs, fits x := by
  induction n with
  | zero =>
    intro bytes xs rest
    simp only [Codec.readTimes, Except.ok.injEq, Prod.mk.injEq, List.length_eq_zero_iff]
    constructor
    · rintro ⟨rfl, rfl⟩
      exact ⟨⟨rfl, nofun⟩, rfl⟩
    · rintro ⟨⟨rfl, -⟩, hbytes⟩
      exact ⟨rfl, hbytes⟩
  | succ n ih =>
    intro bytes xs rest
    simp only [Codec.readTimes, h.bind_eq_ok, ih.bind_eq_ok, pure, Except.pure, Except.ok.injEq,
      Prod.mk.injEq]
    constructor
    · rintro ⟨x, -, hx, rfl, xs, -, ⟨rfl, hxs⟩, rfl, rfl, rfl⟩
      exact ⟨⟨rfl, List.forall_mem_cons.2 ⟨hx, hxs⟩⟩, by simp only [List.flatMap_cons,
        List.append_assoc]⟩
    · rintro ⟨⟨hlength, hfits⟩, rfl⟩
      obtain ⟨x, xs, rfl⟩ := List.exists_cons_of_length_eq_add_one hlength
      obtain ⟨hx, hxs⟩ := List.forall_mem_cons.1 hfits
      exact ⟨x, _, hx, by simp only [List.flatMap_cons, List.append_assoc], xs, rest,
        ⟨Nat.succ.inj hlength, hxs⟩, rfl, rfl, rfl⟩

end Reads

namespace Codec

/-- The codec reads the values that fit, each from its one written form. -/
def Canonical (c : Codec α) (fits : α → Prop) : Prop := Reads c.read c.write fits

/-- Fits every value, for types whose values all have the same written size. -/
abbrev anyValue : α → Prop := fun _ => True

/-- A value is decoded from the byte strings that begin with its written form. -/
theorem Canonical.decode_eq_ok {c : Codec α} {fits : α → Prop} (h : c.Canonical fits)
    {bytes : List UInt8} {x : α} :
    c.decode bytes = .ok x ↔ fits x ∧ c.write x <+: bytes := by
  rw [Codec.decode]
  constructor
  · intro hdecode
    cases hread : c.read bytes with
    | error fault =>
      rw [hread] at hdecode
      cases hdecode
    | ok result =>
      rw [hread] at hdecode
      obtain ⟨hx, hbytes⟩ := (h _ _ _).1 hread
      cases hdecode
      exact ⟨hx, result.2, hbytes.symm⟩
  · rintro ⟨hx, rest, rfl⟩
    rw [h.read_write hx]
    rfl

/-- A written form says where it ends: what it is followed by does not change the value. -/
theorem Canonical.append_inj {c : Codec α} {fits : α → Prop} (h : c.Canonical fits) {x y : α}
    {rest rest' : List UInt8} (hx : fits x) (hy : fits y)
    (heq : c.write x ++ rest = c.write y ++ rest') : x = y ∧ rest = rest' := by
  have hread := Reads.read_write h hx rest
  rw [heq, Reads.read_write h hy rest'] at hread
  cases hread
  exact ⟨rfl, rfl⟩

theorem canonical_number (width : Nat) :
    (number width).Canonical fun n => n < Nat.pow 256 width := by
  intro bytes n rest
  simp only [number]
  constructor
  · intro hread
    split at hread
    case isFalse => cases hread
    case isTrue hwidth =>
      cases hread
      have hwritten : littleEndian width (ofLittleEndian (bytes.take width)) = bytes.take width := by
        have hdigits := littleEndian_ofLittleEndian (bytes.take width)
        rwa [hwidth] at hdigits
      have hlt := ofLittleEndian_lt (bytes.take width)
      rw [hwidth] at hlt
      exact ⟨hlt, by rw [hwritten, List.take_append_drop]⟩
  · rintro ⟨hn, rfl⟩
    have htake : (littleEndian width n ++ rest).take width = littleEndian width n :=
      List.take_left' (length_littleEndian width n)
    have hdrop : (littleEndian width n ++ rest).drop width = rest :=
      List.drop_left' (length_littleEndian width n)
    simp only [htake, hdrop, length_littleEndian, ↓reduceIte, ofLittleEndian_littleEndian,
      Nat.mod_eq_of_lt hn]

theorem canonical_fixed (n : Nat) : (fixed n).Canonical anyValue := by
  intro bytes o rest
  simp only [fixed, true_and]
  constructor
  · intro hread
    split at hread
    case h_1 octets hoctets =>
      cases hread
      rw [← Octets.ofList?_eq_some_iff.1 hoctets, List.take_append_drop]
    case h_2 => cases hread
  · rintro rfl
    have htake : (o.val ++ rest).take n = o.val := List.take_left' o.property
    have hdrop : (o.val ++ rest).drop n = rest := List.drop_left' o.property
    rw [htake, hdrop, Octets.ofList?_val]

theorem Canonical.imap {c : Codec α} {fits : α → Prop} {f : α → β} {g : β → α}
    (h : c.Canonical fits) (hf : ∀ y, f (g y) = y) (hg : ∀ x, fits x → g (f x) = x) :
    (c.imap f g).Canonical fun y => fits (g y) := by
  intro bytes y rest
  simp only [Codec.imap, Reads.bind_eq_ok h, pure, Except.pure, Except.ok.injEq, Prod.mk.injEq]
  constructor
  · rintro ⟨x, -, hx, rfl, rfl, rfl⟩
    rw [hg x hx]
    exact ⟨hx, rfl⟩
  · rintro ⟨hy, rfl⟩
    exact ⟨g y, rest, hy, rfl, hf y, rfl⟩

theorem canonical_u8 : u8.Canonical anyValue :=
  ((canonical_number 1).imap (fun _ => UInt8.ofNat_toNat)
    fun _ hn => UInt8.toNat_ofNat_of_lt' hn).of_iff fun n => iff_true_intro n.toNat_lt

theorem canonical_u32 : u32.Canonical anyValue :=
  ((canonical_number 4).imap (fun _ => UInt32.ofNat_toNat)
    fun _ hn => UInt32.toNat_ofNat_of_lt' hn).of_iff fun n => iff_true_intro n.toNat_lt

theorem canonical_u64 : u64.Canonical anyValue :=
  ((canonical_number 8).imap (fun _ => UInt64.ofNat_toNat)
    fun _ hn => UInt64.toNat_ofNat_of_lt' hn).of_iff fun n => iff_true_intro n.toNat_lt

theorem canonical_i64 : i64.Canonical anyValue :=
  canonical_u64.imap Int64.toInt64_toUInt64 fun n _ => UInt64.toUInt64_toInt64 n

/-- Only the bytes 0 and 1 are truth values. -/
theorem canonical_bool : bool.Canonical anyValue := by
  intro bytes b rest
  simp only [bool, Reads.bind_eq_ok canonical_u8, true_and]
  constructor
  · rintro ⟨byte, tail, rfl, hread⟩
    by_cases hfalse : byte = 0
    · rw [if_pos hfalse] at hread
      cases hread
      subst hfalse
      rfl
    rw [if_neg hfalse] at hread
    by_cases htrue : byte = 1
    · rw [if_pos htrue] at hread
      cases hread
      subst htrue
      rfl
    · rw [if_neg htrue] at hread
      cases hread
  · rintro rfl
    exact ⟨if b then 1 else 0, rest, by cases b <;> rfl, by cases b <;> rfl⟩

theorem Canonical.pair {a : Codec α} {b : Codec β} {fits : α → Prop} {fits' : β → Prop}
    (ha : a.Canonical fits) (hb : b.Canonical fits') :
    (a.pair b).Canonical fun x => fits x.1 ∧ fits' x.2 := by
  intro bytes x rest
  simp only [Codec.pair, Reads.bind_eq_ok ha, Reads.bind_eq_ok hb, pure, Except.pure,
    Except.ok.injEq, Prod.mk.injEq, List.append_assoc]
  constructor
  · rintro ⟨x, -, hx, rfl, y, -, hy, rfl, rfl, rfl⟩
    exact ⟨⟨hx, hy⟩, rfl⟩
  · rintro ⟨⟨hx, hy⟩, rfl⟩
    exact ⟨x.1, _, hx, rfl, x.2, rest, hy, rfl, rfl, rfl⟩

/-- The tag is 0 or 1; what is optional follows a 1. -/
theorem Canonical.option {c : Codec α} {fits : α → Prop} (h : c.Canonical fits) :
    (option c).Canonical fun x => ∀ a, x = some a → fits a := by
  intro bytes x rest
  simp only [Codec.option, Reads.bind_eq_ok canonical_u8, true_and]
  constructor
  · rintro ⟨tag, tail, rfl, hread⟩
    by_cases hnone : tag = 0
    · rw [if_pos hnone] at hread
      cases hread
      subst hnone
      exact ⟨nofun, rfl⟩
    rw [if_neg hnone] at hread
    by_cases hsome : tag = 1
    · rw [if_pos hsome] at hread
      obtain ⟨a, after, ha, rfl, hx⟩ := (Reads.bind_eq_ok h).1 hread
      cases hx
      subst hsome
      exact ⟨fun _ heq => Option.some.inj heq ▸ ha, rfl⟩
    · rw [if_neg hsome] at hread
      cases hread
  · rintro ⟨hfits, rfl⟩
    cases x with
    | none => exact ⟨0, rest, rfl, rfl⟩
    | some a =>
      refine ⟨1, c.write a ++ rest, rfl, ?_⟩
      exact (Reads.bind_eq_ok h).2 ⟨a, rest, hfits a rfl, rfl, rfl⟩

/-- What a reader that goes on after a counted list of elements gives. -/
theorem counted_bind_eq_ok {read : Reader α} {write : α → List UInt8} {fits : α → Prop}
    (h : Reads read write fits) {next : List α × List UInt8 → Except Fault γ} {bytes : List UInt8}
    {y : γ} :
    ((number 8).read bytes >>= fun count => readTimes read count.1 count.2 >>= next) = .ok y ↔
      ∃ xs rest, (xs.length < 0x10000000000000000 ∧ ∀ x ∈ xs, fits x) ∧
        bytes = littleEndian 8 xs.length ++ (xs.flatMap write ++ rest) ∧ next (xs, rest) = .ok y := by
  simp only [Reads.bind_eq_ok (canonical_number 8), Reads.bind_eq_ok (Reads.readTimes h _)]
  constructor
  · rintro ⟨n, -, hn, rfl, xs, rest, ⟨rfl, hxs⟩, rfl, hnext⟩
    exact ⟨xs, rest, ⟨hn, hxs⟩, rfl, hnext⟩
  · rintro ⟨xs, rest, ⟨hn, hxs⟩, rfl, hnext⟩
    exact ⟨xs.length, _, hn, rfl, xs, rest, ⟨rfl, hxs⟩, rfl, hnext⟩

theorem Canonical.list {c : Codec α} {fits : α → Prop} (h : c.Canonical fits) :
    (Codec.list c).Canonical fun xs => xs.length < 0x10000000000000000 ∧ ∀ x ∈ xs, fits x := by
  intro bytes xs rest
  have hread : (Codec.list c).read bytes =
      ((number 8).read bytes >>= fun count => readTimes c.read count.1 count.2 >>= pure) := by
    simp only [bind_pure]
    rfl
  rw [hread, counted_bind_eq_ok h]
  simp only [Codec.list, pure, Except.pure, Except.ok.injEq, Prod.mk.injEq, List.append_assoc]
  constructor
  · rintro ⟨xs, -, hxs, rfl, rfl, rfl⟩
    exact ⟨hxs, rfl⟩
  · rintro ⟨hxs, rfl⟩
    exact ⟨xs, rest, hxs, rfl, rfl, rfl⟩

theorem canonical_octets : octets.Canonical fun bytes => bytes.length < 0x10000000000000000 :=
  canonical_u8.list.of_iff fun _ => and_iff_left fun _ _ => trivial

/-- A text is read from its UTF-8 bytes alone. -/
theorem ofUtf8_eq_ok {bytes : List UInt8} {s : String} :
    Text.ofUtf8 bytes = .ok s ↔ bytes = Text.utf8 s := by
  rw [Text.ofUtf8, Text.utf8]
  constructor
  · intro hread
    split at hread
    case h_2 => cases hread
    case h_1 t ht =>
      cases hread
      unfold String.fromUTF8? at ht
      split at ht
      case isFalse => cases ht
      case isTrue =>
        cases ht
        rfl
  · rintro rfl
    have hread : String.fromUTF8? ⟨s.toByteArray.data.toList.toArray⟩ = some s := by
      rw [Array.toArray_toList]
      exact dif_pos s.isValidUTF8
    rw [hread]

theorem canonical_text : text.Canonical fun s => Text.utf8Length s < 0x10000000000000000 := by
  intro bytes s rest
  simp only [text, Reads.bind_eq_ok (canonical_number 8), List.append_assoc]
  constructor
  · rintro ⟨n, tail, hn, rfl, hread⟩
    by_cases hlength : n ≤ tail.length
    · rw [if_pos hlength] at hread
      cases htext : Text.ofUtf8 (tail.take n) with
      | error fault =>
        rw [htext] at hread
        cases hread
      | ok t =>
        rw [htext] at hread
        cases hread
        have hutf8 := ofUtf8_eq_ok.1 htext
        have hsize : Text.utf8Length s = n := by
          rw [Text.utf8Length, ← hutf8, List.length_take_of_le hlength]
        rw [hsize, ← hutf8, List.take_append_drop]
        exact ⟨hn, rfl⟩
    · rw [if_neg hlength] at hread
      cases hread
  · rintro ⟨hn, rfl⟩
    refine ⟨Text.utf8Length s, _, hn, rfl, ?_⟩
    have hfits : Text.utf8Length s ≤ (Text.utf8 s ++ rest).length := by
      rw [List.length_append]
      exact Nat.le_add_right _ _
    have htake : (Text.utf8 s ++ rest).take (Text.utf8Length s) = Text.utf8 s := List.take_left' rfl
    have hdrop : (Text.utf8 s ++ rest).drop (Text.utf8Length s) = rest := List.drop_left' rfl
    rw [if_pos hfits, htake, hdrop, ofUtf8_eq_ok.2 rfl]
    rfl

end Codec

end ConsensusLedger.Wire
