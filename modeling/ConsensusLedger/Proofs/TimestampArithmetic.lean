import ConsensusLedger.Proofs.Timestamp

/-!
Nanosecond arithmetic. The numbers of nanoseconds whose whole seconds fit 64 bits are the normal
timestamps, in the same order, and moving by nanoseconds adds to them. Beyond that range the seconds
come around, so that a number is still kept up to whole cycles of them: moves add up, and come back,
wherever they pass through.
-/

namespace ConsensusLedger.Timestamp

variable {s t : Timestamp} {total d e : Int}

/-- The whole seconds of a number of nanoseconds fit 64 bits. -/
def Fits (total : Int) : Prop :=
  -0x8000000000000000 ≤ total / perSecond ∧ total / perSecond ≤ 0x7fffffffffffffff

instance (total : Int) : Decidable (Fits total) := inferInstanceAs (Decidable (_ ∧ _))

/-! ### Numbers that fit -/

theorem toNanos_ofNanos_of_fits (h : Fits total) : (ofNanos total).toNanos = total := by
  obtain ⟨hlow, hhigh⟩ := h
  simp only [perSecond] at hlow hhigh
  apply toNanos_ofNanos <;> simp only [perSecond] <;> omega

theorem toNanos_ediv (ht : t.Normal) : t.toNanos / perSecond = t.seconds.toInt := by
  simp only [Normal, perSecond] at ht
  simp only [toNanos, perSecond]
  omega

theorem toNanos_emod (ht : t.Normal) : t.toNanos % perSecond = t.nanos.toNat := by
  simp only [Normal, perSecond] at ht
  simp only [toNanos, perSecond]
  omega

theorem fits_toNanos (ht : t.Normal) : Fits t.toNanos := by
  have hlow := t.seconds.le_toInt
  have hhigh := t.seconds.toInt_lt
  rw [Fits, toNanos_ediv ht]
  omega

/-- The range is exactly that of the numbers that timestamps stand for. -/
theorem toNanos_ofNanos_iff : (ofNanos total).toNanos = total ↔ Fits total := by
  constructor
  · intro hexact
    rw [← hexact]
    exact fits_toNanos (normal_ofNanos total)
  · exact toNanos_ofNanos_of_fits

theorem ofNanos_toNanos (ht : t.Normal) : ofNanos t.toNanos = t := by
  rw [ofNanos, toNanos_ediv ht, toNanos_emod ht, Int.toNat_natCast, Int64.ofInt_toInt,
    UInt32.ofNat_toNat]

theorem compare_eq_compare_toNanos (hs : s.Normal) (ht : t.Normal) :
    compare s t = compare s.toNanos t.toNanos := by
  cases horder : compare s.toNanos t.toNanos with
  | lt =>
    rw [Std.compare_eq_lt] at horder
    exact (compare_eq_lt_iff_toNanos hs ht).2 horder
  | eq =>
    rw [Std.compare_eq_iff_eq] at horder
    rw [Std.compare_eq_iff_eq, ← ofNanos_toNanos hs, horder, ofNanos_toNanos ht]
  | gt =>
    rw [Std.compare_eq_gt] at horder
    exact Std.OrientedCmp.gt_of_lt ((compare_eq_lt_iff_toNanos ht hs).2 horder)

/-! ### Whole cycles -/

/-- The number of nanoseconds after which the seconds are the same 64 bits again. -/
def cycle : Int := 0x10000000000000000 * perSecond

theorem ofNanos_add_cycles (total k : Int) : ofNanos (total + k * cycle) = ofNanos total := by
  have hseconds :
      (total + k * cycle) / perSecond = total / perSecond + k * 0x10000000000000000 := by
    simp only [cycle, perSecond]
    omega
  have hnanos : (total + k * cycle) % perSecond = total % perSecond := by
    simp only [cycle, perSecond]
    omega
  have haround : Int64.ofInt 0x10000000000000000 = 0 := by decide
  rw [ofNanos, hseconds, hnanos, Int64.ofInt_add, Int64.ofInt_mul, haround, Int64.mul_zero,
    Int64.add_zero, ofNanos]

/-- Without a bound, a timestamp stands for its number up to whole cycles. -/
theorem exists_toNanos_ofNanos (total : Int) :
    ∃ k, (ofNanos total).toNanos = total + k * cycle := by
  have hseconds : (ofNanos total).seconds.toInt = (total / perSecond).bmod Int64.size :=
    Int64.toInt_ofInt
  -- Reading the seconds with a sign takes off the multiples of `2 ^ 64` that `bdiv` counts.
  refine ⟨-(total / perSecond).bdiv Int64.size, ?_⟩
  rw [toNanos, toNat_nanos_ofNanos, hseconds, Int.bmod_eq_self_sub_mul_bdiv]
  have hwhole := Int.mul_ediv_add_emod total perSecond
  simp only [cycle, Int64.size, perSecond] at hwhole ⊢
  omega

/-! ### Moves -/

/-- Moved to a later time, or for a negative number to an earlier one. -/
def shifted (t : Timestamp) (d : Int) : Timestamp := ofNanos (t.toNanos + d)

theorem plusNanos_eq_shifted (t : Timestamp) (n : UInt64) : t.plusNanos n = t.shifted n.toNat := rfl

theorem minusNanos_eq_shifted (t : Timestamp) (n : UInt64) :
    t.minusNanos n = t.shifted (-n.toNat) := rfl

theorem shifted_zero (ht : t.Normal) : t.shifted 0 = t := by
  rw [shifted, Int.add_zero, ofNanos_toNanos ht]

/-- Moves add up, also across the ends of the range. -/
theorem shifted_shifted (t : Timestamp) (d e : Int) :
    (t.shifted d).shifted e = t.shifted (d + e) := by
  obtain ⟨k, hk⟩ := exists_toNanos_ofNanos (t.toNanos + d)
  calc (t.shifted d).shifted e
      = ofNanos (t.toNanos + d + k * cycle + e) := by rw [shifted, shifted, hk]
    _ = ofNanos (t.toNanos + (d + e) + k * cycle) := congrArg ofNanos (by omega)
    _ = t.shifted (d + e) := ofNanos_add_cycles _ k

theorem shifted_back (ht : t.Normal) (d : Int) : (t.shifted d).shifted (-d) = t := by
  rw [shifted_shifted, Int.add_right_neg, shifted_zero ht]

theorem normal_shifted (t : Timestamp) (d : Int) : (t.shifted d).Normal := normal_ofNanos _

theorem toNanos_shifted (h : Fits (t.toNanos + d)) : (t.shifted d).toNanos = t.toNanos + d :=
  toNanos_ofNanos_of_fits h

/-- Moves within the range keep the order of what they move to, whether times or moves differ. -/
theorem compare_shifted (hs : Fits (s.toNanos + d)) (ht : Fits (t.toNanos + e)) :
    compare (s.shifted d) (t.shifted e) = compare (s.toNanos + d) (t.toNanos + e) := by
  rw [compare_eq_compare_toNanos (s.normal_shifted d) (t.normal_shifted e), toNanos_shifted hs,
    toNanos_shifted ht]

theorem shifted_isAfter_iff (ht : t.Normal) (h : Fits (t.toNanos + d)) :
    (t.shifted d).isAfter t = true ↔ 0 < d := by
  rw [isAfter_iff_toNanos (t.normal_shifted d) ht, toNanos_shifted h]
  omega

theorem isAfter_shifted_iff (ht : t.Normal) (h : Fits (t.toNanos + d)) :
    t.isAfter (t.shifted d) = true ↔ d < 0 := by
  rw [isAfter_iff_toNanos ht (t.normal_shifted d), toNanos_shifted h]
  omega

/-- What the arithmetic passes through stays within 128 bits, from any timestamp. -/
theorem toNanos_wide (t : Timestamp) (n : UInt64) :
    -0x80000000000000000000000000000000 ≤ t.toNanos - n.toNat ∧
      t.toNanos + n.toNat < 0x80000000000000000000000000000000 := by
  have hlow := t.seconds.le_toInt
  have hhigh := t.seconds.toInt_lt
  have hnanos := t.nanos.toNat_lt
  have hmove := n.toNat_lt
  simp only [toNanos, perSecond]
  omega

/-- The numbers of nanoseconds whose whole seconds fit 64 bits, and no others, are what timestamps
stand for; each stands for one of them if it is normal, and the order is theirs. A move by
nanoseconds and the move back undo each other. As long as the result fits, a move adds exactly its
nanoseconds, leads strictly later or earlier unless it is by none, and keeps the order of moved times
as well as that of moves. Nothing on the way exceeds 128 bits. -/
theorem arithmetic_exact :
    (∀ total : Int, (ofNanos total).Normal ∧ ((ofNanos total).toNanos = total ↔ Fits total)) ∧
      (∀ t : Timestamp, t.Normal → Fits t.toNanos ∧ ofNanos t.toNanos = t) ∧
      (∀ s t : Timestamp, s.Normal → t.Normal → compare s t = compare s.toNanos t.toNanos) ∧
      (∀ (t : Timestamp) (n : UInt64), t.Normal →
        (t.plusNanos n).minusNanos n = t ∧ (t.minusNanos n).plusNanos n = t ∧
          (Fits (t.toNanos + n.toNat) → (t.plusNanos n).toNanos = t.toNanos + n.toNat ∧
            ((t.plusNanos n).isAfter t = true ↔ 0 < n)) ∧
          (Fits (t.toNanos - n.toNat) → (t.minusNanos n).toNanos = t.toNanos - n.toNat ∧
            (t.isAfter (t.minusNanos n) = true ↔ 0 < n))) ∧
      (∀ (s t : Timestamp) (m n : UInt64),
        (Fits (s.toNanos + m.toNat) → Fits (t.toNanos + n.toNat) →
          compare (s.plusNanos m) (t.plusNanos n) =
            compare (s.toNanos + m.toNat) (t.toNanos + n.toNat)) ∧
          (Fits (s.toNanos - m.toNat) → Fits (t.toNanos - n.toNat) →
            compare (s.minusNanos m) (t.minusNanos n) =
              compare (s.toNanos - m.toNat) (t.toNanos - n.toNat))) ∧
      ∀ (t : Timestamp) (n : UInt64),
        -0x80000000000000000000000000000000 ≤ t.toNanos - n.toNat ∧
          t.toNanos + n.toNat < 0x80000000000000000000000000000000 := by
  refine ⟨fun total => ⟨normal_ofNanos total, toNanos_ofNanos_iff⟩,
    fun t ht => ⟨fits_toNanos ht, ofNanos_toNanos ht⟩,
    fun s t hs ht => compare_eq_compare_toNanos hs ht, fun t n ht => ?_,
    fun s t m n => ⟨compare_shifted, compare_shifted⟩, toNanos_wide⟩
  have hpositive : 0 < n ↔ 0 < n.toNat := UInt64.lt_iff_toNat_lt
  refine ⟨shifted_back ht n.toNat, ?_, fun hfits => ⟨toNanos_shifted hfits, ?_⟩,
    fun hfits => ⟨toNanos_shifted hfits, ?_⟩⟩
  · have hback := shifted_back ht (-n.toNat)
    rwa [Int.neg_neg] at hback
  · rw [plusNanos_eq_shifted, shifted_isAfter_iff ht hfits, hpositive]
    omega
  · rw [minusNanos_eq_shifted, isAfter_shifted_iff ht hfits, hpositive]
    omega

def earliest : Timestamp := ⟨Int64.minValue, 0⟩

def latest : Timestamp := ⟨Int64.maxValue, 999999999⟩

/-- The longest moves away from the ends of the range are exact. A nanosecond before the earliest
time is out of range, but the way back from there leads to it all the same. -/
theorem arithmetic_exact_ends :
    earliest.Normal ∧ latest.Normal ∧
      (ofNanos (earliest.toNanos - 1)).toNanos ≠ earliest.toNanos - 1 ∧
      (earliest.minusNanos 1).plusNanos 1 = earliest ∧ ofNanos latest.toNanos = latest ∧
      compare earliest latest = compare earliest.toNanos latest.toNanos ∧
      Fits (earliest.toNanos + 0xffffffffffffffff) ∧
      (earliest.plusNanos 0xffffffffffffffff).toNanos = earliest.toNanos + 0xffffffffffffffff ∧
      (earliest.plusNanos 0xffffffffffffffff).isAfter earliest = true ∧
      compare (earliest.plusNanos 1) (earliest.plusNanos 0xffffffffffffffff) = .lt ∧
      Fits (latest.toNanos - 0xffffffffffffffff) ∧
      (latest.minusNanos 0xffffffffffffffff).toNanos = latest.toNanos - 0xffffffffffffffff ∧
      latest.isAfter (latest.minusNanos 0xffffffffffffffff) = true ∧
      compare (latest.minusNanos 1) (latest.minusNanos 0xffffffffffffffff) = .gt := by
  obtain ⟨hnumbers, htimes, horder, hmoves, hordered, -⟩ := arithmetic_exact
  have hearliest : earliest.Normal := by decide
  have hlatest : latest.Normal := by decide
  have hlater : Fits (earliest.toNanos + 0xffffffffffffffff) := by decide
  have hearlier : Fits (latest.toNanos - 0xffffffffffffffff) := by decide
  have hbelow : ¬ Fits (earliest.toNanos - 1) := by decide
  obtain ⟨-, hback, -, -⟩ := hmoves earliest 1 hearliest
  obtain ⟨-, -, hplus, -⟩ := hmoves earliest 0xffffffffffffffff hearliest
  obtain ⟨-, -, -, hminus⟩ := hmoves latest 0xffffffffffffffff hlatest
  have hplusOrder := (hordered earliest earliest 1 0xffffffffffffffff).1 (by decide) hlater
  have hminusOrder := (hordered latest latest 1 0xffffffffffffffff).2 (by decide) hearlier
  exact ⟨hearliest, hlatest, fun h => hbelow ((hnumbers _).2.1 h), hback, (htimes latest hlatest).2,
    horder _ _ hearliest hlatest, hlater, (hplus hlater).1, (hplus hlater).2.2 (by decide),
    hplusOrder.trans (by decide), hearlier, (hminus hearlier).1, (hminus hearlier).2.2 (by decide),
    hminusOrder.trans (by decide)⟩

end ConsensusLedger.Timestamp
