import ConsensusLedger.Timestamp

/-!
Timestamps as pairs of integers: saturating sums of seconds, and the order of the instants.
-/

namespace ConsensusLedger

/-- A saturating sum is the sum, or the bound on the side that it leaves the range on. -/
theorem toInt_saturatingAdd (a b : Int64) :
    (saturatingAdd a b).toInt = a.toInt + b.toInt ∨
      (a.toInt + b.toInt < -0x8000000000000000 ∧
        (saturatingAdd a b).toInt = -0x8000000000000000) ∨
      (0x7fffffffffffffff < a.toInt + b.toInt ∧
        (saturatingAdd a b).toInt = 0x7fffffffffffffff) := by
  have hmin : Int64.minValue.toInt = -0x8000000000000000 := rfl
  have hmax : Int64.maxValue.toInt = 0x7fffffffffffffff := rfl
  simp only [saturatingAdd, hmin, hmax]
  split
  · rename_i hlow
    exact .inr (.inl ⟨hlow, rfl⟩)
  · split
    · rename_i hhigh
      exact .inr (.inr ⟨hhigh, rfl⟩)
    · exact .inl (Int64.toInt_ofInt_of_le (by omega) (by omega))

theorem toInt_saturatingSub (a b : Int64) :
    (saturatingSub a b).toInt = a.toInt - b.toInt ∨
      (a.toInt - b.toInt < -0x8000000000000000 ∧
        (saturatingSub a b).toInt = -0x8000000000000000) ∨
      (0x7fffffffffffffff < a.toInt - b.toInt ∧
        (saturatingSub a b).toInt = 0x7fffffffffffffff) := by
  have hmin : Int64.minValue.toInt = -0x8000000000000000 := rfl
  have hmax : Int64.maxValue.toInt = 0x7fffffffffffffff := rfl
  simp only [saturatingSub, hmin, hmax]
  split
  · rename_i hlow
    exact .inr (.inl ⟨hlow, rfl⟩)
  · split
    · rename_i hhigh
      exact .inr (.inr ⟨hhigh, rfl⟩)
    · exact .inl (Int64.toInt_ofInt_of_le (by omega) (by omega))

namespace Timestamp

variable {t u : Timestamp}

theorem eq_of_toInt (hseconds : t.seconds.toInt = u.seconds.toInt)
    (hnanos : t.nanos.toNat = u.nanos.toNat) : t = u := by
  cases t
  cases u
  exact congr (congrArg mk (Int64.toInt_inj.1 hseconds)) (UInt32.toNat_inj.1 hnanos)

theorem compare_eq_lt_iff : compare t u = .lt ↔
    t.seconds.toInt < u.seconds.toInt ∨
      t.seconds.toInt = u.seconds.toInt ∧ t.nanos.toNat < u.nanos.toNat := by
  change (compare t.seconds u.seconds).then (compare t.nanos u.nanos) = .lt ↔ _
  rw [Ordering.then_eq_lt, Std.compare_eq_lt, Std.compare_eq_lt, Std.compare_eq_iff_eq,
    Int64.lt_iff_toInt_lt, UInt32.lt_iff_toNat_lt, Int64.toInt_inj]

theorem isAfter_iff : t.isAfter u = true ↔
    u.seconds.toInt < t.seconds.toInt ∨
      u.seconds.toInt = t.seconds.toInt ∧ u.nanos.toNat < t.nanos.toNat := by
  rw [isAfter, decide_eq_true_eq, compare_eq_lt_iff]

/-- The nanoseconds are those of a part of a second. -/
def Normal (t : Timestamp) : Prop := t.nanos.toNat < perSecond

instance (t : Timestamp) : Decidable t.Normal := inferInstanceAs (Decidable (_ < _))

/-- The nanoseconds are what is left beside whole seconds. -/
theorem toNat_nanos_ofNanos (total : Int) :
    ((ofNanos total).nanos.toNat : Int) = total % perSecond := by
  have hnonneg := Int.emod_nonneg total (by decide : (perSecond : Int) ≠ 0)
  have hlt := Int.emod_lt_of_pos total (by decide : 0 < (perSecond : Int))
  simp only [perSecond] at hnonneg hlt
  simp only [ofNanos, perSecond]
  rw [UInt32.toNat_ofNat_of_lt' (by simp only [UInt32.size]; omega)]
  omega

theorem normal_ofNanos (total : Int) : (ofNanos total).Normal := by
  have hnanos := toNat_nanos_ofNanos total
  simp only [Normal, perSecond] at hnanos ⊢
  omega

/-- Within the range of seconds, a number of nanoseconds is what its timestamp stands for. -/
theorem toNanos_ofNanos {total : Int} (hlow : -0x8000000000000000 * perSecond ≤ total)
    (hhigh : total < 0x8000000000000000 * perSecond) : (ofNanos total).toNanos = total := by
  simp only [perSecond] at hlow hhigh
  have hseconds : (ofNanos total).seconds.toInt = total / perSecond :=
    Int64.toInt_ofInt_of_le (by simp only [perSecond]; omega) (by simp only [perSecond]; omega)
  rw [toNanos, toNat_nanos_ofNanos, hseconds]
  exact Int.ediv_mul_add_emod total perSecond

/-- The order of normal timestamps is the order of the instants. -/
theorem compare_eq_lt_iff_toNanos (ht : t.Normal) (hu : u.Normal) :
    compare t u = .lt ↔ t.toNanos < u.toNanos := by
  simp only [Normal, perSecond] at ht hu
  simp only [compare_eq_lt_iff, toNanos, perSecond]
  omega

theorem isAfter_iff_toNanos (ht : t.Normal) (hu : u.Normal) :
    t.isAfter u = true ↔ u.toNanos < t.toNanos := by
  rw [isAfter, decide_eq_true_eq, compare_eq_lt_iff_toNanos hu ht]

/-- A nanosecond earlier is not a later second, unless the seconds wrap below the first instant. -/
theorem seconds_minusNanos_one (hnanos : t.nanos.toNat < perSecond) :
    (t.minusNanos 1).seconds.toInt ≤ t.seconds.toInt ∨ t = ⟨Int64.minValue, 0⟩ := by
  have hseconds : (t.minusNanos 1).seconds =
      Int64.ofInt ((t.seconds.toInt * 1000000000 + t.nanos.toNat - 1) / 1000000000) := rfl
  have hlow := t.seconds.le_toInt
  have hhigh := t.seconds.toInt_lt
  simp only [perSecond] at hnanos
  by_cases hfirst : t.seconds.toInt = -0x8000000000000000 ∧ t.nanos.toNat = 0
  · obtain ⟨hs, hn⟩ := hfirst
    exact .inr (eq_of_toInt hs hn)
  · left
    rw [hseconds, Int64.toInt_ofInt_of_le (by omega) (by omega)]
    omega

end Timestamp

end ConsensusLedger
