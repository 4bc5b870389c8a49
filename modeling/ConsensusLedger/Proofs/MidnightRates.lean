import ConsensusLedger.Handling.Clock
import ConsensusLedger.Proofs.Gregorian
import ConsensusLedger.Proofs.Timestamp
import Mathlib.Data.List.Induction

/-!
The midnight rates. The days that the clock tells apart by their dates are the days of 86400 seconds
since the epoch, before and after it, so the rates are replaced by the first transaction of each of
them and at no other time.
-/

namespace ConsensusLedger

namespace Timestamp

variable {t u : Timestamp}

/-- The number of the day in UTC, counted from 1970-01-01. -/
def day (t : Timestamp) : Int := t.seconds.toInt / 86400

/-- A normal timestamp from −262143-01-01T00:00:00Z on and until +262142-12-31T23:59:59Z. -/
structure InCalendar (t : Timestamp) : Prop where
  normal : t.Normal
  first : -8334601228800 ≤ t.seconds.toInt
  last : t.seconds.toInt ≤ 8210266876799

instance (t : Timestamp) : Decidable t.InCalendar :=
  decidable_of_iff (t.Normal ∧ -8334601228800 ≤ t.seconds.toInt ∧ t.seconds.toInt ≤ 8210266876799)
    ⟨fun ⟨normal, first, last⟩ => ⟨normal, first, last⟩,
      fun ⟨normal, first, last⟩ => ⟨normal, first, last⟩⟩

/-- The normal timestamps in the calendar are those that have a date. -/
theorem date?_eq (ht : t.Normal) :
    t.date? = if t.InCalendar then some (Date.ofDay t.day) else none := by
  have hfit : nanosFit t.seconds.toInt t.nanos.toNat = true := by
    rw [nanosFit, Bool.or_eq_true, decide_eq_true_eq]
    exact .inl ht
  have hrange : (Date.ofDay t.day).inRange = true ↔ t.InCalendar := by
    rw [Date.inRange_ofDay_iff, day]
    constructor
    · rintro ⟨hfirst, hlast⟩
      exact ⟨ht, by omega, by omega⟩
    · rintro ⟨-, hfirst, hlast⟩
      omega
  rw [date?, dateOf?]
  simp only [hfit, Bool.and_true]
  exact if_congr hrange rfl rfl

theorem InCalendar.date?_eq_some (h : t.InCalendar) : t.date? = some (Date.ofDay t.day) := by
  rw [date?_eq h.normal, if_pos h]

/-- Two times have the same date exactly if they lie on the same day of 86400 seconds. -/
theorem InCalendar.sameDay_iff (ht : t.InCalendar) (hu : u.InCalendar) :
    t.sameDay u = true ↔ t.day = u.day := by
  have hdates : t.sameDay u = decide (Date.ofDay t.day = Date.ofDay u.day) := by
    delta sameDay
    rw [ht.date?_eq_some, hu.date?_eq_some]
  rw [hdates, decide_eq_true_eq]
  exact ⟨Date.ofDay_inj, congrArg Date.ofDay⟩

end Timestamp

namespace Clock

/-- The clock after it has moved on to some times, each with the rates in force then. -/
def advanced (c : Clock) (calls : List (Timestamp × ExchangeRates)) : Clock :=
  calls.foldl (fun c call => (c.advance call.1 call.2).2) c

variable {c : Clock}

theorem advance_fst (c : Clock) (now : Timestamp) (rates : ExchangeRates) :
    (c.advance now rates).1 = c.isNewDay now := by
  unfold advance
  cases c.isNewDay now <;> rfl

theorem lastHandled_advance (c : Clock) (now : Timestamp) (rates : ExchangeRates) :
    (c.advance now rates).2.lastHandled = some now := by
  unfold advance
  split <;> rfl

theorem midnightRates_advance (c : Clock) (now : Timestamp) (rates : ExchangeRates) :
    (c.advance now rates).2.midnightRates =
      if c.isNewDay now then rates else c.midnightRates := by
  unfold advance
  split <;> rfl

/-- The last time that the clock knows is that of the latest call. -/
theorem lastHandled_advanced (hfresh : c.lastHandled = none)
    (calls : List (Timestamp × ExchangeRates)) :
    (c.advanced calls).lastHandled = calls.getLast?.map (·.1) := by
  induction calls using List.reverseRecOn with
  | nil => exact hfresh
  | append_singleton calls call _ =>
    have hafter : c.advanced (calls ++ [call]) = ((c.advanced calls).advance call.1 call.2).2 := by
      simp [advanced]
    rw [hafter, lastHandled_advance, List.getLast?_concat]
    rfl

theorem isNewDay_iff {now last : Timestamp} (hlast : c.lastHandled = some last)
    (hin : last.InCalendar) (hnow : now.InCalendar) :
    c.isNewDay now = true ↔ last.day ≠ now.day := by
  simp only [isNewDay, hlast, Bool.not_eq_true', Bool.eq_false_iff, ne_eq, hin.sameDay_iff hnow]

/-- Days are told apart by their dates, which are those of the Gregorian calendar, exactly as they are
by their numbers. Over any times of the calendar that a new clock moves on to, in whatever order, the
midnight rates are replaced by the rates in force at exactly those times that lie on another day than
the time before, and never at the first. -/
theorem midnight_rates_by_day :
    (∀ t u : Timestamp, t.InCalendar → u.InCalendar → (t.sameDay u = true ↔ t.day = u.day)) ∧
      (∀ t : Timestamp, t.InCalendar → t.date? = some (Date.ofDay t.day)) ∧
      Date.ofDay 0 = ⟨1970, 1, 1⟩ ∧ (∀ n, Date.ofDay (n + 1) = (Date.ofDay n).next) ∧
      ∀ rates rounds resetPeriod calls now active,
        (∀ call ∈ calls, call.1.InCalendar) → now.InCalendar →
          let c := (start rates rounds resetPeriod).advanced calls
          let done := c.advance now active
          (done.1 = true ↔ ∃ last, calls.getLast? = some last ∧ last.1.day ≠ now.day) ∧
            done.2.midnightRates = if done.1 then active else c.midnightRates := by
  refine ⟨fun t u ht hu => ht.sameDay_iff hu, fun t ht => ht.date?_eq_some, Date.ofDay_zero,
    Date.ofDay_succ, fun rates rounds resetPeriod calls now active hcalls hnow => ?_⟩
  intro c done
  have hlast : c.lastHandled = calls.getLast?.map (·.1) := lastHandled_advanced rfl calls
  rw [c.midnightRates_advance now active, c.advance_fst now active]
  refine ⟨?_, rfl⟩
  cases hcall : calls.getLast? with
  | none =>
    rw [hcall] at hlast
    have hnone : c.lastHandled = none := hlast
    simp [isNewDay, hnone]
  | some last =>
    rw [hcall] at hlast
    rw [isNewDay_iff hlast (hcalls last (List.mem_of_getLast? hcall)) hnow]
    simp

/-- Rates of so many cents for a coin. -/
def ratesOf (cents : UInt32) : ExchangeRates :=
  ⟨⟨1, cents, Int64.maxValue⟩, ⟨1, cents, Int64.maxValue⟩⟩

/-- The second last day before the epoch, the last second before it, and the epoch. -/
def acrossEpoch : List (Timestamp × ExchangeRates) :=
  [(⟨-86401, 5⟩, ratesOf 1), (⟨-1, 999999999⟩, ratesOf 2), (⟨0, 0⟩, ratesOf 3)]

/-- The rates of the epoch are the midnight rates until its day is over, although the rates in force
have changed by then. -/
theorem midnight_rates_by_day_epoch :
    let c := (start .standard 5 60).advanced acrossEpoch
    (∀ call ∈ acrossEpoch, call.1.InCalendar) ∧
      Timestamp.sameDay ⟨-1, 999999999⟩ ⟨0, 0⟩ = false ∧ c.midnightRates = ratesOf 3 ∧
      (c.advance ⟨86399, 999999999⟩ (ratesOf 4)).2.midnightRates = ratesOf 3 ∧
      (c.advance ⟨86400, 0⟩ (ratesOf 4)).2.midnightRates = ratesOf 4 := by
  intro c
  have hcalls : ∀ call ∈ acrossEpoch, call.1.InCalendar := by decide
  have hrates : c.midnightRates = ratesOf 3 := by decide
  obtain ⟨hdays, -, -, -, hlaws⟩ := midnight_rates_by_day
  obtain ⟨hsame, hkept⟩ := hlaws .standard 5 60 acrossEpoch ⟨86399, 999999999⟩ (ratesOf 4) hcalls
    (by decide)
  obtain ⟨hother, hreplaced⟩ := hlaws .standard 5 60 acrossEpoch ⟨86400, 0⟩ (ratesOf 4) hcalls
    (by decide)
  have hlast : acrossEpoch.getLast? = some (⟨0, 0⟩, ratesOf 3) := rfl
  refine ⟨hcalls, ?_, hrates, ?_, ?_⟩
  · exact Bool.eq_false_iff.2 fun h => absurd ((hdays _ _ (by decide) (by decide)).1 h) (by decide)
  · rw [hkept, if_neg fun h => ?_]
    · exact hrates
    · obtain ⟨last, hcall, hday⟩ := hsame.1 h
      cases hlast.symm.trans hcall
      exact absurd (by decide) hday
  · rw [hreplaced, if_pos (hother.2 ⟨_, hlast, by decide⟩)]

end Clock

end ConsensusLedger
