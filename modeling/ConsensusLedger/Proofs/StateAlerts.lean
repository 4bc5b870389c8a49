import ConsensusLedger.Handling.Clock
import ConsensusLedger.Proofs.Timestamp

/-!
Alerts by episodes. An episode lasts from one relaxation to the next. Only the first report of an
episode fills the countdown, and every report puts off the relaxation; so an episode answers with the
state's hashes no more often than configured, however long it lasts and however often it is attempted
to relax the alert.
-/

namespace ConsensusLedger

namespace StateAlert

/-- A report, with what the state would say when it is looked at. -/
structure Inquiry where
  report : StateReport
  hashes : Except ProcessingError StateHashes

/-- What is noticed when the state is looked at: its hashes, or why it has none. -/
def Inquiry.findings (q : Inquiry) : List Notice :=
  match q.hashes with
  | .ok h => [.stateDiffers q.report h]
  | .error e => [.stateUnknown q.report e]

/-- The answer to a report, and what was noticed. -/
structure Answer where
  answered : Bool
  notices : List Notice

/-- The answers to the reports of an episode: the state is looked at for the first of them, up to the
configured number, and not for the others. -/
def answers (rounds : Nat) (asked : List Inquiry) : List Answer :=
  (asked.take rounds).map (fun q => ⟨true, q.findings⟩) ++
    (asked.drop rounds).map fun _ => ⟨false, []⟩

theorem answers_nil (rounds : Nat) : answers rounds [] = [] := by
  rw [answers, List.take_nil, List.drop_nil]
  rfl

theorem answers_concat (rounds : Nat) (asked : List Inquiry) (q : Inquiry) :
    answers rounds (asked ++ [q]) = answers rounds asked ++
      [if asked.length < rounds then ⟨true, q.findings⟩ else ⟨false, []⟩] := by
  unfold answers
  by_cases h : asked.length < rounds
  · rw [if_pos h, List.take_of_length_le (by rw [List.length_append, List.length_singleton]; omega),
      List.drop_of_length_le (by rw [List.length_append, List.length_singleton]; omega),
      List.take_of_length_le (Nat.le_of_lt h), List.drop_of_length_le (Nat.le_of_lt h),
      List.map_append, List.map_nil, List.append_nil, List.append_nil]
    rfl
  · rw [if_neg h, List.take_append_of_le_length (Nat.not_lt.1 h),
      List.drop_append_of_le_length (Nat.not_lt.1 h), List.map_append, List.append_assoc]
    rfl

/-- The rounds that are left when the next report is taken note of. -/
def countdown (a : StateAlert) : Nat :=
  if a.isOngoing then a.remainingRounds.toNat else a.rounds.toNat

theorem countdown_eq_of_reported {a : StateAlert} {time : Timestamp}
    (h : a.reported = some time) : a.countdown = a.remainingRounds.toNat := by
  rw [countdown, isOngoing, h]
  rfl

theorem countdown_alert (a : StateAlert) (time : Timestamp) :
    (a.alert time).countdown = a.countdown := by
  rw [countdown_eq_of_reported rfl, alert, countdown]
  split <;> rfl

theorem shouldDump_alert (a : StateAlert) (time : Timestamp) :
    (a.alert time).shouldDump = decide (0 < a.countdown) := by
  rw [← a.countdown_alert time, countdown_eq_of_reported rfl, shouldDump, decide_eq_decide,
    UInt32.lt_iff_toNat_lt]
  rfl

theorem toNat_countRound (a : StateAlert) :
    a.countRound.remainingRounds.toNat = a.remainingRounds.toNat - 1 := by
  rw [countRound]
  split
  · rename_i hzero
    rw [hzero]
    rfl
  · rename_i hne
    have hpos : (1 : UInt32) ≤ a.remainingRounds := by
      rw [UInt32.le_iff_toNat_le, UInt32.toNat_one, Nat.one_le_iff_ne_zero]
      exact fun hzero => hne (UInt32.toNat_inj.1 hzero)
    rw [UInt32.toNat_sub_of_le _ _ hpos]
    rfl

/-- A report is answered as long as rounds are left, and uses one of them up. -/
theorem notify_spec (a : StateAlert) (time : Timestamp) :
    (a.notify time).1 = decide (0 < a.countdown) ∧ (a.notify time).2.reported = some time ∧
      (a.notify time).2.rounds = a.rounds ∧ (a.notify time).2.countdown = a.countdown - 1 := by
  unfold notify
  by_cases hleft : 0 < a.countdown
  · simp only [shouldDump_alert, hleft, decide_true, if_true]
    refine ⟨trivial, rfl, rfl, ?_⟩
    rw [countdown_eq_of_reported rfl, toNat_countRound, ← countdown_eq_of_reported rfl,
      countdown_alert]
  · simp only [shouldDump_alert, hleft, decide_false, Bool.false_eq_true, if_false]
    refine ⟨trivial, rfl, rfl, ?_⟩
    rw [countdown_alert]
    omega

/-- A report is answered with the findings while rounds are left. After that the hashes are not made
use of. -/
theorem receive_eq (a : StateAlert) (q : Inquiry) :
    a.receive q.report q.hashes =
      if 0 < a.countdown then (true, q.findings, (a.notify q.report.time).2)
      else (false, [], (a.notify q.report.time).2) := by
  have hanswer := (a.notify_spec q.report.time).1
  unfold receive
  generalize a.notify q.report.time = done at hanswer
  obtain ⟨answered, a'⟩ := done
  by_cases hleft : 0 < a.countdown
  · simp only [hleft, decide_true] at hanswer
    subst hanswer
    rw [if_pos hleft, Inquiry.findings]
    cases q.hashes <;> rfl
  · simp only [hleft, decide_false] at hanswer
    subst hanswer
    rw [if_neg hleft]

theorem receive_snd_snd (a : StateAlert) (q : Inquiry) :
    (a.receive q.report q.hashes).2.2 = (a.notify q.report.time).2 := by
  rw [receive_eq]
  split <;> rfl

end StateAlert

namespace Clock

/-- Strictly after a time and a number of seconds, where the sum of the seconds is held at the bounds
of its range. -/
def Cooled (resetPeriod : Int64) (reported now : Timestamp) : Prop :=
  let due := max (-0x8000000000000000)
    (min 0x7fffffffffffffff (reported.seconds.toInt + resetPeriod.toInt))
  due < now.seconds.toInt ∨ due = now.seconds.toInt ∧ reported.nanos.toNat < now.nanos.toNat

instance (resetPeriod : Int64) (reported now : Timestamp) :
    Decidable (Cooled resetPeriod reported now) :=
  inferInstanceAs (Decidable (_ ∨ _))

theorem isAfter_plusSeconds_iff {reported now : Timestamp} {resetPeriod : Int64} :
    now.isAfter (reported.plusSeconds resetPeriod) = true ↔ Cooled resetPeriod reported now := by
  have hdue : (saturatingAdd reported.seconds resetPeriod).toInt = max (-0x8000000000000000)
      (min 0x7fffffffffffffff (reported.seconds.toInt + resetPeriod.toInt)) := by
    rcases toInt_saturatingAdd reported.seconds resetPeriod with hsum | ⟨hlow, hsum⟩ | ⟨hhigh, hsum⟩
    · have hlow := (saturatingAdd reported.seconds resetPeriod).le_toInt
      have hhigh := (saturatingAdd reported.seconds resetPeriod).toInt_lt
      omega
    · omega
    · omega
  rw [Timestamp.isAfter_iff, Cooled, ← hdue]
  rfl

theorem relaxIfDue_fst_iff {c : Clock} {now : Timestamp} :
    (c.relaxIfDue now).1 = true ↔
      ∃ reported, c.alert.reported = some reported ∧ Cooled c.resetPeriod reported now := by
  have hfst : (c.relaxIfDue now).1 = c.isRelaxDue now := by
    rw [relaxIfDue]
    split
    · rename_i h
      rw [h]
    · rename_i h
      rw [Bool.eq_false_iff.2 h]
  rw [hfst, isRelaxDue]
  cases c.alert.reported with
  | none => simp
  | some reported => simp [isAfter_plusSeconds_iff]

end Clock

namespace StateAlert

/-- What is done to the clock and its alert. -/
inductive Event where
  | report (q : Inquiry)
  | relaxation (now : Timestamp)
  /-- A handled transaction, which moves the clock on. -/
  | transaction (now : Timestamp) (rates : ExchangeRates)

/-- The clock, and the reports of each episode with their answers. -/
structure Watch where
  clock : Clock
  /-- The reports since the last relaxation. -/
  current : List (Inquiry × Answer)
  past : List (List (Inquiry × Answer))

namespace Watch

def start (rates : ExchangeRates) (rounds : UInt32) (resetPeriod : Int64) : Watch :=
  ⟨.start rates rounds resetPeriod, [], []⟩

def episodes (w : Watch) : List (List (Inquiry × Answer)) := w.past ++ [w.current]

/-- One event. A relaxation ends the episode. -/
def step (w : Watch) : Event → Watch
  | .report q =>
    let (answered, notices, alert) := w.clock.alert.receive q.report q.hashes
    { w with
      clock := { w.clock with alert }
      current := w.current ++ [(q, ⟨answered, notices⟩)] }
  | .relaxation now =>
    let (relaxed, clock) := w.clock.relaxIfDue now
    if relaxed then ⟨clock, [], w.episodes⟩ else { w with clock }
  | .transaction now rates => { w with clock := (w.clock.advance now rates).2 }

def after (w : Watch) (events : List Event) : Watch := events.foldl step w

end Watch

/-- The alert keeps the count of the current episode, and all episodes are answered as configured. -/
structure Counted (rounds : UInt32) (resetPeriod : Int64) (w : Watch) : Prop where
  resetPeriod_eq : w.clock.resetPeriod = resetPeriod
  rounds_eq : w.clock.alert.rounds = rounds
  reported_eq : w.clock.alert.reported = w.current.getLast?.map (·.1.report.time)
  countdown_eq : w.clock.alert.countdown = rounds.toNat - w.current.length
  answered : ∀ episode ∈ w.episodes,
    episode.map (·.2) = answers rounds.toNat (episode.map (·.1))

namespace Counted

variable {rounds : UInt32} {resetPeriod : Int64} {w : Watch}

theorem start (rates : ExchangeRates) (rounds : UInt32) (resetPeriod : Int64) :
    Counted rounds resetPeriod (.start rates rounds resetPeriod) where
  resetPeriod_eq := rfl
  rounds_eq := rfl
  reported_eq := rfl
  countdown_eq := rfl
  answered := by
    intro episode h
    rw [List.mem_singleton.1 h]
    exact (answers_nil _).symm

/-- The answers of an episode when one more report comes. -/
theorem answered_concat (h : Counted rounds resetPeriod w) (q : Inquiry) :
    (w.step (.report q)).current.map (·.2) =
      answers rounds.toNat ((w.step (.report q)).current.map (·.1)) := by
  have hcurrent := h.answered w.current List.mem_concat_self
  have hleft : 0 < w.clock.alert.countdown ↔ (w.current.map (·.1)).length < rounds.toNat := by
    rw [h.countdown_eq, List.length_map]
    omega
  simp only [Watch.step, List.map_append, List.map_singleton, answers_concat, hcurrent, receive_eq,
    hleft]
  split <;> rfl

theorem report (h : Counted rounds resetPeriod w) (q : Inquiry) :
    Counted rounds resetPeriod (w.step (.report q)) := by
  obtain ⟨-, hreported, hrounds, hcountdown⟩ := w.clock.alert.notify_spec q.report.time
  rw [← w.clock.alert.receive_snd_snd q] at hreported hrounds hcountdown
  refine ⟨h.resetPeriod_eq, hrounds.trans h.rounds_eq, ?_, ?_, ?_⟩
  · change (w.clock.alert.receive q.report q.hashes).2.2.reported = _
    rw [hreported, Watch.step, List.getLast?_concat]
    rfl
  · change (w.clock.alert.receive q.report q.hashes).2.2.countdown = _
    rw [hcountdown, h.countdown_eq, Watch.step, List.length_append, List.length_singleton]
    omega
  · intro episode hepisode
    rcases List.mem_append.1 hepisode with hpast | hcurrent
    · exact h.answered episode (List.mem_append_left _ hpast)
    · rw [List.mem_singleton.1 hcurrent]
      exact h.answered_concat q

theorem relaxation (h : Counted rounds resetPeriod w) (now : Timestamp) :
    Counted rounds resetPeriod (w.step (.relaxation now)) := by
  by_cases hdue : w.clock.isRelaxDue now = true
  · simp only [Watch.step, Clock.relaxIfDue, if_pos hdue, if_true]
    refine ⟨h.resetPeriod_eq, h.rounds_eq, rfl, ?_, ?_⟩
    · exact congrArg UInt32.toNat h.rounds_eq
    · intro episode hepisode
      rcases List.mem_append.1 hepisode with hpast | hcurrent
      · exact h.answered episode hpast
      · rw [List.mem_singleton.1 hcurrent]
        exact (answers_nil _).symm
  · simp only [Watch.step, Clock.relaxIfDue, if_neg hdue, Bool.false_eq_true, if_false]
    exact h

theorem transaction (h : Counted rounds resetPeriod w) (now : Timestamp) (rates : ExchangeRates) :
    Counted rounds resetPeriod (w.step (.transaction now rates)) := by
  rw [Watch.step, Clock.advance]
  split <;> exact ⟨h.resetPeriod_eq, h.rounds_eq, h.reported_eq, h.countdown_eq, h.answered⟩

/-- What one event keeps. -/
theorem step (h : Counted rounds resetPeriod w) (e : Event) :
    Counted rounds resetPeriod (w.step e) := by
  cases e with
  | report q => exact h.report q
  | relaxation now => exact h.relaxation now
  | transaction now rates => exact h.transaction now rates

theorem after (h : Counted rounds resetPeriod w) (events : List Event) :
    Counted rounds resetPeriod (w.after events) := by
  induction events generalizing w with
  | nil => exact h
  | cons e events ih => exact ih (h.step e)

end Counted

/-- Reports are answered a bounded number of times in each episode, whatever is reported, handled and
attempted in whatever order. Of the reports between two relaxations exactly the first ones, up to the
configured number, are answered with what the state says when it is looked at; for the others it is
not looked at, and nothing is noticed. The alert is ongoing exactly when there was a report since the
last relaxation, and keeps the time of the latest. It is relaxed exactly when it is ongoing and that
time lies strictly further back than the reset period. -/
theorem reports_answered_by_episode (rates : ExchangeRates) (rounds : UInt32) (resetPeriod : Int64)
    (events : List Event) :
    let w := (Watch.start rates rounds resetPeriod).after events
    (∀ episode ∈ w.episodes,
        episode.map (·.2) = answers rounds.toNat (episode.map (·.1))) ∧
      (∀ q : Inquiry, w.clock.alert.receive q.report q.hashes =
        if w.current.length < rounds.toNat then
          (true, q.findings, (w.clock.alert.notify q.report.time).2)
        else (false, [], (w.clock.alert.notify q.report.time).2)) ∧
      (w.clock.alert.isOngoing = true ↔ w.current ≠ []) ∧
      w.clock.alert.reported = w.current.getLast?.map (·.1.report.time) ∧
      ∀ now, (w.clock.relaxIfDue now).1 = true ↔
        ∃ last, w.current.getLast? = some last ∧
          Clock.Cooled resetPeriod last.1.report.time now := by
  intro w
  have h : Counted rounds resetPeriod w := (Counted.start rates rounds resetPeriod).after events
  refine ⟨h.answered, fun q => ?_, ?_, h.reported_eq, fun now => ?_⟩
  · simp only [receive_eq, h.countdown_eq, Nat.sub_pos_iff_lt]
  · rw [isOngoing, h.reported_eq, Option.isSome_map, List.getLast?_isSome]
  · rw [Clock.relaxIfDue_fst_iff, h.reported_eq, h.resetPeriod_eq]
    constructor
    · rintro ⟨reported, hreported, hcooled⟩
      obtain ⟨last, hlast, rfl⟩ := Option.map_eq_some_iff.1 hreported
      exact ⟨last, hlast, hcooled⟩
    · rintro ⟨last, hlast, hcooled⟩
      exact ⟨last.1.report.time, by rw [hlast]; rfl, hcooled⟩

/-- A report of round 7 at a second, with what the state would say. -/
def inquiryAt (second : Int64) (hashes : Except ProcessingError StateHashes) : Inquiry :=
  ⟨⟨7, 0, 1, ⟨second, 0⟩, [0xab], [0xcd]⟩, hashes⟩

/-- What the state says when it is looked at. -/
def hashesOf (byte : UInt8) : StateHashes :=
  ⟨Octets.replicate 32 byte, Octets.replicate 32 byte, Octets.replicate 48 byte⟩

/-- Reports in a row, the second with a state that cannot be read. -/
def threeInquiries : List Inquiry :=
  [inquiryAt 100 (.ok (hashesOf 1)), inquiryAt 101 (.error (.ledger .noActiveTransaction)),
    inquiryAt 102 (.ok (hashesOf 2))]

/-- The reports, two attempts to relax the alert, and a report after that. -/
def relaxedReports : List Event :=
  threeInquiries.map .report ++ [.relaxation ⟨162, 0⟩, .relaxation ⟨162, 1⟩,
    .report (inquiryAt 200 (.ok (hashesOf 3)))]

/-- Two rounds and a minute: the third report of an episode is not answered, but puts off the
relaxation until after second 162; the report after that is answered again. -/
theorem reports_answered_by_episode_minute :
    let w := (Watch.start .standard 2 60).after relaxedReports
    w.episodes.map (·.map (·.1)) = [threeInquiries, [inquiryAt 200 (.ok (hashesOf 3))]] ∧
      (∀ episode ∈ w.episodes, episode.map (·.1) = threeInquiries → episode.map (·.2) =
        [⟨true, [.stateDiffers (inquiryAt 100 (.ok (hashesOf 1))).report (hashesOf 1)]⟩,
          ⟨true, [.stateUnknown (inquiryAt 101 (.error (.ledger .noActiveTransaction))).report
            (.ledger .noActiveTransaction)]⟩, ⟨false, []⟩]) ∧
      w.clock.alert.isOngoing = true ∧ (w.clock.relaxIfDue ⟨260, 0⟩).1 = false ∧
      (w.clock.relaxIfDue ⟨260, 1⟩).1 = true := by
  intro w
  obtain ⟨hanswered, -, hongoing, -, hrelaxed⟩ :=
    reports_answered_by_episode .standard 2 60 relaxedReports
  have hepisodes : w.episodes.map (·.map (·.1)) =
      [threeInquiries, [inquiryAt 200 (.ok (hashesOf 3))]] := rfl
  have hlast : w.current.getLast?.map (·.1) = some (inquiryAt 200 (.ok (hashesOf 3))) := rfl
  obtain ⟨last, hsome, hinquiry⟩ := Option.map_eq_some_iff.1 hlast
  refine ⟨hepisodes, fun episode hepisode hthree => ?_, hongoing.2 ?_,
    Bool.eq_false_iff.2 fun hearly => ?_, (hrelaxed _).2 ⟨last, hsome, ?_⟩⟩
  · rw [hanswered episode hepisode, hthree]
    rfl
  · intro hnil
    rw [hnil] at hsome
    cases hsome
  · obtain ⟨last', hsome', hcooled⟩ := (hrelaxed _).1 hearly
    cases hsome.symm.trans hsome'
    rw [hinquiry] at hcooled
    exact absurd hcooled (by decide)
  · rw [hinquiry]
    decide

end StateAlert

end ConsensusLedger
