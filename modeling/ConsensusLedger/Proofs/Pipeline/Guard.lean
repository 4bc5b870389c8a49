import ConsensusLedger.Proofs.Pipeline.Run

/-!
Replays. A delivered transaction that succeeded is refused for as long as its handling is remembered,
and for as long as its valid duration is not over. The handling is forgotten by the second and the
duration ends by the nanosecond, so the two overlap only if the longest valid duration is shorter than
the time for which handlings are remembered.
-/

namespace ConsensusLedger

/-- Two records of delivered transactions with one identifier that both succeeded. -/
structure Record.Replays (r s : Record) : Prop where
  delivered : r.scheduleRef = none ∧ s.scheduleRef = none
  successful : r.status = .ok ∧ s.status = .ok
  id : r.id = s.id

instance (r s : Record) : Decidable (r.Replays s) :=
  decidable_of_iff ((r.scheduleRef = none ∧ s.scheduleRef = none) ∧
    (r.status = .ok ∧ s.status = .ok) ∧ r.id = s.id)
    ⟨fun ⟨delivered, successful, id⟩ => ⟨delivered, successful, id⟩,
      fun ⟨delivered, successful, id⟩ => ⟨delivered, successful, id⟩⟩

/-- No transaction succeeds twice. -/
def Record.ReplayFree (records : List Record) : Prop :=
  records.Pairwise fun r s => ¬ Replays r s

instance (records : List Record) : Decidable (Record.ReplayFree records) :=
  inferInstanceAs (Decidable (records.Pairwise fun r s => ¬ r.Replays s))

/-- The only replays there can be: the valid duration is as long as handlings are remembered, the
first handling is in the second of the valid start, and the replay comes exactly so many seconds later,
at an earlier nanosecond of its second. -/
structure Record.AtBoundary (c : ProcessingConfig) (r s : Record) : Prop where
  settings : c.maxDuration = c.historySeconds
  start : r.time.seconds = r.id.validStart.seconds
  seconds : s.time.seconds.toInt = r.time.seconds.toInt + c.historySeconds.toInt
  nanos : s.time.nanos < r.id.validStart.nanos ∧ r.id.validStart.nanos ≤ r.time.nanos

/-- The record is no older than the valid start of its identifier. -/
def Record.Started (r : Record) : Prop :=
  r.id.validStart.seconds.toInt < r.time.seconds.toInt ∨
    r.id.validStart.seconds.toInt = r.time.seconds.toInt ∧
      r.id.validStart.nanos.toNat ≤ r.time.nanos.toNat

/-- Deliveries in consensus order: their times increase, and their nanoseconds are below a second. -/
structure Delivery.Ordered (ds : List Delivery) : Prop where
  increasing : ds.Pairwise fun d e => compare d.time e.time = .lt
  normal : ∀ d ∈ ds, d.time.nanos.toNat < Timestamp.perSecond

theorem DurationBounds.contains_iff {b : DurationBounds} {duration : Int64} :
    b.contains duration = true ↔
      b.min.toInt ≤ duration.toInt ∧ duration.toInt ≤ b.max.toInt := by
  rw [contains, Bool.and_eq_true, decide_eq_true_eq, decide_eq_true_eq, Int64.le_iff_toInt_le,
    Int64.le_iff_toInt_le]

namespace Gate

variable {body : TransactionBody} {time : Timestamp}

theorem chronology_eq_ok_iff : chronology body time = .ok ↔
    body.id.validStart.isAfter time = false ∧
      (body.id.validStart.plusSeconds body.validDuration).isAfter time = true := by
  rw [chronology]
  cases body.id.validStart.isAfter time with
  | true => exact ⟨nofun, fun h => absurd h.1 nofun⟩
  | false =>
    cases (body.id.validStart.plusSeconds body.validDuration).isAfter time with
    | true => exact ⟨fun _ => ⟨rfl, rfl⟩, fun _ => rfl⟩
    | false => exact ⟨nofun, fun h => absurd h.2 nofun⟩

/-- A transaction within its valid duration is handled neither before its start nor after its end. -/
theorem bounds_of_chronology (hchronology : chronology body time = .ok)
    (hpositive : 0 < body.validDuration.toInt) :
    (body.id.validStart.seconds.toInt < time.seconds.toInt ∨
      body.id.validStart.seconds.toInt = time.seconds.toInt ∧
        body.id.validStart.nanos.toNat ≤ time.nanos.toNat) ∧
    (time.seconds.toInt < body.id.validStart.seconds.toInt + body.validDuration.toInt ∨
      time.seconds.toInt = body.id.validStart.seconds.toInt + body.validDuration.toInt ∧
        time.nanos.toNat < body.id.validStart.nanos.toNat) := by
  obtain ⟨hstart, hend⟩ := chronology_eq_ok_iff.1 hchronology
  rw [← Bool.not_eq_true, Timestamp.isAfter_iff] at hstart
  rw [Timestamp.isAfter_iff] at hend
  have hsum := toInt_saturatingAdd body.id.validStart.seconds body.validDuration
  have hlow := body.id.validStart.seconds.le_toInt
  have hend' : time.seconds.toInt <
        (saturatingAdd body.id.validStart.seconds body.validDuration).toInt ∨
      time.seconds.toInt =
        (saturatingAdd body.id.validStart.seconds body.validDuration).toInt ∧
      time.nanos.toNat < body.id.validStart.nanos.toNat := hend
  constructor
  · omega
  · omega

end Gate

namespace Processor

variable {ttl : Int64} {p q : Processor} {r s : Record}

/-- The handling of a record is remembered, or the whole time for which it was to be remembered had
passed at the last handling. -/
def Guards (ttl : Int64) (p : Processor) (r : Record) : Prop :=
  p.histories.Remembers r.id r.time ∨
    ∃ t, p.clock.lastHandled = some t ∧ r.time.seconds.toInt + ttl.toInt ≤ t.seconds.toInt

section Step

variable {rules : Rules} {txn : Envelope} {context : Context} {triggered : Bool}
  {next : Option Envelope}

theorem Recorded.stamped (h : Recorded rules p txn context triggered r next q)
    (hstamped : p.histories.Stamped ttl) : q.histories.Stamped ttl := by
  rw [h.histories]
  exact (hstamped.purge _).observe _ _ _ _

/-- A handling that succeeds is remembered. -/
theorem Recorded.remembers (h : Recorded rules p txn context triggered r next q)
    (hok : r.status = .ok) : q.histories.Remembers r.id r.time := by
  rw [h.histories, h.id, h.time]
  exact Histories.observe_remembers _ _ _ (by rw [hok]; rfl) _

/-- A handling that comes no earlier than the last one keeps what was guarded before it, and so does
one before the time is over for which a record is remembered. -/
theorem Recorded.guards (h : Recorded rules p txn context triggered s next q)
    (hstamped : p.histories.Stamped ttl) (hpositive : 0 < ttl.toInt) (hguards : p.Guards ttl r)
    (hlater : (∀ t, p.clock.lastHandled = some t → t.seconds.toInt ≤ context.time.seconds.toInt) ∨
      p.histories.Remembers r.id r.time ∧
        context.time.seconds.toInt < r.time.seconds.toInt + ttl.toInt) : q.Guards ttl r := by
  by_cases hrecent : context.time.seconds.toInt < r.time.seconds.toInt + ttl.toInt
  · have hseen : p.histories.Remembers r.id r.time := by
      rcases hguards with hseen | ⟨t, ht, hpast⟩
      · exact hseen
      · rcases hlater with hlater | ⟨hseen, -⟩
        · exact absurd (hlater t ht) (by omega)
        · exact hseen
    left
    rw [h.histories]
    exact (hseen.purge hstamped hpositive hrecent).observe _ _ _ _
  · exact .inr ⟨context.time, h.lastHandled, by omega⟩

end Step

theorem Chain.guards {rules : Rules} {time : Timestamp} {member : MemberId}
    {account : AccountId} {next : Option Envelope} {records : List Record}
    (h : Chain rules time member account p next records q) (hstamped : p.histories.Stamped ttl)
    (hpositive : 0 < ttl.toInt) (hguards : p.Guards ttl r)
    (hlater : (∀ t, p.clock.lastHandled = some t → t.seconds.toInt ≤ time.seconds.toInt) ∨
      p.histories.Remembers r.id r.time ∧
        time.seconds.toInt < r.time.seconds.toInt + ttl.toInt) : q.Guards ttl r := by
  induction h with
  | ended => exact hguards
  | triggered hfirst _ ih =>
    refine ih (hfirst.stamped hstamped) (hfirst.guards hstamped hpositive hguards hlater) (.inl ?_)
    intro t ht
    cases hfirst.lastHandled.symm.trans ht
    exact Int.le_refl _

theorem Chain.stamped {rules : Rules} {time : Timestamp} {member : MemberId} {account : AccountId}
    {next : Option Envelope} {records : List Record}
    (h : Chain rules time member account p next records q) (hstamped : p.histories.Stamped ttl) :
    q.histories.Stamped ttl := by
  induction h with
  | ended => exact hstamped
  | triggered hfirst _ ih => exact ih (hfirst.stamped hstamped)

/-- The records after the first one of a call belong to triggered transactions. -/
theorem Chain.scheduled {rules : Rules} {maxMemoBytes : UInt64}
    (hstandard : rules.transitions = .standard maxMemoBytes) {time : Timestamp} {member : MemberId}
    {account : AccountId} {next : Option Envelope} {records : List Record}
    (h : Chain rules time member account p next records q)
    (hnext : ∀ txn, next = some txn → txn.schedule.isSome = true) :
    ∀ r ∈ records, r.scheduleRef.isSome = true := by
  induction h with
  | ended =>
    intro r hr
    cases hr
  | triggered hfirst _ ih =>
    intro r hr
    rcases List.mem_cons.1 hr with rfl | hr
    · rw [hfirst.scheduleRef]
      exact hnext _ rfl
    · exact ih (fun txn htxn => hfirst.schedule_of_triggered hstandard rfl htxn) r hr

/-- After some records: those of delivered transactions that succeeded are guarded, come no earlier
than their valid start, and are replays of one another only at the boundary. -/
structure Guarded (c : ProcessingConfig) (records : List Record) (p : Processor) : Prop where
  stamped : p.histories.Stamped c.historySeconds
  guards : ∀ r ∈ records, r.scheduleRef = none → r.status = .ok → p.Guards c.historySeconds r
  started : ∀ r ∈ records, r.scheduleRef = none → r.status = .ok → r.Started
  boundary : records.Pairwise fun r s => r.Replays s → r.AtBoundary c s

section Call

variable {c : ProcessingConfig} {rules : Rules} {maxMemoBytes : UInt64} {records : List Record}
  {bytes : List UInt8} {time : Timestamp} {member : MemberId} {new : List Record}

/-- A delivered transaction that succeeds is handled no earlier than its valid start. -/
theorem Recorded.started {txn : Envelope} {context : Context} {next : Option Envelope}
    (h : Recorded rules p txn context false r next q) (hmin : 0 < c.minDuration.toInt)
    (hdurations : rules.durations = ⟨c.minDuration, c.maxDuration⟩) (hok : r.status = .ok) :
    r.Started := by
  obtain ⟨-, hduration, hchronology⟩ := h.admitted hok
  rw [hdurations] at hduration
  have hlow : c.minDuration.toInt ≤ txn.body.validDuration.toInt :=
    (DurationBounds.contains_iff.1 hduration).1
  obtain ⟨hstart, -⟩ := Gate.bounds_of_chronology hchronology (by omega)
  rw [Record.Started, h.id, h.time]
  exact hstart

/-- A transaction that succeeds although one with its identifier did before comes at the boundary. -/
theorem Guarded.atBoundary {txn : Envelope} {context : Context} {next : Option Envelope}
    (hguarded : Guarded c records p) (h : Recorded rules p txn context false s next q)
    (hpositive : 0 < c.historySeconds.toInt) (hmin : 0 < c.minDuration.toInt)
    (hmax : c.maxDuration.toInt ≤ c.historySeconds.toInt)
    (hdurations : rules.durations = ⟨c.minDuration, c.maxDuration⟩)
    (hlater : ∀ t, p.clock.lastHandled = some t → t.seconds.toInt ≤ context.time.seconds.toInt)
    (hr : r ∈ records) (hreplays : r.Replays s) : r.AtBoundary c s := by
  obtain ⟨⟨hexternal, -⟩, ⟨hok, hok'⟩, hid⟩ := hreplays
  obtain ⟨hunique, hduration, hchronology⟩ := h.admitted hok'
  rw [hdurations] at hduration
  have hbounds := DurationBounds.contains_iff.1 hduration
  have hsame : txn.body.id = r.id := h.id.symm.trans hid.symm
  -- The first handling has been forgotten by now, which takes all of its time.
  have hpast : r.time.seconds.toInt + c.historySeconds.toInt ≤ context.time.seconds.toInt := by
    by_contra hrecent
    rcases hguarded.guards r hr hexternal hok with hseen | ⟨t, ht, hpast⟩
    · have hkept := hseen.purge hguarded.stamped hpositive (Int.not_le.1 hrecent)
      rw [← hsame] at hkept
      exact hkept.duplicity context.member hunique
    · exact absurd (hlater t ht) (by omega)
  have hlow : c.minDuration.toInt ≤ txn.body.validDuration.toInt := hbounds.1
  have hhigh : txn.body.validDuration.toInt ≤ c.maxDuration.toInt := hbounds.2
  obtain ⟨-, hend⟩ := Gate.bounds_of_chronology hchronology (by omega)
  rw [hsame] at hend
  have hstart : r.Started := hguarded.started r hr hexternal hok
  rw [Record.Started] at hstart
  have htime : s.time = context.time := h.time
  constructor
  · exact Int64.toInt.inj (by omega)
  · exact Int64.toInt.inj (by omega)
  · rw [htime]
    omega
  · rw [htime, UInt32.lt_iff_toNat_lt, UInt32.le_iff_toNat_le]
    omega

/-- A transaction that is not dropped is handled after the last one, and in no later second than the
one of its delivery, unless that is the first instant. -/
theorem seconds_effectiveTime {txn : Envelope} {address : NodeAddress}
    (hnormal : time.nanos.toNat < Timestamp.perSecond)
    (hsane : Gate.sanityCheck rules.book (effectiveTime txn time) p.clock.lastHandled member =
      .ok address) :
    (∀ t, p.clock.lastHandled = some t →
      t.seconds.toInt ≤ (effectiveTime txn time).seconds.toInt) ∧
    ((effectiveTime txn time).seconds.toInt ≤ time.seconds.toInt ∨ time = ⟨Int64.minValue, 0⟩) := by
  constructor
  · intro t ht
    rw [ht, Gate.sanityCheck] at hsane
    split at hsane
    · rename_i hafter
      rw [Timestamp.isAfter_iff] at hafter
      omega
    · cases hsane
  · unfold effectiveTime
    split
    · exact Timestamp.seconds_minusNanos_one hnormal
    · exact .inl (Int.le_refl _)

variable (hstandard : rules.transitions = .standard maxMemoBytes)
  (hdurations : rules.durations = ⟨c.minDuration, c.maxDuration⟩) (hmin : 0 < c.minDuration.toInt)
  (hmax : c.maxDuration.toInt ≤ c.historySeconds.toInt) (hpositive : 0 < c.historySeconds.toInt)

include hstandard hdurations hmin hmax hpositive

/-- A call keeps the records guarded, also those that it brings. -/
theorem Call.guarded (h : Call rules p bytes time member new q) (hguarded : Guarded c records p)
    (hnormal : time.nanos.toNat < Timestamp.perSecond)
    (hinitial : time = ⟨Int64.minValue, 0⟩ → records = []) : Guarded c (records ++ new) q := by
  cases h with
  | dropped => rwa [List.append_nil]
  | accepted hparse hsane hfirst hrest =>
    rename_i txn address r next p' rest
    obtain ⟨hafter, hnow⟩ := seconds_effectiveTime hnormal hsane
    have hscheduled := hrest.scheduled hstandard fun inner hinner =>
      hfirst.schedule_of_triggered hstandard rfl hinner
    have hdelivered : ∀ s ∈ rest, s.scheduleRef ≠ none := fun s hs =>
      Option.isSome_iff_ne_none.1 (hscheduled s hs)
    have hlast (hseconds : (effectiveTime txn time).seconds.toInt ≤ time.seconds.toInt) :
        ∀ t, p'.clock.lastHandled = some t → t.seconds.toInt ≤ time.seconds.toInt := by
      intro t ht
      cases hfirst.lastHandled.symm.trans ht
      exact hseconds
    have hstamped := hfirst.stamped hguarded.stamped
    refine ⟨hrest.stamped hstamped, fun s hs hexternal hok => ?_, fun s hs hexternal hok => ?_, ?_⟩
    · rcases List.mem_append.1 hs with hs | hs
      · rcases hnow with hseconds | hinstant
        · have hguards := hfirst.guards hguarded.stamped hpositive
            (hguarded.guards s hs hexternal hok) (.inl hafter)
          exact hrest.guards hstamped hpositive hguards (.inl (hlast hseconds))
        · rw [hinitial hinstant] at hs
          cases hs
      · rcases List.mem_cons.1 hs with rfl | hs
        · have hseen := hfirst.remembers hok
          refine hrest.guards hstamped hpositive (.inl hseen) ?_
          rcases hnow with hseconds | rfl
          · exact .inl (hlast hseconds)
          · -- The time of the record has wrapped around and lies at the end of all seconds.
            have hlow := s.time.seconds.le_toInt
            have hseconds : (Timestamp.mk Int64.minValue 0).seconds.toInt =
              -0x8000000000000000 := rfl
            exact .inr ⟨hseen, by omega⟩
        · exact absurd hexternal (hdelivered s hs)
    · rcases List.mem_append.1 hs with hs | hs
      · exact hguarded.started s hs hexternal hok
      · rcases List.mem_cons.1 hs with rfl | hs
        · exact hfirst.started hmin hdurations hok
        · exact absurd hexternal (hdelivered s hs)
    · refine List.pairwise_append.2 ⟨hguarded.boundary, ?_, fun s hs t ht hreplays => ?_⟩
      · have hrest (s : Record) (t : Record) (ht : t ∈ rest) (hreplays : s.Replays t) :
            s.AtBoundary c t := absurd hreplays.delivered.2 (hdelivered t ht)
        exact List.pairwise_cons.2 ⟨hrest r,
          List.pairwise_of_forall_mem_list fun s _ t => hrest s t⟩
      · rcases List.mem_cons.1 ht with rfl | ht
        · exact hguarded.atBoundary hfirst hpositive hmin hmax hdurations hafter hs hreplays
        · exact absurd hreplays.delivered.2 (hdelivered t ht)

end Call

end Processor

namespace Node

/-- The records of a run are guarded. -/
theorem records_guarded (c : ProcessingConfig) (book : AddressBook)
    (verification : Signing.VerifierConfig) (fees : FeeSchedule) (rates : ExchangeRates)
    (ledger : Ledger) (schedules : ScheduleStore) (stream : RecordStream)
    (hmin : 0 < c.minDuration.toInt) (hmax : c.maxDuration.toInt ≤ c.historySeconds.toInt)
    (hpositive : 0 < c.historySeconds.toInt) (ds : List Delivery) (hordered : Delivery.Ordered ds) :
    let n := standard c book verification fees (.start c rates ledger schedules stream)
    Processor.Guarded c (n.records ds) (n.after ds).processor := by
  intro n
  induction ds using List.reverseRecOn with
  | nil =>
    refine ⟨Histories.stamped_empty _, fun r hr => ?_, fun r hr => ?_, .nil⟩
    · cases hr
    · cases hr
  | append_singleton ds d ih =>
    obtain ⟨hincreasing, hnormal⟩ := hordered
    obtain ⟨hbefore, -, hlast⟩ := List.pairwise_append.1 hincreasing
    have hguarded := ih ⟨hbefore, fun e he => hnormal e (List.mem_append_left _ he)⟩
    rw [records_concat]
    refine (deliver_call c book verification fees _ ds d).guarded rfl rfl hmin hmax hpositive
      hguarded (hnormal d (List.mem_append_right _ (List.mem_singleton.2 rfl))) fun hinstant => ?_
    -- Nothing comes before the first instant.
    cases ds with
    | nil => rfl
    | cons e rest =>
      have hearlier := hlast e List.mem_cons_self d (List.mem_singleton.2 rfl)
      have hlow := e.time.seconds.le_toInt
      have hseconds : (Timestamp.mk Int64.minValue 0).seconds.toInt = -0x8000000000000000 := rfl
      have hnanos : (Timestamp.mk Int64.minValue 0).nanos.toNat = 0 := rfl
      rw [hinstant, Timestamp.compare_eq_lt_iff] at hearlier
      omega

end Node

end ConsensusLedger
