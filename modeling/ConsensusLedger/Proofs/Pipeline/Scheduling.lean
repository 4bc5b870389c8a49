import ConsensusLedger.Proofs.Pipeline.Attended
import ConsensusLedger.Proofs.Schedule.Waiting

/-!
Waiting schedules along a handling. Every handling leaves the store with waiting schedules only, whose
inner bodies and signatures were delivered before; a transaction that it triggers is the inner one of
a schedule with all its required signatures, and triggers no further one.
-/

namespace ConsensusLedger

open Signing ScheduleStore
open ScheduleOperation (Settled)

namespace TransactionData

/-- The signatures that a schedule operation brings for an inner body. -/
def scheduledSignatures : TransactionData → SignatureMap
  | .scheduleCreate _ _ _ _ signatures => signatures
  | .scheduleSign _ signatures => signatures
  | _ => []

/-- The inner body that a schedule creation brings. -/
def scheduledBody? : TransactionData → Option (List UInt8)
  | .scheduleCreate body .. => some body
  | _ => none

end TransactionData

variable {keyOf : AccountId → Option Key} {verifier : Verifier} {config : VerifierConfig}
  {pairs : SignatureMap} {bodies : List (List UInt8)} {first : UInt64} {n : Nat}
  {s t : ScheduleStore} {txn : Envelope} {scope : ScheduledScope} {id : ScheduleId}

namespace ScheduleOperation

variable {op : ScheduleOperation}

/-- The inner body that the operation brings. -/
def body? : ScheduleOperation → Option (List UInt8)
  | create request => some request.body
  | sign _ => none

theorem scheduledBody?_eq (hop : ofEnvelope? txn = some op) :
    txn.body.data.scheduledBody? = op.body? := by
  unfold ofEnvelope? at hop
  split at hop
  · rename_i hdata
    cases hop
    rw [hdata]
    rfl
  · rename_i hdata
    cases hop
    rw [hdata]
    rfl
  · cases hop

/-- A transaction that can be scheduled brings no signatures for another. -/
theorem ofEnvelope?_of_schedulable (hschedulable : txn.function.isSchedulable = true) :
    ofEnvelope? txn = none := by
  rw [Envelope.function, TransactionBody.function] at hschedulable
  unfold ofEnvelope?
  split
  · rename_i hdata
    rw [hdata] at hschedulable
    cases hschedulable
  · rename_i hdata
    rw [hdata] at hschedulable
    cases hschedulable
  · rfl

/-- The inner body and its payer that the signatures of an operation are for. -/
def About (s : ScheduleStore) (body : List UInt8) (payer : AccountId) : ScheduleOperation → Prop
  | create request => body = request.body ∧ payer = request.payer
  | sign id => ∃ x, s.get id = .ok x ∧ body = x.body ∧ payer = x.payer

/-- Once the signatures of an operation are resolved it has a scope, over the inner body. -/
theorem scope_resolved {ledger : Ledger} (hop : ofEnvelope? txn = some op)
    (hends : (rationalize txn ledger s config).status.code.endsHandling = false) :
    ∃ scope, (rationalize txn ledger s config).scheduled = some scope ∧
      ∃ body payer, op.About s body payer ∧
        scope.Over ledger.key? config body payer txn.body.data.scheduledSignatures := by
  obtain ⟨-, result, hresult, hscheduled⟩ := Requirement.rationalize_resolved hends
  have hover {parts : List UInt8 × AccountId × SignatureMap}
      (hparts : Requirement.scheduledParts txn s = .ok (some parts)) :
      ∃ scope, (rationalize txn ledger s config).scheduled = some scope ∧
        scope.Over ledger.key? config parts.1 parts.2.1 parts.2.2 := by
    obtain ⟨scope, status, rfl, hover⟩ := Requirement.scheduledScope_over hresult hparts
    exact ⟨scope, hscheduled, hover⟩
  unfold ofEnvelope? at hop
  split at hop
  · rename_i body payer adminKey memo signatures hdata
    cases hop
    have hparts : Requirement.scheduledParts txn s =
        .ok (some (body, payer.getD txn.payer, signatures)) := by
      simp only [Requirement.scheduledParts, hdata]
    obtain ⟨scope, hscope, hover⟩ := hover hparts
    rw [hdata]
    exact ⟨scope, hscope, body, payer.getD txn.payer, ⟨rfl, rfl⟩, hover⟩
  · rename_i id signatures hdata
    cases hop
    cases hget : s.get id with
    | error e =>
      simp only [Requirement.scheduledScope, Requirement.scheduledParts, hdata, hget] at hresult
      cases hresult
    | ok x =>
      have hparts : Requirement.scheduledParts txn s = .ok (some (x.body, x.payer, signatures)) := by
        simp only [Requirement.scheduledParts, hdata, hget]
      obtain ⟨scope, hscope, hover⟩ := hover hparts
      rw [hdata]
      exact ⟨scope, hscope, x.body, x.payer, ⟨x, hget, rfl, rfl⟩, hover⟩
  · cases hop

/-- So the scope of an operation whose signatures are resolved is over the inner body. -/
theorem scope_over {ledger : Ledger} (hop : ofEnvelope? txn = some op)
    (hends : (rationalize txn ledger s config).status.code.endsHandling = false)
    (hscope : (rationalize txn ledger s config).scheduled = some scope) :
    ∃ body payer, op.About s body payer ∧
      scope.Over ledger.key? config body payer txn.body.data.scheduledSignatures := by
  obtain ⟨scope', hscope', hover⟩ := scope_resolved hop hends
  cases hscope'.symm.trans hscope
  exact hover

/-- A committed schedule that an operation settles on is the one that its signatures are for. -/
theorem about_target {x : Schedule} (htarget : op.target? s = some id)
    (hx : s.committed? id = some x) (hkept : Kept keyOf verifier pairs bodies first n s)
    {body : List UInt8} {payer : AccountId} (habout : op.About s body payer)
    (hbodies : ∀ request, op = .create request → request.body ∈ bodies)
    (hdistinct : ∀ a ∈ bodies, ∀ b ∈ bodies, Digest.blake3 a = Digest.blake3 b → a = b) :
    x.body = body ∧ x.payer = payer := by
  cases op with
  | create request =>
    obtain ⟨rfl, rfl⟩ := habout
    obtain ⟨y, hy, hfingerprint⟩ := hkept.tidy.find?_eq_some_iff.1 htarget
    cases hx.symm.trans hy
    exact ⟨hdistinct _ (hkept.waiting id x hx).2 _ (hbodies request rfl)
      (congrArg Fingerprint.bodyHash hfingerprint), congrArg Fingerprint.payer hfingerprint⟩
  | sign id' =>
    obtain ⟨y, hy, rfl, rfl⟩ := habout
    cases htarget
    cases hx.symm.trans (committed?_of_get hkept.tidy.pending hy)
    exact ⟨rfl, rfl⟩

namespace Settled

variable {expiry : Int64} {outcome : Outcome} {x : Schedule}

/-- An operation in a store of waiting schedules settles on a vetted schedule, whose inner body was
delivered, and finds it ready exactly if its required keys are all active. -/
theorem vetted (h : Settled s expiry op scope id outcome x t)
    (hkept : Kept keyOf config.verifier pairs bodies first n s) {body : List UInt8}
    {payer : AccountId} {signatures : SignatureMap} (habout : op.About s body payer)
    (hover : scope.Over keyOf config body payer signatures)
    (hpairs : ∀ pair ∈ signatures, pair ∈ pairs)
    (hbodies : ∀ request, op = .create request → request.body ∈ bodies)
    (hdistinct : ∀ a ∈ bodies, ∀ b ∈ bodies, Digest.blake3 a = Digest.blake3 b → a = b) :
    ∃ required, x.Vetted keyOf config.verifier pairs required ∧ x.body ∈ bodies ∧
      outcome.ready = Key.allActive x.hasSigned required := by
  cases h with
  | @found y _ htarget hy hwitnessed _ =>
    obtain ⟨⟨required, hvetted, hwaiting⟩, hbody⟩ := hkept.waiting id y hy
    obtain ⟨hsamebody, hsamepayer⟩ := about_target htarget hy hkept habout hbodies hdistinct
    subst hsamebody
    subst hsamepayer
    obtain ⟨hvetted', hsame, -, hready⟩ := hvetted.witnessed hover hpairs hwitnessed
    refine ⟨required, hvetted', hsame ▸ hbody, ?_⟩
    rcases hready with ⟨rfl, rfl⟩ | ⟨-, hready⟩
    · exact hwaiting.symm
    · exact hready
  | admitted request hop hnew hid hwitnessed hstatus =>
    subst hop
    obtain ⟨rfl, rfl⟩ := habout
    obtain ⟨hvetted, hsame, -, hready⟩ :=
      (NewSchedule.vetted hover pairs expiry).witnessed hover hpairs hwitnessed
    refine ⟨scope.required, hvetted, hsame ▸ hbodies request rfl, ?_⟩
    rcases hready with ⟨-, rfl⟩ | ⟨-, hready⟩
    · exact absurd rfl hstatus
    · exact hready

end Settled

end ScheduleOperation

/-- A handling leaves the schedules tidy, with one more number handed out if it creates one. -/
theorem Attended.tidy {now : Int64} {scope : Option ScheduledScope} {receipt : Receipt}
    {next : Option Envelope} (h : Attended txn scope now s (receipt, next, t)) (htidy : Tidy first n s)
    (hn : ∀ body, txn.body.data.scheduledBody? = some body → n < 0x10000000000000000) :
    ∃ n' ≤ n + txn.body.data.scheduledBody?.toList.length, Tidy first n' t := by
  refine h.store_induction
    (P := fun t => ∃ n' ≤ n + txn.body.data.scheduledBody?.toList.length, Tidy first n' t)
    ⟨n, Nat.le_add_right n _, htidy⟩ ?_ ?_ ?_
  · intro id x y t hx hy ht
    refine ⟨n, Nat.le_add_right n _, htidy.revised hx ht ?_⟩
    rw [hy]
    rfl
  · intro request x hop hnew hx
    have hbody : txn.body.data.scheduledBody? = some request.body :=
      ScheduleOperation.scheduledBody?_eq hop
    refine ⟨n + 1, ?_, htidy.admitting (hn _ hbody) rfl ?_⟩
    · rw [hbody]
      exact Nat.le_refl _
    · rw [hx]
      exact hnew
  · rintro t id x hx ⟨n', hn', htidy'⟩
    exact ⟨n', hn', htidy'.without hx⟩

/-- A handling of a transaction whose signatures are resolved keeps every schedule waiting, except one
that becomes ready and is executed. -/
theorem Attended.kept {ledger : Ledger} {now : Int64} {receipt : Receipt} {next : Option Envelope}
    (h : Attended txn (rationalize txn ledger s config).scheduled now s (receipt, next, t))
    (hends : (rationalize txn ledger s config).status.code.endsHandling = false)
    (hkept : Kept ledger.key? config.verifier pairs bodies first n s)
    (hpairs : ∀ pair ∈ txn.body.data.scheduledSignatures, pair ∈ pairs)
    (hbodies : ∀ body, txn.body.data.scheduledBody? = some body →
      body ∈ bodies ∧ n < 0x10000000000000000)
    (hdistinct : ∀ a ∈ bodies, ∀ b ∈ bodies, Digest.blake3 a = Digest.blake3 b → a = b) :
    (∃ n' ≤ n + txn.body.data.scheduledBody?.toList.length,
      Kept ledger.key? config.verifier pairs bodies first n' t) ∧
    ∀ inner, next = some inner → Executed ledger.key? config.verifier pairs first n s
      (txn.body.data.scheduledBody?.getD []) inner := by
  -- Whatever becomes of the schedule that an operation settles on, the others go on waiting.
  have hsettles {op : ScheduleOperation} {inScope : ScheduledScope} {id : ScheduleId}
      {outcome : Outcome} {x : Schedule} {t : ScheduleStore}
      (hop : ScheduleOperation.ofEnvelope? txn = some op)
      (hscope : (rationalize txn ledger s config).scheduled = some inScope)
      (hsettled : Settled s (now + s.lifetime) op inScope id outcome x t) :
      ∃ required, x.Vetted ledger.key? config.verifier pairs required ∧ x.body ∈ bodies ∧
        outcome.ready = Key.allActive x.hasSigned required ∧
        (∀ id' y, id' ≠ id → t.committed? id' = some y →
          y.Waiting ledger.key? config.verifier pairs ∧ y.body ∈ bodies) ∧
        ((∃ y, s.committed? id = some y ∧ y.body = x.body) ∨
          (n < 0x10000000000000000 ∧ id.num = first + UInt64.ofNat n ∧
            txn.body.data.scheduledBody?.getD [] = x.body)) := by
    have hbody := ScheduleOperation.scheduledBody?_eq hop
    have hbrought (request : NewSchedule) (hcreate : op = .create request) :
        txn.body.data.scheduledBody? = some request.body := by
      rw [hbody, hcreate]
      rfl
    obtain ⟨body, payer, habout, hover⟩ := ScheduleOperation.scope_over hop hends hscope
    obtain ⟨required, hvetted, hdelivered, hready⟩ := hsettled.vetted hkept habout hover hpairs
      (fun request hcreate => (hbodies _ (hbrought request hcreate)).1) hdistinct
    refine ⟨required, hvetted, hdelivered, hready, fun id' y hid hy => ?_, ?_⟩
    · rw [hsettled.committed, if_neg hid] at hy
      exact hkept.waiting id' y hy
    · rcases hsettled.origin with ⟨y, hy, hx⟩ | ⟨request, hcreate, hid, -, hx⟩
      · exact .inl ⟨y, hy, (congrArg Schedule.body hx).symm⟩
      · have hbrought := hbrought request hcreate
        refine .inr ⟨(hbodies _ hbrought).2, ?_, ?_⟩
        · rw [hid, ← hkept.tidy.next]
          rfl
        · rw [hbrought]
          exact (congrArg Schedule.body hx).symm
  obtain ⟨n', hn', htidy⟩ := h.tidy hkept.tidy fun body hbody => (hbodies body hbody).2
  cases h with
  | aside => exact ⟨⟨n', hn', htidy, hkept.waiting⟩, nofun⟩
  | deleted hdata hx => exact ⟨⟨n', hn', hkept.within htidy (without_within _ _ _)⟩, nofun⟩
  | waiting hop hscope hsettled hready =>
    rename_i id _ x
    obtain ⟨required, hvetted, hdelivered, hactive, hothers, -⟩ := hsettles hop hscope hsettled
    refine ⟨⟨n', hn', htidy, fun id' y hy => ?_⟩, nofun⟩
    by_cases hid : id' = id
    · rw [hsettled.committed, if_pos hid] at hy
      cases hy
      exact ⟨⟨required, hvetted, hactive.symm.trans hready⟩, hdelivered⟩
    · exact hothers id' y hid hy
  | executed hop hscope hsettled hready hinner =>
    obtain ⟨required, hvetted, hdelivered, hactive, hothers, hcause⟩ :=
      hsettles hop hscope hsettled
    refine ⟨⟨n', hn', htidy, fun id' y hy => ?_⟩, fun inner hsome => ?_⟩
    · rw [committed?_without] at hy
      split at hy
      · cases hy
      · rename_i hid
        exact hothers id' y hid hy
    · cases hsome
      exact ⟨_, _, required, hinner, hvetted, hactive.symm.trans hready, hcause⟩
  | unreadable status e hop hscope hsettled hready hinner =>
    obtain ⟨required, hvetted, -⟩ := hsettles hop hscope hsettled
    obtain ⟨inner, hexecutable⟩ := hvetted.executable _
    cases hexecutable.symm.trans hinner

/-- A transaction that can be scheduled leaves the schedules aside. -/
theorem Attended.of_schedulable {now : Int64} {scope : Option ScheduledScope} {receipt : Receipt}
    {next : Option Envelope} (h : Attended txn scope now s (receipt, next, t))
    (hschedulable : txn.function.isSchedulable = true) :
    receipt.schedule = none ∧ receipt.scheduledId = none ∧ next = none ∧ t = s := by
  have hnone {op : ScheduleOperation} (hop : ScheduleOperation.ofEnvelope? txn = some op) : False := by
    cases (ScheduleOperation.ofEnvelope?_of_schedulable hschedulable).symm.trans hop
  cases h with
  | aside => exact ⟨rfl, rfl, rfl, rfl⟩
  | deleted hdata =>
    rw [Envelope.function, TransactionBody.function, hdata] at hschedulable
    cases hschedulable
  | waiting hop => exact (hnone hop).elim
  | executed hop => exact (hnone hop).elim
  | unreadable _ _ hop => exact (hnone hop).elim

namespace Processor.Recorded

variable {rules : Rules} {maxMemoBytes : UInt64} {p q : Processor} {time : Timestamp}
  {member : MemberId} {account : AccountId} {r : Record} {next : Option Envelope}

theorem key?_eq {context : Context} {triggered : Bool}
    (h : Recorded rules p txn context triggered r next q) : q.ledger.key? = p.ledger.key? :=
  funext fun id => (h.account_frame id).1

variable (hstandard : rules.transitions = .standard maxMemoBytes)

include hstandard

/-- The handling of a delivered transaction keeps the schedules waiting. -/
theorem kept (h : Recorded rules p txn (.start time member (some account)) false r next q)
    (hkept : Kept p.ledger.key? rules.verification.verifier pairs bodies first n p.schedules)
    (hpairs : ∀ pair ∈ txn.body.data.scheduledSignatures, pair ∈ pairs)
    (hbodies : ∀ body, txn.body.data.scheduledBody? = some body →
      body ∈ bodies ∧ n < 0x10000000000000000)
    (hdistinct : ∀ a ∈ bodies, ∀ b ∈ bodies, Digest.blake3 a = Digest.blake3 b → a = b) :
    (∃ n' ≤ n + txn.body.data.scheduledBody?.toList.length,
      Kept q.ledger.key? rules.verification.verifier pairs bodies first n' q.schedules) ∧
    ∀ t, next = some t → Executed p.ledger.key? rules.verification.verifier pairs first n p.schedules
      (txn.body.data.scheduledBody?.getD []) t := by
  have hwithin := purge_within hkept.tidy.pending time.seconds
  have hpurged := hkept.within (hkept.tidy.purge time.seconds) hwithin
  rw [h.key?_eq]
  rcases h.attended_of_delivered hstandard hkept.tidy.pending with
    ⟨-, -, hnext, hschedules⟩ | ⟨hends, -, hattended⟩
  · rw [hschedules, hnext]
    exact ⟨⟨n, Nat.le_add_right n _, hpurged⟩, nofun⟩
  · obtain ⟨hkept', hexecuted⟩ := hattended.kept hends hpurged hpairs hbodies hdistinct
    exact ⟨hkept', fun t ht => (hexecuted t ht).within hwithin⟩

/-- The handling of a triggered transaction keeps the schedules waiting and triggers nothing. -/
theorem kept_of_schedulable
    (h : Recorded rules p txn (.start time member (some account)) true r next q)
    (hkept : Kept p.ledger.key? rules.verification.verifier pairs bodies first n p.schedules)
    (hschedulable : txn.function.isSchedulable = true) :
    Kept q.ledger.key? rules.verification.verifier pairs bodies first n q.schedules ∧
      next = none := by
  obtain ⟨-, -, hnext, hschedules⟩ :=
    (h.attended_of_triggered hstandard hkept.tidy.pending).of_schedulable hschedulable
  rw [h.key?_eq, hschedules]
  exact ⟨hkept.within (hkept.tidy.purge time.seconds) (purge_within hkept.tidy.pending time.seconds),
    hnext⟩

end Processor.Recorded

end ConsensusLedger
