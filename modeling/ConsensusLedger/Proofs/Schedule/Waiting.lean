import ConsensusLedger.Proofs.Handling.Requirement
import ConsensusLedger.Proofs.Schedule.Witness
import ConsensusLedger.Proofs.Transaction.Envelope

/-!
Schedules that wait. The inner body of a waiting schedule could run but for signatures: those who
have to sign it have keys, its signatories are distinct leaves of these keys with a signature over
the exact body, and the keys are not all active yet.
-/

namespace ConsensusLedger

open Signing

namespace Schedule

variable {keyOf : AccountId → Option Key} {verifier : Verifier} {pairs pairs' : SignatureMap}
  {required : List Key} {x x' : Schedule}

/-- The required keys are those of the schedule's signers, and every signatory is one of their
leaves, with a signature among the pairs over the inner body. -/
structure Vetted (keyOf : AccountId → Option Key) (verifier : Verifier) (pairs : SignatureMap)
    (required : List Key) (x : Schedule) : Prop where
  signers : Requirement.Signers keyOf x.body x.payer required
  nodup : x.signatories.Nodup
  signatories : ∀ k ∈ x.signatories,
    k ∈ Key.leavesAll required ∧ attests verifier pairs x.body k = true

/-- The schedule is vetted, and its required keys are not all active over its signatories. -/
def Waiting (keyOf : AccountId → Option Key) (verifier : Verifier) (pairs : SignatureMap)
    (x : Schedule) : Prop :=
  ∃ required, x.Vetted keyOf verifier pairs required ∧
    Key.allActive x.hasSigned required = false

theorem Vetted.mono (h : x.Vetted keyOf verifier pairs required)
    (hpairs : ∀ pair ∈ pairs, pair ∈ pairs') : x.Vetted keyOf verifier pairs' required :=
  ⟨h.signers, h.nodup, fun k hk => ⟨(h.signatories k hk).1, attests_mono hpairs (h.signatories k hk).2⟩⟩

theorem Waiting.mono (h : x.Waiting keyOf verifier pairs) (hpairs : ∀ pair ∈ pairs, pair ∈ pairs') :
    x.Waiting keyOf verifier pairs' := by
  obtain ⟨required, hvetted, hwaiting⟩ := h
  exact ⟨required, hvetted.mono hpairs, hwaiting⟩

/-- The accounts that the inner body debits, and its payer, have keys that are active over the
attested public keys once all the required keys are active over the signatories. -/
theorem Vetted.attested (h : x.Vetted keyOf verifier pairs required)
    (hready : Key.allActive x.hasSigned required = true) :
    ∃ inner, TransactionBody.ofBytes x.body = .ok inner ∧
      ∀ id ∈ x.payer :: inner.data.debits, ∃ k, keyOf id = some k ∧
        k.isActive (attests verifier pairs x.body) = true := by
  obtain ⟨inner, hinner, -, hkeys⟩ := h.signers
  refine ⟨inner, hinner, fun id hid => ?_⟩
  obtain ⟨k, hk, hkey⟩ := Requirement.mapM_key_mem hkeys id hid
  refine ⟨k, hkey, Key.isActive_mono (fun key hsigned => ?_) k (Key.allActive_eq_true_iff.1 hready k hk)⟩
  exact (h.signatories key (of_decide_eq_true hsigned)).2

/-- The inner transaction of a vetted schedule can be made. -/
theorem Vetted.executable (h : x.Vetted keyOf verifier pairs required) (id : ScheduleId) :
    ∃ txn, Envelope.ofScheduled x.body x.scheduledId x.payer id = .ok txn := by
  obtain ⟨inner, hinner, -, -⟩ := h.signers
  obtain ⟨txn, htxn, -⟩ := Envelope.ofScheduled_eq_ok hinner x.scheduledId x.payer id
  exact ⟨txn, htxn⟩

variable {config : VerifierConfig} {scope : ScheduledScope} {signatures : SignatureMap}
  {outcome : Outcome}

/-- Witnessing keeps a schedule vetted and changes nothing but its signatories. When the signatures
are not rejected, the answer says whether the required keys are active. -/
theorem Vetted.witnessed (h : x.Vetted keyOf config.verifier pairs required)
    (hscope : scope.Over keyOf config x.body x.payer signatures)
    (hpairs : ∀ pair ∈ signatures, pair ∈ pairs) (hwitnessed : x.Witnessed scope outcome x') :
    x'.Vetted keyOf config.verifier pairs required ∧ x'.body = x.body ∧
      x'.fingerprint = x.fingerprint ∧
      (x' = x ∧ outcome = ⟨.someSignaturesWereInvalid, false⟩ ∨
        outcome.status ≠ .someSignaturesWereInvalid ∧
          outcome.ready = Key.allActive x'.hasSigned required) := by
  have hrequired := hscope.signers.unique h.signers
  cases hwitnessed with
  | rejected => exact ⟨h, rfl, rfl, .inl ⟨rfl, rfl⟩⟩
  | settled status hstatus signatories hnodup hmem =>
    refine ⟨⟨h.signers, hnodup h.nodup, fun k hk => ?_⟩, rfl, rfl, .inr ⟨?_, ?_⟩⟩
    · rcases hmem k hk with hk | hk
      · exact h.signatories k hk
      · obtain ⟨hleaf, hattested⟩ := hscope.mem_validKeys hk
        exact ⟨hrequired ▸ hleaf, attests_mono hpairs hattested⟩
    · rcases hstatus with rfl | rfl <;> exact nofun
    · rw [← hrequired]
      rfl

end Schedule

/-- Nobody has signed the schedule of a new request. -/
theorem NewSchedule.vetted {keyOf : AccountId → Option Key} {config : VerifierConfig}
    {scope : ScheduledScope} {signatures : SignatureMap} {r : NewSchedule}
    (hscope : scope.Over keyOf config r.body r.payer signatures) (pairs : SignatureMap)
    (expiry : Int64) :
    (r.schedule expiry).Vetted keyOf config.verifier pairs scope.required :=
  ⟨hscope.signers, .nil, nofun⟩

namespace ScheduleStore

variable {keyOf : AccountId → Option Key} {verifier : Verifier} {pairs pairs' : SignatureMap}
  {bodies bodies' : List (List UInt8)} {first : UInt64} {n : Nat} {s s' : ScheduleStore}

/-- Every committed schedule waits, and its inner body was delivered. -/
structure Kept (keyOf : AccountId → Option Key) (verifier : Verifier) (pairs : SignatureMap)
    (bodies : List (List UInt8)) (first : UInt64) (n : Nat) (s : ScheduleStore) : Prop where
  tidy : Tidy first n s
  waiting : ∀ id x, s.committed? id = some x → x.Waiting keyOf verifier pairs ∧ x.body ∈ bodies

theorem kept_empty (keyOf : AccountId → Option Key) (verifier : Verifier) (pairs : SignatureMap)
    (bodies : List (List UInt8)) (lifetime : Int64) (first : UInt64) :
    Kept keyOf verifier pairs bodies first 0 (.empty lifetime first) :=
  ⟨tidy_empty lifetime first, nofun⟩

theorem Kept.mono (h : Kept keyOf verifier pairs bodies first n s)
    (hpairs : ∀ pair ∈ pairs, pair ∈ pairs') (hbodies : ∀ body ∈ bodies, body ∈ bodies') :
    Kept keyOf verifier pairs' bodies' first n s := by
  refine ⟨h.tidy, fun id x hx => ?_⟩
  obtain ⟨hwaiting, hbody⟩ := h.waiting id x hx
  exact ⟨hwaiting.mono hpairs, hbodies _ hbody⟩

theorem Kept.within {n' : Nat} (h : Kept keyOf verifier pairs bodies first n s)
    (htidy : Tidy first n' s') (hwithin : Within s' s) :
    Kept keyOf verifier pairs bodies first n' s' :=
  ⟨htidy, fun id x hx => h.waiting id x (hwithin id x hx)⟩

/-- The inner body that runs when a schedule operation executes a schedule: the body that the
schedule has, or the one that the operation brings when the schedule is new. -/
def executedBody (s : ScheduleStore) (own : List UInt8) (id : ScheduleId) : List UInt8 :=
  ((s.committed? id).map (·.body)).getD own

/-- The transaction is the inner one of a schedule whose required keys are all active over vetted
signatories. The schedule was committed with that inner body, or has been created with the one at
hand. -/
def Executed (keyOf : AccountId → Option Key) (verifier : Verifier) (pairs : SignatureMap)
    (first : UInt64) (n : Nat) (s : ScheduleStore) (own : List UInt8) (txn : Envelope) : Prop :=
  ∃ (id : ScheduleId) (x : Schedule) (required : List Key),
    Envelope.ofScheduled x.body x.scheduledId x.payer id = .ok txn ∧
    x.Vetted keyOf verifier pairs required ∧ Key.allActive x.hasSigned required = true ∧
    ((∃ y, s.committed? id = some y ∧ y.body = x.body) ∨
      (n < 0x10000000000000000 ∧ id.num = first + UInt64.ofNat n ∧ own = x.body))

theorem Executed.within {own : List UInt8} {txn : Envelope}
    (h : Executed keyOf verifier pairs first n s' own txn) (hwithin : Within s' s) :
    Executed keyOf verifier pairs first n s own txn := by
  obtain ⟨id, x, required, htxn, hvetted, hactive, hbody⟩ := h
  refine ⟨id, x, required, htxn, hvetted, hactive, ?_⟩
  rcases hbody with ⟨y, hy, hsame⟩ | hnew
  · exact .inl ⟨y, hwithin id y hy, hsame⟩
  · exact .inr hnew

/-- The accounts that an executed transaction can take from have keys that are active over the public
keys attested over the executed body. -/
theorem Executed.attested {own : List UInt8} {txn : Envelope}
    (h : Executed keyOf verifier pairs first n s own txn) (htidy : Tidy first n s) :
    ∃ id, txn.schedule = some id ∧ txn.function.isSchedulable = true ∧
      ∀ account ∈ txn.payer :: txn.body.data.debits, ∃ k, keyOf account = some k ∧
        k.isActive (attests verifier pairs (s.executedBody own id)) = true := by
  obtain ⟨id, x, required, htxn, hvetted, hactive, hbody⟩ := h
  obtain ⟨inner, hinner, hattested⟩ := hvetted.attested hactive
  obtain ⟨inner', hinner', hschedulable, -⟩ := hvetted.signers
  cases hinner.symm.trans hinner'
  obtain ⟨txn', htxn', hpayer, hdata, hschedule⟩ :=
    Envelope.ofScheduled_eq_ok hinner x.scheduledId x.payer id
  cases htxn.symm.trans htxn'
  have hexecuted : s.executedBody own id = x.body := by
    rcases hbody with ⟨y, hy, hsame⟩ | ⟨hn, hid, hown⟩
    · rw [executedBody, hy]
      exact hsame
    · rw [executedBody, htidy.committed?_next hn (hid.trans htidy.next.symm)]
      exact hown
  refine ⟨id, hschedule, ?_, ?_⟩
  · rw [Envelope.function, TransactionBody.function, hdata]
    exact hschedulable
  · rw [hexecuted, hpayer, hdata]
    exact hattested

end ScheduleStore

end ConsensusLedger
