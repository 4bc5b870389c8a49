import ConsensusLedger.Handling.Requirement
import ConsensusLedger.Proofs.Signing.Activation
import ConsensusLedger.Proofs.Signing.Attribution

/-!
What the signature requirements of a transaction guarantee. Whenever its handling goes on, the keys
of every account that it debits were found; who counts as having signed has a signature over the
exact message; and the scope of a schedule operation was verified over the exact inner body.
-/

namespace ConsensusLedger

open Signing

/-- The accounts that a transaction takes from by what it asks for. -/
def TransactionData.debits : TransactionData → List AccountId
  | .cryptoTransfer transfers => (transfers.filter fun a => a.amount < 0).map (·.account)
  | _ => []

namespace Requirement

variable {ledger : Ledger} {schedules : ScheduleStore} {missing : Status}

private theorem mapM_accountKey {transfers : List AccountAmount} {keys : List Key}
    (h : (transfers.mapM fun a => accountKey ledger missing a.account) = .ok keys) :
    (transfers.map (·.account)).mapM ledger.key? = some keys := by
  induction transfers generalizing keys with
  | nil =>
    cases h
    rfl
  | cons a rest ih =>
    rw [List.mapM_cons] at h
    rw [List.map_cons, List.mapM_cons]
    cases hkey : ledger.key? a.account with
    | none =>
      simp only [accountKey, hkey] at h
      cases h
    | some k =>
      simp only [accountKey, hkey] at h
      cases hrest : rest.mapM fun a => accountKey ledger missing a.account with
      | error code =>
        simp only [accountKey] at hrest
        rw [hrest] at h
        cases h
      | ok others =>
        rw [ih hrest]
        simp only [accountKey] at hrest
        rw [hrest] at h
        cases h
        rfl

private theorem mapM_accountKey_error {transfers : List AccountAmount} {code : Status}
    (h : (transfers.mapM fun a => accountKey ledger missing a.account) = .error code) :
    code = missing := by
  induction transfers with
  | nil => cases h
  | cons a rest ih =>
    rw [List.mapM_cons] at h
    cases hkey : accountKey ledger missing a.account with
    | error code' =>
      rw [hkey] at h
      cases h
      unfold accountKey at hkey
      split at hkey
      · cases hkey
      · exact (Except.error.inj hkey).symm
    | ok k =>
      rw [hkey] at h
      cases hrest : rest.mapM fun a => accountKey ledger missing a.account with
      | error code' =>
        rw [hrest] at h
        cases h
        exact ih hrest
      | ok others =>
        rw [hrest] at h
        cases h

/-- The keys of a transfer are the keys of the accounts that it debits, in order. -/
theorem otherKeys_cryptoTransfer {transfers : List AccountAmount} {keys : List Key}
    (h : otherKeys ledger schedules missing (.cryptoTransfer transfers) = .ok keys) :
    (TransactionData.cryptoTransfer transfers).debits.mapM ledger.key? = some keys :=
  mapM_accountKey h

theorem mapM_key_mem {keyOf : AccountId → Option Key} {ids : List AccountId} {keys : List Key}
    (h : ids.mapM keyOf = some keys) : ∀ id ∈ ids, ∃ k ∈ keys, keyOf id = some k := by
  induction ids generalizing keys with
  | nil =>
    intro id hid
    cases hid
  | cons a rest ih =>
    rw [List.mapM_cons] at h
    cases hkey : keyOf a with
    | none =>
      rw [hkey] at h
      cases h
    | some k =>
      cases hrest : rest.mapM keyOf with
      | none =>
        rw [hkey, hrest] at h
        cases h
      | some others =>
        rw [hkey, hrest] at h
        cases h
        intro id hid
        rcases List.mem_cons.1 hid with rfl | hid
        · exact ⟨k, List.mem_cons_self, hkey⟩
        · obtain ⟨k', hk', hid'⟩ := ih hrest id hid
          exact ⟨k', List.mem_cons_of_mem _ hk', hid'⟩

theorem otherKeys_debits {data : TransactionData} {keys : List Key}
    (h : otherKeys ledger schedules missing data = .ok keys) :
    ∀ id ∈ data.debits, ∃ k ∈ keys, ledger.key? id = some k := by
  cases data with
  | cryptoTransfer transfers => exact mapM_key_mem (otherKeys_cryptoTransfer h)
  | _ =>
    intro id hid
    cases hid

private theorem otherKeys_error {data : TransactionData} {code : Status}
    (hmissing : missing.endsHandling = true)
    (h : otherKeys ledger schedules missing data = .error code) : code.endsHandling = true := by
  cases data with
  | cryptoTransfer transfers => exact mapM_accountKey_error h ▸ hmissing
  | scheduleCreate => cases h
  | scheduleSign id =>
    simp only [otherKeys] at h
    split at h
    · cases h
    · cases h
      rfl
  | scheduleDelete id =>
    simp only [otherKeys] at h
    split at h
    · cases h
    · cases h
      rfl
  | freeze => cases h

/-- The keys that have to sign an inner body: those of its payer and of the accounts that it debits,
which all have one. -/
def Signers (keyOf : AccountId → Option Key) (body : List UInt8) (payer : AccountId)
    (keys : List Key) : Prop :=
  ∃ inner, TransactionBody.ofBytes body = .ok inner ∧ inner.function.isSchedulable = true ∧
    (payer :: inner.data.debits).mapM keyOf = some keys

theorem Signers.unique {keyOf : AccountId → Option Key} {body : List UInt8} {payer : AccountId}
    {keys keys' : List Key} (h : Signers keyOf body payer keys)
    (h' : Signers keyOf body payer keys') : keys = keys' := by
  obtain ⟨inner, hinner, -, hkeys⟩ := h
  obtain ⟨inner', hinner', -, hkeys'⟩ := h'
  cases hinner.symm.trans hinner'
  exact Option.some.inj (hkeys.symm.trans hkeys')

theorem innerKeys_eq_ok {body : List UInt8} {payer : AccountId} {keys : List Key}
    (h : innerKeys ledger schedules body payer = .ok keys) :
    Signers ledger.key? body payer keys := by
  unfold innerKeys at h
  split at h
  · cases h
  · rename_i inner hinner
    split at h
    · cases h
    · rename_i hschedulable
      refine ⟨inner, hinner, by simpa only [Bool.not_eq_true', Bool.not_eq_false] using hschedulable, ?_⟩
      rw [List.mapM_cons]
      cases hkey : ledger.key? payer with
      | none =>
        simp only [accountKey, hkey] at h
        cases h
      | some k =>
        cases hothers : otherKeys ledger schedules .unresolvableRequiredSigners inner.data with
        | error code =>
          simp only [accountKey, hkey, hothers] at h
          cases h
        | ok others =>
          simp only [accountKey, hkey, hothers] at h
          cases h
          have hdebits : inner.data.debits.mapM ledger.key? = some others := by
            cases hdata : inner.data with
            | cryptoTransfer transfers =>
              rw [hdata] at hothers
              exact otherKeys_cryptoTransfer hothers
            | freeze window =>
              rw [hdata] at hothers
              cases hothers
              rfl
            | scheduleCreate =>
              rw [TransactionBody.function, hdata] at hschedulable
              exact absurd rfl hschedulable
            | scheduleSign =>
              rw [TransactionBody.function, hdata] at hschedulable
              exact absurd rfl hschedulable
            | scheduleDelete =>
              rw [TransactionBody.function, hdata] at hschedulable
              exact absurd rfl hschedulable
          rw [hdebits]
          rfl

private theorem innerKeys_error {body : List UInt8} {payer : AccountId} {code : Status}
    (h : innerKeys ledger schedules body payer = .error code) : code.endsHandling = true := by
  unfold innerKeys at h
  split at h
  · cases h
    rfl
  · rename_i inner _
    split at h
    · cases h
      rfl
    · cases hkey : ledger.key? payer with
      | none =>
        simp only [accountKey, hkey] at h
        cases h
        rfl
      | some k =>
        cases hothers : otherKeys ledger schedules .unresolvableRequiredSigners inner.data with
        | error code' =>
          simp only [accountKey, hkey, hothers] at h
          cases h
          exact otherKeys_error rfl hothers
        | ok others =>
          simp only [accountKey, hkey, hothers] at h
          cases h

private theorem endsHandling_firstFailure {a b : Status} (ha : a = .ok ∨ a.endsHandling = true)
    (h : (firstFailure a b).endsHandling = false) : a = .ok ∧ b.endsHandling = false := by
  rcases ha with rfl | ha
  · exact ⟨rfl, h⟩
  · have hne : a.isOk = false := by
      cases a <;> first | rfl | cases ha
    rw [firstFailure, hne] at h
    exact absurd (h.symm.trans ha) nofun

end Requirement

namespace ScheduledScope

/-- The scope holds the verified signatures of a map over an inner body, and the keys of those that
have to sign it. -/
structure Over (scope : ScheduledScope) (keyOf : AccountId → Option Key) (config : VerifierConfig)
    (body : List UInt8) (payer : AccountId) (signatures : SignatureMap) : Prop where
  signers : Requirement.Signers keyOf body payer scope.required
  attempts : scope.attempts = signatures.length
  signatures : scope.signatures =
    (config.verifyMap body signatures (Key.leavesAll scope.required)).signatures

/-- The valid keys in scope are leaves of the required keys, attested over the inner body. -/
theorem Over.mem_validKeys {scope : ScheduledScope} {keyOf : AccountId → Option Key}
    {config : VerifierConfig} {body : List UInt8} {payer : AccountId} {signatures : SignatureMap} {key : PublicKey}
    (h : scope.Over keyOf config body payer signatures) (hkey : key ∈ validKeys scope.signatures) :
    key ∈ Key.leavesAll scope.required ∧ attests config.verifier signatures body key = true := by
  rw [h.signatures] at hkey
  exact mem_validKeys_verifyMap hkey

end ScheduledScope

namespace Requirement

variable {txn : Envelope} {ledger : Ledger} {schedules : ScheduleStore} {config : VerifierConfig}

private theorem verifyMap_code (message : List UInt8) (pairs : SignatureMap)
    (required : List PublicKey) :
    (config.verifyMap message pairs required).status.code = .ok ∨
      (config.verifyMap message pairs required).status.code.endsHandling = true := by
  have hclaims (keys : List PublicKey) (code : Status) (h : claims pairs keys = .error code) :
      code = .keyPrefixMismatch := by
    induction keys with
    | nil => cases h
    | cons key rest ih =>
      unfold claims at h
      split at h
      · exact ih h
      · cases hrest : claims pairs rest with
        | error code' =>
          rw [hrest] at h
          cases h
          exact ih hrest
        | ok claimed =>
          rw [hrest] at h
          cases h
      · cases h
        rfl
  unfold VerifierConfig.verifyMap
  split
  · rename_i code hcode
    rw [hclaims _ code hcode]
    exact .inr rfl
  · exact .inl rfl

private theorem scheduledParts_error {code : Status}
    (h : scheduledParts txn schedules = .error code) : code.endsHandling = true := by
  unfold scheduledParts at h
  split at h
  · cases h
  · split at h
    · cases h
    · cases h
      rfl
  · cases h

private theorem scheduledScope_error {code : Status}
    (h : scheduledScope txn ledger schedules config = .error code) :
    code.endsHandling = true := by
  unfold scheduledScope at h
  split at h
  · rename_i hparts
    cases h
    exact scheduledParts_error hparts
  · cases h
  · split at h
    · rename_i hkeys
      cases h
      exact innerKeys_error hkeys
    · cases h

/-- The scope of a schedule operation is over its inner body. -/
theorem scheduledScope_over {parts : List UInt8 × AccountId × SignatureMap}
    {result : Option (ScheduledScope × SignatureStatus)}
    (h : scheduledScope txn ledger schedules config = .ok result)
    (hparts : scheduledParts txn schedules = .ok (some parts)) :
    ∃ scope status, result = some (scope, status) ∧
      scope.Over ledger.key? config parts.1 parts.2.1 parts.2.2 := by
  obtain ⟨body, payer, signatures⟩ := parts
  simp only [scheduledScope, hparts] at h
  split at h
  · cases h
  · rename_i required hrequired
    cases h
    exact ⟨_, _, rfl, innerKeys_eq_ok hrequired, rfl, rfl⟩

/-- Unless the resolution of signatures ends the handling, the other keys were all found and the
scope, where there is one to make, was made. -/
theorem rationalize_resolved
    (h : (rationalize txn ledger schedules config).status.code.endsHandling = false) :
    otherKeys ledger schedules .invalidAccountId txn.body.data =
        .ok (rationalize txn ledger schedules config).otherKeys ∧
      ∃ result, scheduledScope txn ledger schedules config = .ok result ∧
        (rationalize txn ledger schedules config).scheduled = result.map (·.1) := by
  cases hothers : otherKeys ledger schedules .invalidAccountId txn.body.data with
  | error code =>
    have hends := otherKeys_error rfl hothers
    simp only [rationalize, hothers] at h
    obtain ⟨hcode, -⟩ := endsHandling_firstFailure (.inr hends) h
    rw [hcode] at hends
    cases hends
  | ok others =>
    cases hscope : scheduledScope txn ledger schedules config with
    | error code =>
      have hends := scheduledScope_error hscope
      simp only [rationalize, hothers, hscope] at h
      obtain ⟨-, h⟩ := endsHandling_firstFailure (.inl rfl) h
      obtain ⟨-, h⟩ := endsHandling_firstFailure (verifyMap_code _ _ _) h
      rw [hends] at h
      cases h
    | ok result =>
      refine ⟨?_, result, rfl, ?_⟩
      · simp only [rationalize, hothers]
      · cases result with
        | none => simp only [rationalize, hothers, hscope, Option.map_none]
        | some found => simp only [rationalize, hothers, hscope, Option.map_some]

/-- The payer of a transaction that counts as signed by its payer has a key, and it is active over
the attested public keys. -/
theorem payer_attested (h : (rationalize txn ledger schedules config).payerActive = true) :
    ∃ k, ledger.key? txn.payer = some k ∧
      k.isActive (attests config.verifier txn.signatures txn.bodyBytes) = true := by
  have hpayer : (rationalize txn ledger schedules config).payerKey = ledger.key? txn.payer := rfl
  unfold Rationalization.payerActive at h
  rw [hpayer] at h
  split at h
  · rename_i k hk
    exact ⟨k, hk, Key.isActive_mono (fun _ hsigned => attests_of_hasValid hsigned) k h⟩
  · cases h

/-- When everyone who has to has signed, the other keys are active over the attested public keys. -/
theorem others_attested (hothers : (rationalize txn ledger schedules config).othersActive = true) :
    ∀ k ∈ (rationalize txn ledger schedules config).otherKeys,
      k.isActive (attests config.verifier txn.signatures txn.bodyBytes) = true := by
  intro k hk
  have hactive := Key.allActive_eq_true_iff.1 hothers k hk
  exact Key.isActive_mono (fun _ hsigned => attests_of_hasValid hsigned) k hactive

/-- The accounts that a transaction debits have keys, and these are active over the attested public
keys when everyone who has to has signed. -/
theorem debits_attested
    (hends : (rationalize txn ledger schedules config).status.code.endsHandling = false)
    (hothers : (rationalize txn ledger schedules config).othersActive = true) :
    ∀ id ∈ txn.body.data.debits, ∃ k, ledger.key? id = some k ∧
      k.isActive (attests config.verifier txn.signatures txn.bodyBytes) = true := by
  intro id hid
  obtain ⟨k, hk, hkey⟩ := otherKeys_debits (rationalize_resolved hends).1 id hid
  exact ⟨k, hkey, others_attested hothers k hk⟩

/-- So is the admin key of a schedule that is to be deleted. -/
theorem admin_attested
    (hends : (rationalize txn ledger schedules config).status.code.endsHandling = false)
    (hothers : (rationalize txn ledger schedules config).othersActive = true) {id : ScheduleId}
    (hdata : txn.body.data = .scheduleDelete id) {x : Schedule} (hx : schedules.get id = .ok x)
    {k : Key} (hk : x.adminKey = some k) :
    k.isActive (attests config.verifier txn.signatures txn.bodyBytes) = true := by
  have hkeys := (rationalize_resolved hends).1
  rw [hdata] at hkeys
  simp only [otherKeys, hx, hk] at hkeys
  exact others_attested hothers k (Except.ok.inj hkeys ▸ List.mem_singleton.2 rfl)

end Requirement

end ConsensusLedger
