import ConsensusLedger.Proofs.Signing.Expansion

/-!
Exact attribution of signatures. A map is refused if and only if two of its pairs speak for one
required key. Otherwise each required key for which a pair speaks is claimed once, with the signature
of that pair. Neither the order of the pairs, nor repetitions of required keys, nor the place where
signatures are verified make a difference to the claims and to the verdicts on them.
-/

namespace ConsensusLedger.Signing

/-- The claims of a map that is not ambiguous: the required keys for which one pair speaks, each once
and in the order of first occurrence, with the signature of that pair. -/
structure Attributes (pairs : SignatureMap) (required : List PublicKey) (claimed : List Claimed) :
    Prop where
  keys : claimed.map (·.key) =
    required.eraseDups.filter fun key => (speaking pairs key).length = 1
  signatures : ∀ c ∈ claimed, ∃ pair, speaking pairs c.key = [pair] ∧ c.signature = pair.signature

variable {pairs pairs' : SignatureMap} {required required' : List PublicKey}
  {claimed : List Claimed} {key : PublicKey} {message : List UInt8}

theorem claim?_eq_some_iff {c : Claimed} (hkey : ¬Ambiguous pairs key) :
    claim? pairs key = some c ↔
      ∃ pair, speaking pairs key = [pair] ∧ c = ⟨key, pair.signature⟩ := by
  rcases speaking_of_unambiguous hkey with hpairs | ⟨pair, hpairs⟩
  · simp [claim?, hpairs]
  · simp [claim?, hpairs, eq_comm]

theorem map_key_filterMap_claim? {keys : List PublicKey}
    (hkeys : ∀ key ∈ keys, ¬Ambiguous pairs key) :
    (keys.filterMap (claim? pairs)).map (·.key) =
      keys.filter fun key => (speaking pairs key).length = 1 := by
  induction keys with
  | nil => rfl
  | cons first rest ih =>
    have hrest := ih fun key hkey => hkeys key (List.mem_cons_of_mem _ hkey)
    rcases speaking_of_unambiguous (hkeys first List.mem_cons_self) with hpairs | ⟨pair, hpairs⟩
    · simp [claim?, hpairs, hrest]
    · simp [claim?, hpairs, hrest]

theorem attributes_of_unambiguous (hrequired : ∀ key ∈ required, ¬Ambiguous pairs key) :
    Attributes pairs required ((distinct required).filterMap (claim? pairs)) := by
  have hdistinct : ∀ key ∈ distinct required, ¬Ambiguous pairs key :=
    fun key hkey => hrequired key (mem_distinct.1 hkey)
  constructor
  · rw [map_key_filterMap_claim? hdistinct, distinct_eq_eraseDups]
  · intro c hc
    obtain ⟨key, hkey, hclaim⟩ := List.mem_filterMap.1 hc
    obtain ⟨pair, hpair, rfl⟩ := (claim?_eq_some_iff (hdistinct key hkey)).1 hclaim
    exact ⟨pair, hpair, rfl⟩

section Reordered

variable (hpairs : pairs'.Perm pairs)
include hpairs

theorem speaking_perm (key : PublicKey) : (speaking pairs' key).Perm (speaking pairs key) :=
  hpairs.filter _

theorem ambiguous_perm : Ambiguous pairs' key ↔ Ambiguous pairs key := by
  rw [Ambiguous, Ambiguous, (speaking_perm hpairs key).length_eq]

/-- Where at most one pair speaks, the order of the pairs does not matter. -/
theorem claim?_perm (hkey : ¬Ambiguous pairs key) : claim? pairs' key = claim? pairs key := by
  ext c
  have hkey' : ¬Ambiguous pairs' key := fun h => hkey ((ambiguous_perm hpairs).1 h)
  simp only [claim?_eq_some_iff hkey, claim?_eq_some_iff hkey']
  refine exists_congr fun pair => and_congr_left fun _ => ⟨fun h => ?_, fun h => ?_⟩
  · exact List.perm_singleton.1 (h ▸ (speaking_perm hpairs key).symm)
  · exact List.perm_singleton.1 (h ▸ speaking_perm hpairs key)

/-- The claims for the same required keys are the same, up to the order in which the keys first
occur. -/
theorem expand_perm (hrequired : ∀ key, key ∈ required' ↔ key ∈ required) :
    (expand pairs' required' = .error .keyPrefixMismatch ∧
        expand pairs required = .error .keyPrefixMismatch) ∨
      ∃ claimed' claimed, expand pairs' required' = .ok claimed' ∧
        expand pairs required = .ok claimed ∧ claimed'.Perm claimed ∧
        (required'.eraseDups = required.eraseDups → claimed' = claimed) := by
  by_cases hambiguous : ∃ key ∈ required, Ambiguous pairs key
  · left
    obtain ⟨key, hkey, htwo⟩ := hambiguous
    exact ⟨expand_eq_error_iff.2 ⟨key, (hrequired key).2 hkey, (ambiguous_perm hpairs).2 htwo⟩,
      expand_eq_error_iff.2 ⟨key, hkey, htwo⟩⟩
  · right
    push Not at hambiguous
    have hclaims : (distinct required').filterMap (claim? pairs') =
        (distinct required').filterMap (claim? pairs) :=
      List.filterMap_congr fun key hkey =>
        claim?_perm hpairs (hambiguous key ((hrequired key).1 (mem_distinct.1 hkey)))
    refine ⟨_, _, expand_of_unambiguous fun key hkey htwo => ?_, expand_of_unambiguous hambiguous,
      ?_, fun hsame => ?_⟩
    · exact hambiguous key ((hrequired key).1 hkey) ((ambiguous_perm hpairs).1 htwo)
    · rw [hclaims]
      exact (distinct_perm hrequired).filterMap _
    · rw [hclaims, distinct_eq_eraseDups, distinct_eq_eraseDups, hsame]

/-- The verdicts for the same required keys are the same, up to the order in which the keys first
occur, wherever they are found. -/
theorem verifyMap_perm (hrequired : ∀ key, key ∈ required' ↔ key ∈ required)
    (config : VerifierConfig) (threshold : Nat) (message : List UInt8) :
    let verified' := { config with parallelThreshold := threshold }.verifyMap message pairs' required'
    let verified := config.verifyMap message pairs required
    verified'.status.code = verified.status.code ∧
      verified'.signatures.Perm verified.signatures ∧
      (required'.eraseDups = required.eraseDups → verified'.signatures = verified.signatures) := by
  intro verified' verified
  rcases expand_perm hpairs hrequired with ⟨hfail', hfail⟩ | ⟨claimed', claimed, hok', hok, hperm, heq⟩
  · simp [verified', verified, VerifierConfig.verifyMap, hfail', hfail]
  · refine ⟨by simp [verified', verified, VerifierConfig.verifyMap, hok', hok], ?_, fun hsame => ?_⟩
    · simpa [verified', verified, VerifierConfig.verifyMap, hok', hok] using hperm.map _
    · simp [verified', verified, VerifierConfig.verifyMap, hok', hok, heq hsame]

end Reordered

/-- A key of an expanded map counts as having signed if and only if it is required and the verifier
accepts the signature of a pair that speaks for it. -/
theorem hasValid_verifyMap_iff (hok : expand pairs required = .ok claimed) (config : VerifierConfig)
    (message : List UInt8) (key : PublicKey) :
    (config.verifyMap message pairs required).hasValid key = true ↔
      key ∈ required ∧ ∃ pair ∈ pairs, pair.keyPrefix <+: key.val ∧
        config.verifier key message pair.signature = true := by
  obtain ⟨hrequired, rfl⟩ := expand_eq_ok_iff.1 hok
  have hverdicts : (config.verifyMap message pairs required).hasValid key = true ↔
      ∃ c ∈ (distinct required).filterMap (claim? pairs),
        config.verifier c.key message c.signature = true ∧ c.key = key := by
    simp only [Verified.hasValid, VerifierConfig.verifyMap, hok, List.any_map, List.any_eq_true,
      Function.comp_apply, Bool.and_eq_true, decide_eq_true_eq]
  have hspeaking {pair : SignaturePair} :
      pair ∈ speaking pairs key ↔ pair ∈ pairs ∧ pair.keyPrefix <+: key.val := by
    simp [speaking]
  rw [hverdicts]
  constructor
  · rintro ⟨c, hc, hvalid, hckey⟩
    obtain ⟨key', hkey', hclaim⟩ := List.mem_filterMap.1 hc
    have hmem := mem_distinct.1 hkey'
    obtain ⟨pair, hpair, rfl⟩ := (claim?_eq_some_iff (hrequired key' hmem)).1 hclaim
    subst hckey
    obtain ⟨hin, hprefix⟩ := hspeaking.1 (hpair ▸ List.mem_singleton.2 rfl)
    exact ⟨hmem, pair, hin, hprefix, hvalid⟩
  · rintro ⟨hmem, pair, hin, hprefix, hvalid⟩
    have hpair := hspeaking.2 ⟨hin, hprefix⟩
    have hone : speaking pairs key = [pair] := by
      rcases speaking_of_unambiguous (hrequired key hmem) with hnone | ⟨other, hother⟩
      · simp [hnone] at hpair
      · rw [hother, List.mem_singleton] at hpair
        rw [hother, hpair]
    exact ⟨_, List.mem_filterMap.2 ⟨key, mem_distinct.2 hmem,
      (claim?_eq_some_iff (hrequired key hmem)).2 ⟨pair, hone, rfl⟩⟩, hvalid, rfl⟩

/-- Attribution is exact. The first two parts say when a map is refused and what it claims
otherwise. The next two compare it with the same pairs in any order and with other lists of the same
required keys, at any threshold for parallel verification: the outcomes are the same up to the order
in which the keys first occur, and equal where this order is the same. The last one says which
keys count as having signed. -/
theorem signatures_attributed_exactly (pairs : SignatureMap) (required : List PublicKey) :
    (expand pairs required = .error .keyPrefixMismatch ↔
      ∃ key ∈ required, 2 ≤ (speaking pairs key).length) ∧
    ((¬∃ key ∈ required, 2 ≤ (speaking pairs key).length) →
      ∃ claimed, expand pairs required = .ok claimed ∧ Attributes pairs required claimed) ∧
    (∀ pairs' required', pairs'.Perm pairs → (∀ key, key ∈ required' ↔ key ∈ required) →
      (expand pairs' required' = .error .keyPrefixMismatch ∧
          expand pairs required = .error .keyPrefixMismatch) ∨
        ∃ claimed' claimed, expand pairs' required' = .ok claimed' ∧
          expand pairs required = .ok claimed ∧ claimed'.Perm claimed ∧
          (required'.eraseDups = required.eraseDups → claimed' = claimed)) ∧
    (∀ pairs' required', pairs'.Perm pairs → (∀ key, key ∈ required' ↔ key ∈ required) →
      ∀ (config : VerifierConfig) threshold message,
        let verified' :=
          { config with parallelThreshold := threshold }.verifyMap message pairs' required'
        let verified := config.verifyMap message pairs required
        verified'.status.code = verified.status.code ∧
          verified'.signatures.Perm verified.signatures ∧
          (required'.eraseDups = required.eraseDups →
            verified'.signatures = verified.signatures)) ∧
    (∀ claimed, expand pairs required = .ok claimed →
      ∀ (config : VerifierConfig) message key,
        (config.verifyMap message pairs required).hasValid key = true ↔
          key ∈ required ∧ ∃ pair ∈ pairs, pair.keyPrefix <+: key.val ∧
            config.verifier key message pair.signature = true) := by
  refine ⟨expand_eq_error_iff, fun hnone => ?_, fun _ _ hpairs hrequired => ?_,
    fun _ _ hpairs hrequired => ?_, fun _ hok => ?_⟩
  · have hrequired : ∀ key ∈ required, ¬Ambiguous pairs key :=
      fun key hkey htwo => hnone ⟨key, hkey, htwo⟩
    exact ⟨_, expand_of_unambiguous hrequired, attributes_of_unambiguous hrequired⟩
  · exact expand_perm hpairs hrequired
  · exact verifyMap_perm hpairs hrequired
  · exact hasValid_verifyMap_iff hok

end ConsensusLedger.Signing
