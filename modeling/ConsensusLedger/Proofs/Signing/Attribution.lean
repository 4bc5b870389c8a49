import ConsensusLedger.Signing.Witness

/-!
What a verified signature map says. A key counts as having signed only if some pair of the map
speaks for it with a signature that the verifier accepts for it over the message; the keys that do
are among those that were asked for.
-/

namespace ConsensusLedger.Signing

section Distinct

variable {α : Type} [DecidableEq α]

private theorem mem_foldl_distinct {x : α} (xs seen : List α) :
    x ∈ xs.foldl (fun seen x => if x ∈ seen then seen else seen ++ [x]) seen ↔ x ∈ seen ∨ x ∈ xs := by
  induction xs generalizing seen with
  | nil => simp only [List.foldl_nil, List.not_mem_nil, or_false]
  | cons y ys ih =>
    rw [List.foldl_cons, ih, List.mem_cons]
    by_cases hy : y ∈ seen
    · rw [if_pos hy]
      constructor
      · rintro (h | h)
        · exact .inl h
        · exact .inr (.inr h)
      · rintro (h | rfl | h)
        · exact .inl h
        · exact .inl hy
        · exact .inr h
    · rw [if_neg hy, List.mem_append, List.mem_singleton, or_assoc]

theorem mem_distinct {x : α} {xs : List α} : x ∈ distinct xs ↔ x ∈ xs := by
  rw [distinct, mem_foldl_distinct, List.mem_nil_iff, false_or]

end Distinct

/-- Some pair speaks for the key with a signature that the verifier accepts over the message. -/
def attests (verifier : Verifier) (pairs : SignatureMap) (message : List UInt8) (key : PublicKey) :
    Bool :=
  pairs.any fun pair => speaksFor pair key && verifier key message pair.signature

theorem attests_mono {verifier : Verifier} {pairs pairs' : SignatureMap} {message : List UInt8}
    {key : PublicKey} (hpairs : ∀ pair ∈ pairs, pair ∈ pairs')
    (h : attests verifier pairs message key = true) :
    attests verifier pairs' message key = true := by
  obtain ⟨pair, hmem, hpair⟩ := List.any_eq_true.1 h
  exact List.any_eq_true.2 ⟨pair, hpairs pair hmem, hpair⟩

/-- Every claim is made by a pair of the map for one of the keys. -/
theorem mem_of_claims_eq_ok {pairs : SignatureMap} {keys : List PublicKey} {claimed : List Claimed}
    (h : claims pairs keys = .ok claimed) : ∀ c ∈ claimed, c.key ∈ keys ∧
      ∃ pair ∈ pairs, speaksFor pair c.key = true ∧ pair.signature = c.signature := by
  induction keys generalizing claimed with
  | nil =>
    cases h
    intro c hc
    cases hc
  | cons key rest ih =>
    have hrest {claimed : List Claimed} (h : claims pairs rest = .ok claimed) :
        ∀ c ∈ claimed, c.key ∈ key :: rest ∧
          ∃ pair ∈ pairs, speaksFor pair c.key = true ∧ pair.signature = c.signature := by
      intro c hc
      obtain ⟨hkey, hpair⟩ := ih h c hc
      exact ⟨List.mem_cons_of_mem key hkey, hpair⟩
    unfold claims at h
    split at h
    · exact hrest h
    · rename_i pair hfilter
      have hpair : pair ∈ pairs.filter fun p => speaksFor p key := by
        rw [hfilter]
        exact List.mem_singleton.2 rfl
      obtain ⟨hmem, hspeaks⟩ := List.mem_filter.1 hpair
      cases hclaimed : claims pairs rest with
      | error code =>
        rw [hclaimed] at h
        cases h
      | ok others =>
        rw [hclaimed] at h
        cases h
        intro c hc
        rcases List.mem_cons.1 hc with rfl | hc
        · exact ⟨List.mem_cons_self, pair, hmem, hspeaks, rfl⟩
        · exact hrest hclaimed c hc
    · cases h

variable {config : VerifierConfig} {message : List UInt8} {pairs : SignatureMap}
  {required : List PublicKey}

/-- A signature found valid is one of the map's, accepted over the message for a required key. -/
theorem mem_verifyMap {s : ScopedSignature}
    (h : s ∈ (config.verifyMap message pairs required).signatures) (hvalid : s.valid = true) :
    s.key ∈ required ∧ attests config.verifier pairs message s.key = true := by
  unfold VerifierConfig.verifyMap at h
  split at h
  · cases h
  · rename_i claimed hclaimed
    obtain ⟨c, hc, rfl⟩ := List.mem_map.1 h
    obtain ⟨hkey, pair, hpair, hspeaks, hsignature⟩ := mem_of_claims_eq_ok hclaimed c hc
    refine ⟨mem_distinct.1 hkey, List.any_eq_true.2 ⟨pair, hpair, ?_⟩⟩
    rw [hspeaks, hsignature, Bool.true_and]
    exact hvalid

theorem attests_of_hasValid {key : PublicKey}
    (h : (config.verifyMap message pairs required).hasValid key = true) :
    attests config.verifier pairs message key = true := by
  obtain ⟨s, hs, hkey⟩ := List.any_eq_true.1 h
  rw [Bool.and_eq_true, decide_eq_true_eq] at hkey
  obtain ⟨hvalid, rfl⟩ := hkey
  exact (mem_verifyMap hs hvalid).2

/-- The valid keys of a verified map are required and attested. -/
theorem mem_validKeys_verifyMap {key : PublicKey}
    (h : key ∈ validKeys (config.verifyMap message pairs required).signatures) :
    key ∈ required ∧ attests config.verifier pairs message key = true := by
  obtain ⟨s, hs, rfl⟩ := List.mem_map.1 (mem_distinct.1 h)
  obtain ⟨hmem, hvalid⟩ := List.mem_filter.1 hs
  exact mem_verifyMap hmem hvalid

end ConsensusLedger.Signing
