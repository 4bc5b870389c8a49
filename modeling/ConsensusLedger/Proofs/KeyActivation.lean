import ConsensusLedger.Proofs.Signing.Activation

/-!
Activation as a policy. However deep a key is, it is not active without a signature, more signatures do
it no harm, and a valid key can always be signed.
-/

namespace ConsensusLedger

namespace Key

/-- Activation is a sound and monotone policy for every key, valid or not. A key of which no leaf has
signed is not active. A key that is active stays so when more of its leaves have signed; so the verdict
depends on its leaves alone. A valid key of which all leaves have signed is active. And a threshold is
active if and only if at least so many of its members are, but one at least, where a member counts as
often as it is listed. -/
theorem activation_sound_monotone (key : Key) (signed signed' : PublicKey → Bool) :
    ((∀ k ∈ key.leaves, signed k = false) → key.isActive signed = false) ∧
    ((∀ k ∈ key.leaves, signed k = true → signed' k = true) →
      key.isActive signed = true → key.isActive signed' = true) ∧
    ((∀ k ∈ key.leaves, signed k = signed' k) → key.isActive signed = key.isActive signed') ∧
    (key.isValid = true → (∀ k ∈ key.leaves, signed k = true) → key.isActive signed = true) ∧
    ∀ count keys, key = .threshold count keys → (key.isActive signed = true ↔
      max 1 count.toNat ≤ keys.countP fun member => member.isActive signed) := by
  refine ⟨fun hnone => ?_, isActive_mono_of_leaves, fun hsame => ?_, isActive_of_isValid, ?_⟩
  · rw [Bool.eq_false_iff]
    intro hactive
    obtain ⟨k, hk, hsigned⟩ := exists_leaf_of_isActive hactive
    rw [hnone k hk] at hsigned
    cases hsigned
  · rw [Bool.eq_iff_iff]
    exact ⟨isActive_mono_of_leaves fun k hk hsigned => (hsame k hk).symm.trans hsigned,
      isActive_mono_of_leaves fun k hk hsigned => (hsame k hk).trans hsigned⟩
  · rintro count keys rfl
    exact isActive_threshold_iff

end Key

namespace Sample

/-- One signer and two of three others, the first of whom is listed twice, in place of a third. -/
def jointKey : Key :=
  let one := .ed25519 (Octets.replicate 32 1)
  let two := .ed25519 (Octets.replicate 32 2)
  let three := .ed25519 (Octets.replicate 32 3)
  .list [one, .threshold 2 [two, two, three]]

/-- The first two have signed. -/
def firstTwo (k : PublicKey) : Bool := k = Octets.replicate 32 1 ∨ k = Octets.replicate 32 2

/-- All three have signed. -/
def allThree (k : PublicKey) : Bool := firstTwo k || k = Octets.replicate 32 3

end Sample

open Sample in
/-- The first two signers are enough, as the second counts twice; so are all three, and nobody is not. -/
theorem Key.activation_sound_monotone_joint :
    (∀ k ∈ jointKey.leaves, firstTwo k = true → allThree k = true) ∧
      jointKey.isActive firstTwo = true ∧ jointKey.isActive allThree = true ∧
      jointKey.isValid = true ∧ jointKey.isActive (fun k => !allThree k) = false := by
  have hactive : jointKey.isActive firstTwo = true := by decide +kernel
  have hmore : ∀ k ∈ jointKey.leaves, firstTwo k = true → allThree k = true :=
    fun _ _ hsigned => by rw [allThree, hsigned, Bool.true_or]
  have hvalid : jointKey.isValid = true := by decide +kernel
  obtain ⟨-, hmono, -⟩ := Key.activation_sound_monotone jointKey firstTwo allThree
  have hstrangers : ∀ k ∈ jointKey.leaves, (!allThree k) = false := by decide +kernel
  obtain ⟨hnone, -⟩ := Key.activation_sound_monotone jointKey (fun k => !allThree k) firstTwo
  exact ⟨hmore, hactive, hmono hmore hactive, hvalid, hnone hstrangers⟩

end ConsensusLedger
