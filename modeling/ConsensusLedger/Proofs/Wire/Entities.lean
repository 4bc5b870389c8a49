import ConsensusLedger.Proofs.Wire.Codec
import ConsensusLedger.Wire.Entities

/-!
The written forms of identifiers, timestamps and keys are canonical. Keys are nested without a
bound; the depth that is read is bounded by the number of bytes, and this loses no key.
-/

namespace ConsensusLedger

open Wire Codec

theorem EntityId.canonical_codec : codec.Canonical anyValue :=
  ((canonical_u64.pair (canonical_u64.pair canonical_u64)).imap (fun _ => rfl) fun _ _ => rfl).of_iff
    fun _ => iff_true_intro ⟨trivial, trivial, trivial⟩

theorem Timestamp.canonical_codec : codec.Canonical anyValue :=
  ((canonical_i64.pair canonical_u32).imap (fun _ => rfl) fun _ _ => rfl).of_iff
    fun _ => iff_true_intro ⟨trivial, trivial⟩

theorem PublicKey.canonical_codec : codec.Canonical anyValue := canonical_fixed 32

namespace Key

mutual

/-- Every list of members is short enough for its length field. -/
def Fits : Key → Prop
  | .ed25519 _ => True
  | .list ks => ks.length < 0x10000000000000000 ∧ AllFit ks
  | .threshold _ ks => ks.length < 0x10000000000000000 ∧ AllFit ks

def AllFit : List Key → Prop
  | [] => True
  | k :: ks => k.Fits ∧ AllFit ks

end

mutual

/-- How deep a key is nested; a key that is a public key has depth one. -/
def depth : Key → Nat
  | .ed25519 _ => 1
  | .list ks => depthAll ks + 1
  | .threshold _ ks => depthAll ks + 1

def depthAll : List Key → Nat
  | [] => 0
  | k :: ks => max k.depth (depthAll ks)

end

theorem allFit_iff {ks : List Key} : AllFit ks ↔ ∀ k ∈ ks, k.Fits := by
  induction ks with
  | nil => simp [AllFit]
  | cons k ks ih => simp [AllFit, ih]

theorem depthAll_le_iff {ks : List Key} {n : Nat} : depthAll ks ≤ n ↔ ∀ k ∈ ks, k.depth ≤ n := by
  induction ks with
  | nil => simp [depthAll]
  | cons k ks ih => rw [depthAll, Nat.max_le, ih, List.forall_mem_cons]

theorem writeAll_eq_flatMap (ks : List Key) : writeAll ks = ks.flatMap write := by
  induction ks with
  | nil => rfl
  | cons k ks ih => rw [writeAll, ih, List.flatMap_cons]

mutual

/-- Each level of a key takes up at least one byte. -/
theorem depth_le_length (k : Key) : k.depth ≤ k.write.length := by
  match k with
  | .ed25519 key =>
    simp only [depth, write, tag, List.length_append, length_littleEndian]
    omega
  | .list ks =>
    have hmembers := depthAll_le_length ks
    simp only [depth, write, tag, List.length_append, length_littleEndian]
    omega
  | .threshold count ks =>
    have hmembers := depthAll_le_length ks
    simp only [depth, write, tag, List.length_append, length_littleEndian]
    omega

theorem depthAll_le_length (ks : List Key) : depthAll ks ≤ (writeAll ks).length := by
  match ks with
  | [] => exact Nat.le_refl 0
  | k :: ks =>
    have hfirst := depth_le_length k
    have hrest := depthAll_le_length ks
    simp only [depthAll, writeAll, List.length_append]
    omega

end

/-- What a reader that goes on after the members of a key gives. -/
theorem members_bind_eq_ok {γ : Type} {depth : Nat} {read : Reader Key}
    (h : Reads read write fun k => k.Fits ∧ k.depth ≤ depth)
    {next : List Key × List UInt8 → Except Fault γ} {bytes : List UInt8} {y : γ} :
    ((Codec.number 8).read bytes >>= fun count => readTimes read count.1 count.2 >>= next) = .ok y ↔
      ∃ ks rest, (ks.length < 0x10000000000000000 ∧ AllFit ks) ∧ depthAll ks ≤ depth ∧
        bytes = littleEndian 8 ks.length ++ (writeAll ks ++ rest) ∧ next (ks, rest) = .ok y := by
  simp only [counted_bind_eq_ok h, allFit_iff, depthAll_le_iff, writeAll_eq_flatMap, forall_and,
    and_assoc]

/-- By induction on the depth: the members of a key are nested less deep than the key is. -/
theorem reads_readNested (depth : Nat) :
    Reads (readNested depth) write fun k => k.Fits ∧ k.depth ≤ depth := by
  induction depth with
  | zero =>
    intro bytes k rest
    simp only [readNested, reduceCtorEq, false_iff]
    rintro ⟨⟨-, hdepth⟩, -⟩
    cases k <;> simp [Key.depth] at hdepth
  | succ depth ih =>
    intro bytes k rest
    simp only [readNested, Reads.bind_eq_ok (canonical_number 4)]
    constructor
    · rintro ⟨t, tail, -, rfl, hread⟩
      split at hread
      · obtain ⟨key, after, -, rfl, hk⟩ := (Reads.bind_eq_ok PublicKey.canonical_codec).1 hread
        cases hk
        refine ⟨⟨trivial, Nat.le_add_left 1 depth⟩, ?_⟩
        simp only [write, tag, List.append_assoc]
        rfl
      · obtain ⟨ks, after, hfits, hdepth, rfl, hk⟩ := (members_bind_eq_ok ih).1 hread
        cases hk
        refine ⟨⟨hfits, Nat.succ_le_succ hdepth⟩, ?_⟩
        simp only [write, tag, List.append_assoc]
        rfl
      · obtain ⟨count, before, -, rfl, hmembers⟩ := (Reads.bind_eq_ok canonical_u32).1 hread
        obtain ⟨ks, after, hfits, hdepth, rfl, hk⟩ := (members_bind_eq_ok ih).1 hmembers
        cases hk
        refine ⟨⟨hfits, Nat.succ_le_succ hdepth⟩, ?_⟩
        simp only [write, tag, List.append_assoc]
        rfl
      · cases hread
    · rintro ⟨⟨hfits, hdepth⟩, rfl⟩
      cases k with
      | ed25519 key =>
        refine ⟨0, key.val ++ rest, by decide, rfl, ?_⟩
        exact (Reads.bind_eq_ok PublicKey.canonical_codec).2 ⟨key, rest, trivial, rfl, rfl⟩
      | list ks =>
        have hmembers : depthAll ks ≤ depth := Nat.le_of_succ_le_succ hdepth
        refine ⟨1, littleEndian 8 ks.length ++ (writeAll ks ++ rest), by decide, ?_, ?_⟩
        · simp only [write, tag, List.append_assoc]
          rfl
        · exact (members_bind_eq_ok ih).2 ⟨ks, rest, hfits, hmembers, rfl, rfl⟩
      | threshold count ks =>
        have hmembers : depthAll ks ≤ depth := Nat.le_of_succ_le_succ hdepth
        refine ⟨2, u32.write count ++ (littleEndian 8 ks.length ++ (writeAll ks ++ rest)),
          by decide, ?_, ?_⟩
        · simp only [write, tag, List.append_assoc]
          rfl
        · refine (Reads.bind_eq_ok canonical_u32).2 ⟨count, _, trivial, rfl, ?_⟩
          exact (members_bind_eq_ok ih).2 ⟨ks, rest, hfits, hmembers, rfl, rfl⟩

theorem canonical_codec : codec.Canonical Fits := by
  intro bytes k rest
  change readNested (bytes.length + 1) bytes = _ ↔ _
  rw [reads_readNested (bytes.length + 1)]
  constructor
  · rintro ⟨⟨hfits, -⟩, hbytes⟩
    exact ⟨hfits, hbytes⟩
  · rintro ⟨hfits, hbytes⟩
    have hlength : k.write.length ≤ bytes.length := by
      rw [hbytes, List.length_append]
      exact Nat.le_add_right _ _
    have hdepth := depth_le_length k
    exact ⟨⟨hfits, by omega⟩, hbytes⟩

end Key

end ConsensusLedger
