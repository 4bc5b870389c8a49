import ConsensusLedger.Key

/-!
Activation of keys. A key is made of its members down to the leaves, and so are the three readings of
it: its leaves, whether it is valid and whether it is active. Activation is monotone in the leaves that
have signed, needs one of them, and needs no more than all of them if the key is valid.
-/

namespace ConsensusLedger.Key

variable {signed signed' : PublicKey → Bool} {keys : List Key} {count : UInt32}

/-- Induction over keys, with the hypothesis for every member. -/
@[elab_as_elim]
theorem induction {motive : Key → Prop} (ed25519 : ∀ k, motive (.ed25519 k))
    (list : ∀ keys, (∀ key ∈ keys, motive key) → motive (.list keys))
    (threshold : ∀ count keys, (∀ key ∈ keys, motive key) → motive (.threshold count keys)) :
    ∀ key, motive key
  | .ed25519 k => ed25519 k
  | .list keys => list keys fun key _ => induction ed25519 list threshold key
  | .threshold count keys =>
    threshold count keys fun key _ => induction ed25519 list threshold key

theorem mem_leavesAll {k : PublicKey} : k ∈ leavesAll keys ↔ ∃ key ∈ keys, k ∈ key.leaves := by
  induction keys with
  | nil => simp [leavesAll]
  | cons key rest ih => simp [leavesAll, ih]

theorem leaves_subset {key : Key} (hkey : key ∈ keys) : key.leaves ⊆ leavesAll keys :=
  fun _ hk => mem_leavesAll.2 ⟨key, hkey, hk⟩

theorem allValid_eq_true_iff : allValid keys = true ↔ ∀ key ∈ keys, key.isValid = true := by
  induction keys with
  | nil => simp [allValid]
  | cons key rest ih => simp [allValid, ih]

theorem countActive_eq (signed : PublicKey → Bool) (keys : List Key) :
    countActive signed keys = keys.countP fun key => key.isActive signed := by
  induction keys with
  | nil => rfl
  | cons key rest ih => rw [countActive, List.countP_cons, ih, Nat.add_comm]

theorem isActive_list_iff :
    (list keys).isActive signed = true ↔ keys ≠ [] ∧ ∀ key ∈ keys, key.isActive signed = true := by
  rw [isActive, Bool.and_eq_true, decide_eq_true_eq, countActive_eq, List.countP_eq_length,
    Bool.not_eq_true', List.isEmpty_eq_false_iff]

theorem isActive_threshold_iff : (threshold count keys).isActive signed = true ↔
    max 1 count.toNat ≤ keys.countP fun key => key.isActive signed := by
  rw [isActive, decide_eq_true_eq, countActive_eq, Nat.max_comm]

/-- What activates a key still does when more of its leaves have signed. -/
theorem isActive_mono_of_leaves {key : Key}
    (hsigned : ∀ k ∈ key.leaves, signed k = true → signed' k = true)
    (h : key.isActive signed = true) : key.isActive signed' = true := by
  induction key using induction with
  | ed25519 k => exact hsigned k List.mem_cons_self h
  | list keys ih =>
    have hmembers : ∀ key ∈ keys, key.isActive signed = true → key.isActive signed' = true :=
      fun key hkey => ih key hkey fun k hk => hsigned k (leaves_subset hkey hk)
    rw [isActive_list_iff] at h ⊢
    exact ⟨h.1, fun key hkey => hmembers key hkey (h.2 key hkey)⟩
  | threshold count keys ih =>
    have hmembers : ∀ key ∈ keys, key.isActive signed = true → key.isActive signed' = true :=
      fun key hkey => ih key hkey fun k hk => hsigned k (leaves_subset hkey hk)
    rw [isActive_threshold_iff] at h ⊢
    exact Nat.le_trans h (List.countP_mono_left hmembers)

/-- What activates a key still does when more public keys have signed. -/
theorem isActive_mono (hsigned : ∀ k, signed k = true → signed' k = true) (key : Key)
    (h : key.isActive signed = true) : key.isActive signed' = true :=
  isActive_mono_of_leaves (fun k _ => hsigned k) h

/-- A leaf of an active key has signed. -/
theorem exists_leaf_of_isActive {key : Key} (h : key.isActive signed = true) :
    ∃ k ∈ key.leaves, signed k = true := by
  induction key using induction with
  | ed25519 k => exact ⟨k, List.mem_cons_self, h⟩
  | list keys ih =>
    obtain ⟨hne, hall⟩ := isActive_list_iff.1 h
    obtain ⟨key, hkey⟩ := List.exists_mem_of_ne_nil keys hne
    obtain ⟨k, hk, hsigned⟩ := ih key hkey (hall key hkey)
    exact ⟨k, leaves_subset hkey hk, hsigned⟩
  | threshold count keys ih =>
    have hone : 1 ≤ max 1 count.toNat := Nat.le_max_left _ _
    obtain ⟨key, hkey, hactive⟩ :=
      List.countP_pos_iff.1 (Nat.le_trans hone (isActive_threshold_iff.1 h))
    obtain ⟨k, hk, hsigned⟩ := ih key hkey hactive
    exact ⟨k, leaves_subset hkey hk, hsigned⟩

/-- A valid key can be activated: it is, when all its leaves have signed. -/
theorem isActive_of_isValid {key : Key} (hvalid : key.isValid = true)
    (hsigned : ∀ k ∈ key.leaves, signed k = true) : key.isActive signed = true := by
  induction key using induction with
  | ed25519 k => exact hsigned k List.mem_cons_self
  | list keys ih =>
    rw [isValid, Bool.and_eq_true, Bool.not_eq_true', List.isEmpty_eq_false_iff,
      allValid_eq_true_iff] at hvalid
    exact isActive_list_iff.2 ⟨hvalid.1, fun key hkey =>
      ih key hkey (hvalid.2 key hkey) fun k hk => hsigned k (leaves_subset hkey hk)⟩
  | threshold count keys ih =>
    rw [isValid, Bool.and_eq_true, Bool.and_eq_true, decide_eq_true_eq, decide_eq_true_eq,
      allValid_eq_true_iff, UInt32.le_iff_toNat_le] at hvalid
    obtain ⟨⟨hpositive, hbound⟩, hmembers⟩ := hvalid
    have hcount : keys.countP (fun key => key.isActive signed) = keys.length :=
      List.countP_eq_length.2 fun key hkey =>
        ih key hkey (hmembers key hkey) fun k hk => hsigned k (leaves_subset hkey hk)
    rw [isActive_threshold_iff, hcount]
    exact Nat.max_le.2 ⟨Nat.le_trans hpositive hbound, hbound⟩

theorem allActive_eq_true_iff :
    allActive signed keys = true ↔ ∀ key ∈ keys, key.isActive signed = true :=
  List.all_eq_true

end ConsensusLedger.Key
