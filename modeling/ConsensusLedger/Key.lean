import ConsensusLedger.Ed25519.Signature

/-!
Signing keys. Only leaves hold key material; lists and thresholds combine them into the condition
that a set of signatures has to meet. Whether a key is active depends on its leaves alone.
-/

namespace ConsensusLedger

/-- A condition on signatures, built from public keys. -/
inductive Key where
  | ed25519 (key : PublicKey)
  /-- Every member. -/
  | list (keys : List Key)
  /-- At least so many members. -/
  | threshold (count : UInt32) (keys : List Key)
  deriving Repr

namespace Key

instance : Inhabited Key := ⟨.list []⟩

mutual

def decEq : (a b : Key) → Decidable (a = b)
  | .ed25519 k, .ed25519 l =>
    if h : k = l then .isTrue (by rw [h]) else .isFalse (by simp [h])
  | .list ks, .list ls =>
    match decEqList ks ls with
    | .isTrue h => .isTrue (by rw [h])
    | .isFalse h => .isFalse (by simp [h])
  | .threshold m ks, .threshold n ls =>
    if hm : m = n then
      match decEqList ks ls with
      | .isTrue h => .isTrue (by rw [hm, h])
      | .isFalse h => .isFalse (by simp [h])
    else .isFalse (by simp [hm])
  | .ed25519 _, .list _ | .ed25519 _, .threshold _ _ => .isFalse nofun
  | .list _, .ed25519 _ | .list _, .threshold _ _ => .isFalse nofun
  | .threshold _ _, .ed25519 _ | .threshold _ _, .list _ => .isFalse nofun

def decEqList : (ks ls : List Key) → Decidable (ks = ls)
  | k :: ks, l :: ls =>
    match decEq k l, decEqList ks ls with
    | .isTrue hk, .isTrue hs => .isTrue (by rw [hk, hs])
    | .isFalse hk, _ => .isFalse fun h => hk (List.cons.inj h).1
    | _, .isFalse hs => .isFalse fun h => hs (List.cons.inj h).2
  | [], [] => .isTrue rfl
  | [], _ :: _ | _ :: _, [] => .isFalse nofun

end

instance : DecidableEq Key := decEq

mutual

/-- The public keys at the leaves, depth first and with repetitions. -/
def leaves : Key → List PublicKey
  | .ed25519 k => [k]
  | .list ks => leavesAll ks
  | .threshold _ ks => leavesAll ks

def leavesAll : List Key → List PublicKey
  | [] => []
  | k :: ks => k.leaves ++ leavesAll ks

end

mutual

/-- Every list has a member, and every threshold lies between one and the number of members. -/
def isValid : Key → Bool
  | .ed25519 _ => true
  | .list ks => !ks.isEmpty && allValid ks
  | .threshold n ks => 1 ≤ n && n.toNat ≤ ks.length && allValid ks

def allValid : List Key → Bool
  | [] => true
  | k :: ks => k.isValid && allValid ks

end

mutual

/-- Whether the public keys for which `signed` holds meet the condition. A list needs a member, and
a threshold counts as at least one. -/
def isActive (signed : PublicKey → Bool) : Key → Bool
  | .ed25519 k => signed k
  | .list ks => !ks.isEmpty && countActive signed ks = ks.length
  | .threshold n ks => max n.toNat 1 ≤ countActive signed ks

/-- The number of active members, counted with repetitions. -/
def countActive (signed : PublicKey → Bool) : List Key → Nat
  | [] => 0
  | k :: ks => (if k.isActive signed then 1 else 0) + countActive signed ks

end

def allActive (signed : PublicKey → Bool) (keys : List Key) : Bool :=
  keys.all fun k => k.isActive signed

end Key

end ConsensusLedger
