import ConsensusLedger.Proofs.Store.Leaf
import ConsensusLedger.Proofs.Table
import Mathlib.Data.List.Basic
import Mathlib.Data.List.Induction

/-!
Root hashes as fingerprints of contents. How a collection came to its contents, in which order and by
how many writes, does not show in its root hash; and where the contents of two collections differ, so
do the bytes that are hashed for them, so that only a collision can make the root hashes equal.
-/

namespace ConsensusLedger

open Wire

namespace Collection

/-- One change of a collection. -/
inductive Write (κ ν : Type) where
  | put (key : κ) (value : ν)
  | replace (key : κ) (value : ν)
  | remove (key : κ)

variable {κ ν : Type} [Ord κ] [Std.TransOrd κ] [Std.LawfulEqOrd κ]

/-- The collection after one change. A value is put and replaced alike. -/
def write (c : Collection κ ν) : Write κ ν → Collection κ ν
  | .put k v | .replace k v => c.put k v
  | .remove k => c.remove k

def after (c : Collection κ ν) (writes : List (Write κ ν)) : Collection κ ν := writes.foldl write c

section Contents
variable [DecidableEq κ]

/-- What a change leaves under a key, when it is a change of that key. -/
def Write.left? (k : κ) : Write κ ν → Option (Option ν)
  | put k' v | replace k' v => if k = k' then some (some v) else none
  | remove k' => if k = k' then some none else none

/-- What the last change of a key left under it. -/
def lastLeft? (k : κ) (writes : List (Write κ ν)) : Option (Option ν) :=
  writes.reverse.findSome? (Write.left? k)

theorem get?_write (c : Collection κ ν) (w : Write κ ν) (k : κ) :
    (c.write w).get? k = (w.left? k).getD (c.get? k) := by
  cases w with
  | put k' v | replace k' v =>
    rw [write, get?_put, Write.left?]
    split <;> rfl
  | remove k' =>
    rw [write, get?_remove, Write.left?]
    split <;> rfl

/-- Of all changes of a key only the last one counts. -/
theorem get?_after (c : Collection κ ν) (writes : List (Write κ ν)) (k : κ) :
    (c.after writes).get? k = (lastLeft? k writes).getD (c.get? k) := by
  induction writes using List.reverseRecOn with
  | nil => rfl
  | append_singleton writes w ih =>
    rw [after, List.foldl_append, List.foldl_cons, List.foldl_nil, get?_write]
    change (w.left? k).getD ((c.after writes).get? k) = _
    rw [ih, lastLeft?, lastLeft?, List.reverse_append, List.reverse_singleton,
      List.singleton_append, List.findSome?_cons]
    cases w.left? k <;> rfl

end Contents

/-- The bytes whose digest is the root hash. -/
def hashedBytes (key : Codec κ) (value : Codec ν) (c : Collection κ ν) : List UInt8 :=
  Digest.framed (c.leaves key value)

/-- Every entry is written as a byte string that memory can hold. -/
def Storable (key : Codec κ) (value : Codec ν) (c : Collection κ ν) : Prop :=
  ∀ leaf ∈ c.leaves key value, Addressable leaf

instance (key : Codec κ) (value : Codec ν) (c : Collection κ ν) :
    Decidable (c.Storable key value) :=
  inferInstanceAs (Decidable (∀ leaf ∈ _, _))

theorem rootHash_eq_of_get? {key : Codec κ} {value : Codec ν} {c d : Collection κ ν}
    (h : ∀ k, c.get? k = d.get? k) : c.rootHash key value = d.rootHash key value := by
  have hentries : c.entries = d.entries := Table.entries_eq_of_get? h
  rw [rootHash, rootHash, leaves, leaves, hentries]

omit [Std.TransOrd κ] [Std.LawfulEqOrd κ] in
/-- The entries are read back from the leaves. -/
theorem decode_leaves {key : Codec κ} {value : Codec ν} (hkey : key.ReadsBack)
    (hvalue : value.ReadsBack) {c : Collection κ ν} (hc : c.Storable key value) :
    (c.leaves key value).map (key.pair value).decode = c.entries.map Except.ok := by
  rw [leaves, List.map_map]
  refine List.map_congr_left fun e he => ?_
  exact (hkey.pair hvalue).decode_write (hc _ (List.mem_map_of_mem he))

omit [Std.TransOrd κ] [Std.LawfulEqOrd κ] in
/-- From the bytes back to the leaves, and from the leaves back to the entries. -/
theorem get?_eq_of_hashedBytes {key : Codec κ} {value : Codec ν} (hkey : key.ReadsBack)
    (hvalue : value.ReadsBack) {c d : Collection κ ν} (hc : c.Storable key value)
    (hd : d.Storable key value) (h : c.hashedBytes key value = d.hashedBytes key value) (k : κ) :
    c.get? k = d.get? k := by
  have hleaves : c.leaves key value = d.leaves key value := Digest.framed_inj hc hd h
  have hdecode := decode_leaves hkey hvalue hc
  rw [hleaves, decode_leaves hkey hvalue hd] at hdecode
  have hentries : d.entries = c.entries :=
    List.map_injective_iff.2 (fun _ _ => Except.ok.inj) hdecode
  change Table.lookup k c.entries = Table.lookup k d.entries
  rw [hentries]

/-- The root hash of a collection tells its contents, and nothing else, as far as BLAKE3 is free of
collisions. -/
structure Fingerprinted [DecidableEq κ] (key : Codec κ) (value : Codec ν) : Prop where
  /-- Runs of changes that end with the same contents end with the same root hash. -/
  determined : ∀ (c d : Collection κ ν) (writes writes' : List (Write κ ν)),
    (∀ k, (c.after writes).get? k = (d.after writes').get? k) →
    (c.after writes).rootHash key value = (d.after writes').rootHash key value
  /-- So it is the last change of each key that counts, in whatever order the keys were changed. -/
  order_free : ∀ (c : Collection κ ν) (writes writes' : List (Write κ ν)),
    (∀ k, lastLeft? k writes = lastLeft? k writes') →
    (c.after writes).rootHash key value = (c.after writes').rootHash key value
  entries_apart : ∀ e e' : κ × ν, Addressable ((key.pair value).write e) →
    (key.pair value).write e = (key.pair value).write e' → e = e'
  told_apart : ∀ c d : Collection κ ν, c.Storable key value → d.Storable key value →
    c.rootHash key value = d.rootHash key value →
    (∀ k, c.get? k = d.get? k) ∨
      (c.hashedBytes key value ≠ d.hashedBytes key value ∧
        Digest.blake3 (c.hashedBytes key value) = Digest.blake3 (d.hashedBytes key value))

theorem Fingerprinted.of_readsBack [DecidableEq κ] {key : Codec κ} {value : Codec ν} (hkey : key.ReadsBack)
    (hvalue : value.ReadsBack) : Fingerprinted key value where
  determined _ _ _ _ := rootHash_eq_of_get?
  order_free c writes writes' h :=
    rootHash_eq_of_get? fun k => by rw [get?_after, get?_after, h]
  entries_apart _ _ := (hkey.pair hvalue).inj
  told_apart c d hc hd hhash := by
    by_cases hbytes : c.hashedBytes key value = d.hashedBytes key value
    · exact .inl (get?_eq_of_hashedBytes hkey hvalue hc hd hbytes)
    · exact .inr ⟨hbytes, hhash⟩

/-- The root hashes of the accounts and of the schedules are fingerprints of their contents. Byte
strings are framed so that a list of them is found again from the bytes that are hashed, and the
entries are written so that each is found again from its leaf. -/
theorem root_hashes_fingerprint_contents :
    Fingerprinted EntityId.codec Account.codec ∧ Fingerprinted EntityId.codec Schedule.codec ∧
      ∀ ps qs : List (List UInt8), (∀ p ∈ ps ++ qs, Addressable p) →
        Digest.framed ps = Digest.framed qs → ps = qs := by
  refine ⟨.of_readsBack EntityId.readsBack_codec Account.readsBack_codec,
    .of_readsBack EntityId.readsBack_codec Schedule.readsBack_codec, fun ps qs h => ?_⟩
  obtain ⟨hps, hqs⟩ := List.forall_mem_append.1 h
  exact Digest.framed_inj hps hqs

/-- Account 0.0.2, with a list of two members as its key. -/
def teller (balance : UInt64) : Account :=
  ⟨balance, .list [.ed25519 (Octets.replicate 32 7), .threshold 1 []], false⟩

/-- Two accounts that are written twice each, one of them after it was removed. -/
def rewritten : List (Write AccountId Account) :=
  [.put (.ofNum 2) (teller 100), .put (.ofNum 3) (teller 5), .replace (.ofNum 2) (teller 90),
    .remove (.ofNum 3), .put (.ofNum 3) (teller 15)]

/-- The same two accounts, each written once. -/
def written : List (Write AccountId Account) :=
  [.put (.ofNum 3) (teller 15), .put (.ofNum 2) (teller 90)]

/-- A schedule that one key has signed. -/
def coffee (memo : String) : Schedule :=
  ⟨[1, 2, 3], .ofNum 2, .ofNum 3, ⟨100, 0⟩, 160, some (.ed25519 (Octets.replicate 32 7)), memo,
    [Octets.replicate 32 9]⟩

/-- The root hash does not tell five writes from two, nor the order of the two, but a balance of 90
from one of 91 and a memo from another; and the parts ab and c are framed otherwise than a and bc. -/
theorem root_hashes_fingerprint_teller :
    let c : Collection AccountId Account := empty.after rewritten
    let d : Collection AccountId Account := empty.after written
    let d' : Collection AccountId Account := empty.after written.reverse
    let s : Collection EntityId Schedule := empty.after [.put (.ofNum 1000) (coffee "a")]
    let t : Collection EntityId Schedule := empty.after [.put (.ofNum 1000) (coffee "b")]
    c.modifications ≠ d.modifications ∧
      c.rootHash EntityId.codec Account.codec = d.rootHash EntityId.codec Account.codec ∧
      d'.rootHash EntityId.codec Account.codec = d.rootHash EntityId.codec Account.codec ∧
      (EntityId.codec.pair Account.codec).write (.ofNum 2, teller 90) ≠
        (EntityId.codec.pair Account.codec).write (.ofNum 2, teller 91) ∧
      s.Storable EntityId.codec Schedule.codec ∧ t.Storable EntityId.codec Schedule.codec ∧
      s.rootHash EntityId.codec Schedule.codec ≠ t.rootHash EntityId.codec Schedule.codec ∧
      Digest.framed [[97, 98], [99]] ≠ Digest.framed [[97], [98, 99]] := by
  intro c d d' s t
  obtain ⟨haccounts, hschedules, hframed⟩ := root_hashes_fingerprint_contents
  have hlast (k : AccountId) : lastLeft? k rewritten = lastLeft? k written := by
    by_cases h2 : k = .ofNum 2
    · subst h2
      rfl
    · by_cases h3 : k = .ofNum 3
      · subst h3
        rfl
      · simp [lastLeft?, rewritten, written, Write.left?, h2, h3]
  have hswap (k : AccountId) : lastLeft? k written.reverse = lastLeft? k written := by
    by_cases h2 : k = .ofNum 2
    · subst h2
      rfl
    · simp [lastLeft?, written, Write.left?, List.findSome?_cons, h2]
  have hs : s.Storable EntityId.codec Schedule.codec := by decide +kernel
  have ht : t.Storable EntityId.codec Schedule.codec := by decide +kernel
  refine ⟨by decide, ?_, haccounts.order_free _ _ _ hswap, fun hleaf => ?_, hs, ht,
    fun hhash => ?_, fun h => ?_⟩
  · exact haccounts.determined _ _ _ _ fun k => by rw [get?_after, get?_after, hlast]
  · exact absurd (haccounts.entries_apart _ _ (by decide +kernel) hleaf) (by decide)
  · rcases hschedules.told_apart s t hs ht hhash with hcontents | ⟨-, hdigest⟩
    · have hne : s.get? (.ofNum 1000) ≠ t.get? (.ofNum 1000) := by decide
      exact hne (hcontents _)
    · have hne : Digest.blake3 (s.hashedBytes EntityId.codec Schedule.codec) ≠
          Digest.blake3 (t.hashedBytes EntityId.codec Schedule.codec) := by decide +kernel
      exact hne hdigest
  · exact absurd (hframed _ _ (by decide) h) (by decide)

end Collection

end ConsensusLedger
