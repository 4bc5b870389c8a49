import ConsensusLedger.Proofs.Signing.Attribution
import Mathlib.Data.List.Dedup

/-!
Expansion of a signature map. Which keys it claims, and with which signatures, depends on the pairs
as a collection and on the first occurrences of the required keys.
-/

namespace ConsensusLedger.Signing

section Distinct

variable {α : Type} [DecidableEq α]

private theorem foldl_distinct (xs seen : List α) :
    xs.foldl (fun seen x => if x ∈ seen then seen else seen ++ [x]) seen =
      seen ++ (xs.filter (· ∉ seen)).eraseDups := by
  induction xs generalizing seen with
  | nil => simp
  | cons x xs ih =>
    rw [List.foldl_cons, ih]
    by_cases hx : x ∈ seen
    · simp [hx]
    · have hrest : xs.filter (· ∉ seen ++ [x]) = (xs.filter (· ∉ seen)).filter (!· == x) := by
        rw [List.filter_filter]
        apply List.filter_congr
        intro y _
        by_cases hy : y = x <;> simp [hy]
      rw [if_neg hx, hrest, List.filter_cons_of_pos (by simpa using hx), List.eraseDups_cons,
        List.append_assoc, List.singleton_append]

/-- The elements in the order of their first occurrences, each once. -/
theorem distinct_eq_eraseDups [beq : BEq α] [LawfulBEq α] (xs : List α) :
    distinct xs = xs.eraseDups := by
  obtain rfl : beq = instBEqOfDecidableEq := lawful_beq_subsingleton _ _
  simp [distinct, foldl_distinct]

private theorem nodup_foldl_distinct (xs : List α) {seen : List α} (hseen : seen.Nodup) :
    (xs.foldl (fun seen x => if x ∈ seen then seen else seen ++ [x]) seen).Nodup := by
  induction xs generalizing seen with
  | nil => exact hseen
  | cons x xs ih =>
    rw [List.foldl_cons]
    apply ih
    by_cases hx : x ∈ seen
    · rwa [if_pos hx]
    · rw [if_neg hx]
      simpa [List.concat_eq_append] using hseen.concat hx

theorem nodup_distinct (xs : List α) : (distinct xs).Nodup :=
  nodup_foldl_distinct xs List.nodup_nil

theorem distinct_perm {xs ys : List α} (h : ∀ x, x ∈ xs ↔ x ∈ ys) :
    (distinct xs).Perm (distinct ys) := by
  rw [List.perm_ext_iff_of_nodup (nodup_distinct xs) (nodup_distinct ys)]
  intro x
  rw [mem_distinct, mem_distinct, h]

end Distinct

/-- The pairs of a map whose key prefix begins the key. -/
def speaking (pairs : SignatureMap) (key : PublicKey) : SignatureMap :=
  pairs.filter fun pair => pair.keyPrefix <+: key.val

variable {pairs : SignatureMap} {key : PublicKey} {keys required : List PublicKey}
  {claimed : List Claimed}

theorem speaksFor_iff {pair : SignaturePair} :
    speaksFor pair key = true ↔ pair.keyPrefix <+: key.val :=
  List.isPrefixOf_iff_prefix

theorem filter_speaksFor (pairs : SignatureMap) (key : PublicKey) :
    pairs.filter (fun pair => speaksFor pair key) = speaking pairs key := by
  apply List.filter_congr
  intro pair _
  rw [Bool.eq_iff_iff, speaksFor_iff, decide_eq_true_eq]

/-- Two pairs speak for the key. -/
def Ambiguous (pairs : SignatureMap) (key : PublicKey) : Prop := 2 ≤ (speaking pairs key).length

/-- At most one pair speaks for a key that is not ambiguous. -/
theorem speaking_of_unambiguous (hkey : ¬Ambiguous pairs key) :
    speaking pairs key = [] ∨ ∃ pair, speaking pairs key = [pair] := by
  match hpairs : speaking pairs key with
  | [] => exact .inl rfl
  | [pair] => exact .inr ⟨pair, rfl⟩
  | _ :: _ :: _ => exact absurd (by simp [Ambiguous, hpairs]) hkey

/-- The claim that a map makes for a key, unless it is ambiguous. -/
def claim? (pairs : SignatureMap) (key : PublicKey) : Option Claimed :=
  (speaking pairs key).head?.map fun pair => ⟨key, pair.signature⟩

theorem claims_of_ambiguous (hkey : key ∈ keys) (hambiguous : Ambiguous pairs key) :
    claims pairs keys = .error .keyPrefixMismatch := by
  induction keys with
  | nil => cases hkey
  | cons first rest ih =>
    rw [claims, filter_speaksFor]
    rcases List.mem_cons.1 hkey with rfl | hrest
    · match hpairs : speaking pairs key with
      | [] | [_] => simp [Ambiguous, hpairs] at hambiguous
      | _ :: _ :: _ => rfl
    · rw [ih hrest]
      split <;> rfl

theorem claims_of_unambiguous (hkeys : ∀ key ∈ keys, ¬Ambiguous pairs key) :
    claims pairs keys = .ok (keys.filterMap (claim? pairs)) := by
  induction keys with
  | nil => rfl
  | cons first rest ih =>
    rw [claims, filter_speaksFor, ih fun key hkey => hkeys key (List.mem_cons_of_mem _ hkey)]
    rcases speaking_of_unambiguous (hkeys first List.mem_cons_self) with hpairs | ⟨pair, hpairs⟩
    · simp [claim?, hpairs]
    · simp [claim?, hpairs, Except.map]

/-- A map is refused if and only if two of its pairs speak for one required key. -/
theorem expand_eq_error_iff : expand pairs required = .error .keyPrefixMismatch ↔
    ∃ key ∈ required, Ambiguous pairs key := by
  constructor
  · intro herror
    by_contra hnone
    push Not at hnone
    rw [expand, claims_of_unambiguous fun key hkey => hnone key (mem_distinct.1 hkey)] at herror
    cases herror
  · rintro ⟨key, hkey, hambiguous⟩
    exact claims_of_ambiguous (mem_distinct.2 hkey) hambiguous

theorem expand_of_unambiguous (hrequired : ∀ key ∈ required, ¬Ambiguous pairs key) :
    expand pairs required = .ok ((distinct required).filterMap (claim? pairs)) :=
  claims_of_unambiguous fun key hkey => hrequired key (mem_distinct.1 hkey)

theorem expand_eq_ok_iff : expand pairs required = .ok claimed ↔
    (∀ key ∈ required, ¬Ambiguous pairs key) ∧
      claimed = (distinct required).filterMap (claim? pairs) := by
  constructor
  · intro hok
    have hrequired : ∀ key ∈ required, ¬Ambiguous pairs key := by
      intro key hkey hambiguous
      rw [expand_eq_error_iff.2 ⟨key, hkey, hambiguous⟩] at hok
      cases hok
    rw [expand_of_unambiguous hrequired] at hok
    cases hok
    exact ⟨hrequired, rfl⟩
  · rintro ⟨hrequired, rfl⟩
    exact expand_of_unambiguous hrequired

end ConsensusLedger.Signing
