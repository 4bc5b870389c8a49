/-!
Look-up by keys that have no order: association lists in which no key occurs twice.
-/

namespace ConsensusLedger

abbrev Index (κ ν : Type) := List (κ × ν)

namespace Index

variable {κ ν : Type} [DecidableEq κ]

def get? : Index κ ν → κ → Option ν
  | [], _ => none
  | (k', v) :: rest, k => if k = k' then some v else get? rest k

def erase (m : Index κ ν) (k : κ) : Index κ ν := m.filter fun e => k ≠ e.1

def insert (m : Index κ ν) (k : κ) (v : ν) : Index κ ν := (k, v) :: m.erase k

theorem get?_erase (m : Index κ ν) (k k' : κ) :
    (m.erase k).get? k' = if k' = k then none else m.get? k' := by
  induction m with
  | nil => simp [erase, get?]
  | cons e rest ih =>
    obtain ⟨l, v⟩ := e
    simp only [erase] at ih ⊢
    by_cases hk : k = l
    · subst hk
      by_cases h : k' = k <;> simp_all [get?]
    · by_cases h : k' = l
      · subst h
        simp [get?, hk, Ne.symm hk]
      · simp_all [get?]

theorem get?_insert (m : Index κ ν) (k : κ) (v : ν) (k' : κ) :
    (m.insert k v).get? k' = if k' = k then some v else m.get? k' := by
  simp only [insert, get?, get?_erase]
  split <;> rfl

end Index

end ConsensusLedger
