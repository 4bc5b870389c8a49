/-!
Identifiers of ledger entities, ordered by shard, then realm, then number.
-/

namespace ConsensusLedger

/-- An entity of the ledger. Accounts and schedules are numbered together. -/
structure EntityId where
  shard : UInt64
  realm : UInt64
  num : UInt64
  deriving DecidableEq, Repr, Inhabited

abbrev AccountId := EntityId
abbrev ScheduleId := EntityId

/-- A consensus participant. -/
abbrev MemberId := UInt64

namespace EntityId

/-- The entity with the given number in shard 0, realm 0. -/
def ofNum (num : UInt64) : EntityId := ⟨0, 0, num⟩

/-- The identifier that stands for no entity. -/
def missing : EntityId := ⟨0, 0, 0⟩

def isMissing (id : EntityId) : Bool := id = missing

def text (id : EntityId) : String := s!"{id.shard}.{id.realm}.{id.num}"

instance : ToString EntityId := ⟨text⟩

instance : Ord EntityId :=
  ⟨compareLex (compareOn shard) (compareLex (compareOn realm) (compareOn num))⟩

instance : Std.TransOrd EntityId :=
  inferInstanceAs (Std.TransCmp
    (compareLex (compareOn shard) (compareLex (compareOn realm) (compareOn num))))

instance : Std.LawfulEqOrd EntityId where
  compare_self := Std.ReflCmp.compare_self
  eq_of_compare {a b} h := by
    obtain ⟨h1, h2⟩ := Ordering.then_eq_eq.1 h
    obtain ⟨h2, h3⟩ := Ordering.then_eq_eq.1 h2
    cases a
    cases b
    simp only [EntityId.mk.injEq]
    exact ⟨Std.LawfulEqCmp.eq_of_compare h1, Std.LawfulEqCmp.eq_of_compare h2,
      Std.LawfulEqCmp.eq_of_compare h3⟩

end EntityId

end ConsensusLedger
