import ConsensusLedger.Status
import ConsensusLedger.Store.Index
import ConsensusLedger.Transaction.Basic

/-!
Recently handled transaction identifiers, which tell duplicates. A handling that failed for the
node's own fault counts against the member that submitted it and against nobody else.
-/

namespace ConsensusLedger

inductive Duplicity where
  | believedUnique
  | duplicate
  | nodeDuplicate
  deriving DecidableEq, Repr

def Duplicity.name : Duplicity → String
  | believedUnique => "BelievedUnique"
  | duplicate => "Duplicate"
  | nodeDuplicate => "NodeDuplicate"

def Duplicity.all : List Duplicity := [.believedUnique, .duplicate, .nodeDuplicate]

structure Observation where
  member : MemberId
  time : Timestamp
  /-- Whether the handling says something about the payer. -/
  classifiable : Bool
  deriving DecidableEq, Repr

/-- Two codes blame the submitting member only. -/
def Status.isClassifiable : Status → Bool
  | .invalidNodeAccount | .invalidPayerSignature => false
  | _ => true

namespace Observation

/-- The verdict for a member on an identifier with the given handlings. -/
def duplicity (observations : List Observation) (member : MemberId) : Duplicity :=
  if observations.any (·.member = member) then .nodeDuplicate
  else if observations.any (·.classifiable) then .duplicate
  else .believedUnique

end Observation

/-- Handlings by identifier, each kept for a number of seconds. -/
structure Histories where
  ttl : Int64
  observed : Index TransactionId (List Observation)
  /-- The second until which each handling is kept, in the order of handling. -/
  expiries : List (Int64 × TransactionId)

namespace Histories

def empty (ttl : Int64) : Histories := ⟨ttl, [], []⟩

def get? (h : Histories) (id : TransactionId) : Option (List Observation) := h.observed.get? id

def duplicity (h : Histories) (id : TransactionId) (member : MemberId) : Duplicity :=
  match h.get? id with
  | some observations => Observation.duplicity observations member
  | none => .believedUnique

def observe (h : Histories) (id : TransactionId) (member : MemberId) (status : Status)
    (time : Timestamp) : Histories :=
  { h with
    observed := h.observed.insert id
      ((h.get? id).getD [] ++ [⟨member, time, status.isClassifiable⟩])
    expiries := h.expiries ++ [(saturatingAdd time.seconds h.ttl, id)] }

/-- Forgets the handlings of an identifier up to a second, and says whether none is left. -/
def forget (h : Histories) (id : TransactionId) (cutoff : Int64) : Bool × Histories :=
  match h.get? id with
  | none => (false, h)
  | some observations =>
    let kept := observations.filter fun o => cutoff < o.time.seconds
    if kept.isEmpty then (true, { h with observed := h.observed.erase id })
    else (false, { h with observed := h.observed.insert id kept })

/-- Forgets for each listed identifier, and counts those that are forgotten entirely. -/
def forgetAll (cutoff : Int64) (h : Histories) : List TransactionId → Nat × Histories
  | [] => (0, h)
  | id :: rest =>
    let (gone, h) := h.forget id cutoff
    let (n, h) := forgetAll cutoff h rest
    ((if gone then 1 else 0) + n, h)

/-- Forgets handlings that are at least as old as the time they are kept. Answers how many
identifiers were forgotten entirely. -/
def purge (h : Histories) (now : Timestamp) : Nat × Histories :=
  let due := h.expiries.takeWhile fun e => e.1 ≤ now.seconds
  let rest := h.expiries.dropWhile fun e => e.1 ≤ now.seconds
  forgetAll (saturatingSub now.seconds h.ttl) { h with expiries := rest } (due.map (·.2))

def size (h : Histories) : Nat := h.observed.length

end Histories

end ConsensusLedger
