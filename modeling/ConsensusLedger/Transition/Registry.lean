import ConsensusLedger.Transition.Schedule
import ConsensusLedger.Transition.Transfer

/-!
Transitions by the kind of transaction that they handle, with the setting of the window in which the
network is frozen. Of several for one kind, the first that applies to the body is taken.
-/

namespace ConsensusLedger

/-- The hours and minutes are some of a day. -/
def FreezeWindow.isValid (w : FreezeWindow) : Bool :=
  w.startHour < 24 && w.endHour < 24 && w.startMinute < 60 && w.endMinute < 60

namespace Transition

def freeze : Transition where
  applies body := body.function = .freeze
  syntaxCheck body :=
    match body.data with
    | .freeze w => if w.isValid then .ok else .invalidFreezeTransactionBody
    | _ => .failInvalid
  run txn _ h :=
    match txn.body.data with
    | .freeze w =>
      (.ok (), ({ h with freezeWindow := some w }.note (.freezeSet w)).setStatus .ok)
    | _ => (.ok (), h.setStatus .failInvalid)

end Transition

abbrev TransitionRegistry := List (Function × Transition)

namespace TransitionRegistry

def standard (maxMemoBytes : UInt64) : TransitionRegistry :=
  [(.cryptoTransfer, .cryptoTransfer), (.scheduleCreate, .scheduleCreate maxMemoBytes),
    (.scheduleSign, .scheduleSign), (.scheduleDelete, .scheduleDelete), (.freeze, .freeze)]

/-- The transition for a body that was asked for as a kind of transaction. -/
def find? (r : TransitionRegistry) (f : Function) (body : TransactionBody) : Option Transition :=
  (List.find? (fun t => decide (t.1 = f) && t.2.applies body) r).map (·.2)

def isRegistered (r : TransitionRegistry) (f : Function) : Bool := r.any (·.1 = f)

end TransitionRegistry

end ConsensusLedger
