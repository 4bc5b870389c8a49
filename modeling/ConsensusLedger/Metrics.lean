import ConsensusLedger.Signing.Verification
import ConsensusLedger.Table
import ConsensusLedger.Transaction.Basic

/-!
Counters of the pipeline, and their text exposition: families in the order of their names, each
counter of a family in the order of its label.
-/

namespace ConsensusLedger

namespace Signing

def Completion.label : Completion → String
  | sync => "sync"
  | async => "async"

end Signing

structure Metrics where
  /-- Operations that reached their transition, by function name. -/
  handled : Table String Nat
  /-- Signature verifications, by the label of their completion. -/
  verified : Table String Nat
  streamed : Nat
  failures : Nat

namespace Metrics

def zero : Metrics := ⟨∅, ∅, 0, 0⟩

def bump (t : Table String Nat) (label : String) : Table String Nat :=
  t.insert label ((t.get? label).getD 0 + 1)

def countHandled (m : Metrics) (name : String) : Metrics := { m with handled := bump m.handled name }

def countVerification (m : Metrics) (mode : Signing.Completion) : Metrics :=
  { m with verified := bump m.verified mode.label }

def countStreamed (m : Metrics) : Metrics := { m with streamed := m.streamed + 1 }

def countFailure (m : Metrics) : Metrics := { m with failures := m.failures + 1 }

def handledOf (m : Metrics) (f : Function) : Nat := (m.handled.get? f.name).getD 0

def verifiedOf (m : Metrics) (mode : Signing.Completion) : Nat :=
  (m.verified.get? mode.label).getD 0

/-- A label value between quotes; backslash, quote and line feed are escaped. -/
def labelText (value : String) : String :=
  let escape (c : Char) : List Char :=
    if c = '\\' ∨ c = '"' then ['\\', c] else if c = '\n' then ['\\', 'n'] else [c]
  "\"" ++ String.ofList (value.toList.flatMap escape) ++ "\""

/-- The header and the samples of a family of counters; nothing when it has no sample. -/
def family (name help : String) (samples : List (String × Nat)) : String :=
  if samples.isEmpty then ""
  else s!"# HELP {name} {help}\n# TYPE {name} counter\n" ++
    String.join (samples.map fun s => s!"{name}{s.1} {s.2}\n")

def labelled (label : String) (t : Table String Nat) : List (String × Nat) :=
  t.entries.map fun e => ("\x7b" ++ label ++ "=" ++ labelText e.1 ++ "\x7d", e.2)

def text (m : Metrics) : String :=
  family "lc_ops_handled_total" "Transactions handled by function" (labelled "function" m.handled) ++
  family "lc_pipeline_failures_total" "Unexpected failures caught at the pipeline boundary"
    [("", m.failures)] ++
  family "lc_records_streamed_total" "Records appended to the record stream" [("", m.streamed)] ++
  family "lc_signature_verifications_total" "Signature verifications by completion mode"
    (labelled "mode" m.verified)

def summary (m : Metrics) : String :=
  "LedgerMetrics \x7b " ++
    s!"records_streamed: {m.streamed}, pipeline_failures: {m.failures}" ++ " \x7d"

end Metrics

end ConsensusLedger
