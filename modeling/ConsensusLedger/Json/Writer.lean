import ConsensusLedger.Text.Hex

/-!
JSON text without blanks. Inside a string only the quote, the backslash and control characters are
escaped.
-/

namespace ConsensusLedger.Json

/-- Characters with a short escape, and the one that follows the backslash in it. -/
def shortEscapes : List (Char × Char) :=
  [('"', '"'), ('\\', '\\'), ('\n', 'n'), ('\r', 'r'), ('\t', 't'), ('\x08', 'b'), ('\x0c', 'f')]

def escapeChar (c : Char) : List Char :=
  match shortEscapes.lookup c with
  | some e => ['\\', e]
  | none =>
    if c.toNat < 0x20 then
      ['\\', 'u', '0', '0', Text.hexDigit (c.toNat / 16), Text.hexDigit (c.toNat % 16)]
    else [c]

def string (s : String) : String := "\"" ++ String.ofList (s.toList.flatMap escapeChar) ++ "\""

def array (items : List String) : String := "[" ++ ",".intercalate items ++ "]"

def object (fields : List (String × String)) : String :=
  "\x7b" ++ ",".intercalate (fields.map fun f => string f.1 ++ ":" ++ f.2) ++ "\x7d"

def bool (b : Bool) : String := if b then "true" else "false"

/-- An optional value; a missing one is null. -/
def optional {α : Type} (write : α → String) : Option α → String
  | none => "null"
  | some a => write a

end ConsensusLedger.Json
