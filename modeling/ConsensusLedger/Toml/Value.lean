/-!
Values of a TOML document, and the rules by which keys and headers build tables. A table remembers
how it came about, because that decides what may still be added to it: a key is set once, a header
opens a table once, and keys with dots reach only into tables that nothing but dots or the headers
of their own tables have made.
-/

namespace ConsensusLedger.Toml

/-- How a table came about. -/
inductive TableOrigin where
  /-- Opened by a header of its own. -/
  | header
  /-- Named on the way to another table in a header. -/
  | parent
  /-- Made by a key with dots. -/
  | dotted
  /-- Written between braces, and complete. -/
  | braced
  deriving DecidableEq, Repr

inductive Value where
  | text (s : String)
  | int (n : Int64)
  | float
  | bool (b : Bool)
  | time
  | array (items : List Value)
  | table (origin : TableOrigin) (entries : List (String × Value))
  /-- The tables that headers between double brackets opened. -/
  | tables (elements : List (List (String × Value)))

abbrev Entries := List (String × Value)

namespace Entries

def get? (es : Entries) (key : String) : Option Value := (es.find? (·.1 = key)).map (·.2)

/-- The entries with another value for a key that they have. -/
def replace (es : Entries) (key : String) (v : Value) : Entries :=
  es.map fun e => if e.1 = key then (key, v) else e

def add? (es : Entries) (key : String) (v : Value) : Option Entries :=
  if (es.get? key).isSome then none else some (es ++ [(key, v)])

/-- Sets a key in the table that a path of other keys leads to, which has to be one made by dots.
`origin` is that of the table the path starts from. -/
def setBelow? (key : String) (v : Value) : List String → TableOrigin → Entries → Option Entries
  | [], origin, es => if origin = .dotted then es.add? key v else none
  | k :: path, _, es =>
    match es.get? k with
    | none => (setBelow? key v path .dotted []).map fun sub => es ++ [(k, .table .dotted sub)]
    | some (.table .dotted sub) =>
      (setBelow? key v path .dotted sub).map fun sub => es.replace k (.table .dotted sub)
    | some (.table .parent sub) =>
      (setBelow? key v path .parent sub).map fun sub => es.replace k (.table .parent sub)
    | some (.tables elements) =>
      match elements.getLast? with
      | none => none
      | some last =>
        (setBelow? key v path .header last).map fun sub =>
          es.replace k (.tables (elements.dropLast ++ [sub]))
    | some _ => none

def set? (es : Entries) (path : List String) (key : String) (v : Value) : Option Entries :=
  if path.isEmpty then es.add? key v else setBelow? key v path .header es

/-- Changes the table that the path of a header leads to. Of tables between double brackets it is
the last one. -/
def alter? (f : Entries → Option Entries) : List String → Entries → Option Entries
  | [], es => f es
  | k :: path, es =>
    match es.get? k with
    | none => (alter? f path []).map fun sub => es ++ [(k, .table .parent sub)]
    | some (.table .braced _) => none
    | some (.table origin sub) =>
      (alter? f path sub).map fun sub => es.replace k (.table origin sub)
    | some (.tables elements) =>
      match elements.getLast? with
      | none => none
      | some last =>
        (alter? f path last).map fun sub => es.replace k (.tables (elements.dropLast ++ [sub]))
    | some _ => none

/-- Opens the table that a header names. It may have been named on the way before. -/
def openTable? (key : String) (es : Entries) : Option Entries :=
  match es.get? key with
  | none => some (es ++ [(key, .table .header [])])
  | some (.table .parent sub) => some (es.replace key (.table .header sub))
  | some _ => none

/-- Opens one more of the tables that a header between double brackets names. -/
def openElement? (key : String) (es : Entries) : Option Entries :=
  match es.get? key with
  | none => some (es ++ [(key, .tables [[]])])
  | some (.tables elements) => some (es.replace key (.tables (elements ++ [[]])))
  | some _ => none

end Entries

end ConsensusLedger.Toml
