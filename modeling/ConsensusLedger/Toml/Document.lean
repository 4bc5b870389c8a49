import ConsensusLedger.Toml.Scalar

/-!
TOML documents. A document is read line by line: a line sets a key in the table of the last header,
opens a table by a header, or is empty. Arrays may run over several lines and hold comments, tables
in braces may not. Brackets and braces nest less than 80 deep, and a key has fewer than 80 parts.
-/

namespace ConsensusLedger.Toml

/-- What a value is read with: how deep brackets may still nest in it, and its text. -/
abbrev ValueReader := List Char → Option (Value × List Char)

/-- Brackets, braces and the parts of a key stay below this number. -/
def nestingLimit : Nat := 80

def skipComment (cs : List Char) : List Char := cs.dropWhile isShown

/-- What follows the end of a line, with a comment and spaces before it. -/
def afterLine? (cs : List Char) : Option (List Char) :=
  let rest :=
    match skipSpaces cs with
    | '#' :: rest => skipComment rest
    | rest => rest
  match rest with
  | [] => some []
  | rest => afterNewline? rest

/-- What follows spaces, line ends and comments. A comment has to end with its line. -/
def skipFiller (cs : List Char) : Option (List Char) := go (cs.length + 1) cs
where
  go : Nat → List Char → Option (List Char)
    | 0, _ => none
    | n + 1, cs =>
      match skipSpaces cs with
      | '#' :: rest => (afterNewline? (skipComment rest)).bind (go n)
      | c :: rest =>
        if c = '\n' ∨ c = '\r' then (afterNewline? (c :: rest)).bind (go n) else some (c :: rest)
      | [] => some []

def isBareKey (c : Char) : Bool := c.isAlphanum || c = '-' || c = '_'

/-- A part of a key: bare, or a string of one line. -/
def readKeyPart? (cs : List Char) : Option (String × List Char) :=
  match cs with
  | '"' :: _ => readLineText? cs
  | '\'' :: _ => readLineText? cs
  | _ =>
    let name := cs.takeWhile isBareKey
    if name.isEmpty then none else some (String.ofList name, cs.dropWhile isBareKey)

def readKey? (cs : List Char) : Option (List String × List Char) :=
  (go (cs.length + 1) cs).filter fun r => r.1.length < nestingLimit
where
  go : Nat → List Char → Option (List String × List Char)
    | 0, _ => none
    | n + 1, cs =>
      match readKeyPart? (skipSpaces cs) with
      | none => none
      | some (name, rest) =>
        match skipSpaces rest with
        | '.' :: rest => (go n rest).map fun (names, rest) => (name :: names, rest)
        | rest => some ([name], rest)

def readAssignment? (value : ValueReader) (cs : List Char) :
    Option ((List String × Value) × List Char) := do
  let (key, rest) ← readKey? cs
  let rest ← after? '=' rest
  let (v, rest) ← value (skipSpaces rest)
  return ((key, v), skipSpaces rest)

def Entries.assign? (es : Entries) (key : List String) (v : Value) : Option Entries :=
  match key.getLast? with
  | some last => es.set? key.dropLast last v
  | none => none

/-- The items of an array after its opening bracket, the last one with a comma or without. -/
def readItems? (value : ValueReader) : Nat → List Char → Option (List Value × List Char)
  | 0, _ => none
  | n + 1, cs =>
    match skipFiller cs with
    | none => none
    | some (']' :: rest) => some ([], rest)
    | some rest =>
      match value rest with
      | none => none
      | some (v, rest) =>
        match skipFiller rest with
        | some (',' :: rest) => (readItems? value n rest).map fun (vs, rest) => (v :: vs, rest)
        | some (']' :: rest) => some ([v], rest)
        | _ => none

def readMoreEntries? (value : ValueReader) (es : Entries) :
    Nat → List Char → Option (Entries × List Char)
  | 0, _ => none
  | n + 1, cs =>
    match cs with
    | '\x7d' :: rest => some (es, rest)
    | ',' :: rest =>
      match readAssignment? value rest with
      | none => none
      | some ((key, v), rest) =>
        match es.assign? key v with
        | none => none
        | some es => readMoreEntries? value es n rest
    | _ => none

/-- The entries of a table after its opening brace. -/
def readEntries? (value : ValueReader) (cs : List Char) : Option (Entries × List Char) :=
  match skipSpaces cs with
  | '\x7d' :: rest => some ([], rest)
  | cs =>
    match readAssignment? value cs with
    | none => none
    | some ((key, v), rest) =>
      (Entries.assign? [] key v).bind fun es => readMoreEntries? value es (rest.length + 1) rest

/-- A value in which brackets nest at most so deep. -/
def readValue? : Nat → ValueReader
  | levels, cs =>
    match cs with
    | '"' :: _ => (readText? cs).map fun (s, rest) => (.text s, rest)
    | '\'' :: _ => (readText? cs).map fun (s, rest) => (.text s, rest)
    | '[' :: rest =>
      match levels with
      | 0 => none
      | levels + 1 =>
        (readItems? (readValue? levels) (rest.length + 1) rest).map fun (vs, rest) =>
          (.array vs, rest)
    | '\x7b' :: rest =>
      match levels with
      | 0 => none
      | levels + 1 =>
        (readEntries? (readValue? levels) rest).map fun (es, rest) => (.table .braced es, rest)
    | 't' :: 'r' :: 'u' :: 'e' :: rest => some (.bool true, rest)
    | 'f' :: 'a' :: 'l' :: 's' :: 'e' :: rest => some (.bool false, rest)
    | 'i' :: 'n' :: 'f' :: rest => some (.float, rest)
    | 'n' :: 'a' :: 'n' :: rest => some (.float, rest)
    | c :: _ => if c.isDigit || c = '+' || c = '-' then readMeasure? cs else none
    | [] => none

/-- The tables of a document so far, and the path of the header that keys go below. -/
structure Draft where
  root : Entries
  path : List String

namespace Draft

def empty : Draft := ⟨[], []⟩

def assign? (d : Draft) (key : List String) (v : Value) : Option Draft :=
  (d.root.alter? (fun es => es.assign? key v) d.path).map fun root => { d with root := root }

/-- Opens a table by a header. -/
def openBy? (f : String → Entries → Option Entries) (d : Draft) (path : List String) :
    Option Draft :=
  match path.getLast? with
  | some last => (d.root.alter? (f last) path.dropLast).map fun root => ⟨root, path⟩
  | none => none

end Draft

/-- What a line does to a draft, and what follows it on the line. -/
def readStatement? (d : Draft) : List Char → Option (Draft × List Char)
  | '[' :: '[' :: rest =>
    match readKey? rest with
    | some (path, ']' :: ']' :: rest) =>
      (d.openBy? Entries.openElement? path).map fun d => (d, rest)
    | _ => none
  | '[' :: rest =>
    match readKey? rest with
    | some (path, ']' :: rest) => (d.openBy? Entries.openTable? path).map fun d => (d, rest)
    | _ => none
  | cs =>
    match readAssignment? (readValue? (nestingLimit - 1)) cs with
    | some ((key, v), rest) => (d.assign? key v).map fun d => (d, rest)
    | none => none

def readLines? : Nat → Draft → List Char → Option Entries
  | 0, _, _ => none
  | n + 1, d, cs =>
    match skipSpaces cs with
    | [] => some d.root
    | c :: rest =>
      match afterLine? (c :: rest) with
      | some rest => readLines? n d rest
      | none =>
        match readStatement? d (c :: rest) with
        | none => none
        | some (d, rest) =>
          match afterLine? rest with
          | none => none
          | some rest => readLines? n d rest

/-- The top table of a document. A byte order mark before it does not count. -/
def read? (text : String) : Option Entries :=
  let cs :=
    match text.toList with
    | '\ufeff' :: rest => rest
    | cs => cs
  readLines? (cs.length + 1) .empty cs

end ConsensusLedger.Toml
