import ConsensusLedger.Text.Digits

/-!
Reading JSON text, as far as a typed message looks into its values: a number that is not written as
an integer is only known to be one. The grammar is taken strictly: no comments, no trailing commas,
no leading zeros, no control characters inside a string.
-/

namespace ConsensusLedger.Json

inductive Value where
  | null
  | bool (value : Bool)
  | int (value : Int)
  /-- A number with a fraction or an exponent, or a negative zero. -/
  | real
  /-- A string; `none` when an escape in it names half of a surrogate pair. -/
  | text (value : Option String)
  | array (items : List Value)
  /-- An object with its fields in order, repeated names included. -/
  | object (fields : List (Option String × Value))

namespace Value

def int? : Value → Option Int
  | int n => some n
  | _ => none

def intWithin? (lo hi : Int) (v : Value) : Option Int :=
  v.int?.filter fun n => lo ≤ n ∧ n ≤ hi

def text? : Value → Option String
  | text s => s
  | _ => none

end Value

def isBlank (c : Char) : Bool := c = ' ' || c = '\t' || c = '\n' || c = '\r'

def skipBlanks (cs : List Char) : List Char := cs.dropWhile isBlank

/-- A part of a string: a character, or the 16-bit code unit that an escape names. -/
inductive Piece where
  | char (c : Char)
  | unit (n : Nat)

/-- The character after a backslash that stands for one character. -/
def shortEscape? : Char → Option Char
  | '"' => some '"'
  | '\\' => some '\\'
  | '/' => some '/'
  | 'b' => some '\x08'
  | 'f' => some '\x0c'
  | 'n' => some '\n'
  | 'r' => some '\r'
  | 't' => some '\t'
  | _ => none

/-- The parts of a string up to its closing quote, and what follows it. `seen` holds the parts read
so far, the last one first. -/
def pieces (seen : List Piece) : List Char → Option (List Piece × List Char)
  | [] => none
  | '"' :: rest => some (seen.reverse, rest)
  | '\\' :: 'u' :: a :: b :: c :: d :: rest =>
    match Text.number? 16 [a, b, c, d] with
    | some n => pieces (.unit n :: seen) rest
    | none => none
  | '\\' :: c :: rest =>
    match shortEscape? c with
    | some e => pieces (.char e :: seen) rest
    | none => none
  | c :: rest => if c.toNat < 0x20 then none else pieces (.char c :: seen) rest

def isHighSurrogate (n : Nat) : Bool := 0xd800 ≤ n && n < 0xdc00

def isLowSurrogate (n : Nat) : Bool := 0xdc00 ≤ n && n < 0xe000

/-- The characters that parts stand for. Two code units that form a surrogate pair are one
character; half a pair is none. `done` holds the characters so far, the last one first. -/
def assemble (done : List Char) : List Piece → Option (List Char)
  | [] => some done.reverse
  | .char c :: rest => assemble (c :: done) rest
  | .unit hi :: .unit lo :: rest =>
    if isHighSurrogate hi then
      if isLowSurrogate lo then
        assemble (Char.ofNat (0x10000 + 0x400 * (hi - 0xd800) + (lo - 0xdc00)) :: done) rest
      else none
    else if isLowSurrogate hi then none
    else assemble (Char.ofNat hi :: done) (.unit lo :: rest)
  | .unit n :: rest =>
    if isHighSurrogate n || isLowSurrogate n then none else assemble (Char.ofNat n :: done) rest

def readText (cs : List Char) : Option (Option String × List Char) :=
  (pieces [] cs).map fun (parts, rest) => ((assemble [] parts).map String.ofList, rest)

def afterFraction? : List Char → Option (List Char)
  | '.' :: c :: rest => if c.isDigit then some (rest.dropWhile Char.isDigit) else none
  | _ => none

def afterExponent? : List Char → Option (List Char)
  | e :: rest =>
    if e = 'e' ∨ e = 'E' then
      let digits := match rest with
        | '+' :: r => r
        | '-' :: r => r
        | r => r
      match digits with
      | c :: r => if c.isDigit then some (r.dropWhile Char.isDigit) else none
      | [] => none
    else none
  | [] => none

/-- A number without its sign, and what follows it. A zero is not followed by further digits. -/
def readMagnitude : List Char → Option (Option Nat × List Char)
  | [] => none
  | c :: rest =>
    if !c.isDigit then none
    else
      let (digits, rest) := if c = '0' then ([c], rest)
        else (c :: rest.takeWhile Char.isDigit, rest.dropWhile Char.isDigit)
      let fraction := afterFraction? rest
      let rest := fraction.getD rest
      let exponent := afterExponent? rest
      let whole := if fraction.isNone && exponent.isNone then Text.number? 10 digits else none
      some (whole, exponent.getD rest)

def readNumber : List Char → Option (Value × List Char)
  | '-' :: rest =>
    (readMagnitude rest).map fun
      | (some (n + 1), rest) => (.int (-(n + 1 : Nat)), rest)
      | (_, rest) => (.real, rest)
  | cs =>
    (readMagnitude cs).map fun
      | (some n, rest) => (.int n, rest)
      | (none, rest) => (.real, rest)

mutual

def readValue : Nat → List Char → Option (Value × List Char)
  | 0, _ => none
  | fuel + 1, cs =>
    match skipBlanks cs with
    | '"' :: rest => (readText rest).map fun (s, rest) => (.text s, rest)
    | '[' :: rest =>
      match skipBlanks rest with
      | ']' :: rest => some (.array [], rest)
      | rest => (readItems fuel rest).map fun (items, rest) => (.array items, rest)
    | '\x7b' :: rest =>
      match skipBlanks rest with
      | '\x7d' :: rest => some (.object [], rest)
      | rest => (readFields fuel rest).map fun (fields, rest) => (.object fields, rest)
    | 'n' :: 'u' :: 'l' :: 'l' :: rest => some (.null, rest)
    | 't' :: 'r' :: 'u' :: 'e' :: rest => some (.bool true, rest)
    | 'f' :: 'a' :: 'l' :: 's' :: 'e' :: rest => some (.bool false, rest)
    | cs => readNumber cs

/-- The items of an array up to its closing bracket. -/
def readItems : Nat → List Char → Option (List Value × List Char)
  | 0, _ => none
  | fuel + 1, cs =>
    match readValue fuel cs with
    | none => none
    | some (v, rest) =>
      match skipBlanks rest with
      | ',' :: rest => (readItems fuel rest).map fun (vs, rest) => (v :: vs, rest)
      | ']' :: rest => some ([v], rest)
      | _ => none

/-- The fields of an object up to its closing brace. -/
def readFields : Nat → List Char → Option (List (Option String × Value) × List Char)
  | 0, _ => none
  | fuel + 1, cs =>
    match skipBlanks cs with
    | '"' :: rest =>
      match readText rest with
      | none => none
      | some (name, rest) =>
        match skipBlanks rest with
        | ':' :: rest =>
          match readValue fuel rest with
          | none => none
          | some (v, rest) =>
            match skipBlanks rest with
            | ',' :: rest =>
              (readFields fuel rest).map fun (fields, rest) => ((name, v) :: fields, rest)
            | '\x7d' :: rest => some ([(name, v)], rest)
            | _ => none
        | _ => none
    | _ => none

end

/-- The value of a JSON text. Each call of the readers above takes a character off the text or is
followed by one that does, so twice the length is fuel enough. -/
def read? (text : String) : Option Value :=
  let cs := text.toList
  match readValue (2 * cs.length + 2) cs with
  | some (v, rest) => if (skipBlanks rest).isEmpty then some v else none
  | none => none

end ConsensusLedger.Json
