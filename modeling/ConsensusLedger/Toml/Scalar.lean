import ConsensusLedger.Text.Digits
import ConsensusLedger.Toml.Value

/-!
The scalars of a TOML document: strings, numbers, dates and times. A reader takes its text off the
front of the characters and answers with what follows.
-/

namespace ConsensusLedger.Toml

open Text (digitValue? number? charOf?)

def isSpace (c : Char) : Bool := c = ' ' || c = '\t'

def skipSpaces (cs : List Char) : List Char := cs.dropWhile isSpace

/-- Characters of comments, and of strings apart from their quotes and escapes. -/
def isShown (c : Char) : Bool :=
  let n := c.toNat
  n = 0x09 || (0x20 ≤ n && n ≤ 0x7e) || 0x80 ≤ n

/-- What follows a line end, if there is one. -/
def afterNewline? : List Char → Option (List Char)
  | '\n' :: rest => some rest
  | '\r' :: '\n' :: rest => some rest
  | _ => none

/-- The character after a backslash that stands for one character. -/
def shortEscape? : Char → Option Char
  | 'b' => some '\x08'
  | 't' => some '\t'
  | 'n' => some '\n'
  | 'f' => some '\x0c'
  | 'r' => some '\r'
  | '"' => some '"'
  | '\\' => some '\\'
  | _ => none

/-- Whether only spaces stand before the end of the line. -/
def endsLine (cs : List Char) : Bool := (afterNewline? (skipSpaces cs)).isSome

/-- The characters of a string with escapes, after its opening quotes. `multi` tells a string of
several lines, `skipping` that spaces and line ends are passed over because a backslash ended the
line; `seen` holds the characters so far, the last one first. One or two quotes inside a string of
several lines are part of it, also right before the closing ones. -/
def escapedText (multi skipping : Bool) (seen : List Char) :
    List Char → Option (List Char × List Char)
  | [] => none
  | '"' :: rest =>
    if multi then
      match rest with
      | '"' :: '"' :: '"' :: '"' :: after => some (('"' :: '"' :: seen).reverse, after)
      | '"' :: '"' :: '"' :: after => some (('"' :: seen).reverse, after)
      | '"' :: '"' :: after => some (seen.reverse, after)
      | _ => escapedText multi false ('"' :: seen) rest
    else some (seen.reverse, rest)
  | '\\' :: 'u' :: a :: b :: c :: d :: rest =>
    match (number? 16 [a, b, c, d]).bind charOf? with
    | some e => escapedText multi false (e :: seen) rest
    | none => none
  | '\\' :: 'U' :: a :: b :: c :: d :: e :: f :: g :: h :: rest =>
    match (number? 16 [a, b, c, d, e, f, g, h]).bind charOf? with
    | some e => escapedText multi false (e :: seen) rest
    | none => none
  | '\\' :: c :: rest =>
    match shortEscape? c with
    | some e => escapedText multi false (e :: seen) rest
    | none => if multi && endsLine (c :: rest) then escapedText multi true seen (c :: rest) else none
  | '\r' :: '\n' :: rest =>
    if skipping then escapedText multi true seen rest
    else if multi then escapedText multi false ('\n' :: seen) rest
    else none
  | '\n' :: rest =>
    if skipping then escapedText multi true seen rest
    else if multi then escapedText multi false ('\n' :: seen) rest
    else none
  | c :: rest =>
    if skipping && isSpace c then escapedText multi true seen rest
    else if isShown c then escapedText multi false (c :: seen) rest
    else none

/-- The characters of a string without escapes, after its opening quotes. -/
def literalText (multi : Bool) (seen : List Char) : List Char → Option (List Char × List Char)
  | [] => none
  | '\'' :: rest =>
    if multi then
      match rest with
      | '\'' :: '\'' :: '\'' :: '\'' :: after => some (('\'' :: '\'' :: seen).reverse, after)
      | '\'' :: '\'' :: '\'' :: after => some (('\'' :: seen).reverse, after)
      | '\'' :: '\'' :: after => some (seen.reverse, after)
      | _ => literalText multi ('\'' :: seen) rest
    else some (seen.reverse, rest)
  | '\r' :: '\n' :: rest => if multi then literalText multi ('\n' :: seen) rest else none
  | '\n' :: rest => if multi then literalText multi ('\n' :: seen) rest else none
  | c :: rest => if isShown c then literalText multi (c :: seen) rest else none

def dropNewline (cs : List Char) : List Char := (afterNewline? cs).getD cs

def readLineText? : List Char → Option (String × List Char)
  | '"' :: rest => (escapedText false false [] rest).map fun (s, rest) => (String.ofList s, rest)
  | '\'' :: rest => (literalText false [] rest).map fun (s, rest) => (String.ofList s, rest)
  | _ => none

/-- A string. In one of several lines, a line end right after the opening quotes does not count. -/
def readText? : List Char → Option (String × List Char)
  | '"' :: '"' :: '"' :: rest =>
    (escapedText true false [] (dropNewline rest)).map fun (s, rest) => (String.ofList s, rest)
  | '\'' :: '\'' :: '\'' :: rest =>
    (literalText true [] (dropNewline rest)).map fun (s, rest) => (String.ofList s, rest)
  | cs => readLineText? cs

/-- Digits of a base with single underscores between them, and what follows. The underscores are left
out. `seen` holds the digits so far, the last one first. -/
def digitsFrom (base : Nat) (seen : List Char) : List Char → Option (List Char × List Char)
  | '_' :: c :: rest =>
    if seen.isEmpty || !Text.isDigit base c then none else digitsFrom base (c :: seen) rest
  | c :: rest =>
    if Text.isDigit base c then digitsFrom base (c :: seen) rest
    else if seen.isEmpty || c = '_' then none
    else some (seen.reverse, c :: rest)
  | [] => if seen.isEmpty then none else some (seen.reverse, [])

def readDigits? (base : Nat) (cs : List Char) : Option (List Char × List Char) :=
  digitsFrom base [] cs

def readSign (cs : List Char) : Bool × List Char :=
  match cs with
  | '-' :: rest => (true, rest)
  | '+' :: rest => (false, rest)
  | rest => (false, rest)

/-- The digits of a decimal integer. A leading zero is the only digit. -/
def readWhole? : List Char → Option (List Char × List Char)
  | '0' :: rest => some (['0'], rest)
  | cs => readDigits? 10 cs

/-- The digits after a point, and what follows them; no digits when there is no point. -/
def readFraction? : List Char → Option (List Char × List Char)
  | '.' :: rest => readDigits? 10 rest
  | cs => some ([], cs)

/-- A power of ten, and what follows it; none when there is no exponent. -/
def readExponent? : List Char → Option (Option Int × List Char)
  | e :: rest =>
    if e = 'e' ∨ e = 'E' then
      let (negative, rest) := readSign rest
      (readDigits? 10 rest).bind fun (digits, rest) =>
        (number? 10 digits).map fun n => (some (if negative then -(n : Int) else n), rest)
    else some (none, e :: rest)
  | [] => some (none, [])

/-- Whether a decimal number rounds to more than every finite double: the last half step above the
largest one is 2¹⁰²⁴ − 2⁹⁷⁰. -/
def tooLarge (digits : List Char) (exponent : Int) : Bool :=
  let significant := digits.dropWhile (· = '0')
  let m := (Text.appendDigits? 10 0 significant).getD 0
  let magnitude := (significant.length : Int) + exponent
  let largest := (1 <<< 1024) - (1 <<< 970)
  if m = 0 ∨ magnitude < 309 then false
  else if 309 < magnitude then true
  else if 0 ≤ exponent then largest ≤ m * Nat.pow 10 exponent.toNat
  else largest * Nat.pow 10 (-exponent).toNat ≤ m

def intValue? (n : Int) : Option Value :=
  if -0x8000000000000000 ≤ n ∧ n < 0x8000000000000000 then some (.int (Int64.ofInt n)) else none

/-- A decimal number. A positive float has to be finite. -/
def readDecimal? (cs : List Char) : Option (Value × List Char) := do
  let (negative, rest) := readSign cs
  let (whole, rest) ← readWhole? rest
  let (fraction, rest) ← readFraction? rest
  let (exponent, rest) ← readExponent? rest
  if fraction.isEmpty && exponent.isNone then
    let n ← number? 10 whole
    let v ← intValue? (if negative then -(n : Int) else n)
    return (v, rest)
  else if !negative && tooLarge (whole ++ fraction) (exponent.getD 0 - fraction.length) then none
  else return (.float, rest)

def readBased? (base : Nat) (cs : List Char) : Option (Value × List Char) := do
  let (digits, rest) ← readDigits? base cs
  let n ← number? base digits
  let v ← intValue? n
  return (v, rest)

/-- A number: an integer in base 16, 8 or 2 without a sign, an infinity, not a number, or decimal. -/
def readNumber? : List Char → Option (Value × List Char)
  | '0' :: 'x' :: rest => readBased? 16 rest
  | '0' :: 'o' :: rest => readBased? 8 rest
  | '0' :: 'b' :: rest => readBased? 2 rest
  | cs =>
    match (readSign cs).2 with
    | 'i' :: 'n' :: 'f' :: rest => some (.float, rest)
    | 'n' :: 'a' :: 'n' :: rest => some (.float, rest)
    | _ => readDecimal? cs

/-- The number of exactly two digits within bounds. -/
def readPair? (lo hi : Nat) : List Char → Option (Nat × List Char)
  | a :: b :: rest =>
    match (number? 10 [a, b]).filter fun n => lo ≤ n ∧ n ≤ hi with
    | some n => some (n, rest)
    | none => none
  | _ => none

def after? (c : Char) : List Char → Option (List Char)
  | d :: rest => if d = c then some rest else none
  | [] => none

def afterTime? (cs : List Char) : Option (List Char) := do
  let (_, rest) ← readPair? 0 23 cs
  let rest ← after? ':' rest
  let (_, rest) ← readPair? 0 59 rest
  let rest ← after? ':' rest
  let (_, rest) ← readPair? 0 60 rest
  match rest with
  | '.' :: c :: more => return if c.isDigit then more.dropWhile Char.isDigit else rest
  | _ => return rest

/-- What follows a distance from universal time; there may be none. -/
def afterOffset? : List Char → Option (List Char)
  | [] => some []
  | c :: rest =>
    if c = 'Z' ∨ c = 'z' then some rest
    else if c = '+' ∨ c = '-' then do
      let (_, rest) ← readPair? 0 23 rest
      let rest ← after? ':' rest
      let (_, rest) ← readPair? 0 59 rest
      return rest
    else some (c :: rest)

def daysInMonth (year month : Nat) : Nat :=
  if month = 2 then
    if year % 4 = 0 ∧ (year % 100 ≠ 0 ∨ year % 400 = 0) then 29 else 28
  else if month = 4 ∨ month = 6 ∨ month = 9 ∨ month = 11 then 30
  else 31

def afterDate? : List Char → Option (List Char)
  | a :: b :: c :: d :: rest => do
    let year ← number? 10 [a, b, c, d]
    let rest ← after? '-' rest
    let (month, rest) ← readPair? 1 12 rest
    let rest ← after? '-' rest
    let (_, rest) ← readPair? 1 (daysInMonth year month) rest
    return rest
  | _ => none

/-- What follows the time that goes with a date; there may be none. -/
def afterTimeOfDate? : List Char → Option (List Char)
  | [] => some []
  | c :: rest =>
    if c = 'T' ∨ c = 't' ∨ c = ' ' then
      match (readPair? 0 23 rest).bind fun (_, rest) => after? ':' rest with
      | some _ => (afterTime? rest).bind afterOffset?
      | none => some (c :: rest)
    else some (c :: rest)

def readMeasure? (cs : List Char) : Option (Value × List Char) :=
  match cs with
  | _ :: _ :: ':' :: _ => (afterTime? cs).map fun rest => (.time, rest)
  | a :: b :: c :: d :: '-' :: _ =>
    if [a, b, c, d].all Char.isDigit then
      ((afterDate? cs).bind afterTimeOfDate?).map fun rest => (.time, rest)
    else readNumber? cs
  | _ => readNumber? cs

end ConsensusLedger.Toml
