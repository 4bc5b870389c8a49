import ConsensusLedger.Octets
import ConsensusLedger.Text.Utf8

/-!
Binary codecs: how a value is written as bytes and how it is read back from the front of a byte
string. Integers are little-endian of fixed width, sequences and texts have an eight-byte length,
variants a four-byte tag, and optional values a one-byte tag.
-/

namespace ConsensusLedger.Wire

inductive Fault where
  /-- The bytes end inside an integer, a tag or an element. -/
  | endOfInput
  /-- The bytes end inside a text. -/
  | endOfText
  | badBool (byte : UInt8)
  | badOptionTag (byte : UInt8)
  | badVariant (tag variants : Nat)
  | badText (fault : Text.Utf8Fault)
  deriving DecidableEq, Repr

def Fault.message : Fault → String
  | endOfInput => "io error: unexpected end of file"
  | endOfText => "io error: "
  | badBool b => s!"invalid u8 while decoding bool, expected 0 or 1, found {b}"
  | badOptionTag b => s!"tag for enum is not valid, found {b}"
  | badVariant tag variants =>
    "invalid value: integer \x60" ++ toString tag ++
      s!"\x60, expected variant index 0 <= i < {variants}"
  | badText f => s!"string is not valid utf8: {f.message}"

/-- Reads a value from the front of a byte string and leaves the rest. -/
abbrev Reader (α : Type) := List UInt8 → Except Fault (α × List UInt8)

structure Codec (α : Type) where
  write : α → List UInt8
  read : Reader α

namespace Codec

variable {α β : Type}

def fixed (n : Nat) : Codec (Octets n) where
  write o := o.val
  read bytes :=
    match Octets.ofList? n (bytes.take n) with
    | some o => .ok (o, bytes.drop n)
    | none => .error .endOfInput

/-- A number below `256 ^ width`. -/
def number (width : Nat) : Codec Nat where
  write n := littleEndian width n
  read bytes :=
    let digits := bytes.take width
    if digits.length = width then .ok (ofLittleEndian digits, bytes.drop width)
    else .error .endOfInput

/-- The codec of a type whose values stand for those of another. -/
def imap (f : α → β) (g : β → α) (c : Codec α) : Codec β where
  write b := c.write (g b)
  read bytes := do
    let (a, rest) ← c.read bytes
    return (f a, rest)

def u8 : Codec UInt8 := (number 1).imap UInt8.ofNat UInt8.toNat
def u32 : Codec UInt32 := (number 4).imap UInt32.ofNat UInt32.toNat
def u64 : Codec UInt64 := (number 8).imap UInt64.ofNat UInt64.toNat

def i64 : Codec Int64 := u64.imap UInt64.toInt64 Int64.toUInt64

def bool : Codec Bool where
  write b := [if b then 1 else 0]
  read bytes := do
    let (b, rest) ← u8.read bytes
    if b = 0 then return (false, rest)
    else if b = 1 then return (true, rest)
    else throw (.badBool b)

def pair (a : Codec α) (b : Codec β) : Codec (α × β) where
  write x := a.write x.1 ++ b.write x.2
  read bytes := do
    let (x, rest) ← a.read bytes
    let (y, rest) ← b.read rest
    return ((x, y), rest)

def option (c : Codec α) : Codec (Option α) where
  write
    | none => [0]
    | some a => 1 :: c.write a
  read bytes := do
    let (tag, rest) ← u8.read bytes
    if tag = 0 then return (none, rest)
    else if tag = 1 then
      let (a, rest) ← c.read rest
      return (some a, rest)
    else throw (.badOptionTag tag)

def readTimes (read : Reader α) : Nat → Reader (List α)
  | 0, bytes => .ok ([], bytes)
  | n + 1, bytes => do
    let (a, rest) ← read bytes
    let (as, rest) ← readTimes read n rest
    return (a :: as, rest)

/-- The number of elements, then the elements. -/
def list (c : Codec α) : Codec (List α) where
  write as := littleEndian 8 as.length ++ as.flatMap c.write
  read bytes := do
    let (n, rest) ← (number 8).read bytes
    readTimes c.read n rest

def octets : Codec (List UInt8) := list u8

def text : Codec String where
  write s := littleEndian 8 (Text.utf8Length s) ++ Text.utf8 s
  read bytes := do
    let (n, rest) ← (number 8).read bytes
    if n ≤ rest.length then
      match Text.ofUtf8 (rest.take n) with
      | .ok s => return (s, rest.drop n)
      | .error f => throw (.badText f)
    else throw .endOfText

/-- The value at the front of a byte string; what follows it is ignored. -/
def decode (c : Codec α) (bytes : List UInt8) : Except Fault α := (c.read bytes).map (·.1)

end Codec

def tag (n : Nat) : List UInt8 := littleEndian 4 n

end ConsensusLedger.Wire
