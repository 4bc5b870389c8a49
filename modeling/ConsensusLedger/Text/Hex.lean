import ConsensusLedger.Text.Quoted
import ConsensusLedger.Text.Utf8

/-!
Bytes as pairs of hexadecimal digits. Writing uses lowercase digits; reading takes both cases.
-/

namespace ConsensusLedger.Text

/-- Why a text is not the hexadecimal form of bytes. A bad digit is given as the byte at its
index, so a character outside ASCII counts with its first byte. -/
inductive HexFault where
  | oddLength
  | badDigit (byte : UInt8) (index : Nat)
  deriving DecidableEq, Repr

namespace HexFault

def message : HexFault → String
  | oddLength => "Odd number of digits"
  | badDigit byte index =>
    s!"Invalid character {quotedChar (Char.ofNat byte.toNat)} at position {index}"

end HexFault

def hexDigit (n : Nat) : Char :=
  if n < 10 then Char.ofNat (48 + n) else Char.ofNat (87 + n)

/-- The value of a hexadecimal digit given as an ASCII byte. -/
def hexValue? (b : UInt8) : Option UInt8 :=
  if 0x30 ≤ b ∧ b ≤ 0x39 then some (b - 0x30)
  else if 0x61 ≤ b ∧ b ≤ 0x66 then some (b - 0x57)
  else if 0x41 ≤ b ∧ b ≤ 0x46 then some (b - 0x37)
  else none

def hex (bytes : List UInt8) : String :=
  String.ofList (bytes.flatMap fun b => [hexDigit (b.toNat / 16), hexDigit (b.toNat % 16)])

/-- Reads digits two by two; `index` is the place of the first one. -/
def unhexFrom (index : Nat) : List UInt8 → Except HexFault (List UInt8)
  | [] => .ok []
  | [_] => .error .oddLength
  | hi :: lo :: rest =>
    match hexValue? hi, hexValue? lo with
    | none, _ => .error (.badDigit hi index)
    | _, none => .error (.badDigit lo (index + 1))
    | some h, some l => (unhexFrom (index + 2) rest).map ((16 * h + l) :: ·)

/-- The bytes that a text of hexadecimal digits stands for. An odd length is reported before any
bad digit. -/
def unhex (s : String) : Except HexFault (List UInt8) :=
  if utf8Length s % 2 = 1 then .error .oddLength else unhexFrom 0 (utf8 s)

end ConsensusLedger.Text
