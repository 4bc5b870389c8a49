import ConsensusLedger.Octets

/-!
Texts as UTF-8 bytes. Reading gives back the text whose bytes were given, and otherwise says where
the first fault lies and how many bytes make it up.
-/

namespace ConsensusLedger.Text

/-- The first place at which bytes stop being UTF-8. `length` is missing when the bytes end inside
a character that could still be completed. -/
structure Utf8Fault where
  index : Nat
  length : Option Nat
  deriving DecidableEq, Repr

namespace Utf8Fault

def message : Utf8Fault → String
  | ⟨index, some n⟩ => s!"invalid utf-8 sequence of {n} bytes from index {index}"
  | ⟨index, none⟩ => s!"incomplete utf-8 byte sequence from index {index}"

end Utf8Fault

def utf8 (s : String) : List UInt8 := s.toByteArray.data.toList

def utf8Length (s : String) : Nat := (utf8 s).length

/-- The ranges that the bytes after a leading byte must lie in. -/
def continuationRanges (lead : UInt8) : Option (List (UInt8 × UInt8)) :=
  if lead < 0x80 then some []
  else if lead < 0xc2 then none
  else if lead < 0xe0 then some [(0x80, 0xbf)]
  else if lead = 0xe0 then some [(0xa0, 0xbf), (0x80, 0xbf)]
  else if lead = 0xed then some [(0x80, 0x9f), (0x80, 0xbf)]
  else if lead < 0xf0 then some [(0x80, 0xbf), (0x80, 0xbf)]
  else if lead = 0xf0 then some [(0x90, 0xbf), (0x80, 0xbf), (0x80, 0xbf)]
  else if lead < 0xf4 then some [(0x80, 0xbf), (0x80, 0xbf), (0x80, 0xbf)]
  else if lead = 0xf4 then some [(0x80, 0x8f), (0x80, 0xbf), (0x80, 0xbf)]
  else none

/-- Looks for the first fault. `index` is where the current character began, `seen` the number of
its bytes read, `expected` the ranges of those still to come. -/
def firstFault (index seen : Nat) (expected : List (UInt8 × UInt8)) :
    List UInt8 → Option Utf8Fault
  | [] => if expected.isEmpty then none else some ⟨index, none⟩
  | b :: rest =>
    match expected with
    | [] =>
      match continuationRanges b with
      | none => some ⟨index + seen, some 1⟩
      | some ranges => firstFault (index + seen) 1 ranges rest
    | (lo, hi) :: more =>
      if lo ≤ b && b ≤ hi then firstFault index (seen + 1) more rest
      else some ⟨index, some seen⟩

/-- The text with the given UTF-8 bytes, or the first fault in them. -/
def ofUtf8 (bytes : List UInt8) : Except Utf8Fault String :=
  match String.fromUTF8? ⟨bytes.toArray⟩ with
  | some s => .ok s
  | none => .error ((firstFault 0 0 [] bytes).getD ⟨0, some 1⟩)

end ConsensusLedger.Text
