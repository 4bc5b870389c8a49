import ConsensusLedger.Delivery.Event

/-!
The feed of a node: lines of events. Blank lines are passed over, lines that are no event are
counted.
-/

namespace ConsensusLedger

namespace Text

/-- The characters that leave a line blank. -/
def isBlank (c : Char) : Bool :=
  let n := c.toNat
  (0x09 ≤ n && n ≤ 0x0d) || n = 0x20 || n = 0x85 || n = 0xa0 || n = 0x1680 ||
    (0x2000 ≤ n && n ≤ 0x200a) || n = 0x2028 || n = 0x2029 || n = 0x202f || n = 0x205f || n = 0x3000

def isBlankLine (line : List Char) : Bool := line.all isBlank

/-- Pieces between line feeds. `piece` is the current one and `done` those before it, both backwards. -/
def splitLines (done : List (List Char)) (piece : List Char) : List Char → List (List Char)
  | [] => (piece.reverse :: done).reverse
  | '\n' :: rest => splitLines (piece.reverse :: done) [] rest
  | c :: rest => splitLines done (c :: piece) rest

def withoutReturn (line : List Char) : List Char :=
  if line.getLast? = some '\r' then line.dropLast else line

/-- The lines of a text. They end in a line feed, with or without a carriage return before it; the
last one may go without. -/
def lines (s : String) : List String :=
  let pieces := splitLines [] [] s.toList
  let pieces := if pieces.getLast? = some [] then pieces.dropLast else pieces
  pieces.map fun p => String.ofList (withoutReturn p)

end Text

structure Feed where
  deliveries : List Delivery
  skipped : Nat

namespace Feed

/-- Reads lines. Once nobody takes deliveries any more, reading ends at the first of them. -/
def ofLines (taken : Bool) : List String → Feed
  | [] => ⟨[], 0⟩
  | line :: rest =>
    if Text.isBlankLine line.toList then ofLines taken rest
    else
      match Delivery.ofLine line with
      | .error _ =>
        let feed := ofLines taken rest
        { feed with skipped := feed.skipped + 1 }
      | .ok d =>
        if taken then
          let feed := ofLines taken rest
          { feed with deliveries := d :: feed.deliveries }
        else ⟨[], 0⟩

def read (taken : Bool) (text : String) : Feed := ofLines taken (Text.lines text)

end Feed

end ConsensusLedger
