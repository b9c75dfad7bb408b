import Mosaic.Text.Measure

/-!
# Positions in a text

A protocol names a place in a text by a line and by a character on that line, the character
counted in UTF-16 units.  This module is the one place that goes between such positions and
byte offsets.

* `Text.positionAt` reads the position of an offset off the characters that start before it.
* `Text.offsetAt?` finds the offset of a position; a character past the end of its line is the
  end of the line, a line past the end of the text is no place.
* `Text.offsetAt` takes such a line as the end of the text.
* `Text.rangeOf` and `Text.spanOf` do the same for both ends of a stretch.

The numbers of a position are sent in words of 32 bits.  Here they are natural numbers, which is the
same for texts of less than 4 GiB; larger texts are out of scope.
-/

namespace Mosaic

/-- A place in a text: a line, and UTF-16 units from its start. -/
structure Position where
  line : Nat
  character : Nat
  deriving DecidableEq, Repr, Inhabited

/-- A stretch between two positions. -/
structure Range where
  start : Position
  stop : Position
  deriving DecidableEq, Repr, Inhabited

namespace Position

/-- Positions are ordered by line, then by character. -/
def precedes (a b : Position) : Bool :=
  a.line < b.line || (a.line == b.line && a.character < b.character)

/-- Positions are ordered by line, then by character, equal ones included. -/
def upTo (a b : Position) : Bool :=
  !b.precedes a

/-- The position after reading one more character. -/
def advance (p : Position) (c : Char) : Position :=
  if c = '\n' then ⟨p.line + 1, 0⟩ else ⟨p.line, p.character + charUnits c⟩

end Position

namespace Text

/-- The position at the end of a text that starts at `p`. -/
def endPosition (p : Position) (t : Text) : Position :=
  t.foldl Position.advance p

/-- The position of a byte offset.  An offset inside a character counts the whole character, an
offset past the end is the end. -/
def positionAt (t : Text) (offset : Nat) : Position :=
  endPosition ⟨0, 0⟩ (takeBytes offset t)

/-- Where a line starts: its offset, and the text from there on.  There is no line after the
last line break plus one. -/
def lineFrom : Nat → Text → Option (Nat × Text)
  | 0, t => some (0, t)
  | _ + 1, [] => none
  | n + 1, c :: r =>
    (lineFrom (if c = '\n' then n else n + 1) r).map fun (o, t) => (c.utf8Size + o, t)

/-- How many bytes from the start of a line lie before its character `n`, at most the line. -/
def columnBytes : Nat → Text → Nat
  | 0, _ => 0
  | _ + 1, [] => 0
  | n + 1, c :: r => if c = '\n' then 0 else c.utf8Size + columnBytes (n + 1 - charUnits c) r

/-- The offset of a position, if its line exists.  Within a character it is the end of that
character, past the line it is the end of the line. -/
def offsetAt? (t : Text) (p : Position) : Option Nat :=
  (lineFrom p.line t).map fun (start, rest) => start + columnBytes p.character rest

/-- The offset of a position; past the last line it is the end of the text. -/
def offsetAt (t : Text) (p : Position) : Nat :=
  (offsetAt? t p).getD (bytes t)

/-- The range of a span of bytes. -/
def rangeOf (t : Text) (start stop : Nat) : Range :=
  ⟨positionAt t start, positionAt t stop⟩

/-- The span of bytes of a range, its ends in ascending order. -/
def spanOf (t : Text) (r : Range) : Nat × Nat :=
  let a := offsetAt t r.start
  let b := offsetAt t r.stop
  (min a b, max a b)

end Text

end Mosaic
