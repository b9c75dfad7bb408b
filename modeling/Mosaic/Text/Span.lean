import Mosaic.Text.Blank
import Mosaic.Text.Position

/-!
# Spans of bytes

A span is a stretch of a text between two byte offsets.  `Span.ofTrimmed` is where the text of a
stretch lies that is left without the white space around it.
-/

namespace Mosaic

/-- A stretch between two byte offsets. -/
structure Span where
  start : Nat
  stop : Nat
  deriving DecidableEq, Repr, Inhabited

namespace Span

/-- The span of a text that starts at `start`. -/
def ofText (start : Nat) (t : Text) : Span :=
  ⟨start, start + Text.bytes t⟩

/-- The span of a text that starts at `start`, without the white space at either end.  White
space alone leaves the empty span at its end. -/
def ofTrimmed (start : Nat) (t : Text) : Span :=
  let first := start + Text.bytes (t.takeWhile isBlank)
  let last := start + Text.bytes t - Text.bytes (t.reverse.takeWhile isBlank)
  ⟨first, max first last⟩

/-- The range of a span in a text. -/
def rangeIn (t : Text) (s : Span) : Range :=
  Text.rangeOf t s.start s.stop

/-- The text of a span. -/
def textIn (t : Text) (s : Span) : Text :=
  Text.slice s.start s.stop t

end Span

end Mosaic
