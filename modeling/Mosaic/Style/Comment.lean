import Mosaic.Text.Measure

/-!
# Comments in style sheets

A comment runs from `/*` to the next `*/` after it, or to the end of the text.  `maskComments`
puts spaces in the place of comments, one for each byte, so that all offsets stay the same.
-/

namespace Mosaic.Style

/-- Where a reader of comments stands. -/
inductive CommentState where
  /-- Outside comments. -/
  | outside
  /-- Before the `*` that opens a comment. -/
  | opening
  /-- Inside a comment. -/
  | inside
  /-- Before the `/` that closes a comment. -/
  | closing
  deriving DecidableEq, Repr

/-- As many spaces as a character has bytes. -/
def blanksFor (c : Char) : Text :=
  List.replicate c.utf8Size ' '

/-- A text with spaces in the place of comments, read from the given state on. -/
def maskFrom : CommentState → Text → Text
  | _, [] => []
  | .outside, c :: r =>
    if c = '/' ∧ r.head? = some '*' then ' ' :: maskFrom .opening r
    else c :: maskFrom .outside r
  | .opening, _ :: r => ' ' :: maskFrom .inside r
  | .inside, c :: r =>
    if c = '*' ∧ r.head? = some '/' then ' ' :: maskFrom .closing r
    else blanksFor c ++ maskFrom .inside r
  | .closing, _ :: r => ' ' :: maskFrom .outside r

/-- A text with spaces in the place of comments. -/
def maskComments (t : Text) : Text :=
  maskFrom .outside t

end Mosaic.Style
