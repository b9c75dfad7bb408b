import Mosaic.Text.Position

/-!
# Content changes

An editor reports what happened to a text as a list of changes.  A change with a range puts its
text in place of the range, a change without one replaces everything; the range of each change
is read in the text that the changes before it produced (`Text.applyChanges`).
-/

namespace Mosaic

/-- One change of a text. -/
structure Change where
  range : Option Range
  text : Text
  deriving DecidableEq, Repr

namespace Change

/-- The text after one change. -/
def apply (t : Text) (c : Change) : Text :=
  match c.range with
  | none => c.text
  | some r =>
    let (start, stop) := Text.spanOf t r
    Text.splice start stop c.text t

end Change

/-- The text after a list of changes, the first one first. -/
def Text.applyChanges (t : Text) (changes : List Change) : Text :=
  changes.foldl Change.apply t

end Mosaic
