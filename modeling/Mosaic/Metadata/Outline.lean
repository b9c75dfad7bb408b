import Mosaic.Text.Span
import Mosaic.Unicode.Word

/-!
# The outline of a metadata block

The keys at the top level of a metadata block are the names at the beginning of a line with a
colon after them, the colon being followed by a blank or the end of the line.
-/

namespace Mosaic.Metadata

/-- A space or a tab. -/
def isSpace (c : Char) : Bool :=
  c == ' ' || c == '\t'

/-- The name of a key at the start of a line: an ASCII letter or underscore, and then word
characters and dashes. -/
def keyAt? (line : Text) : Option Text :=
  match line with
  | [] => none
  | c :: r =>
    let name := c :: r.takeWhile fun x => isWordChar x || x == '-'
    match (line.drop name.length).dropWhile isSpace with
    | ':' :: after =>
      if (c.isAlpha || c == '_') && after.head?.all (fun x => isSpace x || x == '\n') then some name
      else none
    | _ => none

/-- A key at the top level: the span of its name, and where its line ends. -/
structure Key where
  name : Text
  span : Span
  lineStop : Nat
  deriving DecidableEq, Repr

/-- The key at the start of a line that begins at offset `start`. -/
def Key.ofLine? (start : Nat) (line : Text) : Option Key :=
  (keyAt? line).map fun name =>
    ⟨name, Span.ofText start name, start + Text.bytes (line.takeWhile (· != '\n'))⟩

/-- The keys in the text from offset `start` on, which may be the start of a line. -/
def keysFrom (lineStart : Bool) (start : Nat) : Text → List Key
  | [] => []
  | c :: r =>
    (if lineStart then (Key.ofLine? start (c :: r)).toList else []) ++
      keysFrom (c == '\n') (start + c.utf8Size) r

/-- The keys at the top level of a metadata block. -/
def keys (t : Text) : List Key :=
  keysFrom true 0 t

end Mosaic.Metadata
