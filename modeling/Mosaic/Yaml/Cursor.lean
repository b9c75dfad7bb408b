import Mosaic.Text.Measure
import Mosaic.Yaml.Fault

/-!
# Moving through a YAML text

A `Cursor` is the text that is left and the mark it has reached.  The end of the text looks like
a null character, which cannot occur in the text itself.

* `Cursor.peek` looks ahead, `Cursor.move` and `Cursor.readWhile` go on within a line.
* `Cursor.lineBreak?` goes over a line break.
* `checkCharacters` refuses a text with characters that YAML does not admit.
-/

namespace Mosaic.Yaml

/-! ## Classes of characters -/

/-- What stands for the end of the text. -/
def endChar : Char := '\x00'

/-- The characters of names: ASCII letters, digits, `-` and `_`. -/
def isNameChar (c : Char) : Bool :=
  c.isAlphanum || c == '-' || c == '_'

/-- A space or a tab. -/
def isSpace (c : Char) : Bool :=
  c == ' ' || c == '\t'

/-- A character that ends a line. -/
def isBreak (c : Char) : Bool :=
  c == '\n' || c == '\r' || c == '\u0085' || c == '\u2028' || c == '\u2029'

/-- The end of a line or of the text. -/
def isBreakOrEnd (c : Char) : Bool :=
  isBreak c || c == endChar

/-- White space or the end of the text. -/
def isBlankOrEnd (c : Char) : Bool :=
  isSpace c || isBreakOrEnd c

/-- A bracket, brace or comma, which means something inside flow collections. -/
def isFlowIndicator (c : Char) : Bool :=
  [',', '[', ']', '\x7b', '\x7d'].contains c

/-- A hexadecimal digit. -/
def isHexDigit (c : Char) : Bool :=
  c.isDigit || ('a' ≤ c && c ≤ 'f') || ('A' ≤ c && c ≤ 'F')

/-- The value of a hexadecimal digit. -/
def hexValue (c : Char) : Nat :=
  if c.isDigit then c.toNat - '0'.toNat
  else if 'a' ≤ c && c ≤ 'f' then c.toNat - 'a'.toNat + 10
  else c.toNat - 'A'.toNat + 10

/-- The characters that a YAML text may hold. -/
def isAdmitted (c : Char) : Bool :=
  let n := c.toNat
  n == 0x9 || n == 0xA || n == 0xD || (0x20 ≤ n && n ≤ 0x7E) || n == 0x85 ||
    (0xA0 ≤ n && n ≤ 0xD7FF) || (0xE000 ≤ n && n ≤ 0xFFFD) || 0x10000 ≤ n

/-- Refuses a text with a character that may not occur, telling its byte offset. -/
def checkCharacters (t : Text) : Except Fault Unit :=
  match t.dropWhile isAdmitted with
  | [] => .ok ()
  | _ :: _ =>
    .error {
      problem := .controlCharacter, mark := {}
      byte := Text.bytes (t.takeWhile isAdmitted) }

/-! ## Cursors -/

/-- What is left of a text, and where that starts. -/
structure Cursor where
  rest : Text
  mark : Mark := {}
  deriving Repr, Inhabited

namespace Cursor

/-- The character `n` places ahead. -/
def peek (c : Cursor) (n : Nat) : Char :=
  c.rest.getD n endChar

/-- The next character. -/
def next (c : Cursor) : Char :=
  c.peek 0

/-- The byte offset after `n` more characters. -/
def indexAfter (c : Cursor) (n : Nat) : Nat :=
  c.mark.index + Text.bytes (c.rest.take n)

/-- The cursor after `n` more characters of the line. -/
def move (c : Cursor) (n : Nat) : Cursor :=
  ⟨c.rest.drop n, { c.mark with index := c.indexAfter n, column := c.mark.column + n }⟩

/-- The characters of the line that satisfy `p`, and the cursor after them. -/
def readWhile (p : Char → Bool) (c : Cursor) : Text × Cursor :=
  let t := c.rest.takeWhile p
  (t, c.move t.length)

/-- The cursor after the characters of the line that satisfy `p`. -/
def skipWhile (p : Char → Bool) (c : Cursor) : Cursor :=
  (c.readWhile p).2

/-- The cursor at the end of the line. -/
def skipLine (c : Cursor) : Cursor :=
  c.skipWhile fun x => !isBreak x

/-- The cursor on the next line, `n` characters on. -/
def newLine (c : Cursor) (n : Nat) : Cursor :=
  ⟨c.rest.drop n, { index := c.indexAfter n, line := c.mark.line + 1, column := 0 }⟩

/-- A line break and the cursor after it.  All breaks count as line feeds, but for the two
separators of Unicode. -/
def lineBreak? (c : Cursor) : Option (Text × Cursor) :=
  match c.rest with
  | [] => none
  | x :: r =>
    if x = '\r' ∧ r.head? = some '\n' then some (['\n'], c.newLine 2)
    else if x = '\u2028' ∨ x = '\u2029' then some ([x], c.newLine 1)
    else if isBreak x then some (['\n'], c.newLine 1)
    else none

/-- The cursor after a line break, if there is one. -/
def skipBreak (c : Cursor) : Cursor :=
  match c.lineBreak? with
  | some (_, c) => c
  | none => c

/-- Whether a line of three dashes or dots starts here, which bounds a document. -/
def atDocumentBound (c : Cursor) : Bool :=
  c.mark.column == 0 &&
    (['-', '-', '-'].isPrefixOf c.rest || ['.', '.', '.'].isPrefixOf c.rest) &&
    isBlankOrEnd (c.peek 3)

/-- The problem `p` at this place, found while reading what began at `start`. -/
def fault (c : Cursor) (p : Problem) (activity : Activity) (start : Mark) : Fault :=
  { problem := p, mark := c.mark, context := some (activity, start) }

/-- The cursor after spaces and a comment at the end of a line, which has to end there. -/
def endOfLine (c : Cursor) (activity : Activity) (start : Mark) : Except Fault Cursor :=
  let c := c.skipWhile isSpace
  let c := if c.next = '#' then c.skipLine else c
  if isBreakOrEnd c.next then .ok c.skipBreak
  else .error (c.fault .lineEndMissing activity start)

end Cursor

end Mosaic.Yaml
