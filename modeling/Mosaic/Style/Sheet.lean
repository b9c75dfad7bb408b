import Mosaic.Style.Comment
import Mosaic.Text.Span
import Mosaic.Unicode.Word

/-!
# The structure of a style sheet

A style sheet is read as far as its braces, semicolons and colons go, which is enough for every
language of the family: rules with what they are for and the rules inside them, declarations of
properties, and braces without a partner.

* `Declaration.ofChunk?` recognises a declaration in the text between two delimiters.
* `SheetState.step` takes one character; open rules are on a stack, the innermost first.
* `Sheet.ofText` reads a whole text, its comments masked.
-/

namespace Mosaic.Style

/-- A property and its value. -/
structure Declaration where
  property : Span
  value : Span
  deriving DecidableEq, Repr

/-- A rule: what it is for, its extent from there through its closing brace, and the rules
inside. -/
inductive Rule where
  | mk (prelude : Span) (name : Text) (extent : Span) (children : List Rule)
  deriving Repr

namespace Rule

/-- Where a rule says what it is for. -/
def prelude : Rule → Span
  | mk p _ _ _ => p

/-- What a rule is for, in one line. -/
def name : Rule → Text
  | mk _ n _ _ => n

/-- All of a rule. -/
def extent : Rule → Span
  | mk _ _ e _ => e

/-- The rules inside a rule. -/
def children : Rule → List Rule
  | mk _ _ _ cs => cs

end Rule

/-- A brace without a partner. -/
inductive LoneBrace where
  /-- A closing brace that no open one goes with. -/
  | unexpected (offset : Nat)
  /-- An opening brace that is never closed. -/
  | unclosed (offset : Nat)
  deriving DecidableEq, Repr

namespace LoneBrace

/-- Where a brace is. -/
def offset : LoneBrace → Nat
  | unexpected o => o
  | unclosed o => o

/-- What is to be said about a brace. -/
def message : LoneBrace → String
  | unexpected _ => "unexpected '\x7d'"
  | unclosed _ => "missing '\x7d'"

end LoneBrace

/-- What a style sheet holds. -/
structure Sheet where
  rules : List Rule := []
  declarations : List Declaration := []
  lone : List LoneBrace := []
  deriving Repr

/-! ## Between two delimiters -/

/-- Whether a text is the name of a property: up to two dashes, an ASCII letter, and then word
characters and dashes. -/
def isPropertyName (t : Text) : Bool :=
  let dashes := (t.takeWhile (· == '-')).length
  match t.drop dashes with
  | [] => false
  | c :: r => dashes ≤ 2 && c.isAlpha && r.all fun x => isWordChar x || x == '-'

/-- The declaration in the text from offset `start` on: the name of a property before the first
colon, and the value after it. -/
def Declaration.ofChunk? (start : Nat) (t : Text) : Option Declaration :=
  let before := t.takeWhile (· != ':')
  match t.drop before.length with
  | [] => none
  | _ :: after =>
    if isPropertyName (Text.trim before) then
      some ⟨Span.ofTrimmed start before, Span.ofTrimmed (start + Text.bytes before + 1) after⟩
    else none

/-- The words of a text with single spaces between them. -/
def joinWords (t : Text) : Text :=
  let words := (t.splitOnP isBlank).filter (!·.isEmpty)
  [' '].intercalate words

/-! ## Reading a sheet -/

/-- A rule whose closing brace has not come yet. -/
structure OpenRule where
  prelude : Span
  name : Text
  /-- Where its opening brace is. -/
  brace : Nat
  children : List Rule := []
  deriving Repr

/-- The rule that ends at `stop`. -/
def OpenRule.close (r : OpenRule) (stop : Nat) : Rule :=
  .mk r.prelude r.name ⟨r.prelude.start, stop⟩ r.children

/-- A sheet that is being read. -/
structure SheetState where
  /-- The rules that are open, the innermost first. -/
  stack : List OpenRule := []
  /-- Where the text after the last delimiter starts. -/
  chunkStart : Nat := 0
  /-- The text after the last delimiter. -/
  chunk : Text := []
  sheet : Sheet := {}
  deriving Repr

namespace SheetState

/-- The offset that has been reached. -/
def offset (s : SheetState) : Nat :=
  s.chunkStart + Text.bytes s.chunk

/-- Starts the text after a delimiter at the present offset. -/
def delimit (s : SheetState) : SheetState :=
  { s with chunkStart := s.offset + 1, chunk := [] }

/-- Takes the text since the last delimiter for a declaration, if it is one. -/
def declare (s : SheetState) : SheetState :=
  match Declaration.ofChunk? s.chunkStart s.chunk with
  | none => s
  | some d => { s with sheet.declarations := s.sheet.declarations ++ [d] }

/-- Opens a rule, the text since the last delimiter being what it is for. -/
def openRule (s : SheetState) : SheetState :=
  { s with
    stack := ⟨Span.ofTrimmed s.chunkStart s.chunk, joinWords s.chunk, s.offset, []⟩ :: s.stack }

/-- Puts a finished rule into the innermost open one. -/
def attach (s : SheetState) (r : Rule) : SheetState :=
  match s.stack with
  | [] => { s with sheet.rules := s.sheet.rules ++ [r] }
  | parent :: rest =>
    { s with stack := { parent with children := parent.children ++ [r] } :: rest }

/-- Closes the innermost open rule at a closing brace. -/
def closeRule (s : SheetState) : SheetState :=
  match s.stack with
  | [] => { s with sheet.lone := s.sheet.lone ++ [.unexpected s.offset] }
  | r :: rest => { s with stack := rest }.attach (r.close (s.offset + 1))

/-- Takes one character. -/
def step (s : SheetState) (c : Char) : SheetState :=
  if c = '\x7b' then s.openRule.delimit
  else if c = ';' then s.declare.delimit
  else if c = '\x7d' then s.declare.closeRule.delimit
  else { s with chunk := s.chunk ++ [c] }

/-- Closes the given open rules at the end of the text, the innermost first. -/
def unwind (stop : Nat) : List OpenRule → Sheet → Sheet
  | [], sheet => sheet
  | [r], sheet =>
    { sheet with
      rules := sheet.rules ++ [r.close stop]
      lone := sheet.lone ++ [.unclosed r.brace] }
  | r :: parent :: rest, sheet =>
    unwind stop ({ parent with children := parent.children ++ [r.close stop] } :: rest)
      { sheet with lone := sheet.lone ++ [.unclosed r.brace] }
termination_by stack => stack.length

/-- What has been read when the text ends.  A declaration may lack its semicolon. -/
def finish (s : SheetState) : Sheet :=
  let s := s.declare
  let sheet := unwind s.offset s.stack s.sheet
  { sheet with lone := sheet.lone.mergeSort fun a b => a.offset ≤ b.offset }

end SheetState

/-- What a style sheet holds. -/
def Sheet.ofText (t : Text) : Sheet :=
  ((maskComments t).foldl SheetState.step {}).finish

end Mosaic.Style
