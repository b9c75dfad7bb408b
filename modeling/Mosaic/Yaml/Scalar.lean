import Mosaic.Yaml.Cursor

/-!
# Scalars

The three ways in which a YAML text writes a scalar: plain, in quotes, and as a block of lines.
Each reader takes the cursor at the start of the scalar and returns the text that it denotes
and the cursor after it.

Line breaks inside plain and quoted scalars are folded: one break is a space, of several the
first is dropped (`Gap.text`).
-/

namespace Mosaic.Yaml

/-! ## Gaps between words -/

/-- White space inside a plain or quoted scalar. -/
structure Gap where
  /-- Spaces and tabs before any line break. -/
  spaces : Text := []
  /-- Whether a line ended. -/
  broken : Bool := false
  /-- The first line break. -/
  first : Text := []
  /-- The line breaks after it. -/
  others : Text := []
  deriving Repr, Inhabited

namespace Gap

/-- What a gap stands for. -/
def text (g : Gap) : Text :=
  if !g.broken then g.spaces
  else if g.first = ['\n'] then (if g.others.isEmpty then [' '] else g.others)
  else g.first ++ g.others

/-- Reads white space on from a gap.  With `indent`, a tab before that column of a new line is
refused. -/
def read (indent : Option Nat) : Nat → Gap → Cursor → Except Cursor (Gap × Cursor)
  | 0, g, c => .ok (g, c)
  | fuel + 1, g, c =>
    if isSpace c.next then
      if g.broken ∧ c.next = '\t' ∧ indent.any (c.mark.column < ·) then .error c
      else read indent fuel
        (if g.broken then g else { g with spaces := g.spaces ++ [c.next] }) (c.move 1)
    else
      match c.lineBreak? with
      | none => .ok (g, c)
      | some (b, c) =>
        read indent fuel
          (if g.broken then { g with others := g.others ++ b }
            else { g with broken := true, spaces := [], first := b }) c

end Gap

/-! ## Plain scalars -/

/-- The characters of a plain scalar up to white space or an indicator, how many come after,
and whether a colon stands there that is not allowed in a flow collection. -/
def plainWord (inFlow : Bool) : Text → Text × Bool
  | [] => ([], false)
  | c :: r =>
    let following := r.headD endChar
    if isBlankOrEnd c then ([], false)
    else if inFlow && c == ':' && (isFlowIndicator following || following == '?') then ([], true)
    else if (c == ':' && isBlankOrEnd following) || (inFlow && isFlowIndicator c) then ([], false)
    else
      let (word, bad) := plainWord inFlow r
      (c :: word, bad)

/-- A scalar as it was read: its text, whether its last white space held a line break, and the
cursor after it. -/
structure ReadScalar where
  text : Text
  broken : Bool := false
  cursor : Cursor

/-- Reads a plain scalar on from `text` and the white space after it. -/
def readPlainFrom (inFlow : Bool) (indent : Nat) (start : Mark) :
    Nat → Text → Gap → Cursor → Except Fault ReadScalar
  | 0, text, g, c => .ok ⟨text, g.broken, c⟩
  | fuel + 1, text, g, c =>
    if c.atDocumentBound ∨ c.next = '#' then .ok ⟨text, g.broken, c⟩
    else
      let (word, bad) := plainWord inFlow c.rest
      let c := c.move word.length
      let (text, g) := if word.isEmpty then (text, g) else (text ++ g.text ++ word, {})
      if bad then .error (c.fault .unexpectedColon .plainScalar start)
      else if !isSpace c.next && !isBreak c.next then .ok ⟨text, g.broken, c⟩
      else
        match g.read (some indent) (c.rest.length + 1) c with
        | .error c => .error (c.fault .tabViolatesIndentation .plainScalar start)
        | .ok (g, c) =>
          if !inFlow ∧ c.mark.column < indent then .ok ⟨text, g.broken, c⟩
          else readPlainFrom inFlow indent start fuel text g c

/-- Reads a plain scalar; `indent` is the least column of its further lines. -/
def readPlain (inFlow : Bool) (indent : Nat) (c : Cursor) : Except Fault ReadScalar :=
  readPlainFrom inFlow indent c.mark (c.rest.length + 1) [] {} c

/-! ## Quoted scalars -/

/-- The character for which a one-letter escape stands. -/
def escapedChar? (c : Char) : Option Char :=
  match c with
  | '0' => some '\x00'
  | 'a' => some '\x07'
  | 'b' => some '\x08'
  | 't' => some '\t'
  | '\t' => some '\t'
  | 'n' => some '\n'
  | 'v' => some '\x0b'
  | 'f' => some '\x0c'
  | 'r' => some '\r'
  | 'e' => some '\x1b'
  | ' ' => some ' '
  | '"' => some '"'
  | '/' => some '/'
  | '\\' => some '\\'
  | 'N' => some '\u0085'
  | '_' => some '\u00a0'
  | 'L' => some '\u2028'
  | 'P' => some '\u2029'
  | _ => none

/-- How many hexadecimal digits follow an escape letter. -/
def escapeDigits? (c : Char) : Option Nat :=
  match c with
  | 'x' => some 2
  | 'u' => some 4
  | 'U' => some 8
  | _ => none

/-- Reads an escape in double quotes, the cursor being at its backslash. -/
def readEscape (start : Mark) (c : Cursor) : Except Fault (Char × Cursor) :=
  match escapedChar? (c.peek 1), escapeDigits? (c.peek 1) with
  | some x, _ => .ok (x, c.move 2)
  | none, some n =>
    let c := c.move 2
    let digits := (c.rest.take n).takeWhile isHexDigit
    let value := digits.foldl (fun v d => v * 16 + hexValue d) 0
    if digits.length < n then .error (c.fault .hexDigitMissing .quotedEscape start)
    else if (0xD800 ≤ value ∧ value ≤ 0xDFFF) ∨ value > 0x10FFFF then
      .error (c.fault .invalidCodePoint .quotedEscape start)
    else .ok (Char.ofNat value, c.move n)
  | none, none => .error (c.fault .unknownEscape .quotedEscape start)

/-- Reads characters in quotes up to white space, the closing quote or an escaped line break,
which starts a gap. -/
def readQuotedWord (quote : Char) (start : Mark) :
    Nat → Text → Cursor → Except Fault (Text × Gap × Cursor)
  | 0, word, c => .ok (word, {}, c)
  | fuel + 1, word, c =>
    if isBlankOrEnd c.next then .ok (word, {}, c)
    else if quote = '\'' ∧ c.next = '\'' ∧ c.peek 1 = '\'' then
      readQuotedWord quote start fuel (word ++ ['\'']) (c.move 2)
    else if c.next = quote then .ok (word, {}, c)
    else if quote = '"' ∧ c.next = '\\' then
      if isBreak (c.peek 1) then .ok (word, { broken := true }, (c.move 1).skipBreak)
      else
        match readEscape start c with
        | .error f => .error f
        | .ok (x, c) => readQuotedWord quote start fuel (word ++ [x]) c
    else readQuotedWord quote start fuel (word ++ [c.next]) (c.move 1)

/-- Reads a quoted scalar on from `text`. -/
def readQuotedFrom (quote : Char) (start : Mark) :
    Nat → Text → Cursor → Except Fault ReadScalar
  | 0, text, c => .ok ⟨text, false, c⟩
  | fuel + 1, text, c => do
    if c.atDocumentBound then throw (c.fault .documentIndicator .quotedScalar start)
    if c.next = endChar then throw (c.fault .streamEnd .quotedScalar start)
    let (word, g, c) ← readQuotedWord quote start (c.rest.length + 1) [] c
    if c.next = quote then return ⟨text ++ word, false, c.move 1⟩
    match g.read none (c.rest.length + 1) c with
    | .error c => throw (c.fault .tabViolatesIndentation .quotedScalar start)
    | .ok (g, c) => readQuotedFrom quote start fuel (text ++ word ++ g.text) c

/-- Reads a scalar in the quotes at the cursor. -/
def readQuoted (c : Cursor) : Except Fault ReadScalar :=
  readQuotedFrom c.next c.mark (c.rest.length + 1) [] (c.move 1)

/-! ## Block scalars -/

/-- What becomes of the line breaks at the end of a block. -/
inductive Chomping where
  | strip
  | clip
  | keep
  deriving DecidableEq, Repr

/-- The indicators after the first of a block scalar: chomping and indentation, in either
order. -/
def readBlockHeader (start : Mark) (c : Cursor) : Except Fault (Chomping × Nat × Cursor) :=
  let chomping (c : Cursor) : Option Chomping :=
    if c.next = '+' then some .keep else if c.next = '-' then some .strip else none
  let digit (c : Cursor) : Except Fault (Nat × Cursor) :=
    if c.next = '0' then .error (c.fault .zeroIndentation .blockScalar start)
    else if c.next.isDigit then .ok (hexValue c.next, c.move 1)
    else .ok (0, c)
  match chomping c with
  | some ch => do
    let (n, c) ← digit (c.move 1)
    return (ch, n, c)
  | none => do
    let (n, d) ← digit c
    match chomping d with
    | some ch => if n = 0 then return (.clip, 0, d) else return (ch, n, d.move 1)
    | none => return (.clip, n, d)

/-- Reads indentation and empty lines.  Without a known indentation (`0`) all leading spaces are
read; the result tells the deepest column reached. -/
def readBlockBreaks (indent : Nat) (start : Mark) :
    Nat → Nat → Text → Cursor → Except Fault (Nat × Text × Cursor)
  | 0, deepest, breaks, c => .ok (deepest, breaks, c)
  | fuel + 1, deepest, breaks, c =>
    let spaces := (c.rest.takeWhile (· == ' ')).length
    let c := c.move (if indent = 0 then spaces else min spaces (indent - c.mark.column))
    let deepest := max deepest c.mark.column
    if (indent = 0 ∨ c.mark.column < indent) ∧ c.next = '\t' then
      .error (c.fault .tabForIndentation .blockScalar start)
    else
      match c.lineBreak? with
      | none => .ok (deepest, breaks, c)
      | some (b, c) => readBlockBreaks indent start fuel deepest (breaks ++ b) c

/-- The indentation of a block: the given one, or what the first lines show, but deeper than the
collection around it. -/
def blockIndent (given deepest : Nat) (outer : Int) : Nat :=
  if given ≠ 0 then given else max 1 (max deepest (outer + 1).toNat)

/-- Reads the lines of a block scalar on from `text`; `first` is the break of the last line,
`others` are the empty lines after it, and `spaced` tells whether that line began with white
space. -/
def readBlockLines (literal : Bool) (indent : Nat) (start : Mark) :
    Nat → Text → Text → Text → Bool → Cursor → Except Fault (Text × Text × Text × Cursor)
  | 0, text, first, others, _, c => .ok (text, first, others, c)
  | fuel + 1, text, first, others, spaced, c =>
    if c.mark.column ≠ indent ∨ c.next = endChar then .ok (text, first, others, c)
    else do
      let spacedNow := isSpace c.next
      let folded := !literal ∧ first = ['\n'] ∧ !spaced ∧ !spacedNow
      let joint := if folded then (if others.isEmpty then [' '] else []) else first
      let (line, c) := c.readWhile fun x => !isBreak x
      let (first, c) := match c.lineBreak? with
        | some (b, c) => (b, c)
        | none => ([], c)
      let (_, breaks, c) ← readBlockBreaks indent start (c.rest.length + 1) 0 [] c
      readBlockLines literal indent start fuel (text ++ joint ++ others ++ line) first breaks
        spacedNow c

/-- Reads a block scalar inside a collection at column `outer`. -/
def readBlock (literal : Bool) (outer : Int) (c : Cursor) : Except Fault ReadScalar := do
  let start := c.mark
  let (chomping, increment, c) ← readBlockHeader start (c.move 1)
  let c ← c.endOfLine .blockScalar start
  let given := if increment = 0 then 0 else (max outer 0).toNat + increment
  let (deepest, breaks, c) ← readBlockBreaks given start (c.rest.length + 1) 0 [] c
  let indent := blockIndent given deepest outer
  let (text, first, others, c) ←
    readBlockLines literal indent start (c.rest.length + 1) [] [] breaks false c
  let text := if chomping = .strip then text else text ++ first
  let text := if chomping = .keep then text ++ others else text
  return ⟨text, false, c⟩

end Mosaic.Yaml
