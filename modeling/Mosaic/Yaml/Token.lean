import Mosaic.Yaml.Scalar
import Mosaic.Yaml.Tag

/-!
# YAML tokens

A `Tokenizer` turns a text into tokens, as few at a time as possible.  Indentation becomes
tokens too: a block collection begins where a column is deeper than the one before, and ends
where it is left.

A key of a mapping is only recognised by the colon after it.  Where a key may begin, the
tokenizer remembers the place (`PossibleKey`), and inserts the tokens for the key there once it
comes across the colon; so a token is handed out only when no key can begin at it any more
(`Tokenizer.peek`).
-/

namespace Mosaic.Yaml

/-- What a token is. -/
inductive TokenKind where
  | streamStart
  | streamEnd
  | directive (d : Directive)
  | documentStart
  | documentEnd
  | blockSequenceStart
  | blockMappingStart
  | blockEnd
  | flowSequenceStart
  | flowSequenceEnd
  | flowMappingStart
  | flowMappingEnd
  | blockEntry
  | flowEntry
  | key
  | value
  | alias (name : Text)
  | anchor (name : Text)
  | tag (name : TagName)
  | scalar (text : Text) (isPlain : Bool)
  deriving DecidableEq, Repr

/-- A token and the mark where it starts. -/
structure Token where
  kind : TokenKind
  mark : Mark
  deriving DecidableEq, Repr

/-- A place at which the key of a mapping may have begun. -/
structure PossibleKey where
  /-- Whether nothing but a key may stand there. -/
  required : Bool
  /-- The number of the token that begins there. -/
  number : Nat
  mark : Mark
  deriving DecidableEq, Repr

/-- A text that is being read as tokens. -/
structure Tokenizer where
  cursor : Cursor
  started : Bool := false
  /-- How many flow collections are open. -/
  flowLevel : Nat := 0
  /-- Tokens that have been read and not been handed out. -/
  queue : List Token := []
  /-- How many tokens have been handed out. -/
  taken : Nat := 0
  /-- The column of the innermost block collection. -/
  indent : Int := -1
  /-- The columns of the collections around it, the innermost first. -/
  outer : List Int := []
  /-- Whether a key may begin here. -/
  keyAllowed : Bool := false
  /-- The possible key of each flow level, the innermost first. -/
  keys : List (Option PossibleKey) := []
  deriving Repr

namespace Tokenizer

/-- The tokenizer at the start of a text. -/
def ofText (t : Text) : Tokenizer :=
  { cursor := { rest := t } }

/-- Whether a flow collection is open. -/
def inFlow (s : Tokenizer) : Bool :=
  s.flowLevel > 0

/-- The mark that has been reached. -/
def mark (s : Tokenizer) : Mark :=
  s.cursor.mark

/-- Adds a token at the end of the queue. -/
def push (s : Tokenizer) (kind : TokenKind) (mark : Mark) : Tokenizer :=
  { s with queue := s.queue ++ [⟨kind, mark⟩] }

/-- Inserts a token into the queue as number `n`. -/
def insertAt (s : Tokenizer) (n : Nat) (kind : TokenKind) (mark : Mark) : Tokenizer :=
  let i := n - s.taken
  { s with queue := s.queue.take i ++ ⟨kind, mark⟩ :: s.queue.drop i }

/-- Reads one or more indicator characters as a token. -/
def pushIndicator (s : Tokenizer) (kind : TokenKind) (width : Nat) : Tokenizer :=
  { s.push kind s.mark with cursor := s.cursor.move width }

/-! ## Possible keys -/

/-- A required key without its colon. -/
def missingColon (s : Tokenizer) (k : PossibleKey) : Fault :=
  s.cursor.fault .colonMissing .simpleKey k.mark

/-- Whether a key that began at `k` cannot go on: it has to stay on its line and be short. -/
def isStale (s : Tokenizer) (k : PossibleKey) : Bool :=
  k.mark.line < s.mark.line || k.mark.index + 1024 < s.mark.index

/-- Gives up the possible keys that are stale, the outermost first. -/
def dropStaleKeys (s : Tokenizer) : Except Fault Tokenizer := do
  let keys ← s.keys.reverse.mapM fun
    | none => pure none
    | some k =>
      if s.isStale k then
        if k.required then throw (s.missingColon k) else pure none
      else pure (some k)
  return { s with keys := keys.reverse }

/-- Gives up the possible key of the present flow level. -/
def dropKey (s : Tokenizer) : Except Fault Tokenizer :=
  match s.keys with
  | some k :: ks =>
    if k.required then .error (s.missingColon k) else .ok { s with keys := none :: ks }
  | _ => .ok s

/-- Remembers that a key may begin here, if it may. -/
def saveKey (s : Tokenizer) : Except Fault Tokenizer :=
  if !s.keyAllowed then .ok s
  else do
    let required := !s.inFlow && s.indent == s.mark.column
    let s ← s.dropKey
    return { s with keys := some ⟨required, s.taken + s.queue.length, s.mark⟩ :: s.keys.tail }

/-! ## Indentation -/

/-- Begins a block collection if `column` is deeper than the one around it.  Its token is put at
the end of the queue, or in as the given number. -/
def rollIndent (s : Tokenizer) (column : Nat) (number : Option Nat) (kind : TokenKind)
    (mark : Mark) : Tokenizer :=
  if s.inFlow ∨ (column : Int) ≤ s.indent then s
  else
    let s := { s with outer := s.indent :: s.outer, indent := column }
    match number with
    | none => s.push kind mark
    | some n => s.insertAt n kind mark

/-- Ends block collections deeper than `column`. -/
def unrollIndentFrom (column : Int) : List Int → Tokenizer → Tokenizer
  | [], s => s
  | i :: is, s =>
    if s.indent > column then
      unrollIndentFrom column is { s.push .blockEnd s.mark with indent := i, outer := is }
    else s

/-- Ends block collections deeper than `column`, unless a flow collection is open. -/
def unrollIndent (s : Tokenizer) (column : Int) : Tokenizer :=
  if s.inFlow then s else unrollIndentFrom column s.outer s

/-! ## White space between tokens -/

/-- Goes over white space, comments and line breaks.  A tab is white space only where no key may
begin. -/
def skipBlanks : Nat → Tokenizer → Tokenizer
  | 0, s => s
  | fuel + 1, s =>
    let c := s.cursor
    let c := if c.mark.index = 0 ∧ c.next = '\ufeff' then c.move 1 else c
    let c := c.skipWhile fun x => x == ' ' || ((s.inFlow || !s.keyAllowed) && x == '\t')
    let c := if c.next = '#' then c.skipLine else c
    match c.lineBreak? with
    | some (_, c) =>
      skipBlanks fuel { s with cursor := c, keyAllowed := s.keyAllowed || !s.inFlow }
    | none => { s with cursor := c }

/-! ## Reading one token -/

/-- The start of the stream. -/
def fetchStreamStart (s : Tokenizer) : Tokenizer :=
  { s.push .streamStart s.mark with started := true, keyAllowed := true, keys := [none] }

/-- Leaves all block collections, before something that stands outside the document. -/
def leaveDocument (s : Tokenizer) : Except Fault Tokenizer := do
  let s ← (s.unrollIndent (-1)).dropKey
  return { s with keyAllowed := false }

/-- The end of the stream, which counts as the start of a new line. -/
def fetchStreamEnd (s : Tokenizer) : Except Fault Tokenizer := do
  let m := s.mark
  let m := if m.column = 0 then m else { m with line := m.line + 1, column := 0 }
  let s ← { s with cursor.mark := m }.leaveDocument
  return s.push .streamEnd s.mark

/-- A directive. -/
def fetchDirective (s : Tokenizer) : Except Fault Tokenizer := do
  let s ← s.leaveDocument
  let (d, c) ← readDirective s.cursor
  return { s.push (.directive d) s.mark with cursor := c }

/-- The three characters that start or end a document. -/
def fetchDocumentBound (s : Tokenizer) (kind : TokenKind) : Except Fault Tokenizer := do
  let s ← s.leaveDocument
  return s.pushIndicator kind 3

/-- The opening bracket of a flow collection. -/
def fetchFlowStart (s : Tokenizer) (kind : TokenKind) : Except Fault Tokenizer := do
  let s ← s.saveKey
  let s := { s with flowLevel := s.flowLevel + 1, keys := none :: s.keys, keyAllowed := true }
  return s.pushIndicator kind 1

/-- The closing bracket of a flow collection. -/
def fetchFlowEnd (s : Tokenizer) (kind : TokenKind) : Except Fault Tokenizer := do
  let s ← s.dropKey
  let s := if s.inFlow then { s with flowLevel := s.flowLevel - 1, keys := s.keys.tail } else s
  return { s with keyAllowed := false }.pushIndicator kind 1

/-- The comma in a flow collection. -/
def fetchFlowEntry (s : Tokenizer) : Except Fault Tokenizer := do
  let s ← s.dropKey
  return { s with keyAllowed := true }.pushIndicator .flowEntry 1

/-- The dash of an entry of a sequence. -/
def fetchBlockEntry (s : Tokenizer) : Except Fault Tokenizer := do
  if !s.inFlow && !s.keyAllowed then throw { problem := .sequenceEntryNotAllowed, mark := s.mark }
  let s ← (s.rollIndent s.mark.column none .blockSequenceStart s.mark).dropKey
  return { s with keyAllowed := true }.pushIndicator .blockEntry 1

/-- The question mark before a key. -/
def fetchKey (s : Tokenizer) : Except Fault Tokenizer := do
  if !s.inFlow && !s.keyAllowed then throw { problem := .keyNotAllowed, mark := s.mark }
  let s ← (s.rollIndent s.mark.column none .blockMappingStart s.mark).dropKey
  return { s with keyAllowed := !s.inFlow }.pushIndicator .key 1

/-- The colon after a key.  If a key was possible, now it is one, and its tokens go in where it
began. -/
def fetchValue (s : Tokenizer) : Except Fault Tokenizer :=
  match s.keys with
  | some k :: ks =>
    let s := s.insertAt k.number .key k.mark
    let s := s.rollIndent k.mark.column (some k.number) .blockMappingStart k.mark
    .ok ({ s with keys := none :: ks, keyAllowed := false }.pushIndicator .value 1)
  | _ =>
    if !s.inFlow && !s.keyAllowed then .error { problem := .valueNotAllowed, mark := s.mark }
    else
      let s := s.rollIndent s.mark.column none .blockMappingStart s.mark
      .ok ({ s with keyAllowed := !s.inFlow }.pushIndicator .value 1)

/-- An anchor, an alias or a tag, at which a key may begin. -/
def fetchProperty (s : Tokenizer)
    (read : Cursor → Except Fault (TokenKind × Cursor)) : Except Fault Tokenizer := do
  let s ← s.saveKey
  let (kind, c) ← read s.cursor
  return { s.push kind s.mark with keyAllowed := false, cursor := c }

/-- A block scalar, at which no key may begin. -/
def fetchBlockScalar (s : Tokenizer) (literal : Bool) : Except Fault Tokenizer := do
  let s ← s.dropKey
  let r ← readBlock literal s.indent s.cursor
  return { s.push (.scalar r.text false) s.mark with keyAllowed := true, cursor := r.cursor }

/-- A quoted scalar. -/
def fetchQuoted (s : Tokenizer) : Except Fault Tokenizer := do
  let s ← s.saveKey
  let r ← readQuoted s.cursor
  return { s.push (.scalar r.text false) s.mark with keyAllowed := false, cursor := r.cursor }

/-- A plain scalar.  After one that ended with a line a key may begin. -/
def fetchPlain (s : Tokenizer) : Except Fault Tokenizer := do
  let s ← s.saveKey
  let r ← readPlain s.inFlow (s.indent + 1).toNat s.cursor
  return { s.push (.scalar r.text true) s.mark with keyAllowed := r.broken, cursor := r.cursor }

/-- Whether a plain scalar may begin at the cursor. -/
def startsPlain (s : Tokenizer) : Bool :=
  let c := s.cursor.next
  let d := s.cursor.peek 1
  let reserved := ['-', '?', ':', ',', '[', ']', '\x7b', '\x7d', '#', '&', '*', '!', '|', '>',
    '\'', '"', '%', '@', '`']
  !(isBlankOrEnd c || reserved.contains c) || (c == '-' && !isSpace d) ||
    (!s.inFlow && (c == '?' || c == ':') && !isBlankOrEnd d)

/-- Reads the next token, and with it the ends of block collections before it. -/
def fetchNext (s : Tokenizer) : Except Fault Tokenizer := do
  if !s.started then return s.fetchStreamStart
  let s ← (skipBlanks (s.cursor.rest.length + 1) s).dropStaleKeys
  let s := s.unrollIndent s.mark.column
  let c := s.cursor.next
  let blankAfter := isBlankOrEnd (s.cursor.peek 1)
  if c = endChar then s.fetchStreamEnd
  else if s.mark.column = 0 ∧ c = '%' then s.fetchDirective
  else if s.cursor.atDocumentBound then
    s.fetchDocumentBound (if c = '-' then .documentStart else .documentEnd)
  else if c = '[' then s.fetchFlowStart .flowSequenceStart
  else if c = '\x7b' then s.fetchFlowStart .flowMappingStart
  else if c = ']' then s.fetchFlowEnd .flowSequenceEnd
  else if c = '\x7d' then s.fetchFlowEnd .flowMappingEnd
  else if c = ',' then s.fetchFlowEntry
  else if c = '-' ∧ blankAfter then s.fetchBlockEntry
  else if c = '?' ∧ (s.inFlow ∨ blankAfter) then s.fetchKey
  else if c = ':' ∧ (s.inFlow ∨ blankAfter) then s.fetchValue
  else if c = '*' then
    s.fetchProperty fun c => (readAnchor .alias c).map fun (n, c) => (.alias n, c)
  else if c = '&' then
    s.fetchProperty fun c => (readAnchor .anchor c).map fun (n, c) => (.anchor n, c)
  else if c = '!' then
    s.fetchProperty fun c => (readTag s.inFlow c).map fun (t, c) => (.tag t, c)
  else if (c = '|' ∨ c = '>') ∧ !s.inFlow then s.fetchBlockScalar (c = '|')
  else if c = '\'' ∨ c = '"' then s.fetchQuoted
  else if s.startsPlain then s.fetchPlain
  else throw (s.cursor.fault .strayCharacter .nextToken s.mark)

/-! ## Handing tokens out -/

/-- Reads on until a token can be handed out. -/
def fill : Nat → Tokenizer → Except Fault Tokenizer
  | 0, s => .ok s
  | fuel + 1, s =>
    if s.queue.isEmpty then s.fetchNext >>= fill fuel
    else do
      let s ← s.dropStaleKeys
      if s.keys.any fun k => k.any (·.number == s.taken) then s.fetchNext >>= fill fuel
      else return s

/-- The next token, which stays in the queue.  After the end of the stream there is only the end
again. -/
def peek (s : Tokenizer) : Except Fault (Token × Tokenizer) := do
  let s ← fill (s.cursor.rest.length + 4) s
  return (s.queue.headD ⟨.streamEnd, s.mark⟩, s)

/-- Hands out the token at the head of the queue. -/
def drop (s : Tokenizer) : Tokenizer :=
  { s with queue := s.queue.tail, taken := s.taken + 1 }

end Tokenizer

end Mosaic.Yaml
