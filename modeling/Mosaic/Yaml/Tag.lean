import Mosaic.Yaml.Cursor

/-!
# Tags, anchors and directives

The parts of a YAML text that begin with `!`, `&`, `*` or `%`.  A tag is a string of octets, as
its URI may hold escaped ones; a null octet ends it.
-/

namespace Mosaic.Yaml

/-- A string of octets. -/
abbrev Octets := List UInt8

/-- The octets of an ASCII text. -/
def octets (t : Text) : Octets :=
  t.map fun c => UInt8.ofNat c.toNat

/-! ## Anchors -/

/-- Reads the name after the indicator of an anchor or alias. -/
def readAnchor (activity : Activity) (c : Cursor) : Except Fault (Text × Cursor) :=
  let start := c.mark
  let (name, c) := (c.move 1).readWhile isNameChar
  if name.isEmpty ∨
      ¬(isBlankOrEnd c.next || ['?', ':', ',', ']', '\x7d', '%', '@', '`'].contains c.next) then
    .error (c.fault .anchorNameMissing activity start)
  else .ok (name, c)

/-! ## Tags -/

/-- Where a tag occurs. -/
inductive TagPlace where
  | node
  | directive
  deriving DecidableEq, Repr

/-- Reads a tag handle: `!`, a name, and in a directive another `!` unless the name is empty.
In a node the second `!` may be missing. -/
def readTagHandle (place : TagPlace) (start : Mark) (c : Cursor) : Except Fault (Text × Cursor) :=
  if c.next ≠ '!' then
    .error (c.fault .bangMissing (if place = .directive then .tagDirectiveHandle else .tag) start)
  else
    let (name, c) := (c.move 1).readWhile isNameChar
    if c.next = '!' then .ok ('!' :: name ++ ['!'], c.move 1)
    else if place = .directive ∧ !name.isEmpty then
      .error (c.fault .bangMissing .tagDirectiveHandleEnd start)
    else .ok ('!' :: name, c)

/-- The characters of a URI in a tag.  Commas and brackets belong to it in a directive and
between angle brackets only. -/
def isUriChar (verbatim : Bool) (c : Char) : Bool :=
  isNameChar c ||
    [';', '/', '?', ':', '@', '&', '=', '+', '$', '.', '%', '!', '~', '*', '\'', '(', ')'].contains
      c ||
    (verbatim && [',', '[', ']'].contains c)

/-- How many octets the UTF-8 sequence has that begins with the given one. -/
def sequenceLength (octet : Nat) : Nat :=
  if octet < 0x80 then 1
  else if octet / 0x20 = 6 then 2
  else if octet / 0x10 = 14 then 3
  else if octet / 0x08 = 30 then 4
  else 0

/-- An octet written as `%` and two hexadecimal digits. -/
def escapedOctet? (c : Cursor) : Option Nat :=
  if c.next = '%' ∧ isHexDigit (c.peek 1) ∧ isHexDigit (c.peek 2) then
    some (hexValue (c.peek 1) * 16 + hexValue (c.peek 2))
  else none

/-- Reads `n` escaped octets that continue a UTF-8 sequence. -/
def readTrailingOctets (activity : Activity) (start : Mark) :
    Nat → Cursor → Except Fault (Octets × Cursor)
  | 0, c => .ok ([], c)
  | n + 1, c =>
    match escapedOctet? c with
    | none => .error (c.fault .escapedOctetMissing activity start)
    | some octet =>
      if octet / 0x40 ≠ 2 then .error (c.fault .trailingOctetIncorrect activity start)
      else do
        let (os, c) ← readTrailingOctets activity start n (c.move 3)
        return (UInt8.ofNat octet :: os, c)

/-- Reads the escaped octets of one UTF-8 sequence. -/
def readEscapedOctets (activity : Activity) (start : Mark) (c : Cursor) :
    Except Fault (Octets × Cursor) :=
  match escapedOctet? c with
  | none => .error (c.fault .escapedOctetMissing activity start)
  | some octet =>
    if sequenceLength octet = 0 then .error (c.fault .leadingOctetIncorrect activity start)
    else do
      let (os, c) ← readTrailingOctets activity start (sequenceLength octet - 1) (c.move 3)
      return (UInt8.ofNat octet :: os, c)

/-- Reads the characters of a URI. -/
def readUriChars (verbatim : Bool) (activity : Activity) (start : Mark) :
    Nat → Cursor → Except Fault (Octets × Cursor)
  | 0, c => .ok ([], c)
  | fuel + 1, c =>
    if !isUriChar verbatim c.next then .ok ([], c)
    else do
      let (os, c) ← if c.next = '%' then readEscapedOctets activity start c
        else pure (octets [c.next], c.move 1)
      let (more, c) ← readUriChars verbatim activity start fuel c
      return (os ++ more, c)

/-- Reads the URI of a tag after `head`, whose first character does not belong to the URI.  The
two together may not be empty. -/
def readTagUri (place : TagPlace) (verbatim : Bool) (head : Text) (start : Mark) (c : Cursor) :
    Except Fault (Octets × Cursor) := do
  let activity := if place = .directive then Activity.tagDirectiveUri else .tagUri
  let (os, d) ← readUriChars verbatim activity start (c.rest.length + 1) c
  if head.isEmpty ∧ os.isEmpty then throw (d.fault .tagUriMissing activity start)
  return ((octets head.tail ++ os).takeWhile (· ≠ 0), d)

/-- A tag as written: a handle and what follows it.  Without a handle the tag stands as it is. -/
structure TagName where
  handle : Text
  suffix : Octets
  deriving DecidableEq, Repr

/-- Reads a tag. -/
def readTag (inFlow : Bool) (c : Cursor) : Except Fault (TagName × Cursor) := do
  let start := c.mark
  let (tag, c) ←
    if c.peek 1 = '<' then do
      let (uri, c) ← readTagUri .node true [] start (c.move 2)
      if c.next ≠ '>' then throw (c.fault .angleMissing .tag start)
      pure ((⟨[], uri⟩ : TagName), c.move 1)
    else do
      let (handle, c) ← readTagHandle .node start c
      if handle.length > 1 ∧ handle.getLast? = some '!' then
        let (suffix, c) ← readTagUri .node false [] start c
        pure (⟨handle, suffix⟩, c)
      else
        let (suffix, c) ← readTagUri .node false handle start c
        pure (if suffix.isEmpty then ⟨[], octets ['!']⟩ else ⟨['!'], suffix⟩, c)
  if isBlankOrEnd c.next ∨ (inFlow ∧ c.next = ',') then return (tag, c)
  else throw (c.fault .spaceOrBreakMissing .tag start)

/-! ## Directives -/

/-- A directive. -/
inductive Directive where
  /-- The version of YAML. -/
  | version (major minor : Nat)
  /-- What a tag handle stands for. -/
  | tag (handle : Text) (stem : Octets)
  deriving DecidableEq, Repr

/-- Reads one of the two numbers of a version, of nine digits at most. -/
def readVersionNumber (start : Mark) (c : Cursor) : Except Fault (Nat × Cursor) :=
  let digits := c.rest.takeWhile Char.isDigit
  if digits.length > 9 then .error ((c.move 9).fault .versionTooLong .versionDirective start)
  else if digits.isEmpty then .error (c.fault .versionMissing .versionDirective start)
  else .ok (digits.foldl (fun n d => n * 10 + hexValue d) 0, c.move digits.length)

/-- Reads the version that a directive tells. -/
def readVersion (start : Mark) (c : Cursor) : Except Fault (Directive × Cursor) := do
  let (major, c) ← readVersionNumber start (c.skipWhile isSpace)
  if c.next ≠ '.' then throw (c.fault .versionDigitMissing .versionDirective start)
  let (minor, c) ← readVersionNumber start (c.move 1)
  return (.version major minor, c)

/-- Reads the handle that a directive defines, and what it stands for. -/
def readTagDefinition (start : Mark) (c : Cursor) : Except Fault (Directive × Cursor) := do
  let (handle, c) ← readTagHandle .directive start (c.skipWhile isSpace)
  if !isSpace c.next then throw (c.fault .spaceMissing .tagDirective start)
  let (stem, c) ← readTagUri .directive true [] start (c.skipWhile isSpace)
  if !isBlankOrEnd c.next then throw (c.fault .spaceOrBreakMissing .tagDirective start)
  return (.tag handle stem, c)

/-- Reads a directive with the rest of its line. -/
def readDirective (c : Cursor) : Except Fault (Directive × Cursor) := do
  let start := c.mark
  let (name, c) := (c.move 1).readWhile isNameChar
  if name.isEmpty then throw (c.fault .directiveNameMissing .directive start)
  if !isBlankOrEnd c.next then throw (c.fault .directiveNameCharacter .directive start)
  let (directive, c) ←
    if name = ['Y', 'A', 'M', 'L'] then readVersion start c
    else if name = ['T', 'A', 'G'] then readTagDefinition start c
    else throw (c.fault .directiveUnknown .directive start)
  let c ← c.endOfLine .directive start
  return (directive, c)

end Mosaic.Yaml
