/-!
# What is wrong with a YAML text

A `Fault` names a problem, the mark where it was found, and what was being read at that point,
with the mark where that began.  `Fault.message` puts it into words.
-/

namespace Mosaic.Yaml

/-- A place in a text: its byte offset, its line, and how many characters of the line come before
it. -/
structure Mark where
  index : Nat := 0
  line : Nat := 0
  column : Nat := 0
  deriving DecidableEq, Repr, Inhabited

namespace Mark

/-- Whether a mark is at the very beginning, where messages leave it out. -/
def isOrigin (m : Mark) : Bool :=
  m.line == 0 && m.column == 0

/-- Whether two marks show the same line and column. -/
def samePlace (m n : Mark) : Bool :=
  m.line == n.line && m.column == n.column

/-- A mark in words, counted from one. -/
def words (m : Mark) : String :=
  s!"line {m.line + 1} column {m.column + 1}"

/-- The words that place a message, nothing at the very beginning. -/
def placing (m : Mark) : String :=
  if m.isOrigin then "" else " at " ++ m.words

end Mark

/-- What can be wrong. -/
inductive Problem where
  | controlCharacter
  | colonMissing
  | sequenceEntryNotAllowed
  | keyNotAllowed
  | valueNotAllowed
  | strayCharacter
  | directiveNameMissing
  | directiveNameCharacter
  | directiveUnknown
  | lineEndMissing
  | versionDigitMissing
  | versionMissing
  | versionTooLong
  | bangMissing
  | spaceMissing
  | spaceOrBreakMissing
  | anchorNameMissing
  | angleMissing
  | tagUriMissing
  | escapedOctetMissing
  | leadingOctetIncorrect
  | trailingOctetIncorrect
  | zeroIndentation
  | tabForIndentation
  | tabViolatesIndentation
  | documentIndicator
  | streamEnd
  | unknownEscape
  | hexDigitMissing
  | invalidCodePoint
  | unexpectedColon
  | documentStartMissing
  | tagHandleUndefined
  | nodeMissing
  | dashMissing
  | keyMissing
  | sequenceEndMissing
  | mappingEndMissing
  | versionRepeated
  | versionIncompatible
  | tagDirectiveRepeated
  deriving DecidableEq, Repr

/-- A problem in words. -/
def Problem.words : Problem → String
  | .controlCharacter => "control characters are not allowed"
  | .colonMissing => "could not find expected ':'"
  | .sequenceEntryNotAllowed => "block sequence entries are not allowed in this context"
  | .keyNotAllowed => "mapping keys are not allowed in this context"
  | .valueNotAllowed => "mapping values are not allowed in this context"
  | .strayCharacter => "found character that cannot start any token"
  | .directiveNameMissing => "could not find expected directive name"
  | .directiveNameCharacter => "found unexpected non-alphabetical character"
  | .directiveUnknown => "found unknown directive name"
  | .lineEndMissing => "did not find expected comment or line break"
  | .versionDigitMissing => "did not find expected digit or '.' character"
  | .versionMissing => "did not find expected version number"
  | .versionTooLong => "found extremely long version number"
  | .bangMissing => "did not find expected '!'"
  | .spaceMissing => "did not find expected whitespace"
  | .spaceOrBreakMissing => "did not find expected whitespace or line break"
  | .anchorNameMissing => "did not find expected alphabetic or numeric character"
  | .angleMissing => "did not find the expected '>'"
  | .tagUriMissing => "did not find expected tag URI"
  | .escapedOctetMissing => "did not find URI escaped octet"
  | .leadingOctetIncorrect => "found an incorrect leading UTF-8 octet"
  | .trailingOctetIncorrect => "found an incorrect trailing UTF-8 octet"
  | .zeroIndentation => "found an indentation indicator equal to 0"
  | .tabForIndentation => "found a tab character where an indentation space is expected"
  | .tabViolatesIndentation => "found a tab character that violates indentation"
  | .documentIndicator => "found unexpected document indicator"
  | .streamEnd => "found unexpected end of stream"
  | .unknownEscape => "found unknown escape character"
  | .hexDigitMissing => "did not find expected hexadecimal number"
  | .invalidCodePoint => "found invalid Unicode character escape code"
  | .unexpectedColon => "found unexpected ':'"
  | .documentStartMissing => "did not find expected <document start>"
  | .tagHandleUndefined => "found undefined tag handle"
  | .nodeMissing => "did not find expected node content"
  | .dashMissing => "did not find expected '-' indicator"
  | .keyMissing => "did not find expected key"
  | .sequenceEndMissing => "did not find expected ',' or ']'"
  | .mappingEndMissing => "did not find expected ',' or '\x7d'"
  | .versionRepeated => "found duplicate %YAML directive"
  | .versionIncompatible => "found incompatible YAML document"
  | .tagDirectiveRepeated => "found duplicate %TAG directive"

/-- What was being read when a problem was found. -/
inductive Activity where
  | nextToken
  | simpleKey
  | directive
  | versionDirective
  | tagDirective
  | tagDirectiveHandle
  | tagDirectiveHandleEnd
  | tagDirectiveUri
  | tag
  | tagUri
  | anchor
  | alias
  | blockScalar
  | quotedScalar
  | quotedEscape
  | plainScalar
  | node
  | blockNode
  | flowNode
  | blockCollection
  | blockMapping
  | flowSequence
  | flowMapping
  deriving DecidableEq, Repr

/-- An activity in words. -/
def Activity.words : Activity → String
  | .nextToken => "while scanning for the next token"
  | .simpleKey => "while scanning a simple key"
  | .directive => "while scanning a directive"
  | .versionDirective => "while scanning a %YAML directive"
  | .tagDirective => "while scanning a %TAG directive"
  | .tagDirectiveHandle => "while scanning a tag directive"
  | .tagDirectiveHandleEnd => "while parsing a tag directive"
  | .tagDirectiveUri => "while parsing a %TAG directive"
  | .tag => "while scanning a tag"
  | .tagUri => "while parsing a tag"
  | .anchor => "while scanning an anchor"
  | .alias => "while scanning an alias"
  | .blockScalar => "while scanning a block scalar"
  | .quotedScalar => "while scanning a quoted scalar"
  | .quotedEscape => "while parsing a quoted scalar"
  | .plainScalar => "while scanning a plain scalar"
  | .node => "while parsing a node"
  | .blockNode => "while parsing a block node"
  | .flowNode => "while parsing a flow node"
  | .blockCollection => "while parsing a block collection"
  | .blockMapping => "while parsing a block mapping"
  | .flowSequence => "while parsing a flow sequence"
  | .flowMapping => "while parsing a flow mapping"

/-- A problem in its place. -/
structure Fault where
  problem : Problem
  mark : Mark
  /-- What was being read, and where that began. -/
  context : Option (Activity × Mark) := none
  /-- The byte offset of a character that may not occur at all, which has no mark. -/
  byte : Nat := 0
  deriving DecidableEq, Repr

namespace Fault

/-- Where the problem is, in words. -/
def placing (f : Fault) : String :=
  if f.mark.isOrigin ∧ f.byte ≠ 0 then " at position " ++ toString f.byte else f.mark.placing

/-- A fault in words: the problem, its place, what was being read, and where that began if it
was elsewhere. -/
def message (f : Fault) : String :=
  f.problem.words ++ f.placing ++
    match f.context with
    | none => ""
    | some (activity, start) =>
      ", " ++ activity.words ++ if start.samePlace f.mark then "" else start.placing

end Fault

end Mosaic.Yaml
