import Mosaic.Region.Basic
import Mosaic.Markup.Cursor

/-!
# Finding the regions of a component file

One pass over the markup tokens finds the regions: the content of the top-level template
element, the content of `<style>` and `<script>` elements, the values of `style` and `on…`
attributes, and a metadata block between dashes in the text outside every element.

* `Phase` says where the pass stands with respect to the template element, `ScanState` adds what
  it remembers of the open elements and of the attributes read last.
* `ScanState.step` takes one token and yields the regions it completes.
* `scan` runs over all tokens of a text.

Nothing is refused: markup that is broken off or malformed yields the regions that can be told.
-/

namespace Mosaic

/-- How regions are recognised. -/
structure ScanOptions where
  /-- The tag of the top-level template element. -/
  templateTag : String := "html"
  /-- The language of that element's content. -/
  templateLanguage : String := Mosaic.templateLanguage
  /-- The language of a `<script>` that names none. -/
  scriptLanguage : ScriptLanguage := .js
  deriving DecidableEq, Repr, Inhabited

namespace Scan

/-! ## The spans of single regions -/

/-- The text between two equal quotes. -/
def quoted? (t : Text) : Option Text :=
  match t with
  | q :: r =>
    if (q = '"' ∨ q = '\'') ∧ r.getLast? = some q then some r.dropLast else none
  | [] => none

/-- The text without the quotes around it. -/
def unquote (t : Text) : Text :=
  (quoted? t).getD t

/-- The value of a `lang` attribute: without quotes and white space, in lower case. -/
def langValue (value : Text) : String :=
  String.ofList (Text.lower (Text.trim (unquote value)))

/-- The block from `start` to `stop` without the white space at either end. -/
def trimmedBlock (source : Text) (language : String) (start stop : Nat) : Region :=
  let stop := max start stop
  let inner := Text.slice start stop source
  let first := start + Text.bytes (inner.takeWhile isBlank)
  let last := stop - Text.bytes (inner.reverse.takeWhile isBlank)
  .block language first (max first last)

/-- The metadata block in a run of loose text: what stands between its dashes, if it starts and
ends with three of them and holds anything else. -/
def metadataBlock? (start : Nat) (run : Text) : Option Region :=
  let inner := Text.trim run
  let opening := (inner.takeWhile (· == '-')).length
  let closing := (inner.reverse.takeWhile (· == '-')).length
  if opening < 3 ∨ closing < 3 ∨ opening = inner.length then none
  else
    let first := start + Text.bytes (run.takeWhile isBlank)
    some (.block metadataLanguage (first + opening) (first + Text.bytes inner - closing))

/-- The language in which the value of an attribute is written, if it is code at all. -/
def attributeLanguage? (options : ScanOptions) (name : Text) : Option String :=
  if Text.sameIgnoringCase name ['s', 't', 'y', 'l', 'e'] then some (styleLanguage none)
  else if Text.startsIgnoringCase ['o', 'n'] name ∧ name.length > 2 then
    some options.scriptLanguage.id
  else none

/-- The region of an attribute value: code in quotes that is not empty and stays on its line. -/
def attributeRegion? (options : ScanOptions) (name : Text) (value : Markup.Token) :
    Option Region :=
  match attributeLanguage? options name, quoted? value.text with
  | some language, some inner =>
    if inner.isEmpty ∨ '\n' ∈ inner ∨ '\r' ∈ inner then none
    else some (.ofAttribute language (value.start + 1) (value.stop - 1))
  | _, _ => none

/-- Whether a text closes the element `name`: white space, the name in any letter case, and no
further character of a name. -/
def closesElement (name : Text) (t : Text) : Bool :=
  let t := Text.trimStart t
  Text.startsIgnoringCase name t && !(t.drop name.length).head?.any Markup.isNameChar

/-- Whether a text starts with an end tag for `name`, white space before the name allowed. -/
def startsWithEndTag (name : Text) : Text → Bool
  | '<' :: '/' :: r => closesElement name r
  | _ => false

/-- The byte offset of the first end tag for `name` in loose text. -/
def endTagOffset? (name : Text) (t : Text) : Option Nat :=
  let (before, after) := Text.breakAt (startsWithEndTag name) t
  if after.isEmpty then none else some (Text.bytes before)

end Scan

/-! ## One pass over the tokens -/

/-- Where a pass stands with respect to the template element. -/
inductive Phase where
  /-- Outside the template element. -/
  | outside
  /-- In the start tag of the template element, which has the given name. -/
  | opening (tag : Text)
  /-- In the content of the template element, which starts at `start`.  There are `nested` open
  elements of the same name, and `sameName` says whether the start tag being read has it. -/
  | inside (tag : Text) (start nested : Nat) (sameName : Bool)
  deriving DecidableEq, Repr

/-- What a pass over the tokens remembers. -/
structure ScanState where
  phase : Phase := .outside
  /-- How many elements are open. -/
  depth : Nat := 0
  /-- The name of the attribute just read. -/
  name : Option Text := none
  /-- What the start tag just read says about its language. -/
  lang : Option String := none
  /-- The loose text just read outside every element, with the offset where it starts. -/
  run : Option (Nat × Text) := none
  templateSeen : Bool := false
  metadataSeen : Bool := false
  deriving Repr

namespace ScanState

open Scan Markup

/-- The end of a run of loose text, which may be the metadata block. -/
def endRun (s : ScanState) : ScanState × List Region :=
  match s.run with
  | none => (s, [])
  | some (start, text) =>
    if s.metadataSeen then ({ s with run := none }, [])
    else
      match metadataBlock? start text with
      | none => ({ s with run := none }, [])
      | some r => ({ s with run := none, metadataSeen := true }, [r])

/-- Adds a token to the run of loose text. -/
def extendRun (s : ScanState) (t : Token) : ScanState :=
  match s.run with
  | none => { s with run := some (t.start, t.text) }
  | some (start, text) => { s with run := some (start, text ++ t.text) }

/-- A token outside the template element, loose text outside every element apart. -/
def stepOutside (options : ScanOptions) (s : ScanState) (t : Token) : ScanState × List Region :=
  match t.kind with
  | .startTag =>
    let s := { s with name := none, lang := none }
    if s.depth = 0 ∧ ¬s.templateSeen ∧
        Text.sameIgnoringCase t.text options.templateTag.toList then
      ({ s with phase := .opening t.text, templateSeen := true }, [])
    else ({ s with depth := s.depth + 1 }, [])
  | .attributeName => ({ s with name := some t.text }, [])
  | .attributeValue =>
    match s.name with
    | none => (s, [])
    | some name =>
      let s := { s with name := none }
      if Text.sameIgnoringCase name ['l', 'a', 'n', 'g'] then
        ({ s with lang := some (langValue t.text) }, [])
      else (s, (attributeRegion? options name t).toList)
  | .startTagClose => ({ s with name := none }, [])
  | .startTagSelfClose =>
    ({ s with depth := s.depth - 1, name := none, lang := none }, [])
  | .endTag => ({ s with depth := s.depth - 1, lang := none }, [])
  | .styles =>
    ({ s with lang := none }, [.block (styleLanguage s.lang) t.start t.stop])
  | .script =>
    ({ s with lang := none },
      [.block (scriptLanguage s.lang options.scriptLanguage) t.start t.stop])
  | .endTagClose | .other => (s, [])

/-- A token in the start tag of the template element. -/
def stepOpening (s : ScanState) (tag : Text) (t : Token) : ScanState × List Region :=
  match t.kind with
  | .startTagClose => ({ s with phase := .inside tag t.stop 0 false }, [])
  | .startTagSelfClose => ({ s with phase := .outside }, [])
  | _ => (s, [])

/-- The offset of an end tag for the template element in text that is not markup to the
tokenizer: loose text other than a comment, or raw content whose own end tag never came. -/
def looseEndTag? (source : Text) (tag : Text) (t : Token) : Option Nat :=
  match t.kind with
  | .other =>
    if ['<', '!', '-', '-'].isPrefixOf t.text then none else endTagOffset? tag t.text
  | .styles | .script =>
    if t.stop = Text.bytes source then endTagOffset? tag t.text else none
  | _ => none

/-- An end tag for the template element at host offset `stop`: it closes the innermost nested
element of that name, or the template itself. -/
def closeTemplate (options : ScanOptions) (source : Text) (s : ScanState)
    (tag : Text) (start nested : Nat) (sameName : Bool) (stop : Nat) : ScanState × List Region :=
  match nested with
  | 0 =>
    ({ s with phase := .outside }, [trimmedBlock source options.templateLanguage start stop])
  | n + 1 => ({ s with phase := .inside tag start n sameName }, [])

/-- A token in the content of the template element. -/
def stepInside (options : ScanOptions) (source : Text) (s : ScanState)
    (tag : Text) (start nested : Nat) (sameName : Bool) (t : Token) : ScanState × List Region :=
  match t.kind with
  | .startTag =>
    if Text.sameIgnoringCase t.text tag then
      ({ s with phase := .inside tag start (nested + 1) true }, [])
    else ({ s with phase := .inside tag start nested false }, [])
  | .startTagSelfClose =>
    let nested := if sameName then nested - 1 else nested
    ({ s with phase := .inside tag start nested false }, [])
  | .startTagClose => ({ s with phase := .inside tag start nested false }, [])
  | .endTag =>
    if Text.sameIgnoringCase t.text tag then
      closeTemplate options source s tag start nested sameName (t.start - 2)
    else (s, [])
  | .other | .styles | .script =>
    match looseEndTag? source tag t with
    | some offset => closeTemplate options source s tag start nested sameName (t.start + offset)
    | none => (s, [])
  | _ => (s, [])

/-- One token: what is remembered after it, and the regions that it completes. -/
def step (options : ScanOptions) (source : Text) (s : ScanState) (t : Token) :
    ScanState × List Region :=
  match s.phase with
  | .outside =>
    if t.kind = .other ∧ s.depth = 0 then (s.extendRun t, [])
    else
      let (s, metadata) := s.endRun
      let (s, found) := s.stepOutside options t
      (s, metadata ++ found)
  | .opening tag => s.stepOpening tag t
  | .inside tag start nested sameName =>
    s.stepInside options source tag start nested sameName t

/-- The regions that a list of tokens yields. -/
def regions (options : ScanOptions) (source : Text) : ScanState → List Token → List Region
  | s, [] => s.endRun.2
  | s, t :: ts =>
    let (s, found) := s.step options source t
    found ++ regions options source s ts

end ScanState

/-- The regions of a text, in ascending order. -/
def scan (options : ScanOptions) (source : Text) : List Region :=
  ScanState.regions options source {} (Markup.tokens source)

end Mosaic
