import Mosaic.Yaml.Token

/-!
# YAML events

Events tell the structure of a YAML text: where documents, sequences and mappings begin and end,
and the scalars and aliases in them.  An `EventReader` makes them out of tokens, one at a time;
what it expects next is its `Expectation`, and what comes after the collection that is open is
on a stack.
-/

namespace Mosaic.Yaml

/-- What an event tells. -/
inductive EventKind where
  | streamStart
  | streamEnd
  | documentStart
  | documentEnd
  | alias (name : Text)
  | scalar (anchor : Option Text) (tag : Option Octets) (text : Text) (isPlain : Bool)
  | sequenceStart (anchor : Option Text) (tag : Option Octets)
  | sequenceEnd
  | mappingStart (anchor : Option Text) (tag : Option Octets)
  | mappingEnd
  deriving DecidableEq, Repr

/-- An event and the mark where it starts. -/
structure Event where
  kind : EventKind
  mark : Mark
  deriving DecidableEq, Repr

/-- What an event reader expects next. -/
inductive Expectation where
  | streamStart
  | documentStart (implicit : Bool)
  | documentContent
  | documentEnd
  | blockNode
  | blockSequenceEntry (isFirst : Bool)
  | indentlessSequenceEntry
  | blockMappingKey (isFirst : Bool)
  | blockMappingValue
  | flowSequenceEntry (isFirst : Bool)
  | flowPairKey
  | flowPairValue
  | flowPairEnd
  | flowMappingKey (isFirst : Bool)
  | flowMappingValue
  | flowMappingEmptyValue
  | nothing
  deriving DecidableEq, Repr

/-- A text that is being read as events. -/
structure EventReader where
  tokens : Tokenizer
  expected : Expectation := .streamStart
  /-- What is expected after the open collections, the innermost first. -/
  after : List Expectation := []
  /-- Where the open collections began, the innermost first. -/
  starts : List Mark := []
  /-- What the tag handles of the document stand for. -/
  handles : List (Text × Octets) := []
  deriving Repr

namespace EventReader

/-- The reader at the start of a text. -/
def ofText (t : Text) : EventReader :=
  { tokens := Tokenizer.ofText t }

/-- The next token. -/
def peek (r : EventReader) : Except Fault (Token × EventReader) := do
  let (t, s) ← r.tokens.peek
  return (t, { r with tokens := s })

/-- The reader after the next token. -/
def drop (r : EventReader) : EventReader :=
  { r with tokens := r.tokens.drop }

/-- The reader that goes on with what is expected after the present node. -/
def leave (r : EventReader) : EventReader :=
  { r with expected := r.after.headD .nothing, after := r.after.tail }

/-- The reader that goes on with what is expected after the present collection. -/
def leaveCollection (r : EventReader) : EventReader :=
  { r.leave with starts := r.starts.tail }

/-- Where the present collection began. -/
def start (r : EventReader) : Mark :=
  r.starts.headD {}

/-- An empty scalar at a mark. -/
def emptyScalar (mark : Mark) : Event :=
  ⟨.scalar none none [] true, mark⟩

/-- A problem at a token while something was being read. -/
def fault (problem : Problem) (mark : Mark) (activity : Activity) (start : Mark) : Fault :=
  { problem, mark, context := some (activity, start) }

/-! ## Documents -/

/-- Adds what a tag handle stands for. -/
def define (r : EventReader) (handle : Text) (stem : Octets) : EventReader :=
  { r with handles := r.handles ++ [(handle, stem)] }

/-- The handles that stand for something in every document. -/
def defaultHandles : List (Text × Octets) :=
  [(['!'], octets ['!']),
    (['!', '!'], octets "tag:yaml.org,2002:".toList)]

/-- The reader with the default handles that its document has not defined itself. -/
def withDefaults (r : EventReader) : EventReader :=
  { r with handles := r.handles ++
      defaultHandles.filter fun (h, _) => !r.handles.any (·.1 == h) }

/-- Reads the directives before a document. -/
def readDirectives : Nat → Bool → EventReader → Except Fault EventReader
  | 0, _, r => .ok r.withDefaults
  | fuel + 1, versioned, r => do
    let (t, r) ← r.peek
    match t.kind with
    | .directive (.version major minor) =>
      if versioned then throw { problem := .versionRepeated, mark := t.mark }
      if major ≠ 1 ∨ (minor ≠ 1 ∧ minor ≠ 2) then
        throw { problem := .versionIncompatible, mark := t.mark }
      readDirectives fuel true r.drop
    | .directive (.tag handle stem) =>
      if r.handles.any (·.1 == handle) then
        throw { problem := .tagDirectiveRepeated, mark := t.mark }
      readDirectives fuel versioned (r.define handle stem).drop
    | _ => return r.withDefaults

/-- Goes over the ends of documents. -/
def skipDocumentEnds : Nat → EventReader → Except Fault EventReader
  | 0, r => .ok r
  | fuel + 1, r => do
    let (t, r) ← r.peek
    if t.kind = .documentEnd then skipDocumentEnds fuel r.drop else return r

/-- The start of a document or the end of the stream.  The first document may start without a
mark of its own. -/
def documentStart (implicit : Bool) (r : EventReader) : Except Fault (Event × EventReader) := do
  let bound := r.tokens.cursor.rest.length + r.tokens.queue.length + 1
  let r ← if implicit then pure r else skipDocumentEnds bound r
  let (t, r) ← r.peek
  match t.kind with
  | .streamEnd => return (⟨.streamEnd, t.mark⟩, { r with expected := .nothing }.drop)
  | kind =>
    let explicit := match kind with
      | .directive _ => true
      | .documentStart => true
      | _ => !implicit
    let r ← readDirectives bound false r
    let r := { r with after := .documentEnd :: r.after }
    if !explicit then return (⟨.documentStart, t.mark⟩, { r with expected := .blockNode })
    let (d, r) ← r.peek
    if d.kind ≠ .documentStart then throw { problem := .documentStartMissing, mark := d.mark }
    return (⟨.documentStart, t.mark⟩, { r with expected := .documentContent }.drop)

/-- The end of a document, which may be marked. -/
def documentEnd (r : EventReader) : Except Fault (Event × EventReader) := do
  let (t, r) ← r.peek
  let r := if t.kind = .documentEnd then r.drop else r
  return (⟨.documentEnd, t.mark⟩, { r with expected := .documentStart false, handles := [] })

/-! ## Nodes -/

/-- The anchor and the tag before a node, in either order, with the mark of the tag. -/
structure Properties where
  anchor : Option Text := none
  tag : Option (TagName × Mark) := none

/-- Reads the anchor and the tag before a node. -/
def readProperties (r : EventReader) : Except Fault (Properties × EventReader) := do
  let (t, r) ← r.peek
  match t.kind with
  | .anchor name =>
    let (u, r) ← r.drop.peek
    match u.kind with
    | .tag tag => return (⟨some name, some (tag, u.mark)⟩, r.drop)
    | _ => return (⟨some name, none⟩, r)
  | .tag tag =>
    let (u, r) ← r.drop.peek
    match u.kind with
    | .anchor name => return (⟨some name, some (tag, t.mark)⟩, r.drop)
    | _ => return (⟨none, some (tag, t.mark)⟩, r)
  | _ => return ({}, r)

/-- The tag that a name in the text stands for. -/
def resolveTag (r : EventReader) (start : Mark) (tag : Option (TagName × Mark)) :
    Except Fault (Option Octets) :=
  match tag with
  | none => .ok none
  | some (⟨[], suffix⟩, _) => .ok (some suffix)
  | some (⟨handle, suffix⟩, mark) =>
    match r.handles.find? (·.1 == handle) with
    | some (_, stem) => .ok (some (stem ++ suffix))
    | none => .error (fault .tagHandleUndefined mark .node start)

/-- Reads a node.  A sequence in a mapping need not be indented. -/
def node (block indentless : Bool) (r : EventReader) : Except Fault (Event × EventReader) := do
  let (t, r) ← r.peek
  match t.kind with
  | .alias name => return (⟨.alias name, t.mark⟩, r.leave.drop)
  | _ =>
    let start := t.mark
    let (properties, r) ← r.readProperties
    let (u, r) ← r.peek
    let tag ← r.resolveTag start properties.tag
    let anchor := properties.anchor
    let sequence (next : Expectation) : Except Fault (Event × EventReader) :=
      .ok (⟨.sequenceStart anchor tag, start⟩, { r with expected := next })
    let mapping (next : Expectation) : Except Fault (Event × EventReader) :=
      .ok (⟨.mappingStart anchor tag, start⟩, { r with expected := next })
    let missing : Except Fault (Event × EventReader) :=
      if anchor.isSome ∨ tag.isSome then .ok (⟨.scalar anchor tag [] true, start⟩, r.leave)
      else .error (fault .nodeMissing u.mark (if block then .blockNode else .flowNode) start)
    match u.kind with
    | .scalar text isPlain =>
      let tag := if tag = some (octets ['!']) then none else tag
      return (⟨.scalar anchor tag text isPlain, start⟩, r.leave.drop)
    | .flowSequenceStart => sequence (.flowSequenceEntry true)
    | .flowMappingStart => mapping (.flowMappingKey true)
    | .blockEntry => if indentless then sequence .indentlessSequenceEntry else missing
    | .blockSequenceStart => if block then sequence (.blockSequenceEntry true) else missing
    | .blockMappingStart => if block then mapping (.blockMappingKey true) else missing
    | _ => missing

/-- Reads a node and expects `next` after it, unless one of the tokens `ends` shows that it is
empty; then `next` is expected at once. -/
def nodeUnless (ends : List TokenKind) (block indentless : Bool) (next : Expectation)
    (r : EventReader) (before : Option Mark) : Except Fault (Event × EventReader) := do
  let (t, r) ← r.peek
  if ends.contains t.kind then
    return (emptyScalar (before.getD t.mark), { r with expected := next })
  else node block indentless { r with after := next :: r.after }

/-- Reads the content of a document, which may be empty. -/
def documentContent (r : EventReader) : Except Fault (Event × EventReader) := do
  let (t, r) ← r.peek
  match t.kind with
  | .directive _ | .documentStart | .documentEnd | .streamEnd =>
    return (emptyScalar t.mark, r.leave)
  | _ => node true false r

/-- The reader inside a collection whose first token is next. -/
def enter (isFirst : Bool) (r : EventReader) : Except Fault EventReader :=
  if isFirst then do
    let (t, r) ← r.peek
    return { r with starts := t.mark :: r.starts }.drop
  else .ok r

/-! ## Block collections -/

/-- An entry of a block sequence, or its end. -/
def blockSequenceEntry (isFirst : Bool) (r : EventReader) :
    Except Fault (Event × EventReader) := do
  let r ← r.enter isFirst
  let (t, r) ← r.peek
  match t.kind with
  | .blockEntry =>
    nodeUnless [.blockEntry, .blockEnd] true false (.blockSequenceEntry false) r.drop t.mark
  | .blockEnd => return (⟨.sequenceEnd, t.mark⟩, r.leaveCollection.drop)
  | _ => throw (fault .dashMissing t.mark .blockCollection r.start)

/-- An entry of a sequence that is not indented, or its end. -/
def indentlessSequenceEntry (r : EventReader) : Except Fault (Event × EventReader) := do
  let (t, r) ← r.peek
  match t.kind with
  | .blockEntry =>
    nodeUnless [.blockEntry, .key, .value, .blockEnd] true false .indentlessSequenceEntry r.drop
      t.mark
  | _ => return (⟨.sequenceEnd, t.mark⟩, r.leave)

/-- A key of a block mapping, or its end. -/
def blockMappingKey (isFirst : Bool) (r : EventReader) : Except Fault (Event × EventReader) := do
  let r ← r.enter isFirst
  let (t, r) ← r.peek
  match t.kind with
  | .key => nodeUnless [.key, .value, .blockEnd] true true .blockMappingValue r.drop t.mark
  | .blockEnd => return (⟨.mappingEnd, t.mark⟩, r.leaveCollection.drop)
  | _ => throw (fault .keyMissing t.mark .blockMapping r.start)

/-- A value of a block mapping. -/
def blockMappingValue (r : EventReader) : Except Fault (Event × EventReader) := do
  let (t, r) ← r.peek
  match t.kind with
  | .value =>
    nodeUnless [.key, .value, .blockEnd] true true (.blockMappingKey false) r.drop t.mark
  | _ => return (emptyScalar t.mark, { r with expected := .blockMappingKey false })

/-! ## Flow collections -/

/-- The comma between two entries of a flow collection. -/
def comma (isFirst : Bool) (problem : Problem) (activity : Activity) (close : TokenKind)
    (r : EventReader) : Except Fault (Token × EventReader) := do
  let (t, r) ← r.peek
  if isFirst ∨ t.kind = close then return (t, r)
  else if t.kind = .flowEntry then r.drop.peek
  else throw (fault problem t.mark activity r.start)

/-- An entry of a flow sequence, or its end.  A key begins a mapping with one pair. -/
def flowSequenceEntry (isFirst : Bool) (r : EventReader) :
    Except Fault (Event × EventReader) := do
  let r ← r.enter isFirst
  let (t, r) ← r.comma isFirst .sequenceEndMissing .flowSequence .flowSequenceEnd
  match t.kind with
  | .flowSequenceEnd => return (⟨.sequenceEnd, t.mark⟩, r.leaveCollection.drop)
  | .key => return (⟨.mappingStart none none, t.mark⟩, { r with expected := .flowPairKey }.drop)
  | _ => node false false { r with after := .flowSequenceEntry false :: r.after }

/-- The key of a single pair.  Without a key the token that shows it is lost. -/
def flowPairKey (r : EventReader) : Except Fault (Event × EventReader) := do
  let (t, r) ← r.peek
  if [TokenKind.value, .flowEntry, .flowSequenceEnd].contains t.kind then
    return (emptyScalar t.mark, { r with expected := .flowPairValue }.drop)
  else node false false { r with after := .flowPairValue :: r.after }

/-- The value of a single pair. -/
def flowPairValue (r : EventReader) : Except Fault (Event × EventReader) := do
  let (t, r) ← r.peek
  match t.kind with
  | .value => nodeUnless [.flowEntry, .flowSequenceEnd] false false .flowPairEnd r.drop none
  | _ => return (emptyScalar t.mark, { r with expected := .flowPairEnd })

/-- The end of a single pair. -/
def flowPairEnd (r : EventReader) : Except Fault (Event × EventReader) := do
  let (t, r) ← r.peek
  return (⟨.mappingEnd, t.mark⟩, { r with expected := .flowSequenceEntry false })

/-- A key of a flow mapping, or its end. -/
def flowMappingKey (isFirst : Bool) (r : EventReader) : Except Fault (Event × EventReader) := do
  let r ← r.enter isFirst
  let (t, r) ← r.comma isFirst .mappingEndMissing .flowMapping .flowMappingEnd
  match t.kind with
  | .flowMappingEnd => return (⟨.mappingEnd, t.mark⟩, r.leaveCollection.drop)
  | .key =>
    nodeUnless [.value, .flowEntry, .flowMappingEnd] false false .flowMappingValue r.drop none
  | _ => node false false { r with after := .flowMappingEmptyValue :: r.after }

/-- A value of a flow mapping. -/
def flowMappingValue (r : EventReader) : Except Fault (Event × EventReader) := do
  let (t, r) ← r.peek
  match t.kind with
  | .value =>
    nodeUnless [.flowEntry, .flowMappingEnd] false false (.flowMappingKey false) r.drop none
  | _ => return (emptyScalar t.mark, { r with expected := .flowMappingKey false })

/-- The value of a key without a colon. -/
def flowMappingEmptyValue (r : EventReader) : Except Fault (Event × EventReader) := do
  let (t, r) ← r.peek
  return (emptyScalar t.mark, { r with expected := .flowMappingKey false })

/-! ## One event -/

/-- The next event. -/
def next (r : EventReader) : Except Fault (Event × EventReader) :=
  match r.expected with
  | .streamStart => do
    let (t, r) ← r.peek
    return (⟨.streamStart, t.mark⟩, { r with expected := .documentStart true }.drop)
  | .documentStart implicit => r.documentStart implicit
  | .documentContent => r.documentContent
  | .documentEnd => r.documentEnd
  | .blockNode => r.node true false
  | .blockSequenceEntry isFirst => r.blockSequenceEntry isFirst
  | .indentlessSequenceEntry => r.indentlessSequenceEntry
  | .blockMappingKey isFirst => r.blockMappingKey isFirst
  | .blockMappingValue => r.blockMappingValue
  | .flowSequenceEntry isFirst => r.flowSequenceEntry isFirst
  | .flowPairKey => r.flowPairKey
  | .flowPairValue => r.flowPairValue
  | .flowPairEnd => r.flowPairEnd
  | .flowMappingKey isFirst => r.flowMappingKey isFirst
  | .flowMappingValue => r.flowMappingValue
  | .flowMappingEmptyValue => r.flowMappingEmptyValue
  | .nothing => .ok (⟨.streamEnd, r.tokens.mark⟩, r)

end EventReader

end Mosaic.Yaml
