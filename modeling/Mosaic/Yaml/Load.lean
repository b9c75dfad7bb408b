import Mosaic.Unicode.Printable
import Mosaic.Yaml.Document
import Mosaic.Yaml.Value

/-!
# Loading a YAML text

`Yaml.load` reads a text that holds one document and returns the value of its node.  What can go
wrong is a `LoadError`: the text breaks off, a value is not what its tag says, two keys of a
mapping are the same value, or the nodes lead too deep or too often to the same anchors.
`LoadError.message` says it in words, and `LoadError.mark?` tells where.

This and all that it reads with stands in for the library that a server reads YAML with, so that it
can be run (`Yaml.reader`).  What is proved of the adapter for metadata is proved for any reader
(`Metadata.Reader`) and does not depend on it.
-/

namespace Mosaic.Yaml

/-- The way from the root of a document to a node. -/
inductive Path where
  | root
  | item (parent : Path) (index : Nat)
  | entry (parent : Path) (key : Text)
  /-- The value of a key that is not a scalar. -/
  | unnamed (parent : Path)
  deriving Repr

namespace Path

/-- What stands before the last part of a path. -/
def lead : Path → String → String
  | .root, _ => ""
  | _, words => words ++ "."

/-- A path in words. -/
def words : Path → String
  | .root => "."
  | .item parent index => s!"{parent.words}[{index}]"
  | .entry parent key => lead parent parent.words ++ String.ofList key
  | .unnamed parent => lead parent parent.words ++ "?"

end Path

/-- What is wrong with a node. -/
inductive NodeError where
  | repeatedKey (key : Value)
  | emptyTag
  /-- The scalar is not of the kind that its tag says. -/
  | wrongKind (text : Text) (kind : String)
  /-- The integer has more than 64 bits. -/
  | longInteger (n : Int)
  deriving Repr

/-- How a key is shown. -/
def showKey : Value → String
  | .null => "with null key"
  | .bool b => s!"with key `{b}`"
  | .number n => s!"with key {n.format}"
  | .str t => "with key " ++ quotedText (String.ofList t)
  | .seq _ | .map _ | .tagged _ _ => "in YAML map"

/-- What is wrong with a node, in words. -/
def NodeError.words : NodeError → String
  | .repeatedKey key => "duplicate entry " ++ showKey key
  | .emptyTag => "empty YAML tag is not allowed"
  | .wrongKind text kind =>
    s!"invalid value: string {quotedText (String.ofList text)}, expected {kind}"
  | .longInteger n =>
    let width := if n < 0 then "i128" else "u128"
    s!"invalid type: integer `{n}` as {width}, expected any YAML value"

/-- Why a text cannot be loaded. -/
inductive LoadError where
  | fault (f : Fault)
  | node (e : NodeError) (mark : Mark) (path : Path)
  | unknownAnchor (mark : Mark)
  /-- Collections are nested too deep. -/
  | tooDeep (mark : Mark)
  /-- Aliases are followed too often. -/
  | tooManyAliases
  | noDocument
  | severalDocuments
  deriving Repr

namespace LoadError

/-- Where an error is, if it is anywhere. -/
def mark? : LoadError → Option Mark
  | .fault f => some f.mark
  | .node _ mark _ => some mark
  | .unknownAnchor mark => some mark
  | .tooDeep mark => some mark
  | .tooManyAliases | .noDocument | .severalDocuments => none

/-- The words that say which node an error is about. -/
def subject (path : Path) : String :=
  if path.words = "." then "" else path.words ++ ": "

/-- An error in words. -/
def message : LoadError → String
  | .fault f => f.message
  | .node e mark path => subject path ++ e.words ++ mark.placing
  | .unknownAnchor mark => "unknown anchor" ++ mark.placing
  | .tooDeep mark => "recursion limit exceeded" ++ mark.placing
  | .tooManyAliases => "repetition limit exceeded"
  | .noDocument => "EOF while parsing a value"
  | .severalDocuments =>
    "deserializing from YAML containing more than one document is not supported"

/-- The error that a breakage is. -/
def ofBreakage : Breakage → LoadError
  | .fault f => .fault f
  | .unknownAnchor mark => .unknownAnchor mark

end LoadError

/-! ## From events to values -/

/-- Where a load stands among the events, and how many aliases it has followed. -/
structure LoadState where
  position : Nat := 0
  jumps : Nat := 0

/-- The tags that say what kind of scalar follows, with the words for the kind. -/
def kindTag? (tag : Octets) : Option String :=
  ["bool", "int", "float", "null"].find? fun kind =>
    octets ("tag:yaml.org,2002:".toList ++ kind.toList) == tag

/-- The name in a tag of the document's own, if it is a text. -/
def ownTag? (tag : Option Octets) : Option Octets :=
  match tag with
  | some (33 :: name) => if ByteArray.validateUTF8 ⟨name.toArray⟩ then some name else none
  | _ => none

/-- The value of a scalar whose tag says its kind. -/
def taggedScalar (kind : String) (text : Text) : Except NodeError Value :=
  if kind = "bool" then
    match Value.bool? text with
    | some b => .ok (.bool b)
    | none => .error (.wrongKind text "a boolean")
  else if kind = "int" then
    match Value.integer? text with
    | some i => (Value.ofInteger i).mapError .longInteger
    | none => .error (.wrongKind text "an integer")
  else if kind = "float" then
    match Value.float? text with
    | some d => .ok (.number (.float d))
    | none => .error (.wrongKind text "a float")
  else if Value.isNull text then .ok .null
  else .error (.wrongKind text "null")

/-- The value of a scalar.  A tag of the document's own has been dealt with already. -/
def scalarValue (tag : Option Octets) (text : Text) (isPlain : Bool) : Except NodeError Value :=
  match tag with
  | some t =>
    match kindTag? t with
    | some kind => taggedScalar kind text
    | none =>
      if isPlain ∧ t.head? = some 33 then (Value.ofPlain text).mapError .longInteger
      else .ok (.str text)
  | none =>
    if isPlain then (Value.ofPlain text).mapError .longInteger else .ok (.str text)

/-- The greatest depth of collections. -/
def depthLimit : Nat := 128

/-- What holds for the node that is being loaded. -/
structure NodeContext where
  path : Path
  /-- How much deeper collections may be nested. -/
  depth : Nat
  /-- Whether the node's tag has been read.  The tag of a mapping stands for those of its keys too,
  which do not count then. -/
  tagRead : Bool := false

mutual

/-- The value of the node at the present event. -/
def loadNode (d : Document) : Nat → NodeContext → LoadState → Except LoadError (Value × LoadState)
  | 0, _, _ => .error .tooManyAliases
  | fuel + 1, ctx, s =>
    match d.events[s.position]? with
    | none => .error ((d.broken.map LoadError.ofBreakage).getD .noDocument)
    | some (event, mark) =>
      let fail (e : NodeError) : LoadError := .node e mark ctx.path
      let tagOf (tag : Option Octets) : Option Octets := if ctx.tagRead then none else ownTag? tag
      let tagged (name : Octets) : Except LoadError (Value × LoadState) :=
        if name.isEmpty then .error (fail .emptyTag)
        else do
          let (v, s) ← loadNode d fuel { ctx with tagRead := true } s
          return (.tagged name v, s)
      let s' := { s with position := s.position + 1 }
      match event with
      | .alias n =>
        if s.jumps + 1 > d.events.size * 100 then .error .tooManyAliases
        else
          match d.anchor? n with
          | none => .error .tooManyAliases
          | some target => do
            let (v, t) ← loadNode d fuel { ctx with tagRead := false } ⟨target, s.jumps + 1⟩
            return (v, { s' with jumps := t.jumps })
      | .scalar tag text isPlain =>
        match tagOf tag with
        | some name => tagged name
        | none =>
          let tag := if ctx.tagRead then none else tag
          ((scalarValue tag text isPlain).mapError fail).map (·, s')
      | .sequenceStart tag =>
        match tagOf tag with
        | some name => tagged name
        | none =>
          match ctx.depth with
          | 0 => .error (.tooDeep mark)
          | depth + 1 => do
            let (items, s) ← loadItems d fuel { path := ctx.path, depth } 0 s'
            return (.seq items, s)
      | .mappingStart tag =>
        match tagOf tag with
        | some name => tagged name
        | none =>
          match ctx.depth with
          | 0 => .error (.tooDeep mark)
          | depth + 1 => do
            let (entries, s) ← loadEntries d fuel mark { ctx with depth } [] s'
            return (.map entries, s)
      | .sequenceEnd | .mappingEnd | .void => .ok (.null, s')

/-- The items of a sequence up to its end, the next one having the given index. -/
def loadItems (d : Document) :
    Nat → NodeContext → Nat → LoadState → Except LoadError (List Value × LoadState)
  | 0, _, _, _ => .error .tooManyAliases
  | fuel + 1, ctx, index, s =>
    match d.events[s.position]? with
    | none => .error ((d.broken.map LoadError.ofBreakage).getD .noDocument)
    | some (.sequenceEnd, _) => .ok ([], { s with position := s.position + 1 })
    | some _ => do
      let (v, s) ← loadNode d fuel { ctx with path := .item ctx.path index } s
      let (vs, s) ← loadItems d fuel ctx (index + 1) s
      return (v :: vs, s)

/-- The entries of a mapping up to its end, after the given ones. -/
def loadEntries (d : Document) :
    Nat → Mark → NodeContext → List (Value × Value) → LoadState →
      Except LoadError (List (Value × Value) × LoadState)
  | 0, _, _, _, _ => .error .tooManyAliases
  | fuel + 1, mark, ctx, entries, s =>
    match d.events[s.position]? with
    | none => .error ((d.broken.map LoadError.ofBreakage).getD .noDocument)
    | some (.mappingEnd, _) => .ok (entries, { s with position := s.position + 1 })
    | some (event, _) => do
      let path := match event with
        | .scalar _ text _ => Path.entry ctx.path text
        | _ => Path.unnamed ctx.path
      let (k, s) ← loadNode d fuel ctx s
      if let some (l, _) := entries.find? fun (l, _) => l.same k then
        throw (.node (.repeatedKey l) mark ctx.path)
      let (v, s) ← loadNode d fuel { ctx with path, tagRead := false } s
      loadEntries d fuel mark ctx (entries ++ [(k, v)]) s

end

/-- The value that a document's node denotes. -/
def Document.value (d : Document) : Except LoadError Value := do
  let fuel := (4 * depthLimit + 4) * (d.events.size + 2)
  let (v, _) ← loadNode d fuel { path := .root, depth := depthLimit } {}
  match d.broken with
  | some b => throw (.ofBreakage b)
  | none => return v

/-- The value of the only document of a text. -/
def load (t : Text) : Except LoadError Value := do
  let (d, more) ← (Document.ofText t).mapError .fault
  let v ← d.value
  if more then throw .severalDocuments
  return v

end Mosaic.Yaml
