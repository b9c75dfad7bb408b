import Mosaic.Adapter.Basic
import Mosaic.Metadata.Outline

/-!
# The adapter for the metadata block

A metadata block is YAML.  The adapter reports a block that cannot be read or is no mapping, and
it outlines and highlights the keys at the top level.

YAML is read by a library, and so the reader is a parameter (`Metadata.Reader`).  The adapter wants
to know little of it: whether a text holds a mapping, nothing or something else, and of an error
its message and its index.  What the index of an error counts is said by
`Metadata.Reader.CountsBytes`.
-/

namespace Mosaic.Metadata

/-! ## Reading -/

/-- What a text of YAML holds, as far as the adapter tells values apart. -/
inductive Content where
  | mapping
  | null
  | other
  deriving DecidableEq, Repr

/-- Why a text of YAML cannot be read. -/
structure ReadError where
  message : String
  /-- The index of the error in the text, if it has a place there. -/
  index? : Option Nat
  deriving DecidableEq, Repr

/-- The library that reads YAML. -/
abbrev Reader := Text → Except ReadError Content

/-- The index of an error is the number of bytes of the characters in front of it. -/
def Reader.CountsBytes (yaml : Reader) : Prop :=
  ∀ t error index, yaml t = .error error → error.index? = some index →
    ∃ k ≤ t.length, index = Text.bytes (t.take k)

/-! ## The adapter -/

/-- The number of the symbol kind for a key. -/
def keyKind : Nat := 20

/-- What is reported about the text of a block. -/
def diagnostics (yaml : Reader) (t : Text) : List Diagnostic :=
  match yaml t with
  | .ok .mapping => []
  | .ok .null => []
  | .ok .other =>
    [{ range := Text.rangeOf t 0 (Text.bytes t)
       message := "metadata should be a mapping of keys to values"
       severity := some .warning
       source := some metadataLanguage }]
  | .error e =>
    let position := Text.positionAt t (e.index?.getD 0)
    [{ range := ⟨position, position⟩
       message := e.message
       severity := some .error
       source := some metadataLanguage }]

/-- A key in the outline: it spans the rest of its line. -/
def Key.symbol (t : Text) (k : Key) : DocumentSymbol :=
  .leaf
    { name := String.ofList k.name
      kind := keyKind
      range := Text.rangeOf t k.span.start k.lineStop
      selection := k.span.rangeIn t }

/-- The token for a key. -/
def Key.token? (t : Text) (k : Key) : Option SemanticToken :=
  SemanticToken.ofSpan? t k.span.start k.span.stop SemanticToken.propertyKind
    SemanticToken.declarationModifier

/-- The adapter for the metadata block. -/
def adapter (yaml : Reader) : Adapter :=
  { id := metadataLanguage
    validate := fun e => ⟨.ok (diagnostics yaml e.text), false⟩
    symbols := fun e => ⟨.ok ((keys e.text).map (·.symbol e.text)), false⟩
    tokens := fun e => ⟨.ok ((keys e.text).filterMap (·.token? e.text)), false⟩ }

end Mosaic.Metadata
