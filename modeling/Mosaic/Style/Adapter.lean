import Mosaic.Adapter.Basic
import Mosaic.Style.Color

/-!
# The adapter for style sheets

One adapter serves every style language: it reports braces without a partner, outlines the rules,
highlights the names of properties, and finds colours and writes them anew.
-/

namespace Mosaic.Style

/-- The number of the symbol kind for a class. -/
def classKind : Nat := 5

/-- The number of the symbol kind for a module. -/
def moduleKind : Nat := 2

/-- What is reported about a brace without a partner. -/
def LoneBrace.diagnostic (language : String) (t : Text) (b : LoneBrace) : Diagnostic :=
  { range := Text.rangeOf t b.offset (b.offset + 1)
    message := b.message
    severity := some .error
    source := some language }

/-- What the outline says of a rule: an at-rule is a module, all others are classes. -/
def Rule.info (t : Text) (r : Rule) : SymbolInfo :=
  { name := String.ofList r.name
    kind := if r.name.head? = some '@' then moduleKind else classKind
    range := r.extent.rangeIn t
    selection := r.prelude.rangeIn t }

/-- A rule in the outline, with the rules inside it. -/
def Rule.symbol (t : Text) : Rule → DocumentSymbol
  | mk prelude name extent [] => .leaf (info t (mk prelude name extent []))
  | mk prelude name extent (c :: cs) =>
    .node (info t (mk prelude name extent (c :: cs))) (symbol t c :: symbols t cs)
where
  /-- Rules in the outline. -/
  symbols (t : Text) : List Rule → List DocumentSymbol
    | [] => []
    | r :: rs => symbol t r :: symbols t rs

/-- The token for the property of a declaration. -/
def Declaration.token? (t : Text) (d : Declaration) : Option SemanticToken :=
  SemanticToken.ofSpan? t d.property.start d.property.stop SemanticToken.propertyKind 0

/-- The ways to write a colour down in a range. -/
def presentations (c : Color) (r : Range) : List ColorPresentation :=
  [c.hexLabel, c.rgbLabel].map fun label => { label, textEdit := some ⟨r, label⟩ }

/-- The adapter for one style language. -/
def adapter (language : String) : Adapter :=
  { id := language
    validate := fun e => ⟨.ok ((Sheet.ofText e.text).lone.map (·.diagnostic language e.text)), false⟩
    symbols := fun e => ⟨.ok ((Sheet.ofText e.text).rules.map (Rule.symbol e.text)), false⟩
    tokens := fun e =>
      ⟨.ok ((Sheet.ofText e.text).declarations.filterMap (·.token? e.text)), false⟩
    colors := fun e => ⟨.ok (colorsOf e.text), false⟩
    colorPresentations := fun _ c r => .ok (presentations c r) }

end Mosaic.Style
