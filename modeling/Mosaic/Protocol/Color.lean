import Mosaic.Number.Single
import Mosaic.Protocol.Edit

/-!
# Colours

Colours found in a file, and the ways to write a colour down.
-/

namespace Mosaic

/-- A colour; its channels lie between zero and one. -/
structure Color where
  red : Single
  green : Single
  blue : Single
  alpha : Single
  deriving DecidableEq, Repr

namespace Color

/-- A colour as JSON. -/
def toJson (c : Color) : Json :=
  .obj [("red", c.red.toJson), ("green", c.green.toJson), ("blue", c.blue.toJson),
    ("alpha", c.alpha.toJson)]

/-- A channel that a JSON value denotes. -/
def channel? : Json → Option Single
  | .num d => some (Single.ofDecimal d)
  | _ => none

/-- The colour that a JSON value denotes. -/
def ofJson? (j : Json) : Option Color := do
  some ⟨← j.read? "red" channel?, ← j.read? "green" channel?, ← j.read? "blue" channel?,
    ← j.read? "alpha" channel?⟩

end Color

/-- A colour in a range. -/
structure ColorInformation where
  range : Range
  color : Color
  deriving DecidableEq, Repr

namespace ColorInformation

/-- A colour in a range as JSON. -/
def toJson (c : ColorInformation) : Json :=
  .obj [("range", c.range.toJson), ("color", c.color.toJson)]

/-- The colour in a range that a JSON value denotes. -/
def ofJson? (j : Json) : Option ColorInformation := do
  some ⟨← j.read? "range" Range.ofJson?, ← j.read? "color" Color.ofJson?⟩

/-- The colour with its range translated. -/
def translate (f : Range → Option Range) (c : ColorInformation) : Option ColorInformation :=
  (f c.range).map ({ c with range := · })

end ColorInformation

/-- A way to write a colour, and the edits that do it. -/
structure ColorPresentation where
  label : String
  textEdit : Option TextEdit := none
  additionalEdits : Option (List TextEdit) := none
  deriving DecidableEq, Repr

namespace ColorPresentation

/-- A way to write a colour as JSON. -/
def toJson (p : ColorPresentation) : Json :=
  .object [
    Json.field "label" (.str p.label),
    Json.field? "textEdit" TextEdit.toJson p.textEdit,
    Json.field? "additionalTextEdits" (Json.list TextEdit.toJson) p.additionalEdits]

/-- The way to write a colour that a JSON value denotes. -/
def ofJson? (j : Json) : Option ColorPresentation := do
  some {
    label := ← j.read? "label" Json.str?
    textEdit := ← j.readGiven? "textEdit" TextEdit.ofJson?
    additionalEdits := ← j.readGiven? "additionalTextEdits" (Json.list? TextEdit.ofJson?) }

/-- The way to write a colour with its ranges translated. -/
def translate (f : Range → Option Range) (p : ColorPresentation) : Option ColorPresentation := do
  let textEdit ← p.textEdit.mapM (TextEdit.translate f)
  let additionalEdits ← p.additionalEdits.mapM (·.mapM (TextEdit.translate f))
  some { p with textEdit, additionalEdits }

end ColorPresentation

end Mosaic
