import Mosaic.Json.Basic
import Mosaic.Text.Change

/-!
# Places on the wire

How positions, ranges, locations and content changes are written as JSON.  Each type has a
writer `toJson` and a reader `ofJson?`.
-/

namespace Mosaic

namespace Position

/-- A position as JSON. -/
def toJson (p : Position) : Json :=
  .obj [("line", .nat p.line), ("character", .nat p.character)]

/-- The position that a JSON value denotes. -/
def ofJson? (j : Json) : Option Position := do
  some ⟨← j.read? "line" Json.nat?, ← j.read? "character" Json.nat?⟩

end Position

namespace Range

/-- A range as JSON. -/
def toJson (r : Range) : Json :=
  .obj [("start", r.start.toJson), ("end", r.stop.toJson)]

/-- The range that a JSON value denotes. -/
def ofJson? (j : Json) : Option Range := do
  some ⟨← j.read? "start" Position.ofJson?, ← j.read? "end" Position.ofJson?⟩

end Range

/-- A range in a file. -/
structure Location where
  uri : String
  range : Range
  deriving DecidableEq, Repr

namespace Location

/-- A location as JSON. -/
def toJson (l : Location) : Json :=
  .obj [("uri", .str l.uri), ("range", l.range.toJson)]

/-- The location that a JSON value denotes. -/
def ofJson? (j : Json) : Option Location := do
  some ⟨← j.read? "uri" Json.str?, ← j.read? "range" Range.ofJson?⟩

/-- The location with its range translated, if it is in the file `uri`. -/
def translateIn (uri : String) (f : Range → Option Range) (l : Location) : Option Location :=
  if l.uri = uri then (f l.range).map ({ l with range := · }) else some l

end Location

namespace Change

/-- The content change that a JSON value denotes. -/
def ofJson? (j : Json) : Option Change := do
  let range ← j.readGiven? "range" Range.ofJson?
  let text ← j.read? "text" Json.str?
  some ⟨range, text.toList⟩

end Change

end Mosaic
