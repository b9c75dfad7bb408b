import Mosaic.Protocol.Place

/-!
# Diagnostics

A diagnostic marks a range of a file; what it says of other places is its related information.
Only ranges in one given file are translated (`Diagnostic.translate`).  Members that no
computation looks at are carried along unread.
-/

namespace Mosaic

/-- Another place that a diagnostic speaks of. -/
structure RelatedInformation where
  location : Location
  message : String
  deriving DecidableEq, Repr

namespace RelatedInformation

/-- Related information as JSON. -/
def toJson (i : RelatedInformation) : Json :=
  .obj [("location", i.location.toJson), ("message", .str i.message)]

/-- The related information that a JSON value denotes. -/
def ofJson? (j : Json) : Option RelatedInformation := do
  some ⟨← j.read? "location" Location.ofJson?, ← j.read? "message" Json.str?⟩

/-- Related information with its range translated, if it is in the file `uri`. -/
def translate (uri : String) (f : Range → Option Range) (i : RelatedInformation) :
    Option RelatedInformation :=
  (i.location.translateIn uri f).map ({ i with location := · })

end RelatedInformation

/-- How bad a diagnostic is. -/
inductive Severity where
  | error
  | warning
  | information
  | hint
  deriving DecidableEq, Repr

namespace Severity

/-- The number of a severity. -/
def number : Severity → Nat
  | .error => 1
  | .warning => 2
  | .information => 3
  | .hint => 4

/-- The severity with a given number. -/
def ofNumber? : Nat → Option Severity
  | 1 => some .error
  | 2 => some .warning
  | 3 => some .information
  | 4 => some .hint
  | _ => none

end Severity

/-- A message about a range. -/
structure Diagnostic where
  range : Range
  message : String
  severity : Option Severity := none
  source : Option String := none
  related : Option (List RelatedInformation) := none
  /-- Code, tags and data, which are passed on as they are. -/
  others : List (String × Json) := []
  deriving Repr

namespace Diagnostic

/-- A diagnostic as JSON. -/
def toJson (d : Diagnostic) : Json :=
  .object [
    Json.field "range" d.range.toJson,
    Json.field? "severity" (fun s => .nat s.number) d.severity,
    Json.field? "source" .str d.source,
    Json.field "message" (.str d.message),
    Json.field? "relatedInformation" (Json.list RelatedInformation.toJson) d.related,
    d.others]

/-- The diagnostic that a JSON value denotes. -/
def ofJson? (j : Json) : Option Diagnostic := do
  some {
    range := ← j.read? "range" Range.ofJson?
    message := ← j.read? "message" Json.str?
    severity := ← j.readGiven? "severity" fun s => s.nat?.bind Severity.ofNumber?
    source := ← j.readGiven? "source" Json.str?
    related := ← j.readGiven? "relatedInformation" (Json.list? RelatedInformation.ofJson?)
    others := j.pick ["code", "codeDescription", "tags", "data"] }

/-- The diagnostic with its own range translated, and those of its related information that are
in the file `uri`. -/
def translate (uri : String) (f : Range → Option Range) (d : Diagnostic) : Option Diagnostic := do
  let range ← f d.range
  let related ← d.related.mapM (·.mapM (RelatedInformation.translate uri f))
  some { d with range, related }

end Diagnostic

end Mosaic
