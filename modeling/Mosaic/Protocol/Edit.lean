import Mosaic.Protocol.Place

/-!
# Edits

Edits of one file (`TextEdit`), and edits of a workspace: by file, or as a list of document
edits and file operations.  Of the ranges only those in one given file are translated.
-/

namespace Mosaic

/-- New text for a range. -/
structure TextEdit where
  range : Range
  newText : String
  deriving DecidableEq, Repr

namespace TextEdit

/-- An edit as JSON. -/
def toJson (e : TextEdit) : Json :=
  .obj [("range", e.range.toJson), ("newText", .str e.newText)]

/-- The edit that a JSON value denotes. -/
def ofJson? (j : Json) : Option TextEdit := do
  some ⟨← j.read? "range" Range.ofJson?, ← j.read? "newText" Json.str?⟩

/-- The edit with its range translated. -/
def translate (f : Range → Option Range) (e : TextEdit) : Option TextEdit :=
  (f e.range).map ({ e with range := · })

end TextEdit

/-- An edit inside a document edit, which may refer to an annotation. -/
structure DocumentTextEdit where
  edit : TextEdit
  annotation : Option String
  deriving DecidableEq, Repr

namespace DocumentTextEdit

/-- An edit with its annotation as JSON. -/
def toJson (e : DocumentTextEdit) : Json :=
  .object [e.edit.toJson.members, Json.field? "annotationId" .str e.annotation]

/-- The edit that a JSON value denotes. -/
def ofJson? (j : Json) : Option DocumentTextEdit := do
  some ⟨← TextEdit.ofJson? j, ← j.readGiven? "annotationId" Json.str?⟩

/-- The edit with its range translated. -/
def translate (f : Range → Option Range) (e : DocumentTextEdit) : Option DocumentTextEdit :=
  (e.edit.translate f).map ({ e with edit := · })

end DocumentTextEdit

/-- Edits of one version of a file. -/
structure DocumentEdit where
  uri : String
  version : Option Int
  edits : List DocumentTextEdit
  deriving DecidableEq, Repr

namespace DocumentEdit

/-- A document edit as JSON; an unknown version is written as `null`. -/
def toJson (e : DocumentEdit) : Json :=
  .obj [("textDocument", .obj [("uri", .str e.uri), ("version", Json.orNull Json.int e.version)]),
    ("edits", Json.list DocumentTextEdit.toJson e.edits)]

/-- The document edit that a JSON value denotes. -/
def ofJson? (j : Json) : Option DocumentEdit := do
  let document ← j.get? "textDocument"
  some {
    uri := ← document.read? "uri" Json.str?
    version := ← document.readGiven? "version" Json.int?
    edits := ← j.read? "edits" (Json.list? DocumentTextEdit.ofJson?) }

/-- The document edit with its ranges translated, if it is of the file `uri`. -/
def translate (uri : String) (f : Range → Option Range) (e : DocumentEdit) :
    Option DocumentEdit :=
  if e.uri = uri then (e.edits.mapM (DocumentTextEdit.translate f)).map ({ e with edits := · }) else some e

end DocumentEdit

/-- One step of a workspace edit. -/
inductive DocumentChange where
  | edit (e : DocumentEdit)
  /-- The creation, renaming or deletion of a file, passed on as it is. -/
  | operation (j : Json)
  deriving Repr

namespace DocumentChange

/-- A step as JSON. -/
def toJson : DocumentChange → Json
  | .edit e => e.toJson
  | .operation j => j

/-- The step that a JSON value denotes; an operation tells its kind. -/
def ofJson? (j : Json) : Option DocumentChange :=
  match j.get? "kind" with
  | some _ => some (.operation j)
  | none => (DocumentEdit.ofJson? j).map .edit

/-- The step with the ranges in the file `uri` translated. -/
def translate (uri : String) (f : Range → Option Range) : DocumentChange → Option DocumentChange
  | .edit e => (e.translate uri f).map .edit
  | .operation j => some (.operation j)

end DocumentChange

/-- An edit of several files. -/
structure WorkspaceEdit where
  /-- Edits by file. -/
  changes : Option (List (String × List TextEdit)) := none
  /-- Edits and file operations, in order. -/
  documentChanges : Option (List DocumentChange) := none
  /-- Annotations, which are passed on as they are. -/
  others : List (String × Json) := []
  deriving Repr

namespace WorkspaceEdit

/-- A workspace edit as JSON. -/
def toJson (e : WorkspaceEdit) : Json :=
  .object [
    Json.field? "changes"
      (fun cs => .obj (cs.map fun (uri, edits) => (uri, Json.list TextEdit.toJson edits)))
      e.changes,
    Json.field? "documentChanges" (Json.list DocumentChange.toJson) e.documentChanges,
    e.others]

/-- Edits by file, as a JSON value denotes them. -/
def changesOfJson? (j : Json) : Option (List (String × List TextEdit)) :=
  match j with
  | .obj ms => ms.mapM fun (uri, edits) => (Json.list? TextEdit.ofJson? edits).map (uri, ·)
  | _ => none

/-- The workspace edit that a JSON value denotes. -/
def ofJson? (j : Json) : Option WorkspaceEdit := do
  some {
    changes := ← j.readGiven? "changes" changesOfJson?
    documentChanges := ← j.readGiven? "documentChanges" (Json.list? DocumentChange.ofJson?)
    others := j.pick ["changeAnnotations"] }

/-- Edits by file, those of the file `uri` with their ranges translated. -/
def translateChanges (uri : String) (f : Range → Option Range)
    (changes : List (String × List TextEdit)) : Option (List (String × List TextEdit)) :=
  changes.mapM fun (file, edits) =>
    if file = uri then (edits.mapM (TextEdit.translate f)).map (file, ·) else some (file, edits)

/-- The workspace edit with the ranges in the file `uri` translated. -/
def translate (uri : String) (f : Range → Option Range) (e : WorkspaceEdit) :
    Option WorkspaceEdit := do
  let changes ← e.changes.mapM (translateChanges uri f)
  let documentChanges ← e.documentChanges.mapM (·.mapM (DocumentChange.translate uri f))
  some { e with changes, documentChanges }

end WorkspaceEdit

end Mosaic
