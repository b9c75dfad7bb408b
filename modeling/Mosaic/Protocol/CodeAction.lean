import Mosaic.Protocol.Diagnostic
import Mosaic.Protocol.Edit

/-!
# Code actions

A code action is a change that is offered for a range.  It may be sent half finished and be
resolved later, and so it carries data of the one who made it.
-/

namespace Mosaic

/-- A change on offer. -/
structure CodeAction where
  title : String
  diagnostics : Option (List Diagnostic) := none
  edit : Option WorkspaceEdit := none
  data : Option Json := none
  /-- Kind, command and preference, which are passed on as they are. -/
  others : List (String × Json) := []
  deriving Repr

namespace CodeAction

/-- A code action as JSON. -/
def toJson (a : CodeAction) : Json :=
  .object [
    Json.field "title" (.str a.title),
    Json.field? "diagnostics" (Json.list Diagnostic.toJson) a.diagnostics,
    Json.field? "edit" WorkspaceEdit.toJson a.edit,
    Json.field? "data" id a.data,
    a.others]

/-- The code action that a JSON value denotes. -/
def ofJson? (j : Json) : Option CodeAction := do
  some {
    title := ← j.read? "title" Json.str?
    diagnostics := ← j.readGiven? "diagnostics" (Json.list? Diagnostic.ofJson?)
    edit := ← j.readGiven? "edit" WorkspaceEdit.ofJson?
    data := j.given? "data"
    others := j.pick ["kind", "command", "isPreferred", "disabled"] }

/-- The code action with all ranges in the file `uri` translated. -/
def translate (uri : String) (f : Range → Option Range) (a : CodeAction) :
    Option CodeAction := do
  let diagnostics ← a.diagnostics.mapM (·.mapM (Diagnostic.translate uri f))
  let edit ← a.edit.mapM (WorkspaceEdit.translate uri f)
  some { a with diagnostics, edit }

end CodeAction

/-- What a client knows when it asks for code actions. -/
structure CodeActionContext where
  diagnostics : List Diagnostic
  /-- The kinds asked for and what set the request off, passed on as they are. -/
  others : List (String × Json) := []
  deriving Repr

namespace CodeActionContext

/-- A context as JSON. -/
def toJson (c : CodeActionContext) : Json :=
  .object [Json.field "diagnostics" (Json.list Diagnostic.toJson c.diagnostics), c.others]

/-- The context that a JSON value denotes. -/
def ofJson? (j : Json) : Option CodeActionContext := do
  some {
    diagnostics := ← j.read? "diagnostics" (Json.list? Diagnostic.ofJson?)
    others := j.pick ["only", "triggerKind"] }

end CodeActionContext

end Mosaic
