import Mosaic.Protocol.Uri
import Mosaic.Routing.AtPosition

/-!
# Code actions and their origin

A code action may come back from the client to be resolved, and has to find its way to the
adapter that made it.  So the data of an action on its way to the client is its `ActionOrigin`,
which wraps the data of the adapter.

* `Router.codeActions` wraps the data, and `Router.resolveCodeAction` takes the wrapping off.
* An action that is not wrapped, whose adapter or region is gone, or that reaches outside its
  region is left as it is.
-/

namespace Mosaic

/-- Whence a code action comes. -/
structure ActionOrigin where
  language : String
  uri : String
  /-- Where the region starts in which the action was offered. -/
  regionStart : Nat
  /-- The data of the adapter. -/
  data : Json
  deriving Repr

namespace ActionOrigin

/-- An origin as JSON. -/
def toJson (o : ActionOrigin) : Json :=
  .obj [("languageId", .str o.language), ("uri", .str o.uri), ("regionStart", .nat o.regionStart),
    ("data", o.data)]

/-- A URI that a JSON value denotes. -/
def uri? (j : Json) : Option String :=
  j.str?.filter Uri.isAbsolute

/-- The origin that a JSON value denotes: its members by name, or one after the other. -/
def ofJson? (j : Json) : Option ActionOrigin :=
  match j with
  | .arr [language, uri, regionStart] => do
    some ⟨← language.str?, ← uri? uri, ← regionStart.nat?, .null⟩
  | .arr [language, uri, regionStart, data] => do
    some ⟨← language.str?, ← uri? uri, ← regionStart.nat?, data⟩
  | j => do
    some {
      language := ← j.read? "languageId" Json.str?
      uri := ← j.read? "uri" uri?
      regionStart := ← j.read? "regionStart" Json.nat?
      data := (j.get? "data").getD .null }

end ActionOrigin

namespace CodeActionContext

/-- The context in local coordinates.  Diagnostics that do not lie in the document are left out;
of the others only their own range is translated. -/
def toLocal (e : Embedded) (c : CodeActionContext) : CodeActionContext :=
  { c with
    diagnostics := c.diagnostics.filterMap fun d =>
      (e.rangeToLocal? d.range).map ({ d with range := · }) }

end CodeActionContext

namespace CodeAction

/-- A code action that an adapter offers in a region, on its way to the client. -/
def toHost (region : Region) (e : Embedded) (a : CodeAction) : Option CodeAction := do
  let a ← a.translate e.uri e.rangeToHost?
  let origin : ActionOrigin := ⟨region.language, e.uri, region.start, a.data.getD .null⟩
  some { a with data := some origin.toJson }

end CodeAction

namespace Router

/-- The code actions for a range. -/
def codeActions (r : Router) (uri : String) (range : Range) (context : CodeActionContext) :
    Routed (List CodeAction) :=
  r.askAt uri range.start []
    (fun e => (e.rangeToLocal? range).map (·, context.toLocal e))
    (fun (place, context) => .codeActions place context)
    (fun a e (place, context) => a.codeActions e place context)
    fun region e answer => answer.mapM (CodeAction.toHost region e)

/-- The region of a file in which a code action was offered. -/
def originRegion? (file : Snapshot) (o : ActionOrigin) : Option Region :=
  file.regions.find? fun r => r.language == o.language && r.start == o.regionStart

/-- The service from which a code action comes, and the action as it was made there. -/
def originOf? (r : Router) (file : Snapshot) (o : ActionOrigin) (action : CodeAction) :
    Option (Service × CodeAction) := do
  let adapter ← r.adapters.get? o.language
  let e := Embedded.forRequest file (← originRegion? file o)
  let action ← CodeAction.translate e.uri e.rangeToLocal? { action with data := some o.data }
  some (⟨adapter, e⟩, action)

/-- A code action that the adapter from which it comes has finished. -/
def resolveCodeAction (r : Router) (action : CodeAction) : Routed CodeAction :=
  match action.data.bind ActionOrigin.ofJson? with
  | none => .pure action
  | some origin =>
    r.on origin.uri fun file =>
      match r.originOf? file origin action with
      | none => .pure action
      | some (service, made) =>
        { calls := [service.call (.resolve made)]
          result := match service.adapter.resolve service.document made with
            | .ok resolved =>
              sendable ((resolved.translate service.document.uri service.document.rangeToHost?).map
                ({ · with data := action.data }))
            | .error _ => .ok action }

end Router

end Mosaic
