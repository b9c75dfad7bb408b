import Mosaic.Routing.Action
import Mosaic.Routing.WholeFile
import Mosaic.Server.Message

/-!
# Queries

A request about an open file is a `Query`.  It is read off a method with its parameters
(`Query.ofJson?`), and the router answers it (`Query.answer`).
-/

namespace Mosaic

/-- What can be asked about open files. -/
inductive Query where
  | completion (uri : String) (position : Position)
  | hover (uri : String) (position : Position)
  | signatureHelp (uri : String) (position : Position)
  | definition (uri : String) (position : Position)
  | references (uri : String) (position : Position)
  | highlights (uri : String) (position : Position)
  | codeActions (uri : String) (range : Range) (context : CodeActionContext)
  | resolve (action : CodeAction)
  | symbols (uri : String)
  | formatting (uri : String) (options : Json)
  | tokens (uri : String)
  | colors (uri : String)
  | colorPresentations (uri : String) (color : Color) (range : Range)
  deriving Repr

namespace Query

/-- The file that parameters speak of. -/
def uri? (params : Json) : Option String := do
  (← params.get? "textDocument").read? "uri" Json.str?

/-- A query about a position. -/
def atPosition? (make : String → Position → Query) (params : Json) : Option Query := do
  some (make (← uri? params) (← params.read? "position" Position.ofJson?))

/-- How the parameters of a method are read, if the method is one for queries. -/
def reader? (method : String) : Option (Json → Option Query) :=
  match method with
  | "textDocument/completion" => some (atPosition? .completion)
  | "textDocument/hover" => some (atPosition? .hover)
  | "textDocument/signatureHelp" => some (atPosition? .signatureHelp)
  | "textDocument/definition" => some (atPosition? .definition)
  | "textDocument/references" => some (atPosition? .references)
  | "textDocument/documentHighlight" => some (atPosition? .highlights)
  | "textDocument/codeAction" => some fun params => do
    some (.codeActions (← uri? params) (← params.read? "range" Range.ofJson?)
      (← params.read? "context" CodeActionContext.ofJson?))
  | "codeAction/resolve" => some fun params => (CodeAction.ofJson? params).map .resolve
  | "textDocument/documentSymbol" => some fun params => (uri? params).map .symbols
  | "textDocument/formatting" => some fun params => do
    some (.formatting (← uri? params) (← params.get? "options"))
  | "textDocument/semanticTokens/full" => some fun params => (uri? params).map .tokens
  | "textDocument/documentColor" => some fun params => (uri? params).map .colors
  | "textDocument/colorPresentation" => some fun params => do
    some (.colorPresentations (← uri? params) (← params.read? "color" Color.ofJson?)
      (← params.read? "range" Range.ofJson?))
  | _ => none

/-- The data of semantic tokens as JSON. -/
def tokensJson (deltas : List TokenDelta) : Json :=
  .obj [("data", Json.list .nat (deltas.flatMap TokenDelta.numbers))]

/-- Locations as JSON; none at all are `null`. -/
def definitionJson (locations : List Location) : Json :=
  if locations.isEmpty then .null else Json.list Location.toJson locations

/-- The answer to a query. -/
def answer (r : Router) : Query → Routed Json
  | completion uri p => (r.completion uri p).map (Json.orNull CompletionList.toJson)
  | hover uri p => (r.hover uri p).map (Json.orNull Hover.toJson)
  | signatureHelp uri p => (r.signatureHelp uri p).map (Json.orNull id)
  | definition uri p => (r.definition uri p).map definitionJson
  | references uri p => (r.references uri p).map (Json.list Location.toJson)
  | highlights uri p => (r.highlights uri p).map (Json.list Highlight.toJson)
  | codeActions uri range context =>
    (r.codeActions uri range context).map (Json.list CodeAction.toJson)
  | resolve action => (r.resolveCodeAction action).map CodeAction.toJson
  | symbols uri => (r.documentSymbols uri false).map (Json.list DocumentSymbol.toJson)
  | formatting uri options => (r.formatting uri options false).map (Json.list TextEdit.toJson)
  | tokens uri => (r.semanticTokens uri false).map tokensJson
  | colors uri => (r.documentColors uri false).map (Json.list ColorInformation.toJson)
  | colorPresentations uri color range =>
    (r.colorPresentations uri color range).map (Json.list ColorPresentation.toJson)

end Query

end Mosaic
