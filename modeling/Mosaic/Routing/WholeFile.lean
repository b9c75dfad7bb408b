import Mosaic.Routing.Basic

/-!
# Requests on a whole file

A request on a whole file is put to the adapters of all its languages, each with all blocks of
its language, and then for most requests once more for every attribute value
(`Router.services`).  Each answer is brought back to the file before the next service is asked.
`reached` are the services that are asked, with their replies: the last one is that which calls the
request off, or whose answer cannot be sent.
-/

namespace Mosaic

/-- What a service contributes: its answer brought back to the file, or nothing if it failed. -/
def contribution {α β : Type} (toHost : Embedded → α → Option β) :
    Service × Reply (List α) → Option (List β)
  | (s, ⟨.ok answer, _⟩) => answer.mapM (toHost s.document)
  | (_, ⟨.error _, _⟩) => some []

/-- Asks services one after the other, until one calls the request off or gives an answer that
cannot be sent. -/
def reached {α β : Type} (ask : Adapter → Embedded → Reply (List α))
    (toHost : Embedded → α → Option β) : List Service → List (Service × Reply (List α))
  | [] => []
  | s :: rest =>
    let reply := ask s.adapter s.document
    (s, reply) ::
      if reply.cancels || (contribution toHost (s, reply)).isNone then []
      else reached ask toHost rest

namespace Router

/-- The services for the blocks of a file, one for each language with an adapter, in the order of
their first blocks. -/
def blockServices (r : Router) (file : Snapshot) : List Service :=
  file.blockLanguages.filterMap fun language =>
    (r.adapters.get? language).map (⟨·, Embedded.ofLanguage file language⟩)

/-- The services for the attribute values of a file. -/
def fragmentServices (r : Router) (file : Snapshot) : List Service :=
  (file.regions.filter (·.inAttribute)).filterMap fun region =>
    (r.adapters.get? region.language).map (⟨·, Embedded.ofRegion file region⟩)

/-- The services for all of a file. -/
def services (r : Router) (file : Snapshot) : List Service :=
  r.blockServices file ++ r.fragmentServices file

/-- Puts a request on a file to some services, unless it is called off before, and puts their
answers together, if all of them can be sent. -/
def askAll {α β : Type} (r : Router) (uri : String) (cancelled : Bool)
    (services : Snapshot → List Service) (request : Request)
    (ask : Adapter → Embedded → Reply (List α)) (toHost : Embedded → α → Option β) :
    Routed (List β) :=
  r.on uri fun file =>
    let replies := if cancelled then [] else reached ask toHost (services file)
    { result := sendable ((replies.mapM (contribution toHost)).map List.flatten)
      calls := replies.map fun (s, _) => s.call request
      cancelled := cancelled || replies.any (·.2.cancels) }

/-- The diagnostics of a file. -/
def diagnostics (r : Router) (uri : String) (cancelled : Bool) : Routed (List Diagnostic) :=
  r.askAll uri cancelled r.services .validate (·.validate)
    fun e => Diagnostic.translate e.uri e.rangeToHost?

/-- The outline of a file, its symbols in the order of where they start. -/
def documentSymbols (r : Router) (uri : String) (cancelled : Bool) :
    Routed (List DocumentSymbol) :=
  (r.askAll uri cancelled r.blockServices .symbols (·.symbols)
    fun e => DocumentSymbol.translate e.rangeToHost?).map fun symbols =>
      symbols.mergeSort fun a b => a.info.range.start.upTo b.info.range.start

/-- The semantic tokens of a file. -/
def semanticTokens (r : Router) (uri : String) (cancelled : Bool) : Routed (List TokenDelta) :=
  (r.askAll uri cancelled r.services .tokens (·.tokens)
    fun e t => (e.toHost? t.position).map t.moveTo).map fun tokens =>
      SemanticToken.deltas (SemanticToken.merge tokens)

/-- The colours of a file. -/
def documentColors (r : Router) (uri : String) (cancelled : Bool) :
    Routed (List ColorInformation) :=
  r.askAll uri cancelled r.services .colors (·.colors)
    fun e => ColorInformation.translate e.rangeToHost?

/-- The edits that format the blocks of a file. -/
def formatting (r : Router) (uri : String) (options : Json) (cancelled : Bool) :
    Routed (List TextEdit) :=
  r.askAll uri cancelled r.blockServices (.format options) (fun a e => a.format e options)
    fun e => TextEdit.translate e.rangeToHost?

end Router

end Mosaic
