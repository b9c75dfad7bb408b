import Mosaic.Adapter.Registry
import Mosaic.Store

/-!
# Routing

A `Router` brings requests on open files to the adapters.  What comes of one is a `Routed` value:
the answer for the client, or the error that there is none, and the calls that were made to
adapters on the way.  The failure of an adapter is no error; it has contributed nothing then.
-/

namespace Mosaic

/-- What an adapter is asked. -/
inductive Request where
  | complete (position : Position)
  | hover (position : Position)
  | signatureHelp (position : Position)
  | definition (position : Position)
  | references (position : Position)
  | highlights (position : Position)
  | codeActions (range : Range) (context : CodeActionContext)
  | resolve (action : CodeAction)
  | colorPresentations (color : Color) (range : Range)
  | validate
  | symbols
  | format (options : Json)
  | tokens
  | colors
  deriving Repr

/-- An embedded document with the adapter for its language. -/
structure Service where
  adapter : Adapter
  document : Embedded

/-- A request to the adapter for a language about an embedded document. -/
structure Call where
  adapter : String
  document : Embedded
  request : Request
  deriving Repr

/-- What adapters get to do with: a request, or the news of an event. -/
inductive Contact where
  | call (c : Call)
  | notice (adapter : String) (event : FileEvent)
  deriving Repr

/-- The call that asks a service for something. -/
def Service.call (s : Service) (request : Request) : Call :=
  ⟨s.adapter.id, s.document, request⟩

/-- What comes of a request on a file. -/
structure Routed (α : Type) where
  result : Except Error α
  /-- The calls to adapters, in order. -/
  calls : List Call := []
  /-- Whether an adapter called the request off. -/
  cancelled : Bool := false

/-- An answer for which no adapter was asked. -/
def Routed.pure {α : Type} (a : α) : Routed α :=
  { result := .ok a }

/-- Changes an answer. -/
def Routed.map {α β : Type} (f : α → β) (x : Routed α) : Routed β :=
  { result := x.result.map f, calls := x.calls, cancelled := x.cancelled }

/-- An answer, unless one of its positions cannot be sent. -/
def sendable {α : Type} : Option α → Except Error α
  | some a => .ok a
  | none => .error .unsendable

/-- The open files, and the adapters for their languages. -/
structure Router where
  store : Store := {}
  adapters : Registry := {}

namespace Router

/-- Serves a request on a file, which has to be open. -/
def on {α : Type} (r : Router) (uri : String) (serve : Snapshot → Routed α) : Routed α :=
  match r.store.require uri with
  | .ok file => serve file
  | .error e => { result := .error e }

/-- Tells all adapters about an event, in the order of their languages. -/
def tell (r : Router) (event : FileEvent) : List Contact :=
  r.adapters.languages.map (.notice · event)

end Router

end Mosaic
