import Mosaic.Protocol.Diagnostic
import Mosaic.Routing.Basic

/-!
# Messages

What goes between a client and the server.  A client sends requests, which have an id and are
answered, and notifications, which have none; the server sends responses and notifications of its
own.
-/

namespace Mosaic

/-- A message of the client. -/
structure Message where
  method : String
  params : Json := .null
  /-- What a response refers to; without it the message is a notification. -/
  id : Option Json := none
  deriving Repr

/-- The message that a JSON value denotes. -/
def Message.ofJson? (j : Json) : Option Message := do
  some ⟨← j.read? "method" Json.str?, (j.get? "params").getD .null, j.given? "id"⟩

/-- Why a request is refused. -/
structure Refusal where
  code : Int
  message : String
  data : Option Json := none
  deriving Repr

namespace Refusal

/-- No server has been set up yet. -/
def notInitialized : Refusal := ⟨-32002, "Server not initialized", none⟩

/-- The request has no place at this time. -/
def invalidRequest : Refusal := ⟨-32600, "Invalid request", none⟩

/-- The method is not served.  One that nobody knows is named. -/
def methodNotFound (unknown : Option String) : Refusal :=
  ⟨-32601, "Method not found", unknown.map .str⟩

/-- The parameters do not fit the method. -/
def invalidParams : Refusal := ⟨-32602, "Invalid params", none⟩

/-- The refusal because of an error. -/
def ofError (e : Error) : Refusal := ⟨e.code, e.message, none⟩

/-- A refusal as JSON. -/
def toJson (r : Refusal) : Json :=
  .object [
    Json.field "code" (.int r.code),
    Json.field "message" (.str r.message),
    Json.field? "data" id r.data]

end Refusal

/-- The answer to a request. -/
structure Response where
  id : Json
  result : Except Refusal Json

/-- A response as JSON. -/
def Response.toJson (r : Response) : Json :=
  .object [
    Json.field "id" r.id,
    match r.result with
    | .ok result => Json.field "result" result
    | .error refusal => Json.field "error" refusal.toJson]

/-- What the server tells the client of its own accord. -/
inductive Notification where
  /-- Something for the log. -/
  | log (message : String)
  /-- The diagnostics of a file, in the place of all earlier ones. -/
  | publish (uri : String) (version : Option Int) (diagnostics : List Diagnostic)
  deriving Repr

namespace Notification

/-- The number of the kind of log message that informs. -/
def informationKind : Nat := 3

/-- The method of a notification. -/
def method : Notification → String
  | log _ => "window/logMessage"
  | publish _ _ _ => "textDocument/publishDiagnostics"

/-- The parameters of a notification. -/
def params : Notification → Json
  | log message => .obj [("type", .nat informationKind), ("message", .str message)]
  | publish uri version diagnostics =>
    .object [
      Json.field "uri" (.str uri),
      Json.field "diagnostics" (Json.list Diagnostic.toJson diagnostics),
      Json.field? "version" .int version]

/-- A notification as JSON. -/
def toJson (n : Notification) : Json :=
  .obj [("method", .str n.method), ("params", n.params)]

end Notification

/-- What comes of a message or of the passing of time. -/
structure Reaction where
  response : Option Response := none
  notifications : List Notification := []
  contacts : List Contact := []

/-- What comes of two things, one after the other, of which the first may be a request. -/
def Reaction.andThen (a b : Reaction) : Reaction :=
  ⟨a.response, a.notifications ++ b.notifications, a.contacts ++ b.contacts⟩

end Mosaic
