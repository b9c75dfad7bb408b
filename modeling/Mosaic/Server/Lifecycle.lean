import Mosaic.Server.Capabilities
import Mosaic.Server.News
import Mosaic.Server.Query

/-!
# The life of a server

A `Server` is a workspace with a life: it has to be set up by its first request, it serves
queries and follows news until it is shut down, and after the last message it is gone.

* `Server.handleWith` takes one message.
* `Server.advance` lets time pass.
-/

namespace Mosaic

/-- The stages of a server's life. -/
inductive Lifecycle where
  | uninitialized
  | running
  | shutDown
  | exited
  deriving DecidableEq, Repr

/-- A server. -/
structure Server where
  phase : Lifecycle := .uninitialized
  workspace : Workspace := {}

/-- What a message asks for. -/
inductive Purpose where
  /-- To set up the server. -/
  | setUp
  /-- To log that the client is ready. -/
  | ready
  | shutDown
  | exit
  /-- To drop a request that has not been answered, of which there is none. -/
  | drop
  | query (read? : Json → Option Query)
  | news (read? : Json → Option News)
  /-- A request that is known but not served. -/
  | unservedRequest
  /-- A notification that is known but not served. -/
  | unservedNews

namespace Purpose

/-- The requests that are known but not served. -/
def unservedRequests : List String :=
  ["textDocument/willSaveWaitUntil", "textDocument/declaration", "textDocument/typeDefinition",
    "textDocument/implementation", "textDocument/prepareCallHierarchy",
    "callHierarchy/incomingCalls", "callHierarchy/outgoingCalls",
    "textDocument/prepareTypeHierarchy", "typeHierarchy/supertypes", "typeHierarchy/subtypes",
    "textDocument/documentLink", "documentLink/resolve", "textDocument/codeLens",
    "codeLens/resolve", "textDocument/foldingRange", "textDocument/selectionRange",
    "textDocument/semanticTokens/full/delta", "textDocument/semanticTokens/range",
    "textDocument/inlineValue", "textDocument/inlayHint", "inlayHint/resolve",
    "textDocument/moniker", "completionItem/resolve", "textDocument/diagnostic",
    "workspace/diagnostic", "textDocument/rangeFormatting", "textDocument/onTypeFormatting",
    "textDocument/rename", "textDocument/prepareRename", "textDocument/linkedEditingRange",
    "workspace/symbol", "workspaceSymbol/resolve", "workspace/willCreateFiles",
    "workspace/willRenameFiles", "workspace/willDeleteFiles", "workspace/executeCommand"]

/-- The notifications that are known but not served. -/
def unservedNotifications : List String :=
  ["textDocument/willSave", "workspace/didChangeConfiguration",
    "workspace/didChangeWorkspaceFolders", "workspace/didCreateFiles", "workspace/didRenameFiles",
    "workspace/didDeleteFiles"]

/-- What a method asks for, if it is known. -/
def ofMethod? (method : String) : Option Purpose :=
  match method with
  | "initialize" => some .setUp
  | "initialized" => some .ready
  | "shutdown" => some .shutDown
  | "exit" => some .exit
  | "$/cancelRequest" => some .drop
  | _ =>
    match Query.reader? method, News.reader? method with
    | some read?, _ => some (.query read?)
    | none, some read? => some (.news read?)
    | none, none =>
      if unservedRequests.contains method then some .unservedRequest
      else if unservedNotifications.contains method then some .unservedNews
      else none

end Purpose

namespace Server

/-! ## Responses -/

/-- The reaction to a message that only needs a response, if it is a request. -/
def respond (m : Message) (result : Except Refusal Json) : Reaction :=
  { response := m.id.map (⟨·, result⟩) }

/-- The refusal of a message that the server does not take before it is set up or after it was
shut down. -/
def notRunning (s : Server) : Refusal :=
  if s.phase = .uninitialized then .notInitialized else .invalidRequest

/-! ## Messages -/

/-- The server with the settings of its workspace.  It is running then. -/
def setUp (settings : Settings) (s : Server) : Server :=
  { phase := .running
    workspace :=
      (s.workspace.withStore (s.workspace.router.store.configure settings.scanOptions)).withScheduler
        (·.setDelay settings.delay) }

/-- Answers a query. -/
def answer (s : Server) (m : Message) (read? : Json → Option Query) : Reaction :=
  match m.id, read? m.params with
  | none, _ => {}
  | some _, none => respond m (.error .invalidParams)
  | some _, some query =>
    let routed := query.answer s.workspace.router
    { respond m (routed.result.mapError .ofError) with contacts := routed.calls.map .call }

/-- Follows a piece of news. -/
def follow (s : Server) (m : Message) (read? : Json → Option News) : Server × Reaction :=
  match m.id, read? m.params with
  | none, some news =>
    let (workspace, reaction) := s.workspace.hear news
    ({ s with workspace }, reaction)
  | _, _ => (s, {})

/-- Does what a message of a running server asks for. -/
def serve (s : Server) (m : Message) : Purpose → Server × Reaction
  | .query read? => (s, s.answer m read?)
  | .news read? => s.follow m read?
  | .ready =>
    (s, if m.id.isNone then { notifications := [.log "sfcls initialized"] } else {})
  | .unservedRequest => (s, respond m (.error (.methodNotFound none)))
  | _ => (s, {})

/-- Takes one message.  If it sets up the server, its parameters tell where the settings are. -/
def handleWith (settingsFor : Json → Settings) (m : Message) (s : Server) : Server × Reaction :=
  match Purpose.ofMethod? m.method with
  | none =>
    (s, if "$/".isPrefixOf m.method then {}
      else respond m (.error (.methodNotFound (some m.method))))
  | some .setUp =>
    if s.phase ≠ .uninitialized then (s, respond m (.error .invalidRequest))
    else if m.id.isNone then (s, {})
    else (s.setUp (settingsFor m.params), respond m (.ok Capabilities.answer))
  | some .shutDown =>
    if s.phase ≠ .running then (s, respond m (.error s.notRunning))
    else if m.id.isNone then ({ s with phase := .shutDown }, {})
    else
      ({ phase := .shutDown, workspace := s.workspace.withScheduler (·.cancelAll) },
        respond m (.ok .null))
  | some .exit => ({ s with phase := .exited }, {})
  | some .drop => (s, {})
  | some purpose =>
    if s.phase ≠ .running then (s, respond m (.error s.notRunning)) else s.serve m purpose

/-! ## Time -/

/-- Lets time pass.  Before it is set up and after its exit the server tells the client nothing. -/
def advance (duration : Nat) (s : Server) : Server × Reaction :=
  let (workspace, reaction) := s.workspace.advance duration
  ({ s with workspace },
    if s.phase = .running ∨ s.phase = .shutDown then reaction
    else { reaction with notifications := [] })

end Server

end Mosaic
