import Mosaic.Protocol.Place
import Mosaic.Revalidation.Scheduler
import Mosaic.Server.Message

/-!
# News of files

What a client tells about files is `News`: that one was opened, changed, saved or closed, or that
files outside have changed.  The store follows the news, and files are validated anew
(`Workspace.hear`).
-/

namespace Mosaic

/-- What a client tells about files. -/
inductive News where
  | opened (uri language : String) (version : Int) (text : Text)
  | changed (uri : String) (version : Int) (changes : List Change)
  | saved (uri : String)
  | closed (uri : String)
  /-- Files have changed outside the editor; a number tells how. -/
  | watched (changes : List (String × Int))
  deriving Repr

namespace News

/-- The file that parameters speak of. -/
def document? {α : Type} (params : Json) (f : Json → Option α) : Option α :=
  params.read? "textDocument" f

/-- The URI of the file that parameters speak of. -/
def uri? (params : Json) : Option String :=
  document? params (·.read? "uri" Json.str?)

/-- A file that has changed outside, and how. -/
def watchedChange? (j : Json) : Option (String × Int) := do
  some (← j.read? "uri" Json.str?, ← j.read? "type" Json.int?)

/-- How the parameters of a method are read, if the method is one for news. -/
def reader? (method : String) : Option (Json → Option News) :=
  match method with
  | "textDocument/didOpen" => some fun params => document? params fun d => do
    some (.opened (← d.read? "uri" Json.str?) (← d.read? "languageId" Json.str?)
      (← d.read? "version" Json.int?) (← d.read? "text" Json.str?).toList)
  | "textDocument/didChange" => some fun params => document? params fun d => do
    some (.changed (← d.read? "uri" Json.str?) (← d.read? "version" Json.int?)
      (← params.read? "contentChanges" (Json.list? Change.ofJson?)))
  | "textDocument/didSave" => some fun params => (uri? params).map .saved
  | "textDocument/didClose" => some fun params => (uri? params).map .closed
  | "workspace/didChangeWatchedFiles" => some fun params =>
    (params.read? "changes" (Json.list? watchedChange?)).map .watched
  | _ => none

end News

/-- The open files with their adapters, and the runs of their validation. -/
structure Workspace where
  router : Router := {}
  scheduler : Scheduler := {}

namespace Workspace

/-- The workspace with another store. -/
def withStore (w : Workspace) (store : Store) : Workspace :=
  { w with router := { w.router with store } }

/-- The workspace with another scheduler. -/
def withScheduler (w : Workspace) (f : Scheduler → Scheduler) : Workspace :=
  { w with scheduler := f w.scheduler }

/-- Follows a change of a file outside.  Of an open file the editor tells itself. -/
def hearOutside (w : Workspace) (change : String × Int) : Workspace × List Contact :=
  match w.router.store.get? change.1 with
  | some _ => (w, [])
  | none =>
    let (event, store) := w.router.store.externalChange change.1 change.2
    (w.withStore store, w.router.tell event)

/-- Follows changes of files outside. -/
def hearAllOutside : List (String × Int) → Workspace → Workspace × List Contact
  | [], w => (w, [])
  | change :: rest, w =>
    let (w, first) := w.hearOutside change
    let (w, others) := hearAllOutside rest w
    (w, first ++ others)

/-- Follows a piece of news.  A file is validated at once when it is opened and after a while when
it has changed; all open files are when files outside have changed.  The diagnostics of a closed
file are taken back. -/
def hear (w : Workspace) : News → Workspace × Reaction
  | .opened uri language version text =>
    ((w.withStore (w.router.store.openFile uri language version text)).withScheduler
      (·.validateNow uri), {})
  | .changed uri version changes =>
    match w.router.store.change uri version changes with
    | .ok store => ((w.withStore store).withScheduler (·.schedule uri), {})
    | .error _ => (w, {})
  | .saved uri =>
    match w.router.store.save uri with
    | .ok store => (w.withStore store, {})
    | .error _ => (w, {})
  | .closed uri =>
    let (event, store) := w.router.store.close uri
    ((w.withScheduler (·.cancel uri)).withStore store,
      { notifications := [.publish uri none []]
        contacts := (event.map w.router.tell).getD [] })
  | .watched changes =>
    let (w, contacts) := w.hearAllOutside changes
    (w.withScheduler fun s => w.router.store.uris.foldl (fun s uri => s.schedule uri) s,
      { contacts })

/-- Lets time pass. -/
def advance (duration : Nat) (w : Workspace) : Workspace × Reaction :=
  let (scheduler, report) := w.scheduler.advance w.router duration
  ({ w with scheduler },
    { notifications := report.publications.map fun p =>
        .publish p.uri (some p.version) p.diagnostics
      contacts := report.calls.map .call })

end Workspace

end Mosaic
