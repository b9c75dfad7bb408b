import Mosaic.Adapter.Builtin
import Mosaic.Protocol.Uri
import Mosaic.Server.Lifecycle
import Mosaic.Settings.Discovery

/-!
# The server

A server that runs finds the settings of its workspace among the files of the system.

* `Server.handle` takes one message.
* `Server.receive` does so and then lets everything run that is due.
-/

namespace Mosaic.Server

/-- The path of the workspace: that of its first folder, and without one that of its root. -/
def workspacePath? (params : Json) : Option Path :=
  let folder := (params.given? "workspaceFolders").bind fun folders =>
    (folders.items?.getD []).head?.bind (·.read? "uri" Json.str?)
  let root := (params.given? "rootUri").bind Json.str?
  folder.bind Uri.filePath? <|> root.bind Uri.filePath?

/-- The settings of the workspace that parameters speak of. -/
def settingsFor (files : FileTree) (params : Json) : Settings :=
  match workspacePath? params with
  | some path => (files.discover path).1
  | none => {}

/-- Takes one message. -/
def handle (files : FileTree) (m : Message) (s : Server) : Server × Reaction :=
  s.handleWith (settingsFor files) m

/-- Takes one message and then lets everything run that is due. -/
def receive (files : FileTree) (m : Message) (s : Server) : Server × Reaction :=
  let (s, first) := s.handle files m
  let (s, after) := s.advance 0
  (s, first.andThen after)

end Mosaic.Server
