import Mosaic.Settings.Reading

/-!
# Finding the settings of a workspace

The settings file is looked for in the directory of the workspace and the directories above it,
then in the directories right inside it (`FileTree.discover`).  A file that cannot be read leaves
everything at its default.
-/

namespace Mosaic

/-- The name of the settings file. -/
def settingsFile : String := "sfcls.toml"

/-- A path, as the names on the way from the root. -/
abbrev Path := List String

/-- Directories and files.  A directory may be listed or merely lie on the way to a file. -/
structure FileTree where
  /-- Paths with the text of the file there, or none for a directory. -/
  entries : List (Path × Option Text) := []
  deriving Repr

namespace FileTree

/-- The text of the file at a path. -/
def read? (t : FileTree) (path : Path) : Option Text :=
  (t.entries.find? fun (p, content) => p == path && content.isSome).bind (·.2)

/-- The settings in the file at a path. -/
def load (t : FileTree) (path : Path) : Settings :=
  ((t.read? path).bind Settings.ofText?).getD {}

/-- Whether a directory holds a settings file. -/
def hasSettings (t : FileTree) (directory : Path) : Bool :=
  (t.read? (directory ++ [settingsFile])).isSome

/-- The name of the directory right inside `directory` in which a settings file is at `path`. -/
def holderIn? (directory path : Path) : Option String :=
  match path.drop directory.length with
  | [name, file] => if directory.isPrefixOf path && file == settingsFile then some name else none
  | _ => none

/-- The directories right inside a directory that hold a settings file, in ascending order. -/
def childrenWithSettings (t : FileTree) (directory : Path) : List Path :=
  let names := t.entries.filterMap fun (path, content) =>
    if content.isSome then holderIn? directory path else none
  (names.mergeSort fun a b => a ≤ b).map fun name => directory ++ [name]

/-- A directory and those above it, from the inside out. -/
def upwards (directory : Path) : List Path :=
  (List.range (directory.length + 1)).reverse.map directory.take

/-- The settings of a workspace, and the directory where they were found; without a settings
file that is the directory of the workspace. -/
def discover (t : FileTree) (start : Path) : Settings × Path :=
  match (upwards start).find? t.hasSettings <|> (t.childrenWithSettings start).head? with
  | some directory => (t.load (directory ++ [settingsFile]), directory)
  | none => ({}, start)

end FileTree

end Mosaic
