import Mosaic.Document.Snapshot
import Mosaic.Error
import Std.Data.TreeMap

/-!
# The store of open files

A `Store` holds the present snapshot of every open file, the version of each that was saved last,
and how often files outside have changed.  The scan options are chosen once, before the first
file is opened as a rule (`Store.configure`).  The counters are natural numbers, which agree with
words of 64 bits as long as there are fewer than `2 ^ 64` changes.

What adapters are to be told about is a `FileEvent`; `Store.close` and `Store.externalChange` make
them.
-/

namespace Mosaic

/-- What adapters are told about files. -/
inductive FileEvent where
  /-- A file was closed; what is kept for it can be dropped. -/
  | removed (uri : String)
  /-- A file outside has changed, for the `revision`-th time; `kind` is the number that tells
  creation, change and deletion apart. -/
  | externalChanged (uri : String) (kind : Int) (revision : Nat)
  deriving DecidableEq, Repr

/-- The open files, and what is known of others. -/
structure Store where
  documents : Std.TreeMap String Snapshot := ∅
  /-- The version of an open file when it was last saved. -/
  saved : Std.TreeMap String Int := ∅
  /-- How often each file outside has changed. -/
  revisions : Std.TreeMap String Nat := ∅
  /-- How often any file outside has changed. -/
  projectRevision : Nat := 0
  /-- The scan options, once they are chosen. -/
  options : Option ScanOptions := none

namespace Store

/-- The scan options that hold now. -/
def scanOptions (s : Store) : ScanOptions :=
  s.options.getD {}

/-- Chooses the scan options for all later snapshots.  Only the first choice counts. -/
def configure (options : ScanOptions) (s : Store) : Store :=
  { s with options := some (s.options.getD options) }

/-- The snapshot of a file, if it is open. -/
def get? (s : Store) (uri : String) : Option Snapshot :=
  s.documents[uri]?

/-- The snapshot of a file, which has to be open. -/
def require (s : Store) (uri : String) : Except Error Snapshot :=
  match s.get? uri with
  | some document => .ok document
  | none => .error (.documentNotFound uri)

/-- The open files, in ascending order. -/
def uris (s : Store) : List String :=
  s.documents.keys

/-- The version of an open file when it was last saved. -/
def savedVersion? (s : Store) (uri : String) : Option Int :=
  s.saved[uri]?

/-- How often a file outside has changed. -/
def externalRevision (s : Store) (uri : String) : Nat :=
  s.revisions.getD uri 0

/-- The store with a snapshot in the place of an older one of its file. -/
def put (document : Snapshot) (s : Store) : Store :=
  { s with documents := s.documents.insert document.uri document }

/-- Opens a file, or opens it again. -/
def openFile (uri language : String) (version : Int) (text : Text) (s : Store) : Store :=
  s.put (.ofText s.scanOptions uri language version text)

/-- Changes the text of an open file. -/
def change (uri : String) (version : Int) (changes : List Change) (s : Store) :
    Except Error Store := do
  return s.put ((← s.require uri).edit s.scanOptions version changes)

/-- Notes that an open file was saved. -/
def save (uri : String) (s : Store) : Except Error Store := do
  return { s with saved := s.saved.insert uri (← s.require uri).version }

/-- Closes a file, and tells about it if it was open. -/
def close (uri : String) (s : Store) : Option FileEvent × Store :=
  ((s.get? uri).map fun _ => .removed uri,
    { s with documents := s.documents.erase uri, saved := s.saved.erase uri })

/-- Counts a change of a file outside, and tells about it. -/
def externalChange (uri : String) (kind : Int) (s : Store) : FileEvent × Store :=
  let revision := s.externalRevision uri + 1
  (.externalChanged uri kind revision,
    { s with
      revisions := s.revisions.insert uri revision
      projectRevision := s.projectRevision + 1 })

end Store

end Mosaic
