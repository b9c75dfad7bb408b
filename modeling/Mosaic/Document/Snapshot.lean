import Mosaic.Region.Scan
import Mosaic.Text.Change

/-!
# Snapshots of an open file

A `Snapshot` is one version of an open file together with the regions found in it.  It never
changes; an edit makes a new one from the whole new text (`Snapshot.edit`).
-/

namespace Mosaic

/-- The script language of a file: TypeScript if any script block is, else JavaScript, and the
default without script blocks. -/
def scriptLanguageOf (regions : List Region) (default : ScriptLanguage) : ScriptLanguage :=
  let scripts := (regions.filter fun r => r.isScript && !r.inAttribute).map Region.language
  if scripts.any fun id => id == "ts" || id == "tsx" then .ts
  else if scripts.isEmpty then default
  else .js

/-- One version of an open file. -/
structure Snapshot where
  uri : String
  language : String
  version : Int
  text : Text
  regions : List Region
  scriptLanguage : ScriptLanguage
  deriving DecidableEq, Repr

namespace Snapshot

/-- The snapshot of a text, its regions found with the given options. -/
def ofText (options : ScanOptions) (uri language : String) (version : Int) (text : Text) :
    Snapshot :=
  let regions := scan options text
  ⟨uri, language, version, text, regions, scriptLanguageOf regions options.scriptLanguage⟩

/-- The next snapshot, after some changes of the text. -/
def edit (options : ScanOptions) (version : Int) (changes : List Change) (s : Snapshot) :
    Snapshot :=
  ofText options s.uri s.language version (s.text.applyChanges changes)

/-- The byte offset of a position. -/
def offsetAt (s : Snapshot) (p : Position) : Nat :=
  Text.offsetAt s.text p

/-- The position of a byte offset. -/
def positionAt (s : Snapshot) (offset : Nat) : Position :=
  Text.positionAt s.text offset

/-- The region at a byte offset. -/
def regionAt? (s : Snapshot) (offset : Nat) : Option Region :=
  s.regions.find? (·.contains offset)

/-- The languages of the blocks, each once, in the order of their first block. -/
def blockLanguages (s : Snapshot) : List String :=
  ((s.regions.filter fun r => !r.inAttribute).map Region.language).foldl
    (fun seen l => if seen.contains l then seen else seen ++ [l]) []

end Snapshot

end Mosaic
