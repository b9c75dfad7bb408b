import Mosaic.Document.Snapshot
import Mosaic.Protocol.Completion

/-!
# Snippets for new blocks

Outside every region an editor is offered the blocks that a file does not have yet, those that
start with the word before the cursor (`Snapshot.blockSnippets`).
-/

namespace Mosaic

/-- The skeleton of a block. -/
structure Snippet where
  label : String
  /-- The text to insert; `$0` is where the cursor goes. -/
  body : String
  detail : String
  deriving DecidableEq, Repr

namespace Snippet

/-- The snippet for an element with the given start tag, and the name its end tag repeats. -/
def element (tag name detail : String) : Snippet :=
  ⟨tag, s!"<{tag}>\n\t$0\n</{name}>", detail⟩

/-- The number of the completion kind for a snippet. -/
def completionKind : Nat := 15

/-- The number of the insertion format in which `$0` is a place for the cursor. -/
def insertFormat : Nat := 2

/-- The snippet as a completion, the `rank`-th of its list. -/
def completion (rank : Nat) (s : Snippet) : CompletionItem :=
  { label := s.label
    others := [
      ("kind", .nat completionKind),
      ("detail", .str s.detail),
      ("sortText", .str (if rank < 10 then s!"0{rank}" else s!"{rank}")),
      ("insertText", .str s.body),
      ("insertTextFormat", .nat insertFormat)] }

end Snippet

namespace Snapshot

/-- Whether a file has a template block. -/
def hasTemplate (s : Snapshot) (options : ScanOptions) : Bool :=
  s.regions.any fun r => r.language == options.templateLanguage && !r.inAttribute

/-- Whether a file has a metadata block. -/
def hasMetadata (s : Snapshot) : Bool :=
  s.regions.any (·.language == metadataLanguage)

/-- The blocks that a file may still be given.  Style and script blocks may come more than
once. -/
def missingBlocks (s : Snapshot) (options : ScanOptions) : List Snippet :=
  (if s.hasTemplate options then []
    else [.element options.templateTag options.templateTag "template block"]) ++
  [.element "style" "style" "style block",
    .element "style lang=\"scss\"" "style" "scss style block",
    .element "script" "script" "script block",
    .element "script lang=\"ts\"" "script" "typescript script block"] ++
  (if s.hasMetadata then [] else [⟨"---", "---\n$0\n---", "metadata block"⟩])

/-- The ASCII letters, digits and dashes right before a position. -/
def wordBefore (s : Snapshot) (p : Position) : Text :=
  let before := Text.takeBytes (s.offsetAt p) s.text
  (before.reverse.takeWhile fun c => c.isAlphanum || c == '-').reverse

/-- The blocks that a file may still be given and that start with the word before a position, in
lower case; each keeps its rank among all of them. -/
def blockSnippets (s : Snapshot) (options : ScanOptions) (p : Position) : CompletionList :=
  let word := Text.lower (s.wordBefore p)
  let offered := (s.missingBlocks options).zipIdx.filter fun (snippet, _) =>
    word.isPrefixOf snippet.label.toList
  ⟨false, offered.map fun (snippet, rank) => snippet.completion rank⟩

end Snapshot

end Mosaic
