import Mosaic.Document.Embedded
import Mosaic.Error
import Mosaic.Protocol.CodeAction
import Mosaic.Protocol.Color
import Mosaic.Protocol.Completion
import Mosaic.Protocol.Symbol
import Mosaic.SemanticToken

/-!
# Adapters

An `Adapter` serves one language.  It sees embedded documents only, and all its positions and
ranges are local to them; places in the host file are none of its business.  Everything it does
not support is left at its default, which answers with nothing.

A request on a whole file can be called off while it is being served, and so a `Reply` to one
also tells whether the adapter did that.
-/

namespace Mosaic

/-- What an adapter answers, unless it fails. -/
abbrev Answer (α : Type) := Except Failure α

/-- What an adapter answers to a request on a whole file. -/
structure Reply (α : Type) where
  answer : Answer α
  /-- Whether the request was called off meanwhile. -/
  cancels : Bool := false

/-- The reply that finds nothing. -/
def Reply.nothing {α : Type} : Reply (List α) :=
  ⟨.ok [], false⟩

/-- The service for one language. -/
structure Adapter where
  /-- The language that is served. -/
  id : String
  complete : Embedded → Position → Answer (Option CompletionList) := fun _ _ => .ok none
  hover : Embedded → Position → Answer (Option Hover) := fun _ _ => .ok none
  /-- Help with the arguments of a call; it holds no ranges and is passed on as it is. -/
  signatureHelp : Embedded → Position → Answer (Option Json) := fun _ _ => .ok none
  definition : Embedded → Position → Answer (List Location) := fun _ _ => .ok []
  references : Embedded → Position → Answer (List Location) := fun _ _ => .ok []
  highlights : Embedded → Position → Answer (List Highlight) := fun _ _ => .ok []
  codeActions : Embedded → Range → CodeActionContext → Answer (List CodeAction) :=
    fun _ _ _ => .ok []
  resolve : Embedded → CodeAction → Answer CodeAction := fun _ action => .ok action
  colorPresentations : Embedded → Color → Range → Answer (List ColorPresentation) :=
    fun _ _ _ => .ok []
  validate : Embedded → Reply (List Diagnostic) := fun _ => .nothing
  symbols : Embedded → Reply (List DocumentSymbol) := fun _ => .nothing
  /-- Edits that format a document, with the options of the editor. -/
  format : Embedded → Json → Reply (List TextEdit) := fun _ _ => .nothing
  tokens : Embedded → Reply (List SemanticToken) := fun _ => .nothing
  colors : Embedded → Reply (List ColorInformation) := fun _ => .nothing

end Mosaic
