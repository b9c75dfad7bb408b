import Mosaic.Protocol.Edit

/-!
# Answers to requests at a position

Completions, hovers and highlights.  What is shown to the user is passed on as it is; only the
ranges in an answer are translated.
-/

namespace Mosaic

/-- What a completion does to the text. -/
inductive CompletionEdit where
  | edit (e : TextEdit)
  /-- The text for two ranges, one for insertion and one for replacement. -/
  | insertReplace (newText : String) (insert replace : Range)
  deriving DecidableEq, Repr

namespace CompletionEdit

/-- A completion's edit as JSON. -/
def toJson : CompletionEdit → Json
  | .edit e => e.toJson
  | .insertReplace newText insert replace =>
    .obj [("newText", .str newText), ("insert", insert.toJson), ("replace", replace.toJson)]

/-- The completion's edit that a JSON value denotes. -/
def ofJson? (j : Json) : Option CompletionEdit :=
  match j.get? "range" with
  | some _ => (TextEdit.ofJson? j).map .edit
  | none => do
    some (.insertReplace (← j.read? "newText" Json.str?) (← j.read? "insert" Range.ofJson?)
      (← j.read? "replace" Range.ofJson?))

/-- The edit with its ranges translated. -/
def translate (f : Range → Option Range) : CompletionEdit → Option CompletionEdit
  | .edit e => (e.translate f).map .edit
  | .insertReplace newText insert replace => do
    some (.insertReplace newText (← f insert) (← f replace))

end CompletionEdit

/-- One completion. -/
structure CompletionItem where
  label : String
  textEdit : Option CompletionEdit := none
  additionalEdits : Option (List TextEdit) := none
  /-- All other members, which are passed on as they are. -/
  others : List (String × Json) := []
  deriving Repr

namespace CompletionItem

/-- The members that are passed on. -/
def otherKeys : List String :=
  ["labelDetails", "kind", "detail", "documentation", "deprecated", "preselect", "sortText",
    "filterText", "insertText", "insertTextFormat", "insertTextMode", "command",
    "commitCharacters", "data", "tags"]

/-- A completion as JSON. -/
def toJson (i : CompletionItem) : Json :=
  .object [
    Json.field "label" (.str i.label),
    i.others,
    Json.field? "textEdit" CompletionEdit.toJson i.textEdit,
    Json.field? "additionalTextEdits" (Json.list TextEdit.toJson) i.additionalEdits]

/-- The completion that a JSON value denotes. -/
def ofJson? (j : Json) : Option CompletionItem := do
  some {
    label := ← j.read? "label" Json.str?
    textEdit := ← j.readGiven? "textEdit" CompletionEdit.ofJson?
    additionalEdits := ← j.readGiven? "additionalTextEdits" (Json.list? TextEdit.ofJson?)
    others := j.pick otherKeys }

/-- The completion with its ranges translated. -/
def translate (f : Range → Option Range) (i : CompletionItem) : Option CompletionItem := do
  let textEdit ← i.textEdit.mapM (CompletionEdit.translate f)
  let additionalEdits ← i.additionalEdits.mapM (·.mapM (TextEdit.translate f))
  some { i with textEdit, additionalEdits }

end CompletionItem

/-- Completions, and whether typing on may bring more. -/
structure CompletionList where
  isIncomplete : Bool
  items : List CompletionItem
  deriving Repr

namespace CompletionList

/-- A list of completions as JSON. -/
def toJson (l : CompletionList) : Json :=
  .obj [("isIncomplete", .bool l.isIncomplete), ("items", Json.list CompletionItem.toJson l.items)]

/-- The list of completions that a JSON value denotes. -/
def ofJson? (j : Json) : Option CompletionList := do
  some ⟨← j.read? "isIncomplete" Json.bool?, ← j.read? "items" (Json.list? CompletionItem.ofJson?)⟩

/-- The list with all ranges translated. -/
def translate (f : Range → Option Range) (l : CompletionList) : Option CompletionList :=
  (l.items.mapM (CompletionItem.translate f)).map ({ l with items := · })

end CompletionList

/-- What is shown for a place in the text. -/
structure Hover where
  contents : Json
  range : Option Range
  deriving Repr

namespace Hover

/-- A hover as JSON. -/
def toJson (h : Hover) : Json :=
  .object [Json.field "contents" h.contents, Json.field? "range" Range.toJson h.range]

/-- The hover that a JSON value denotes. -/
def ofJson? (j : Json) : Option Hover := do
  some ⟨← j.get? "contents", ← j.readGiven? "range" Range.ofJson?⟩

/-- The hover with its range translated. -/
def translate (f : Range → Option Range) (h : Hover) : Option Hover := do
  let range ← h.range.mapM f
  some { h with range }

end Hover

/-- An occurrence of the symbol at a place. -/
structure Highlight where
  range : Range
  /-- How the symbol is used there. -/
  kind : Option Nat
  deriving DecidableEq, Repr

namespace Highlight

/-- A highlight as JSON. -/
def toJson (h : Highlight) : Json :=
  .object [Json.field "range" h.range.toJson, Json.field? "kind" Json.nat h.kind]

/-- The highlight that a JSON value denotes. -/
def ofJson? (j : Json) : Option Highlight := do
  some ⟨← j.read? "range" Range.ofJson?, ← j.readGiven? "kind" Json.nat?⟩

/-- The highlight with its range translated. -/
def translate (f : Range → Option Range) (h : Highlight) : Option Highlight :=
  (f h.range).map ({ h with range := · })

end Highlight

end Mosaic
