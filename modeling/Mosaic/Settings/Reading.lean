import Mosaic.Error
import Mosaic.Settings.Basic
import Mosaic.Toml.Document

/-!
# Reading the settings file

The settings of a project stand in a TOML file.  What is not known there is ignored.

* `Settings.ofToml` reads the file.

TOML is read by a library, for which `Toml.read` stands in.  It is met here only, where a server
finds the settings of its workspace; everything else is given settings (`Server.setUp`).
-/

namespace Mosaic

namespace Toml

/-- A value that may be absent, read by `f`. -/
def optional? {α : Type} (f : Value → Option α) : Option Value → Option (Option α)
  | none => some none
  | some v => (f v).map some

/-- The entry of a table that may be absent, read by `f`. -/
def Entries.readGiven? {α : Type} (es : Entries) (key : String) (f : Value → Option α) :
    Option (Option α) :=
  optional? f (es.get? key.toList)

/-- A text. -/
def Value.text? : Value → Option String
  | .text t => some (String.ofList t)
  | _ => none

/-- A natural number. -/
def Value.nat? : Value → Option Nat
  | .integer (.ofNat n) => some n
  | _ => none

/-- Whether a value holds nothing. -/
def Value.isEmpty : Value → Bool
  | .array items => items.isEmpty
  | .table _ entries => entries.isEmpty
  | .tables items => items.isEmpty
  | _ => false

/-- A script language: its id, or a table that has the id as its only key, and nothing there. -/
def Value.scriptLanguage? : Value → Option ScriptLanguage
  | .text t => ScriptLanguage.ofId? (String.ofList t)
  | .table _ [(key, v)] => if v.isEmpty then ScriptLanguage.ofId? (String.ofList key) else none
  | _ => none

/-- Document settings: a table, or an array with the values in their order. -/
def Value.documentSettings? : Value → Option DocumentSettings
  | .table _ es => do
    some ⟨← Entries.readGiven? es "template_tag" Value.text?,
      ← Entries.readGiven? es "default_script_language" Value.scriptLanguage?⟩
  | .array (tag :: language :: _) => do
    some ⟨some (← tag.text?), some (← language.scriptLanguage?)⟩
  | _ => none

/-- Validation settings: a table, or an array with the value. -/
def Value.validationSettings? : Value → Option ValidationSettings
  | .table _ es => do some ⟨← Entries.readGiven? es "debounce_ms" Value.nat?⟩
  | .array (delay :: _) => do some ⟨some (← delay.nat?)⟩
  | _ => none

end Toml

namespace Settings

/-- The settings in a file, if it can be read. -/
def ofText? (t : Text) : Option Settings := do
  let es ← Toml.read t
  some ⟨← es.readGiven? "document" Toml.Value.documentSettings?,
    ← es.readGiven? "validation" Toml.Value.validationSettings?⟩

/-- The settings in a file. -/
def ofToml (t : Text) : Except Error Settings :=
  match ofText? t with
  | some s => .ok s
  | none => .error .settings

end Settings

end Mosaic
