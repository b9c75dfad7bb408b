import Mosaic.Region.Scan

/-!
# Settings

The settings of a project are the tag of the template, the script language of blocks that name
none, and how long validation waits after an edit.  Everything may be left out:
`Settings.scanOptions` and `Settings.delay` are the values that hold, defaults filled in.
-/

namespace Mosaic

/-- How files are divided into regions. -/
structure DocumentSettings where
  templateTag : Option String := none
  scriptLanguage : Option ScriptLanguage := none
  deriving DecidableEq, Repr

/-- When files are validated. -/
structure ValidationSettings where
  /-- Milliseconds between the last edit and validation. -/
  delay : Option Nat := none
  deriving DecidableEq, Repr

/-- The settings of a project. -/
structure Settings where
  document : Option DocumentSettings := none
  validation : Option ValidationSettings := none
  deriving DecidableEq, Repr

/-- Milliseconds between the last edit and validation, unless the settings say otherwise. -/
def defaultDelay : Nat := 300

/-! ## The values that hold -/

namespace Settings

/-- The scan options; a template tag that is blank counts as absent. -/
def scanOptions (s : Settings) : ScanOptions :=
  let defaults : ScanOptions := {}
  let document := s.document.getD {}
  let tag := Text.lower (Text.trim ((document.templateTag.getD "").toList))
  { defaults with
    templateTag := if tag.isEmpty then defaults.templateTag else String.ofList tag
    scriptLanguage := document.scriptLanguage.getD defaults.scriptLanguage }

/-- Milliseconds between the last edit and validation. -/
def delay (s : Settings) : Nat :=
  (s.validation.bind (·.delay)).getD defaultDelay

end Settings

end Mosaic
