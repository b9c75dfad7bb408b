import Mosaic.Text.Blank

/-!
# Languages of a component file

The languages that a region of a component file may hold, by id, and how the `lang` attribute of
a `<style>` or `<script>` element chooses one (`styleLanguage`, `scriptLanguage`).
-/

namespace Mosaic

/-- The language of the template unless the scan options name another one. -/
def templateLanguage : String := "html"

/-- The language of the metadata block. -/
def metadataLanguage : String := "yml"

/-- The language of a style block without a preprocessor. -/
def plainStyleLanguage : String := "css"

/-- The preprocessors that a style block may name. -/
def stylePreprocessors : List String :=
  ["sass", "scss", "less", "postcss", "stylus"]

/-- The script languages between which a project chooses its default. -/
inductive ScriptLanguage where
  | js
  | ts
  deriving DecidableEq, Repr, Inhabited

/-- The id of a script language. -/
def ScriptLanguage.id : ScriptLanguage → String
  | .js => "js"
  | .ts => "ts"

/-- The script language with the given id. -/
def ScriptLanguage.ofId? : String → Option ScriptLanguage
  | "js" => some .js
  | "ts" => some .ts
  | _ => none

/-- Whether a language id is one of the style languages. -/
def isStyleLanguage (id : String) : Bool :=
  id == plainStyleLanguage || stylePreprocessors.contains id

/-- Whether a language id is one of the script languages. -/
def isScriptLanguage (id : String) : Bool :=
  ["js", "ts", "jsx", "tsx"].contains id

/-- The language of a style block: the preprocessor that `lang` names, else the plain one. -/
def styleLanguage (lang : Option String) : String :=
  match lang with
  | some l => if stylePreprocessors.contains l then l else plainStyleLanguage
  | none => plainStyleLanguage

/-- The language of a script block: what `lang` says, with the two long names shortened, and the
default if it says nothing. -/
def scriptLanguage (lang : Option String) (default : ScriptLanguage) : String :=
  match lang with
  | some l =>
    if l == "typescript" then ScriptLanguage.ts.id
    else if l == "javascript" then ScriptLanguage.js.id
    else if l.isEmpty then default.id
    else l
  | none => default.id

end Mosaic
