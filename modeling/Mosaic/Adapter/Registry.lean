import Mosaic.Metadata.Adapter
import Mosaic.Style.Adapter
import Mosaic.Unicode.Printable
import Std.Data.TreeMap

/-!
# The adapters of a server

A `Registry` holds at most one adapter for each language.  `Registry.builtinWith` serves the style
languages and the metadata block; other adapters are added by `Registry.register`.
-/

namespace Mosaic

/-- Adapters by the language they serve. -/
structure Registry where
  adapters : Std.TreeMap String Adapter := ∅

namespace Registry

/-- The adapter for a language. -/
def get? (r : Registry) (language : String) : Option Adapter :=
  r.adapters[language]?

/-- The registry with one more adapter, which takes the place of one for the same language. -/
def register (r : Registry) (a : Adapter) : Registry :=
  ⟨r.adapters.insert a.id a⟩

/-- The registry with the adapters for the style languages and the metadata block, which is read as
YAML by the given reader. -/
def builtinWith (yaml : Metadata.Reader) : Registry :=
  ((plainStyleLanguage :: stylePreprocessors).map Style.adapter ++ [Metadata.adapter yaml]).foldl
    register {}

/-- The languages that are served, in ascending order. -/
def languages (r : Registry) : List String :=
  r.adapters.keys

/-- A description for logs. -/
def describe (r : Registry) : String :=
  let ids := ", ".intercalate (r.languages.map quotedText)
  "AdapterRegistry \x7b languages: [" ++ ids ++ "] \x7d"

end Registry

end Mosaic
