import Mosaic.Adapter.Registry
import Mosaic.Yaml.Load

/-!
# The adapters that come with the server

The adapter for the metadata block needs a reader for YAML.  When the server runs, `Yaml.reader`
stands in for the library that it uses.  The adapters and their routing are given any reader
(`Registry.builtinWith`), and nothing that is proved of them depends on this one.
-/

namespace Mosaic

/-- The reader for YAML that the server runs with. -/
def Yaml.reader : Metadata.Reader := fun t =>
  match Yaml.load t with
  | .ok (.map _) => .ok .mapping
  | .ok .null => .ok .null
  | .ok _ => .ok .other
  | .error e => .error ⟨e.message, e.mark?.map (·.index)⟩

/-- The adapters that come with the server. -/
def Registry.builtin : Registry :=
  .builtinWith Yaml.reader

end Mosaic
