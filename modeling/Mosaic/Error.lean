/-!
# Errors

What can keep the server from answering a request, with the text and the code that a client gets
to see.
-/

namespace Mosaic

/-- The failure of the adapter for a language. -/
structure Failure where
  language : String
  message : String
  deriving DecidableEq, Repr

/-- Why there is no answer. -/
inductive Error where
  /-- The file is not open. -/
  | documentNotFound (uri : String)
  | adapter (failure : Failure)
  /-- The settings file cannot be read. -/
  | settings
  /-- A position of the answer needs more than 32 bits. -/
  | unsendable
  deriving DecidableEq, Repr

namespace Error

/-- What a client is told. -/
def message : Error → String
  | documentNotFound uri => s!"Document not found: {uri}"
  | adapter failure => s!"Adapter '{failure.language}' failed: {failure.message}"
  | settings => "Invalid settings"
  | unsendable => "Position out of range"

/-- The code of an error: a file that is not open makes the parameters invalid, all else is an
error of the server. -/
def code : Error → Int
  | documentNotFound _ => -32602
  | _ => -32603

end Error

end Mosaic
