import Mosaic.Json.Basic
import Mosaic.SemanticToken

/-!
# What the server can do

The answer to the request with which a client sets up the server.
-/

namespace Mosaic.Capabilities

/-- The number of the way to synchronize texts in which a client sends changes only. -/
def incrementalSync : Nat := 2

/-- The characters at which a client asks for completions. -/
def completionTriggers : List String :=
  [".", ":", "<", "\"", "-"]

/-- The characters at which a client asks for help with the arguments of a call. -/
def signatureTriggers : List String :=
  ["(", ","]

/-- The kinds and modifiers of semantic tokens. -/
def legend : Json :=
  .obj [("tokenTypes", Json.list .str SemanticToken.kinds),
    ("tokenModifiers", Json.list .str SemanticToken.modifierNames)]

/-- All that the server can do. -/
def all : Json :=
  .obj [
    ("textDocumentSync",
      .obj [("openClose", .bool true), ("change", .nat incrementalSync), ("save", .bool true)]),
    ("hoverProvider", .bool true),
    ("completionProvider",
      .obj [("resolveProvider", .bool false),
        ("triggerCharacters", Json.list .str completionTriggers)]),
    ("signatureHelpProvider",
      .obj [("triggerCharacters", Json.list .str signatureTriggers)]),
    ("definitionProvider", .bool true),
    ("referencesProvider", .bool true),
    ("documentHighlightProvider", .bool true),
    ("documentSymbolProvider", .bool true),
    ("documentFormattingProvider", .bool true),
    ("codeActionProvider", .obj [("resolveProvider", .bool true)]),
    ("colorProvider", .bool true),
    ("semanticTokensProvider", .obj [("legend", legend), ("full", .bool true)])]

/-- The answer to the request that sets up the server. -/
def answer : Json :=
  .obj [("capabilities", all)]

end Mosaic.Capabilities
