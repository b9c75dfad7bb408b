import Mosaic.Protocol.Place

/-!
# Outlines

The outline of a file is a forest of symbols.  A symbol spans a range, and a part of it is the
range to select, its name as a rule.
-/

namespace Mosaic

/-- What an outline says of one symbol, its children apart. -/
structure SymbolInfo where
  name : String
  kind : Nat
  range : Range
  selection : Range
  /-- Detail, tags and deprecation, which are passed on as they are. -/
  others : List (String × Json) := []
  deriving Repr

namespace SymbolInfo

/-- The symbol with both its ranges translated. -/
def translate (f : Range → Option Range) (s : SymbolInfo) : Option SymbolInfo := do
  some { s with range := ← f s.range, selection := ← f s.selection }

end SymbolInfo

/-- A symbol of an outline: without a list of children, or with one, which may be empty. -/
inductive DocumentSymbol where
  | leaf (info : SymbolInfo)
  | node (info : SymbolInfo) (children : List DocumentSymbol)
  deriving Repr

namespace DocumentSymbol

/-- The symbol itself. -/
def info : DocumentSymbol → SymbolInfo
  | .leaf s => s
  | .node s _ => s

/-- The symbols inside. -/
def children : DocumentSymbol → List DocumentSymbol
  | .leaf _ => []
  | .node _ cs => cs

/-- The members of a symbol but its children. -/
def infoMembers (s : SymbolInfo) : List (String × Json) :=
  ("name", .str s.name) :: s.others ++
    [("kind", .nat s.kind), ("range", s.range.toJson), ("selectionRange", s.selection.toJson)]

/-- A symbol as JSON. -/
def toJson : DocumentSymbol → Json
  | .leaf s => .obj (infoMembers s)
  | .node s cs => .obj (infoMembers s ++ [("children", .arr (toJsons cs))])
where
  /-- Symbols as JSON. -/
  toJsons : List DocumentSymbol → List Json
    | [] => []
    | c :: cs => toJson c :: toJsons cs

/-- The symbol without children that a JSON value denotes. -/
def infoOfJson? (j : Json) : Option SymbolInfo := do
  some {
    name := ← j.read? "name" Json.str?
    kind := ← j.read? "kind" Json.nat?
    range := ← j.read? "range" Range.ofJson?
    selection := ← j.read? "selectionRange" Range.ofJson?
    others := j.pick ["detail", "tags", "deprecated"] }

/-- The symbol that a JSON value denotes, if symbols are nested at most `depth` deep in it. -/
def ofJson? : Nat → Json → Option DocumentSymbol
  | 0, _ => none
  | depth + 1, j => do
    let info ← infoOfJson? j
    match j.given? "children" with
    | none => some (.leaf info)
    | some cs => some (.node info (← cs.list? (ofJson? depth)))

/-- The symbol with all ranges translated, those of its children too. -/
def translate (f : Range → Option Range) : DocumentSymbol → Option DocumentSymbol
  | .leaf s => (s.translate f).map .leaf
  | .node s cs => do
    some (.node (← s.translate f) (← translateAll f cs))
where
  /-- Symbols with all ranges translated. -/
  translateAll (f : Range → Option Range) : List DocumentSymbol → Option (List DocumentSymbol)
    | [] => some []
    | c :: cs => do
      some ((← translate f c) :: (← translateAll f cs))

end DocumentSymbol

end Mosaic
