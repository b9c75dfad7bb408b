import Mosaic.Text.Position

/-!
# Semantic tokens

A semantic token colours a stretch of one line.  Languages report their tokens at absolute
positions; a client wants one stream, in order and without two tokens at one place, in which
each token tells its distance from the one before.

* `SemanticToken.ofSpan?` is the token of a span of bytes that stays on one line.
* `SemanticToken.merge` orders tokens and keeps the first of those at one place.
* `SemanticToken.deltas` turns an ordered list into distances, and `SemanticToken.ofDeltas` adds
  them up again.
-/

namespace Mosaic

/-- A token at an absolute position. -/
structure SemanticToken where
  line : Nat
  start : Nat
  length : Nat
  /-- Index into `SemanticToken.kinds`. -/
  kind : Nat
  /-- A bit for each of `SemanticToken.modifierNames`. -/
  modifiers : Nat
  deriving DecidableEq, Repr

/-- A token told by its distance from the token before: lines down, and UTF-16 units from that
token's start, or from the start of the line if the line is a new one. -/
structure TokenDelta where
  lines : Nat
  start : Nat
  length : Nat
  kind : Nat
  modifiers : Nat
  deriving DecidableEq, Repr

namespace SemanticToken

/-- The kinds of token, in the order in which they are numbered. -/
def kinds : List String :=
  ["namespace", "type", "class", "property", "variable", "function", "keyword", "string",
    "number", "comment", "operator"]

/-- The modifiers of a token, one bit each, the lowest first. -/
def modifierNames : List String :=
  ["declaration", "readonly", "defaultLibrary"]

/-- The number of the kind `property`. -/
def propertyKind : Nat := 3

/-- The bit of the modifier `declaration`. -/
def declarationModifier : Nat := 1

/-- The token of a span of bytes, if it is not empty and stays on one line. -/
def ofSpan? (t : Text) (start stop kind modifiers : Nat) : Option SemanticToken :=
  let first := Text.positionAt t start
  let last := Text.positionAt t stop
  if start < stop ∧ first.line = last.line then
    some ⟨first.line, first.character, last.character - first.character, kind, modifiers⟩
  else none

/-- Where a token starts. -/
def position (t : SemanticToken) : Position :=
  ⟨t.line, t.start⟩

/-- The token moved to another position. -/
def moveTo (t : SemanticToken) (p : Position) : SemanticToken :=
  { t with line := p.line, start := p.character }

/-! ## Merging -/

/-- Keeps the first of neighbouring tokens at one position; `last` is the position just kept. -/
def dropRepeats : Option Position → List SemanticToken → List SemanticToken
  | _, [] => []
  | last, t :: ts =>
    if last = some t.position then dropRepeats last ts
    else t :: dropRepeats (some t.position) ts

/-- The tokens in the order of their positions; of those at one position the one that came first
stays. -/
def merge (ts : List SemanticToken) : List SemanticToken :=
  dropRepeats none (ts.mergeSort fun a b => a.position.upTo b.position)

/-! ## Distances -/

/-- The distance of a token from a position. -/
def deltaFrom (p : Position) (t : SemanticToken) : TokenDelta :=
  ⟨t.line - p.line, if t.line = p.line then t.start - p.character else t.start,
    t.length, t.kind, t.modifiers⟩

/-- The distances in an ordered list of tokens that follows a token at `p`. -/
def deltasFrom : Position → List SemanticToken → List TokenDelta
  | _, [] => []
  | p, t :: ts => deltaFrom p t :: deltasFrom t.position ts

/-- The distances in an ordered list of tokens. -/
def deltas (ts : List SemanticToken) : List TokenDelta :=
  deltasFrom ⟨0, 0⟩ ts

/-- The token at a distance from a position. -/
def ofDelta (p : Position) (d : TokenDelta) : SemanticToken :=
  ⟨p.line + d.lines, if d.lines = 0 then p.character + d.start else d.start,
    d.length, d.kind, d.modifiers⟩

/-- The tokens that distances from `p` tell. -/
def ofDeltasFrom : Position → List TokenDelta → List SemanticToken
  | _, [] => []
  | p, d :: ds => ofDelta p d :: ofDeltasFrom (ofDelta p d).position ds

/-- The tokens that distances tell. -/
def ofDeltas (ds : List TokenDelta) : List SemanticToken :=
  ofDeltasFrom ⟨0, 0⟩ ds

end SemanticToken

namespace TokenDelta

/-- The five numbers of a distance, in the order in which they are sent. -/
def numbers (d : TokenDelta) : List Nat :=
  [d.lines, d.start, d.length, d.kind, d.modifiers]

end TokenDelta

end Mosaic
