import Mosaic.Region.Language

/-!
# Regions

A region is a span of the host text that is written in one embedded language: a whole block, or
the value of an attribute.  Offsets count bytes of the host text.

Both ends belong to a region (`Region.contains`), so that a cursor just after its last character
is still in it.  Offsets from the start of the region are *local* (`Region.toLocal?`,
`Region.toHost`).
-/

namespace Mosaic

/-- A span of the host text in one embedded language. -/
structure Region where
  language : String
  start : Nat
  stop : Nat
  /-- The region is the value of an attribute, which is always on one line, and no block. -/
  inAttribute : Bool
  deriving DecidableEq, Repr

namespace Region

/-- A block of a language. -/
def block (language : String) (start stop : Nat) : Region :=
  ⟨language, start, stop, false⟩

/-- An attribute value in a language. -/
def ofAttribute (language : String) (start stop : Nat) : Region :=
  ⟨language, start, stop, true⟩

/-- Length in bytes. -/
def size (r : Region) : Nat :=
  r.stop - r.start

/-- Whether the region holds no text. -/
def isEmpty (r : Region) : Bool :=
  r.start == r.stop

/-- Whether a host offset lies in the region, both ends included. -/
def contains (r : Region) (offset : Nat) : Bool :=
  r.start ≤ offset && offset ≤ r.stop

/-- The local offset of a host offset in the region. -/
def toLocal? (r : Region) (offset : Nat) : Option Nat :=
  if r.contains offset then some (offset - r.start) else none

/-- The host offset of a local offset; past the region it is the end of the region. -/
def toHost (r : Region) (offset : Nat) : Nat :=
  r.start + min offset r.size

/-- Whether the region is in a style language. -/
def isStyle (r : Region) : Bool :=
  isStyleLanguage r.language

/-- Whether the region is in a script language. -/
def isScript (r : Region) : Bool :=
  isScriptLanguage r.language

/-- The text of the region in its host. -/
def textIn (r : Region) (host : Text) : Text :=
  Text.slice r.start r.stop host

end Region

end Mosaic
