import Mosaic.Document.Snapshot

/-!
# Embedded documents

For one request an embedded document puts together the text of one language: that of all its
blocks, one after the other, or that of a single region.  Each `Segment` remembers where the text
of its region starts, and so positions go back and forth between the host file and the embedded
text.

* `Embedded.ofLanguage`, `Embedded.ofRegion` and `Embedded.forRequest` build one.
* `Embedded.toLocal?` and `Embedded.toHost?` translate positions, `Embedded.rangeToLocal?` and
  `Embedded.rangeToHost?` ranges.

An attribute value never leaves its line, so its positions are translated by shifting the
character (`PositionMap.inline`).  A shifted character that needs more than 32 bits cannot be
sent, and is no position.
-/

namespace Mosaic

/-- How positions go from one text to the other. -/
inductive PositionMap where
  /-- Through byte offsets of both texts. -/
  | offset
  /-- By shifting the character; the line is that of the region. -/
  | inline
  deriving DecidableEq, Repr

/-- A region, and the offset at which its text starts in the embedded text. -/
structure Segment where
  region : Region
  localStart : Nat
  deriving DecidableEq, Repr

/-- The offset at which the text of a segment ends in the embedded text. -/
def Segment.localStop (s : Segment) : Nat :=
  s.localStart + s.region.size

/-- The host offset of an offset of the embedded text, taken as one of this segment. -/
def Segment.toHost (s : Segment) (offset : Nat) : Nat :=
  s.region.toHost (offset - s.localStart)

/-- The text of one language of a host file. -/
structure Embedded where
  host : Snapshot
  language : String
  text : Text
  segments : List Segment
  mode : PositionMap
  deriving DecidableEq, Repr

/-- The number of values of a 32-bit word, beyond which no line or character can be sent. -/
def wordLimit : Nat := Nat.pow 2 32

namespace Embedded

/-- The segments of consecutive regions, the first of which starts at offset `n`. -/
def segmentsFrom (host : Text) : Nat → List Region → List Segment
  | _, [] => []
  | n, r :: rs => ⟨r, n⟩ :: segmentsFrom host (n + Text.bytes (r.textIn host)) rs

/-- The blocks of one language in a file. -/
def blocksOf (host : Snapshot) (language : String) : List Region :=
  host.regions.filter fun r => !r.inAttribute && r.language == language

/-- All blocks of one language, in host order. -/
def ofLanguage (host : Snapshot) (language : String) : Embedded :=
  let blocks := blocksOf host language
  { host, language, mode := .offset
    text := blocks.flatMap (·.textIn host.text)
    segments := segmentsFrom host.text 0 blocks }

/-- A single region. -/
def ofRegion (host : Snapshot) (r : Region) : Embedded :=
  { host, language := r.language
    mode := if r.inAttribute then .inline else .offset
    text := r.textIn host.text
    segments := [⟨r, 0⟩] }

/-- The document that serves a request in a region: the attribute value alone, or all blocks of
the region's language. -/
def forRequest (host : Snapshot) (r : Region) : Embedded :=
  if r.inAttribute then ofRegion host r else ofLanguage host r.language

/-- The file from which the text comes. -/
def uri (e : Embedded) : String :=
  e.host.uri

/-- The version of the file from which the text comes. -/
def version (e : Embedded) : Int :=
  e.host.version

/-- Whether no region contributes. -/
def isEmpty (e : Embedded) : Bool :=
  e.segments.isEmpty

/-! ## Offsets -/

/-- The segment of a local offset: the last one that starts there or before. -/
def segmentAt? (e : Embedded) (offset : Nat) : Option Segment :=
  (e.segments.takeWhile (·.localStart ≤ offset)).getLast?

/-- The local offset of a host offset: the one in the first region that contains it. -/
def offsetToLocal? (e : Embedded) (offset : Nat) : Option Nat :=
  e.segments.findSome? fun s => (s.region.toLocal? offset).map (s.localStart + ·)

/-- The host offset of a local offset.  Before every segment it is the start of the first. -/
def offsetToHost (e : Embedded) (offset : Nat) : Nat :=
  match e.segmentAt? offset with
  | some s => s.toHost offset
  | none => (e.segments.head?.map (·.region.start)).getD 0

/-! ## Positions -/

/-- Where the text of an inline fragment starts in the host file. -/
def anchor? (e : Embedded) : Option Position :=
  e.segments.head?.map fun s => e.host.positionAt s.region.start

/-- The local position of a host position, if it is in a region of this document. -/
def toLocal? (e : Embedded) (p : Position) : Option Position :=
  match e.mode with
  | .offset => (e.offsetToLocal? (e.host.offsetAt p)).map (Text.positionAt e.text)
  | .inline => do
    let anchor ← e.anchor?
    if p.line = anchor.line ∧ anchor.character ≤ p.character ∧
        p.character - anchor.character ≤ Text.units e.text then
      some ⟨0, p.character - anchor.character⟩
    else none

/-- The host position of a local position, if it can be sent. -/
def toHost? (e : Embedded) (p : Position) : Option Position :=
  match e.mode with
  | .offset => some (e.host.positionAt (e.offsetToHost (Text.offsetAt e.text p)))
  | .inline =>
    match e.anchor? with
    | some anchor =>
      if anchor.character + p.character < wordLimit then
        some ⟨anchor.line, anchor.character + p.character⟩
      else none
    | none => some p

/-- The local range of a host range, if both its ends are in regions of this document. -/
def rangeToLocal? (e : Embedded) (r : Range) : Option Range := do
  let start ← e.toLocal? r.start
  let stop ← e.toLocal? r.stop
  some ⟨start, stop⟩

/-- The host offsets of a span of the embedded text.  An end that is still in the segment of the
start stays there; else it belongs to the segment of its own offset. -/
def spanToHost (e : Embedded) (start stop : Nat) : Nat × Nat :=
  match e.segmentAt? start with
  | none => (e.offsetToHost start, e.offsetToHost start)
  | some s =>
    (s.toHost start, if stop ≤ s.localStop then s.toHost stop else e.offsetToHost stop)

/-- The host range of a local range, if it can be sent. -/
def rangeToHost? (e : Embedded) (r : Range) : Option Range :=
  match e.mode with
  | .inline => do
    let start ← e.toHost? r.start
    let stop ← e.toHost? r.stop
    some ⟨start, stop⟩
  | .offset =>
    let start := Text.offsetAt e.text r.start
    let stop := max start (Text.offsetAt e.text r.stop)
    let (first, last) := e.spanToHost start stop
    some ⟨e.host.positionAt first, e.host.positionAt last⟩

end Embedded

end Mosaic
