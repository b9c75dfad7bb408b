import Mosaic.Yaml.Event

/-!
# YAML documents

A document is the list of its nodes' events, in which each alias is a reference to an anchor.
Reading stops at the first thing that is wrong; what came before it stays, and the document says
what it was (`Document.broken`).
-/

namespace Mosaic.Yaml

/-- Where a node begins or ends, or what it is. -/
inductive NodeEvent where
  /-- The node with the given anchor once more. -/
  | alias (anchor : Nat)
  | scalar (tag : Option Octets) (text : Text) (isPlain : Bool)
  | sequenceStart (tag : Option Octets)
  | sequenceEnd
  | mappingStart (tag : Option Octets)
  | mappingEnd
  /-- A document without a node. -/
  | void
  deriving DecidableEq, Repr

/-- Why a document breaks off. -/
inductive Breakage where
  | fault (f : Fault)
  | unknownAnchor (mark : Mark)
  deriving DecidableEq, Repr

/-- The nodes of a document, and where its anchors are among them. -/
structure Document where
  events : Array (NodeEvent × Mark) := #[]
  /-- The numbers of the anchor names in force. -/
  names : List (Text × Nat) := []
  /-- The index of the node that has an anchor, by the number of the anchor. -/
  anchors : List (Nat × Nat) := []
  broken : Option Breakage := none
  deriving Repr, Inhabited

namespace Document

/-- Adds an event. -/
def push (d : Document) (e : NodeEvent) (mark : Mark) : Document :=
  { d with events := d.events.push (e, mark) }

/-- Gives the next event an anchor.  Its number is that of the names in force, so a name that is
used again may take the number of another. -/
def define (d : Document) (anchor : Option Text) : Document :=
  match anchor with
  | none => d
  | some name =>
    let n := d.names.length
    { d with
      names := (name, n) :: d.names.filter (·.1 != name)
      anchors := (n, d.events.size) :: d.anchors }

/-- The event that has the anchor with number `n`. -/
def anchor? (d : Document) (n : Nat) : Option Nat :=
  (d.anchors.find? (·.1 == n)).map (·.2)

/-- Reads events up to the end of a document.  The reader comes back unless the stream has
ended; at the end of the stream `ended` is the document. -/
def readFrom (ended : Document → Mark → Option Document) :
    Nat → Document → EventReader → Option Document × Option EventReader
  | 0, d, r => (some d, some r)
  | fuel + 1, d, r =>
    match r.next with
    | .error f => (some { d with broken := some (.fault f) }, some r)
    | .ok (e, r) =>
      match e.kind with
      | .streamStart | .documentStart => readFrom ended fuel d r
      | .streamEnd => (ended d e.mark, none)
      | .documentEnd => (some d, some r)
      | .alias name =>
        match d.names.find? (·.1 == name) with
        | some (_, n) => readFrom ended fuel (d.push (.alias n) e.mark) r
        | none => (some { d with broken := some (.unknownAnchor e.mark) }, some r)
      | .scalar anchor tag text isPlain =>
        readFrom ended fuel ((d.define anchor).push (.scalar tag text isPlain) e.mark) r
      | .sequenceStart anchor tag =>
        readFrom ended fuel ((d.define anchor).push (.sequenceStart tag) e.mark) r
      | .sequenceEnd => readFrom ended fuel (d.push .sequenceEnd e.mark) r
      | .mappingStart anchor tag =>
        readFrom ended fuel ((d.define anchor).push (.mappingStart tag) e.mark) r
      | .mappingEnd => readFrom ended fuel (d.push .mappingEnd e.mark) r

/-- More events than a text of the given length can have. -/
def eventBound (t : Text) : Nat :=
  10 * t.length + 20

/-- The first document of a text, and whether anything but the end of the stream follows it.  A
stream without a document is one without a node. -/
def ofText (t : Text) : Except Fault (Document × Bool) := do
  checkCharacters t
  let bound := eventBound t
  let first (d : Document) (m : Mark) : Option Document :=
    some (if d.events.isEmpty then d.push .void m else d)
  match readFrom first bound {} (EventReader.ofText t) with
  | (d, none) => return (d.getD {}, false)
  | (d, some r) =>
    let more := (readFrom (fun _ _ => none) bound {} r).1.isSome
    return (d.getD {}, more)

end Document

end Mosaic.Yaml
