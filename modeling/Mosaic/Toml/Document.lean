import Mosaic.Toml.Scalar

/-!
# TOML documents

A document is read line by line: a header opens a table, and every other line puts a value into
the table opened last (`Toml.read`).  A text that is no document, or one that makes a table or a
key twice, has no entries.

This and all that it reads with stands in for the library that a server reads its settings with, so
that it can be run (`Settings.ofToml`).  Nothing that is proved depends on it.
-/

namespace Mosaic.Toml

/-! ## White space and comments -/

/-- The text after a comment. -/
def skipComment (t : Text) : Text :=
  match t with
  | '#' :: r => r.dropWhile isPlain
  | t => t

/-- The text after spaces and a comment at the end of a line, and after the line break. -/
def afterLine? (t : Text) : Option Text :=
  let t := skipComment (skipSpaces t)
  if t.isEmpty then some [] else afterBreak? t

/-- The text after spaces, line breaks and comments, each of which ends with its line. -/
def skipLines : Nat → Text → Text
  | 0, t => t
  | fuel + 1, t =>
    let t := skipSpaces t
    match afterBreak? (skipComment t) with
    | some r => skipLines fuel r
    | none => t

/-! ## Keys -/

/-- The most parts a key may have, and the most arrays and tables a value may be nested in. -/
def nestingLimit : Nat := 79

/-- A character of a key without quotes. -/
def isKeyChar (c : Char) : Bool :=
  c.isAlphanum || c == '_' || c == '-'

/-- One part of a key. -/
def readKeyPart? (t : Text) : Option (Text × Text) :=
  match t with
  | '"' :: r => readBasic? r
  | '\'' :: r => readLiteral? r
  | t =>
    let name := t.takeWhile isKeyChar
    if name.isEmpty then none else some (name, t.drop name.length)

/-- The parts of a key that follow a dot, and the text after them and the spaces. -/
def readDots : Nat → Text → List Text × Text
  | 0, t => ([], t)
  | fuel + 1, t =>
    match t with
    | '.' :: r =>
      match readKeyPart? (skipSpaces r) with
      | none => ([], t)
      | some (k, r) =>
        let (ks, r) := readDots fuel (skipSpaces r)
        (k :: ks, r)
    | t => ([], t)

/-- A key: the tables that its dots lead through, its last part, and the text after the key and
the spaces around it. -/
def readKey? (t : Text) : Option (List Text × Text × Text) := do
  let (k, r) ← readKeyPart? (skipSpaces t)
  let (ks, r) := readDots r.length (skipSpaces r)
  let parts := k :: ks
  if parts.length > nestingLimit then none
  some (parts.dropLast, (parts.getLast?.getD []), r)

/-! ## Values -/

mutual

/-- A value, nested at most `depth` deep. -/
def readValue? : Nat → Nat → Text → Option (Value × Text)
  | 0, _, _ => none
  | fuel + 1, depth, t =>
    match t, depth with
    | '[' :: _, 0 => none
    | '\x7b' :: _, 0 => none
    | '[' :: r, depth + 1 => (readItems? fuel depth r).map fun (vs, r) => (.array vs, r)
    | '\x7b' :: r, depth + 1 =>
      (readEntries? fuel depth [] r).map fun (es, r) => (.table .closed es, r)
    | t, _ => readScalar? t

/-- The items of an array up to its end. -/
def readItems? : Nat → Nat → Text → Option (List Value × Text)
  | 0, _, _ => none
  | fuel + 1, depth, t =>
    match skipLines t.length t with
    | ']' :: r => some ([], r)
    | t => do
      let (v, r) ← readValue? fuel depth t
      match skipLines r.length r with
      | ']' :: r => some ([v], r)
      | ',' :: r =>
        let (vs, r) ← readItems? fuel depth r
        some (v :: vs, r)
      | _ => none

/-- The entries of a table in braces after the given ones, up to its end.  There is no comma
after the last one. -/
def readEntries? : Nat → Nat → Entries → Text → Option (Entries × Text)
  | 0, _, _, _ => none
  | fuel + 1, depth, es, t =>
    match es, skipSpaces t with
    | [], '\x7d' :: r => some ([], r)
    | es, t => do
      let (dots, k, r) ← readKey? t
      let (v, r) ← readValue? fuel depth (skipSpaces (← after? (· == '=') r))
      let es ← assign dots k v .closed es
      match skipSpaces r with
      | '\x7d' :: r => some (es, r)
      | ',' :: r => readEntries? fuel depth es r
      | _ => none

end

/-! ## Lines -/

/-- What has been read of a document. -/
structure Progress where
  root : Entries := []
  /-- The header whose table is open. -/
  header : List Text := []
  deriving Repr

/-- A header, which names a table or one more table of an array. -/
def readHeader? (p : Progress) (t : Text) : Option (Progress × Text) :=
  match t with
  | '[' :: '[' :: r => do
    let (dots, k, r) ← readKey? r
    let r ← (after? (· == ']') r).bind (after? (· == ']'))
    some (⟨← append dots k p.root, dots ++ [k]⟩, ← afterLine? r)
  | '[' :: r => do
    let (dots, k, r) ← readKey? r
    let r ← after? (· == ']') r
    some (⟨← define dots k p.root, dots ++ [k]⟩, ← afterLine? r)
  | _ => none

/-- A line that puts a value into the open table. -/
def readAssignment? (p : Progress) (t : Text) : Option (Progress × Text) := do
  let (dots, k, r) ← readKey? t
  let r := skipSpaces (← after? (· == '=') r)
  let (v, r) ← readValue? (r.length + 1) nestingLimit r
  let root ← within .implied (assign dots k v) p.header .headed p.root
  some (⟨root, p.header⟩, ← afterLine? r)

/-- The rest of a document. -/
def readLines? : Nat → Progress → Text → Option Entries
  | 0, _, _ => none
  | fuel + 1, p, t =>
    match skipLines t.length t with
    | [] => some p.root
    | '#' :: r => if (skipComment ('#' :: r)).isEmpty then some p.root else none
    | '[' :: r => do
      let (p, r) ← readHeader? p ('[' :: r)
      readLines? fuel p r
    | t => do
      let (p, r) ← readAssignment? p t
      readLines? fuel p r

/-- The entries of a document.  A byte order mark at its beginning is not part of it. -/
def read (t : Text) : Option Entries :=
  let t := match t with
    | '\ufeff' :: r => r
    | t => t
  readLines? (t.length + 1) {} t

end Mosaic.Toml
