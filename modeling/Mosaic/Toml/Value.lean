import Mosaic.Text.Measure

/-!
# Tables of a TOML document

A document is a table, and it is built entry by entry: a header opens a table at a path of keys,
and a line puts a value at a further path, perhaps through tables that only dots have made.  Which
tables may still be added to depends on how they came about (`TableForm`).

* `within` goes down a path and changes the table at its end.
* `define` opens a table, `append` opens one more table of an array, and `assign` puts a value.
-/

namespace Mosaic.Toml

/-- How a table came about. -/
inductive TableForm where
  /-- By its own header, or as the document itself. -/
  | headed
  /-- By the header of a table further down. -/
  | implied
  /-- By the dots of a key. -/
  | dotted
  /-- By a pair of braces; such a table is complete. -/
  | closed
  deriving DecidableEq, Repr

/-- Whether dots may go through a table on their way down. -/
def TableForm.isPassable : TableForm → Bool
  | implied | dotted => true
  | headed | closed => false

/-- A value.  Numbers with a point and dates are known by their kind only. -/
inductive Value where
  | text (t : Text)
  | integer (n : Int)
  | float
  | boolean (b : Bool)
  | date
  | array (items : List Value)
  | table (form : TableForm) (entries : List (Text × Value))
  /-- The tables that repeated headers have made. -/
  | tables (items : List (List (Text × Value)))
  deriving Repr, Inhabited

/-- The entries of a table, in the order in which they were made. -/
abbrev Entries := List (Text × Value)

namespace Entries

/-- The value of a key. -/
def get? (es : Entries) (key : Text) : Option Value :=
  (es.find? (·.1 == key)).map (·.2)

/-- The entries with a value for a key, in the place of an older one. -/
def set (es : Entries) (key : Text) (v : Value) : Entries :=
  if (es.get? key).isSome then es.map fun (k, w) => (k, if k == key then v else w)
  else es ++ [(key, v)]

/-- The entries with a value for a new key. -/
def insertNew? (es : Entries) (key : Text) (v : Value) : Option Entries :=
  if (es.get? key).isSome then none else some (es.set key v)

end Entries

/-- Goes down a path of keys and changes the table there.  Missing tables on the way are made in
the form `made`; of an array of tables the last one is entered. -/
def within (made : TableForm) (change : TableForm → Entries → Option Entries) :
    List Text → TableForm → Entries → Option Entries
  | [], form, es => change form es
  | k :: path, _, es =>
    match es.get? k with
    | none => do
      let sub ← within made change path made []
      some (es.set k (.table made sub))
    | some (.table form sub) =>
      if form = .closed ∨ (made = .dotted ∧ !form.isPassable) then none
      else do
        let sub ← within made change path form sub
        some (es.set k (.table form sub))
    | some (.tables items) =>
      match items.reverse with
      | [] => none
      | last :: before => do
        let last ← within made change path .headed last
        some (es.set k (.tables (last :: before).reverse))
    | some _ => none

/-- Opens the table that a header names. -/
def define (parents : List Text) (key : Text) (root : Entries) : Option Entries :=
  within .implied (fun _ es =>
    match es.get? key with
    | none => some (es.set key (.table .headed []))
    | some (.table .implied sub) => some (es.set key (.table .headed sub))
    | some _ => none) parents .headed root

/-- Opens one more table of the array that a header names. -/
def append (parents : List Text) (key : Text) (root : Entries) : Option Entries :=
  within .implied (fun _ es =>
    match es.get? key with
    | none => some (es.set key (.tables [[]]))
    | some (.tables items) => some (es.set key (.tables (items ++ [[]])))
    | some _ => none) parents .headed root

/-- Puts a value into a table, through the tables that the dots of its key make. -/
def assign (dots : List Text) (key : Text) (v : Value) (form : TableForm) (es : Entries) :
    Option Entries :=
  within .dotted (fun form es =>
    if dots.isEmpty ∨ form = .dotted then es.insertNew? key v else none) dots form es

end Mosaic.Toml
