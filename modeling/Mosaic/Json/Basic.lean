/-!
# JSON values

The values that a client and the server exchange.  Numbers are decimals, so that nothing is lost
on the way through; the members of an object keep the order in which they were written.

* `Json.get?` looks up a member, `Json.nat?` and its like read a value as one of a known shape.
* `Json.object` builds an object out of members of which some are absent.
-/

namespace Mosaic

/-- The number `mantissa / 10 ^ places`. -/
structure Decimal where
  mantissa : Int
  places : Nat
  deriving DecidableEq, Repr, Inhabited

namespace Decimal

/-- Drops trailing zeros after the point. -/
def strip (mantissa : Int) : Nat → Decimal
  | 0 => ⟨mantissa, 0⟩
  | places + 1 => if mantissa % 10 = 0 then strip (mantissa / 10) places else ⟨mantissa, places + 1⟩

/-- The number `mantissa · 10 ^ exponent`. -/
def scientific (mantissa exponent : Int) : Decimal :=
  if exponent ≥ 0 then ⟨mantissa * Nat.pow 10 exponent.toNat, 0⟩
  else strip mantissa (-exponent).toNat

/-- The value of a decimal that is a whole number. -/
def int? (d : Decimal) : Option Int :=
  if d.places = 0 then some d.mantissa else none

end Decimal

/-- A JSON value. -/
inductive Json where
  | null
  | bool (b : Bool)
  | num (n : Decimal)
  | str (s : String)
  | arr (items : List Json)
  | obj (members : List (String × Json))
  deriving Repr, Inhabited

namespace Json

/-- Structural equality. -/
def same : Json → Json → Bool
  | .null, .null => true
  | .bool a, .bool b => a == b
  | .num a, .num b => a == b
  | .str a, .str b => a == b
  | .arr as, .arr bs => sameItems as bs
  | .obj as, .obj bs => sameMembers as bs
  | _, _ => false
where
  /-- Equality of the items of two arrays. -/
  sameItems : List Json → List Json → Bool
    | [], [] => true
    | a :: as, b :: bs => same a b && sameItems as bs
    | _, _ => false
  /-- Equality of the members of two objects. -/
  sameMembers : List (String × Json) → List (String × Json) → Bool
    | [], [] => true
    | (k, a) :: as, (l, b) :: bs => k == l && same a b && sameMembers as bs
    | _, _ => false

instance : BEq Json := ⟨same⟩

/-- A whole number. -/
def int (n : Int) : Json :=
  .num ⟨n, 0⟩

/-- A natural number. -/
def nat (n : Nat) : Json :=
  .num ⟨n, 0⟩

/-- The value, or `null` without one. -/
def orNull {α : Type} (f : α → Json) : Option α → Json
  | some a => f a
  | none => .null

/-- An array of values. -/
def list {α : Type} (f : α → Json) (as : List α) : Json :=
  .arr (as.map f)

/-! ## Members of an object -/

/-- The members of an object, and of anything else none. -/
def members : Json → List (String × Json)
  | .obj ms => ms
  | _ => []

/-- The member with a given name. -/
def get? (j : Json) (key : String) : Option Json :=
  (j.members.find? (·.1 == key)).map (·.2)

/-- The member with a given name, unless it is `null`. -/
def given? (j : Json) (key : String) : Option Json :=
  match j.get? key with
  | some .null => none
  | other => other

/-- The members with the given names that are there and not `null`. -/
def pick (j : Json) (keys : List String) : List (String × Json) :=
  keys.filterMap fun k => (j.given? k).map (k, ·)

/-- One member. -/
def field (key : String) (value : Json) : List (String × Json) :=
  [(key, value)]

/-- A member that may be absent. -/
def field? {α : Type} (key : String) (f : α → Json) (value : Option α) : List (String × Json) :=
  (value.map fun a => (key, f a)).toList

/-- An object out of groups of members. -/
def object (groups : List (List (String × Json))) : Json :=
  .obj groups.flatten

/-! ## Values of a known shape -/

/-- A text. -/
def str? : Json → Option String
  | .str s => some s
  | _ => none

/-- A truth value. -/
def bool? : Json → Option Bool
  | .bool b => some b
  | _ => none

/-- A whole number. -/
def int? : Json → Option Int
  | .num d => d.int?
  | _ => none

/-- A natural number. -/
def nat? (j : Json) : Option Nat :=
  match j.int? with
  | some (.ofNat n) => some n
  | _ => none

/-- The items of an array. -/
def items? : Json → Option (List Json)
  | .arr items => some items
  | _ => none

/-- The items of an array, each read by `f`. -/
def list? {α : Type} (f : Json → Option α) (j : Json) : Option (List α) := do
  (← j.items?).mapM f

/-- A member that has to be there, read by `f`. -/
def read? {α : Type} (j : Json) (key : String) (f : Json → Option α) : Option α := do
  f (← j.get? key)

/-- A member that may be absent or `null`, read by `f`. -/
def readGiven? {α : Type} (j : Json) (key : String) (f : Json → Option α) : Option (Option α) :=
  match j.given? key with
  | none => some none
  | some v => (f v).map some

end Json

end Mosaic
