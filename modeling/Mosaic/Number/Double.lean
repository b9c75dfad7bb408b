import Mosaic.Number.Binary

/-!
# Double-precision numbers

Numbers of 64 bits, as they occur in metadata.  They are read from decimals and written with the
fewest digits that read back: positionally while the point falls among or near the digits, else
with an exponent.
-/

namespace Mosaic

/-- A double-precision number, by its sign and the bits below it. -/
structure Double where
  negative : Bool
  magnitude : Nat
  deriving DecidableEq, Repr, Inhabited

namespace Double

/-- The number nearest to a ratio. -/
def ofRatio (negative : Bool) (num den : Nat) : Double :=
  ⟨negative, BinaryFormat.double.nearest num den⟩

/-- Infinity of either sign. -/
def infinite (negative : Bool) : Double :=
  ⟨negative, BinaryFormat.double.infinity⟩

/-- What is not a number. -/
def nan : Double :=
  ⟨false, BinaryFormat.double.infinity + BinaryFormat.double.unit / 2⟩

/-- Whether a number is neither infinite nor missing. -/
def isFinite (d : Double) : Bool :=
  match BinaryFormat.double.parts d.magnitude with
  | .finite _ _ => true
  | _ => false

/-- Whether two numbers are the same; both zeros are, and every missing number is the same. -/
def same (a b : Double) : Bool :=
  a == b || (a.magnitude == 0 && b.magnitude == 0) ||
    (a.magnitude > BinaryFormat.double.infinity && b.magnitude > BinaryFormat.double.infinity)

/-- The digits `digits`, `count` of them, with the point before place `point` of them. -/
def layout (digits : List Char) (point : Int) : List Char :=
  let count : Int := digits.length
  if count ≤ point ∧ point ≤ 16 then
    digits ++ List.replicate (point - count).toNat '0' ++ ['.', '0']
  else if 0 < point ∧ point ≤ 16 then
    digits.take point.toNat ++ '.' :: digits.drop point.toNat
  else if -5 < point ∧ point ≤ 0 then
    '0' :: '.' :: List.replicate (-point).toNat '0' ++ digits
  else
    let exponent := (toString (point - 1)).toList
    match digits with
    | [d] => d :: 'e' :: exponent
    | d :: ds => d :: '.' :: ds ++ 'e' :: exponent
    | [] => []

/-- A number as text. -/
def format (d : Double) : List Char :=
  let sign := if d.negative then ['-'] else []
  match BinaryFormat.double.parts d.magnitude with
  | .nan => ['.', 'n', 'a', 'n']
  | .infinite => sign ++ ['.', 'i', 'n', 'f']
  | .finite 0 _ => sign ++ ['0', '.', '0']
  | .finite _ _ =>
    let (digits, exponent) := BinaryFormat.double.shortest d.magnitude
    let digits := Digits.ofNat digits
    sign ++ layout digits (digits.length + exponent)

end Double

end Mosaic
