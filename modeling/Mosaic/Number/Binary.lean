import Mosaic.Json.Format

/-!
# Binary fractions and their shortest decimals

The formats of binary floating point, on natural numbers.  A magnitude is the bits of a number
below its sign.

* `BinaryFormat.parts` reads a magnitude as `m · 2 ^ q`.
* `BinaryFormat.nearest` is the magnitude nearest to a ratio, a tie going to the even neighbour.
* `BinaryFormat.shortest` finds the fewest decimal digits from which `nearest` gives a magnitude
  back, and of those the nearest.
-/

namespace Mosaic

/-- The whole number nearest to a ratio, a tie going to the even one. -/
def roundEven (num den : Nat) : Nat :=
  let n := num / den
  let twice := 2 * (num % den)
  if twice < den then n else if twice > den then n + 1 else n + n % 2

/-- The whole number nearest to a ratio, a tie going up. -/
def roundUp (num den : Nat) : Nat :=
  (2 * num + den) / (2 * den)

/-- The number `m · base ^ e` as a ratio. -/
def scaledRatio (base m : Nat) (e : Int) : Nat × Nat :=
  if e ≥ 0 then (m * Nat.pow base e.toNat, 1) else (m, Nat.pow base (-e).toNat)

/-- A format of binary floating point: the bits of the significand, the first one not stored,
and the exponent of the last of them in the smallest numbers. -/
structure BinaryFormat where
  precision : Nat
  leastExponent : Int
  deriving DecidableEq, Repr

/-- What a magnitude says. -/
inductive Magnitude where
  | nan
  | infinite
  /-- The number `m · 2 ^ q`. -/
  | finite (m : Nat) (q : Int)
  deriving DecidableEq, Repr

namespace BinaryFormat

/-- Single precision. -/
def single : BinaryFormat := ⟨24, -149⟩

/-- Double precision. -/
def double : BinaryFormat := ⟨53, -1074⟩

/-- The magnitude with a one in the last place of its exponent and nothing else. -/
def unit (f : BinaryFormat) : Nat :=
  Nat.pow 2 (f.precision - 1)

/-- What is added to the exponent of a number before it is stored. -/
def bias (f : BinaryFormat) : Nat :=
  (2 - f.leastExponent - f.precision).toNat

/-- The greatest exponent field, that of infinity. -/
def topExponent (f : BinaryFormat) : Nat :=
  2 * f.bias + 1

/-- The magnitude of infinity. -/
def infinity (f : BinaryFormat) : Nat :=
  f.topExponent * f.unit

/-- The significand and the exponent of a magnitude. -/
def parts (f : BinaryFormat) (n : Nat) : Magnitude :=
  let exponent : Nat := n / f.unit
  let fraction : Nat := n % f.unit
  if exponent = f.topExponent then (if fraction = 0 then .infinite else .nan)
  else if exponent = 0 then .finite fraction f.leastExponent
  else .finite (f.unit + fraction) (f.leastExponent + exponent - 1)

/-- The magnitude nearest to the ratio `num / den`, a tie going to the even neighbour.  From half
a step beyond the greatest number on it is infinite. -/
def nearest (f : BinaryFormat) (num den : Nat) : Nat :=
  if num = 0 then 0
  else
    let e : Int := (Nat.log2 num : Int) - Nat.log2 den
    -- the ratio lies between `2 ^ (e - 1)` and `2 ^ (e + 1)`
    let (a, b) := if e ≥ 0 then (num, den * Nat.pow 2 e.toNat)
      else (num * Nat.pow 2 (-e).toNat, den)
    let last : Int := f.precision - 1
    let q := max (if a ≥ b then e - last else e - last - 1) f.leastExponent
    let m := if q ≥ 0 then roundEven num (den * Nat.pow 2 q.toNat)
      else roundEven (num * Nat.pow 2 (-q).toNat) den
    min ((q - f.leastExponent).toNat * f.unit + m) f.infinity

/-! ## The shortest decimal -/

/-- Whether `digits · 10 ^ exponent` reads back as the magnitude `n`. -/
def readsBack (f : BinaryFormat) (n digits : Nat) (exponent : Int) : Bool :=
  let (num, den) := scaledRatio 10 digits exponent
  f.nearest num den == n

/-- On the grid of multiples of `10 ^ exponent`, the neighbour of `num / den` that reads back as
`n`; if both do, the nearer one, and of two equally near ones the upper. -/
def onGrid? (f : BinaryFormat) (n num den : Nat) (exponent : Int) : Option Nat :=
  let (a, b) := if exponent ≥ 0 then (num, den * Nat.pow 10 exponent.toNat)
    else (num * Nat.pow 10 (-exponent).toNat, den)
  let low := a / b
  let near := roundUp a b
  let far := if near = low then low + 1 else low
  if f.readsBack n near exponent then some near
  else if f.readsBack n far exponent then some far
  else none

/-- Tries the grids from `10 ^ exponent` on, each ten times finer than the one before. -/
def searchGrids (f : BinaryFormat) (n num den : Nat) : Nat → Int → Nat × Int
  | 0, exponent => (0, exponent)
  | fuel + 1, exponent =>
    match f.onGrid? n num den exponent with
    | some digits => (digits, exponent)
    | none => searchGrids f n num den fuel (exponent - 1)

/-- Drops the zeros at the end of `digits · 10 ^ exponent`. -/
def stripZeros : Nat → Nat → Int → Nat × Int
  | 0, digits, exponent => (digits, exponent)
  | fuel + 1, digits, exponent =>
    if digits ≠ 0 ∧ digits % 10 = 0 then stripZeros fuel (digits / 10) (exponent + 1)
    else (digits, exponent)

/-- The shortest decimal `digits · 10 ^ exponent` of a finite magnitude, looked for from one
digit on.  Seventeen digits always suffice. -/
def shortest (f : BinaryFormat) (n : Nat) : Nat × Int :=
  match f.parts n with
  | .finite m q =>
    let (num, den) := scaledRatio 2 m q
    let first : Int :=
      if num ≥ den then ((Digits.ofNat (num / den)).length : Int) - 1
      else -((Digits.ofNat (den / max num 1)).length : Int)
    let (digits, exponent) := f.searchGrids n num den 20 first
    stripZeros 20 digits exponent
  | _ => (0, 0)

end BinaryFormat

end Mosaic
