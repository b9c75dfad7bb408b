import Mosaic.Number.Binary

/-!
# Single-precision numbers

The channels of a colour are binary fractions of 32 bits.  A `Single` is such a number by its
bits; its arithmetic is done exactly on whole numbers and rounded once.  `Single.format` writes
the shortest decimal that reads back, never with an exponent.
-/

namespace Mosaic

/-- A single-precision number, by its bits. -/
structure Single where
  bits : UInt32
  deriving DecidableEq, Repr, Inhabited

namespace Single

/-- A number with the given sign and magnitude. -/
def ofMagnitude (negative : Bool) (n : Nat) : Single :=
  ⟨UInt32.ofNat (if negative then Nat.pow 2 31 + n else n)⟩

/-- Whether the sign of a number is set. -/
def negative (s : Single) : Bool :=
  s.bits.toNat ≥ Nat.pow 2 31

/-- The bits of a number below its sign. -/
def magnitude (s : Single) : Nat :=
  s.bits.toNat % Nat.pow 2 31

/-- What the bits of a number below its sign say. -/
def parts (s : Single) : Magnitude :=
  BinaryFormat.single.parts s.magnitude

/-- The number nearest to a ratio. -/
def ofRatio (negative : Bool) (num den : Nat) : Single :=
  ofMagnitude negative (BinaryFormat.single.nearest num den)

/-- The number nearest to a decimal. -/
def ofDecimal (d : Decimal) : Single :=
  ofRatio (d.mantissa < 0) d.mantissa.natAbs (Nat.pow 10 d.places)

/-- The number zero. -/
def zero : Single :=
  ⟨0⟩

/-- The number one. -/
def one : Single :=
  ⟨0x3F800000⟩

/-- Whether a number is less than one. -/
def lessThanOne (s : Single) : Bool :=
  match s.parts with
  | .nan => false
  | .infinite => s.negative
  | .finite m q =>
    let (num, den) := scaledRatio 2 m q
    s.negative || num < den

/-- The number brought between zero and one. -/
def clamp (s : Single) : Single :=
  match s.parts with
  | .nan => s
  | .infinite => if s.negative then zero else one
  | .finite m _ =>
    if !s.lessThanOne then one
    else if s.negative && m != 0 then zero
    else s

/-- The number whose magnitude is the ratio that `f` makes of this one's, rounded once. -/
def mapRatio (f : Nat → Nat → Nat × Nat) (s : Single) : Single :=
  match s.parts with
  | .finite m q =>
    let (num, den) := scaledRatio 2 m q
    let (num, den) := f num den
    ofRatio s.negative num den
  | _ => s

/-- The number times a whole number. -/
def times (k : Nat) : Single → Single :=
  mapRatio fun num den => (num * k, den)

/-- The number divided by a whole number. -/
def dividedBy (k : Nat) : Single → Single :=
  mapRatio fun num den => (num, den * k)

/-- The nearest whole number, half a unit going away from zero. -/
def round : Single → Single :=
  mapRatio fun num den => (roundUp num den, 1)

/-- The byte that a channel stands for, channels beyond the ends taken as the ends. -/
def toByte (s : Single) : Nat :=
  match (times 255 s.clamp).parts with
  | .finite m q =>
    let (num, den) := scaledRatio 2 m q
    roundUp num den
  | _ => 0

/-- The channel that a byte stands for. -/
def ofByte (n : Nat) : Single :=
  ofRatio false n 255

/-- A number as text: its shortest decimal, never with an exponent. -/
def format (s : Single) : List Char :=
  let sign := if s.negative then ['-'] else []
  match s.parts with
  | .nan => ['N', 'a', 'N']
  | .infinite => sign ++ ['i', 'n', 'f']
  | .finite 0 _ => sign ++ ['0']
  | .finite _ _ =>
    let (digits, exponent) := BinaryFormat.single.shortest s.magnitude
    sign ++ (Decimal.scientific digits exponent).format

/-- A number as a JSON value; what is not finite is `null`. -/
def toJson (s : Single) : Json :=
  match s.parts with
  | .finite 0 _ => .nat 0
  | .finite _ _ =>
    let (digits, exponent) := BinaryFormat.single.shortest s.magnitude
    .num (Decimal.scientific (if s.negative then -(digits : Int) else digits) exponent)
  | _ => .null

end Single

end Mosaic
