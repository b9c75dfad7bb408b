import Mosaic.Number.Double
import Mosaic.Yaml.Tag

/-!
# YAML values

The values that nodes denote, and which of them are the same: the keys of a mapping have to be
different values.  A plain scalar is read as the most special value that it can denote: nothing,
a truth value, a number, and a text only in the end (`Value.ofPlain`).
-/

namespace Mosaic.Yaml

/-- A number. -/
inductive Number where
  | int (n : Int)
  | float (d : Double)
  deriving DecidableEq, Repr

namespace Number

/-- Whether two numbers are the same; an integer is never the same as a fraction. -/
def same : Number → Number → Bool
  | .int m, .int n => m == n
  | .float c, .float d => c.same d
  | _, _ => false

/-- A number as text. -/
def format : Number → String
  | .int n => toString n
  | .float d => String.ofList d.format

end Number

/-- A value. -/
inductive Value where
  | null
  | bool (b : Bool)
  | number (n : Number)
  | str (t : Text)
  | seq (items : List Value)
  | map (entries : List (Value × Value))
  | tagged (tag : Octets) (v : Value)
  deriving Repr, Inhabited

namespace Value

/-- A tag without the mark in front of it. -/
def bareTag (t : Octets) : Octets :=
  match t with
  | 33 :: (b :: bs) => b :: bs
  | other => other

/-- Whether two values are the same.  The order of the entries of a mapping does not matter. -/
def same : Value → Value → Bool
  | .null, .null => true
  | .bool a, .bool b => a == b
  | .number a, .number b => a.same b
  | .str a, .str b => a == b
  | .seq as, .seq bs => sameItems as bs
  | .map as, .map bs => as.length == bs.length && sameEntries as bs
  | .tagged s a, .tagged t b => bareTag s == bareTag t && same a b
  | _, _ => false
where
  /-- Whether two sequences are the same. -/
  sameItems : List Value → List Value → Bool
    | [], [] => true
    | a :: as, b :: bs => same a b && sameItems as bs
    | _, _ => false
  /-- Whether each entry of a mapping is one of another. -/
  sameEntries : List (Value × Value) → List (Value × Value) → Bool
    | [], _ => true
    | (k, v) :: as, bs => bs.any (fun (l, w) => same k l && same v w) && sameEntries as bs

/-! ## Numbers in plain scalars -/

/-- The text after `stem`, if it starts with it. -/
def after? (stem t : Text) : Option Text :=
  if stem.isPrefixOf t then some (t.drop stem.length) else none

/-- Whether a text starts with a sign. -/
def startsWithSign (t : Text) : Bool :=
  t.head? = some '+' || t.head? = some '-'

/-- The natural number that digits in a base denote. -/
def digits? (base : Nat) (t : Text) : Option Nat :=
  if t.isEmpty || !t.all (fun c => isHexDigit c && hexValue c < base) then none
  else some (t.foldl (fun n c => n * base + hexValue c) 0)

/-- The bases of integers, with what shows them. -/
def bases : List (Text × Nat) :=
  [(['0', 'x'], 16), (['0', 'o'], 8), (['0', 'b'], 2)]

/-- Whether a text is of digits only and starts with a zero that does not stand alone, so that it
is no number. -/
def hasLeadingZero (t : Text) : Bool :=
  let t := if startsWithSign t then t.tail else t
  t.length > 1 && t.head? = some '0' && t.all Char.isDigit

/-- The number that a text without a minus sign denotes, if it is below `limit`. -/
def unsigned? (limit : Nat) (t : Text) : Option Nat :=
  let bare := (after? ['+'] t).getD t
  let below (n : Option Nat) : Option Nat := n.filter (· < limit)
  let inBase (rule : Text × Nat) : Option (Option Nat) :=
    match after? rule.1 bare with
    | none => none
    | some ds =>
      if startsWithSign ds then some none else (below (digits? rule.2 ds)).map some
  match bases.findSome? inBase with
  | some answer => answer
  | none =>
    if startsWithSign bare || hasLeadingZero t then none else below (digits? 10 bare)

/-- The number that a text with a minus sign denotes, if its size is at most `limit`. -/
def negative? (limit : Nat) (t : Text) : Option Int :=
  let within (n : Option Nat) : Option Int := (n.filter (· ≤ limit)).map fun n => -(n : Int)
  let inBase (rule : Text × Nat) : Option Int :=
    (after? ('-' :: rule.1) t).bind fun ds => within (digits? rule.2 ds)
  match bases.findSome? inBase with
  | some n => some n
  | none => if hasLeadingZero t then none else (after? ['-'] t).bind fun ds => within (digits? 10 ds)

/-- An integer in a plain scalar: of 64 bits, or of more than that. -/
inductive Integer where
  | word (n : Int)
  | long (n : Int)

/-- The integer that a text denotes, if it has at most 128 bits. -/
def integer? (t : Text) : Option Integer :=
  match unsigned? (Nat.pow 2 64) t, negative? (Nat.pow 2 63) t with
  | some n, _ => some (.word n)
  | none, some n => some (.word n)
  | none, none =>
    match unsigned? (Nat.pow 2 128) t, negative? (Nat.pow 2 127) t with
    | some n, _ => some (.long n)
    | none, some n => some (.long n)
    | none, none => none

/-- The number that a decimal fraction denotes, with an exponent or without. -/
def fraction? (t : Text) : Option Double :=
  let negative := t.head? = some '-'
  let t := if startsWithSign t then t.tail else t
  let whole := t.takeWhile Char.isDigit
  let t := t.dropWhile Char.isDigit
  let (places, t) := match after? ['.'] t with
    | some r => (r.takeWhile Char.isDigit, r.dropWhile Char.isDigit)
    | none => ([], t)
  if whole.isEmpty ∧ places.isEmpty then none
  else
    let exponent : Option Int := match t with
      | [] => some 0
      | e :: r =>
        if e = 'e' ∨ e = 'E' then
          let down := r.head? = some '-'
          let r := if startsWithSign r then r.tail else r
          (digits? 10 r).map fun n => if down then -(n : Int) else n
        else none
    exponent.bind fun exponent =>
      let ds := (whole ++ places).dropWhile (· == '0')
      let m := ds.foldl (fun n c => n * 10 + hexValue c) 0
      let e := exponent - places.length
      -- beyond these powers of ten a number is infinite or zero
      let top := (ds.length : Int) + e
      if m = 0 ∨ top < -400 then some (.ofRatio negative 0 1)
      else if top > 400 then none
      else
        let (num, den) := scaledRatio 10 m e
        let d := Double.ofRatio negative num den
        if d.isFinite then some d else none

/-- The fraction that a text denotes. -/
def float? (t : Text) : Option Double :=
  let bare := (after? ['+'] t).getD t
  if t.head? = some '+' ∧ startsWithSign bare then none
  else if [".inf".toList, ".Inf".toList, ".INF".toList].contains bare then some (.infinite false)
  else if ["-.inf".toList, "-.Inf".toList, "-.INF".toList].contains t then some (.infinite true)
  else if [".nan".toList, ".NaN".toList, ".NAN".toList].contains t then some .nan
  else fraction? bare

/-! ## Plain scalars -/

/-- Whether a text denotes nothing. -/
def isNull (t : Text) : Bool :=
  ["null".toList, "Null".toList, "NULL".toList, ['~']].contains t

/-- The truth value that a text denotes. -/
def bool? (t : Text) : Option Bool :=
  if ["true".toList, "True".toList, "TRUE".toList].contains t then some true
  else if ["false".toList, "False".toList, "FALSE".toList].contains t then some false
  else none

/-- The value that an integer denotes.  One of more than 64 bits is refused, which is told by the
integer itself. -/
def ofInteger : Integer → Except Int Value
  | .word n => .ok (.number (.int n))
  | .long n => .error n

/-- The value that a plain scalar denotes, unless it is an integer that is too long. -/
def ofPlain (t : Text) : Except Int Value :=
  if t.isEmpty || isNull t then .ok .null
  else
    match bool? t, integer? t with
    | some b, _ => .ok (.bool b)
    | none, some i => ofInteger i
    | none, none =>
      match if hasLeadingZero t then none else float? t with
      | some d => .ok (.number (.float d))
      | none => .ok (.str t)

end Value

end Mosaic.Yaml
