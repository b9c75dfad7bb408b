import Mosaic.Json.Basic
import Mosaic.Text.Measure

/-!
# JSON as text

`Json.format` writes a value on one line, `Json.parse?` reads one.  The reader takes the grammar
of RFC 8259 and nothing else; an escaped surrogate without its other half has no character and
is refused.
-/

namespace Mosaic

/-! ## Digits -/

namespace Digits

/-- The value of a hexadecimal digit. -/
def hex? (c : Char) : Option Nat :=
  if '0' ≤ c ∧ c ≤ '9' then some (c.toNat - '0'.toNat)
  else if 'a' ≤ c ∧ c ≤ 'f' then some (c.toNat - 'a'.toNat + 10)
  else if 'A' ≤ c ∧ c ≤ 'F' then some (c.toNat - 'A'.toNat + 10)
  else none

/-- The value of a sequence of decimal digits. -/
def value (ds : List Char) : Nat :=
  ds.foldl (fun n d => n * 10 + (d.toNat - '0'.toNat)) 0

/-- The decimal digits of a number. -/
def ofNat (n : Nat) : List Char :=
  Nat.toDigits 10 n

/-- `n` in hexadecimal, with at least `width` lower-case digits. -/
def hexOf (width n : Nat) : List Char :=
  let ds := Nat.toDigits 16 n
  List.replicate (width - ds.length) '0' ++ ds

end Digits

namespace Decimal

/-- A decimal in positional notation. -/
def format (d : Decimal) : List Char :=
  let sign := if d.mantissa < 0 then ['-'] else []
  let digits := Digits.ofNat d.mantissa.natAbs
  if d.places = 0 then sign ++ digits
  else
    let digits := List.replicate (d.places + 1 - digits.length) '0' ++ digits
    let whole := digits.length - d.places
    sign ++ digits.take whole ++ '.' :: digits.drop whole

end Decimal

namespace Json

/-! ## Writing -/

/-- A character inside a quoted text. -/
def escape (c : Char) : List Char :=
  if c = '"' then ['\\', '"']
  else if c = '\\' then ['\\', '\\']
  else if c = '\n' then ['\\', 'n']
  else if c = '\r' then ['\\', 'r']
  else if c = '\t' then ['\\', 't']
  else if c.toNat < 0x20 then '\\' :: 'u' :: Digits.hexOf 4 c.toNat
  else [c]

/-- A quoted text. -/
def quote (s : String) : List Char :=
  '"' :: s.toList.flatMap escape ++ ['"']

/-- The characters of a value on one line. -/
def chars : Json → List Char
  | .null => ['n', 'u', 'l', 'l']
  | .bool true => ['t', 'r', 'u', 'e']
  | .bool false => ['f', 'a', 'l', 's', 'e']
  | .num d => d.format
  | .str s => quote s
  | .arr items => '[' :: charsOfItems items ++ [']']
  | .obj members => '\x7b' :: charsOfMembers members ++ ['\x7d']
where
  /-- The items of an array, with commas between them. -/
  charsOfItems : List Json → List Char
    | [] => []
    | [j] => chars j
    | j :: js => chars j ++ ',' :: charsOfItems js
  /-- The members of an object, with commas between them. -/
  charsOfMembers : List (String × Json) → List Char
    | [] => []
    | [(k, j)] => quote k ++ ':' :: chars j
    | (k, j) :: ms => quote k ++ ':' :: chars j ++ ',' :: charsOfMembers ms

/-- A value as text. -/
def format (j : Json) : String :=
  String.ofList j.chars

/-! ## Reading -/

/-- The text after white space. -/
def skipSpace (t : Text) : Text :=
  t.dropWhile fun c => c == ' ' || c == '\t' || c == '\n' || c == '\r'

/-- The character that a one-letter escape stands for. -/
def escaped? (c : Char) : Option Char :=
  if c = '"' ∨ c = '\\' ∨ c = '/' then some c
  else if c = 'b' then some '\x08'
  else if c = 'f' then some '\x0c'
  else if c = 'n' then some '\n'
  else if c = 'r' then some '\r'
  else if c = 't' then some '\t'
  else none

/-- The number that four hexadecimal digits stand for. -/
def unit? (a b c d : Char) : Option Nat := do
  some ((((← Digits.hex? a) * 16 + (← Digits.hex? b)) * 16 + (← Digits.hex? c)) * 16 +
    (← Digits.hex? d))

/-- The numbers of the characters up to a closing quote, an escaped UTF-16 unit as its own
number, and the text after the quote. -/
def readUnits : Text → Option (List Nat × Text)
  | [] => none
  | '"' :: r => some ([], r)
  | '\\' :: 'u' :: a :: b :: c :: d :: r => do
    let u ← unit? a b c d
    let (us, r) ← readUnits r
    some (u :: us, r)
  | '\\' :: c :: r => do
    let c ← escaped? c
    let (us, r) ← readUnits r
    some (c.toNat :: us, r)
  | c :: r => do
    if c.toNat < 0x20 then none
    let (us, r) ← readUnits r
    some (c.toNat :: us, r)

/-- The characters with the given numbers, two surrogates being one character. -/
def joinUnits : List Nat → Option Text
  | [] => some []
  | [u] => if 0xD800 ≤ u ∧ u < 0xE000 then none else some [Char.ofNat u]
  | u :: v :: us =>
    if 0xD800 ≤ u ∧ u < 0xDC00 then
      if 0xDC00 ≤ v ∧ v < 0xE000 then
        (joinUnits us).map (Char.ofNat (0x10000 + (u - 0xD800) * 0x400 + (v - 0xDC00)) :: ·)
      else none
    else if 0xDC00 ≤ u ∧ u < 0xE000 then none
    else (joinUnits (v :: us)).map (Char.ofNat u :: ·)

/-- A text whose opening quote has been read. -/
def readString? (t : Text) : Option (String × Text) := do
  let (us, r) ← readUnits t
  let cs ← joinUnits us
  some (String.ofList cs, r)

/-- A number at the start of a text. -/
def readNumber? (t : Text) : Option (Decimal × Text) :=
  let (negative, t) := match t with
    | '-' :: r => (true, r)
    | _ => (false, t)
  let whole := t.takeWhile Char.isDigit
  let t := t.dropWhile Char.isDigit
  if whole.isEmpty ∨ (whole.length > 1 ∧ whole.head? = some '0') then none
  else do
    let (fraction, t) ← match t with
      | '.' :: r =>
        let ds := r.takeWhile Char.isDigit
        if ds.isEmpty then none else some (ds, r.dropWhile Char.isDigit)
      | _ => some ([], t)
    let (exponent, t) ← match t with
      | e :: r =>
        if e = 'e' ∨ e = 'E' then
          let (down, r) := match r with
            | '-' :: r => (true, r)
            | '+' :: r => (false, r)
            | _ => (false, r)
          let ds := r.takeWhile Char.isDigit
          if ds.isEmpty then none
          else
            let n : Int := Digits.value ds
            some (if down then -n else n, r.dropWhile Char.isDigit)
        else some (0, t)
      | [] => some (0, t)
    let magnitude : Int := Digits.value (whole ++ fraction)
    let mantissa := if negative then -magnitude else magnitude
    some (Decimal.scientific mantissa (exponent - fraction.length), t)

/-- The text after `word`, if it starts with it. -/
def after? (word t : Text) : Option Text :=
  if word.isPrefixOf t then some (t.drop word.length) else none

mutual

/-- A value at the start of a text, its nesting at most `fuel`. -/
def readValue? : Nat → Text → Option (Json × Text)
  | 0, _ => none
  | fuel + 1, t =>
    match skipSpace t with
    | [] => none
    | c :: r =>
      if c = '"' then (readString? r).map fun (s, r) => (.str s, r)
      else if c = '[' then
        match skipSpace r with
        | ']' :: r => some (.arr [], r)
        | _ => (readItems? fuel r).map fun (js, r) => (.arr js, r)
      else if c = '\x7b' then
        match skipSpace r with
        | '\x7d' :: r => some (.obj [], r)
        | _ => (readMembers? fuel r).map fun (ms, r) => (.obj ms, r)
      else if c = 'n' then (after? ['u', 'l', 'l'] r).map (.null, ·)
      else if c = 't' then (after? ['r', 'u', 'e'] r).map (.bool true, ·)
      else if c = 'f' then (after? ['a', 'l', 's', 'e'] r).map (.bool false, ·)
      else (readNumber? (c :: r)).map fun (d, r) => (.num d, r)

/-- The items of an array up to its end. -/
def readItems? : Nat → Text → Option (List Json × Text)
  | 0, _ => none
  | fuel + 1, t => do
    let (j, r) ← readValue? fuel t
    match skipSpace r with
    | ',' :: r =>
      let (js, r) ← readItems? fuel r
      some (j :: js, r)
    | ']' :: r => some ([j], r)
    | _ => none

/-- The members of an object up to its end. -/
def readMembers? : Nat → Text → Option (List (String × Json) × Text)
  | 0, _ => none
  | fuel + 1, t =>
    match skipSpace t with
    | '"' :: r => do
      let (k, r) ← readString? r
      match skipSpace r with
      | ':' :: r =>
        let (j, r) ← readValue? fuel r
        match skipSpace r with
        | ',' :: r =>
          let (ms, r) ← readMembers? fuel r
          some ((k, j) :: ms, r)
        | '\x7d' :: r => some ([(k, j)], r)
        | _ => none
      | _ => none
    | _ => none

end

/-- The value that a whole text denotes. -/
def parse? (s : String) : Option Json := do
  let t := s.toList
  let (j, r) ← readValue? (t.length + 1) t
  if (skipSpace r).isEmpty then some j else none

end Json

end Mosaic
