import Mosaic.Number.Binary
import Mosaic.Toml.Value

/-!
# The scalars of TOML

Readers for what a value can be besides a table or an array: texts in four kinds of quotes, dates
and times, and numbers.  Each reader takes a text and gives what it has read with the text that
is left, or nothing if the text does not start with one of its kind.
-/

namespace Mosaic.Toml

/-! ## Characters -/

/-- A space or a tab. -/
def isSpace (c : Char) : Bool :=
  c == ' ' || c == '\t'

/-- A character that stands for itself in comments and quotes: all but control characters. -/
def isPlain (c : Char) : Bool :=
  c == '\t' || (0x20 ≤ c.toNat && c.toNat != 0x7F)

/-- The text after spaces and tabs. -/
def skipSpaces (t : Text) : Text :=
  t.dropWhile isSpace

/-- The text after a line break. -/
def afterBreak? : Text → Option Text
  | '\n' :: r => some r
  | '\r' :: '\n' :: r => some r
  | _ => none

/-! ## Texts in quotes -/

/-- The character with the number that hexadecimal digits denote. -/
def numbered? (digits : List Char) : Option Char := do
  let n := (← digits.mapM Digits.hex?).foldl (fun n d => n * 16 + d) 0
  if n.isValidChar then some (Char.ofNat n) else none

/-- The character that a one-letter escape stands for. -/
def escaped? : Char → Option Char
  | 'b' => some '\x08'
  | 't' => some '\t'
  | 'n' => some '\n'
  | 'f' => some '\x0c'
  | 'r' => some '\r'
  | '"' => some '"'
  | '\\' => some '\\'
  | _ => none

/-- Puts a character before a text that has been read. -/
def push (c : Char) (read : Option (Text × Text)) : Option (Text × Text) :=
  read.map fun (t, r) => (c :: t, r)

/-- A text after its opening double quote. -/
def readBasic? : Text → Option (Text × Text)
  | [] => none
  | '"' :: r => some ([], r)
  | '\\' :: 'u' :: a :: b :: c :: d :: r => do push (← numbered? [a, b, c, d]) (readBasic? r)
  | '\\' :: 'U' :: a :: b :: c :: d :: e :: f :: g :: h :: r => do
    push (← numbered? [a, b, c, d, e, f, g, h]) (readBasic? r)
  | '\\' :: c :: r => do push (← escaped? c) (readBasic? r)
  | c :: r => if isPlain c then push c (readBasic? r) else none

/-- A text after its opening single quote. -/
def readLiteral? : Text → Option (Text × Text)
  | [] => none
  | '\'' :: r => some ([], r)
  | c :: r => if isPlain c then push c (readLiteral? r) else none

/-- The end of a text of several lines: three quotes, before which up to two more belong to the
text. -/
def closing? (quote : Char) (t : Text) : Option (Text × Text) :=
  let run := (t.takeWhile (· == quote)).length
  if run < 3 then none
  else
    let own := min (run - 3) 2
    some (List.replicate own quote, t.drop (own + 3))

/-- Whether a line ends after spaces and tabs. -/
def endsLine (t : Text) : Bool :=
  (afterBreak? (skipSpaces t)).isSome

/-- A text of several lines after its three opening double quotes.  A backslash at the end of a
line swallows the white space after it, `folding` being set meanwhile. -/
def readMultiBasic? (folding : Bool) (t : Text) : Option (Text × Text) :=
  match t with
  | [] => none
  | '\r' :: '\n' :: r =>
    if folding then readMultiBasic? true r else push '\n' (readMultiBasic? false r)
  | '\\' :: 'u' :: a :: b :: c :: d :: r => do
    push (← numbered? [a, b, c, d]) (readMultiBasic? false r)
  | '\\' :: 'U' :: a :: b :: c :: d :: e :: f :: g :: h :: r => do
    push (← numbered? [a, b, c, d, e, f, g, h]) (readMultiBasic? false r)
  | '\\' :: c :: r =>
    if endsLine (c :: r) then readMultiBasic? true (c :: r)
    else do push (← escaped? c) (readMultiBasic? false r)
  | c :: r =>
    if folding && (isSpace c || c == '\n') then readMultiBasic? true r
    else if c = '"' then
      match closing? '"' (c :: r) with
      | some read => some read
      | none => push c (readMultiBasic? false r)
    else if isPlain c || c == '\n' then push c (readMultiBasic? false r)
    else none

/-- A text of several lines after its three opening single quotes. -/
def readMultiLiteral? (t : Text) : Option (Text × Text) :=
  match t with
  | [] => none
  | '\r' :: '\n' :: r => push '\n' (readMultiLiteral? r)
  | c :: r =>
    if c = '\'' then
      match closing? '\'' (c :: r) with
      | some read => some read
      | none => push c (readMultiLiteral? r)
    else if isPlain c || c == '\n' then push c (readMultiLiteral? r)
    else none

/-- A text in any quotes.  A line break right after three quotes is not part of it. -/
def readText? (t : Text) : Option (Text × Text) :=
  match t with
  | '"' :: '"' :: '"' :: r => readMultiBasic? false ((afterBreak? r).getD r)
  | '\'' :: '\'' :: '\'' :: r => readMultiLiteral? ((afterBreak? r).getD r)
  | '"' :: r => readBasic? r
  | '\'' :: r => readLiteral? r
  | _ => none

/-! ## Dates and times -/

/-- The text after a character. -/
def after? (p : Char → Bool) : Text → Option Text
  | [] => none
  | c :: r => if p c then some r else none

/-- A number of exactly `width` digits between two bounds. -/
def readField? (width low high : Nat) (t : Text) : Option (Nat × Text) :=
  let digits := t.take width
  let n := Digits.value digits
  if digits.length = width ∧ digits.all Char.isDigit ∧ low ≤ n ∧ n ≤ high then
    some (n, t.drop width)
  else none

/-- How many days a month has. -/
def daysIn (year month : Nat) : Nat :=
  if month = 2 then
    if year % 4 = 0 ∧ (year % 100 ≠ 0 ∨ year % 400 = 0) then 29 else 28
  else if [4, 6, 9, 11].contains month then 30
  else 31

/-- The text after a day. -/
def afterDay? (t : Text) : Option Text := do
  let (year, t) ← readField? 4 0 9999 t
  let (month, t) ← readField? 2 1 12 (← after? (· == '-') t)
  let (_, t) ← readField? 2 1 (daysIn year month) (← after? (· == '-') t)
  some t

/-- The text after an hour and a minute. -/
def afterHourAndMinute? (t : Text) : Option Text := do
  let (_, t) ← readField? 2 0 23 t
  let (_, t) ← readField? 2 0 59 (← after? (· == ':') t)
  some t

/-- The text after a time of day. -/
def afterTime? (t : Text) : Option Text := do
  let t ← afterHourAndMinute? t
  let (_, t) ← readField? 2 0 60 (← after? (· == ':') t)
  match t with
  | '.' :: r => if r.head?.any Char.isDigit then some (r.dropWhile Char.isDigit) else none
  | _ => some t

/-- The text after the distance of a time from Greenwich. -/
def afterZone? (t : Text) : Option Text :=
  match t with
  | c :: r =>
    if c = 'Z' ∨ c = 'z' then some r
    else if c = '+' ∨ c = '-' then afterHourAndMinute? r
    else none
  | [] => none

/-- The text after a date, a time or both. -/
def afterDate? (t : Text) : Option Text :=
  match afterDay? t with
  | none => afterTime? t
  | some day =>
    match (after? (fun c => c == 'T' || c == 't' || c == ' ') day).bind afterTime? with
    | none => some day
    | some time => some ((afterZone? time).getD time)

/-! ## Numbers -/

/-- Digits for which `isDigit` holds, single underscores between them left out. -/
def readDigits? (isDigit : Char → Bool) (t : Text) : Option (List Char × Text) :=
  match t with
  | [] => none
  | c :: r => if isDigit c then some (more c r) else none
where
  /-- The digits from `c` on, which is one. -/
  more (c : Char) : Text → List Char × Text
    | '_' :: d :: r =>
      if isDigit d then
        let (ds, r) := more d r
        (c :: ds, r)
      else ([c], '_' :: d :: r)
    | d :: r =>
      if isDigit d then
        let (ds, r) := more d r
        (c :: ds, r)
      else ([c], d :: r)
    | [] => ([c], [])

/-- Whether a sign is there and negative, and the text after it. -/
def readSign : Text → Bool × Text
  | '-' :: r => (true, r)
  | '+' :: r => (false, r)
  | t => (false, t)

/-- A whole number in decimal, without zeros in front. -/
def readWhole? (t : Text) : Option (List Char × Text) :=
  match t with
  | '0' :: r => some (['0'], r)
  | t => readDigits? Char.isDigit t

/-- An integer that fits into 64 bits. -/
def inWord? (n : Int) : Option Int :=
  let bound : Int := Nat.pow 2 63
  if -bound ≤ n ∧ n < bound then some n else none

/-- The number that digits denote in a base. -/
def valueIn (base : Nat) (digits : List Char) : Int :=
  digits.foldl (fun n d => n * base + ((Digits.hex? d).getD 0 : Nat)) 0

/-- An integer in another base than ten, after its prefix. -/
def readBased? (base : Nat) (t : Text) : Option (Int × Text) := do
  let (ds, r) ← readDigits? (fun c => (Digits.hex? c).any (· < base)) t
  some (← inWord? (valueIn base ds), r)

/-- An integer. -/
def readInteger? (t : Text) : Option (Int × Text) :=
  match t with
  | '0' :: 'x' :: r => readBased? 16 r
  | '0' :: 'o' :: r => readBased? 8 r
  | '0' :: 'b' :: r => readBased? 2 r
  | t => do
    let (negative, t) := readSign t
    let (ds, r) ← readWhole? t
    some (← inWord? (if negative then -valueIn 10 ds else valueIn 10 ds), r)

/-- Whether the number `digits · 10 ^ exponent` is too large for double precision. -/
def overflows (digits : List Char) (exponent : Int) : Bool :=
  let significant := digits.dropWhile (· == '0')
  let places := significant.length + exponent
  if significant.isEmpty ∨ places < 300 then false
  else if places > 310 then true
  else
    let (num, den) := scaledRatio 10 (Digits.value significant) exponent
    BinaryFormat.double.nearest num den == BinaryFormat.double.infinity

/-- The text after `inf` or `nan`. -/
def afterSpecial? : Text → Option Text
  | 'i' :: 'n' :: 'f' :: r => some r
  | 'n' :: 'a' :: 'n' :: r => some r
  | _ => none

/-- The exponent at the start of a text, if there is one. -/
def readExponent? (t : Text) : Option (Int × Text) := do
  let r ← after? (fun c => c == 'e' || c == 'E') t
  let (negative, r) := readSign r
  let (ds, r) ← readDigits? Char.isDigit r
  some (if negative then -valueIn 10 ds else valueIn 10 ds, r)

/-- The text after a number with a point or an exponent.  A positive one may not be too large. -/
def afterFloat? (t : Text) : Option Text :=
  let (negative, r) := readSign t
  match afterSpecial? r with
  | some r => some r
  | none => do
    let (whole, r) ← readWhole? r
    let fraction := (after? (· == '.') r).bind (readDigits? Char.isDigit)
    let (places, r) := fraction.getD ([], r)
    let exponent := readExponent? r
    let (e, r) := exponent.getD (0, r)
    if fraction.isNone ∧ exponent.isNone then none
    else if !negative && overflows (whole ++ places) (e - places.length) then none
    else some r

/-- A scalar. -/
def readScalar? (t : Text) : Option (Value × Text) :=
  match t with
  | [] => none
  | c :: _ =>
    if c = '"' ∨ c = '\'' then (readText? t).map fun (s, r) => (.text s, r)
    else if c.isDigit ∨ c = '+' ∨ c = '-' then
      match afterDate? t with
      | some r => some (.date, r)
      | none =>
        match afterFloat? t with
        | some r => some (.float, r)
        | none => (readInteger? t).map fun (n, r) => (.integer n, r)
    else
      match t with
      | 't' :: 'r' :: 'u' :: 'e' :: r => some (.boolean true, r)
      | 'f' :: 'a' :: 'l' :: 's' :: 'e' :: r => some (.boolean false, r)
      | t => (afterSpecial? t).map fun r => (.float, r)

end Mosaic.Toml
