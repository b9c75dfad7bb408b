import Mosaic.Protocol.Color
import Mosaic.Style.Sheet

/-!
# Colours in style sheets

Colours are looked for in the values of declarations: `#` and three, four, six or eight
hexadecimal digits, and `rgb(…)` or `rgba(…)` with decimal channels.  `colorsIn` finds them in a
value, `Color.hexLabel` and `Color.rgbLabel` write a colour in the two ways.
-/

namespace Mosaic

namespace Style

/-! ## Reading a colour -/

/-- The byte that two hexadecimal digits denote. -/
def hexByte (a b : Char) : Option Nat := do
  some ((← Digits.hex? a) * 16 + (← Digits.hex? b))

/-- A colour with the given bytes. -/
def colorOfBytes (r g b a : Nat) : Color :=
  ⟨.ofByte r, .ofByte g, .ofByte b, .ofByte a⟩

/-- The colour that hexadecimal digits denote; one digit stands for two equal ones. -/
def colorOfDigits? : List Char → Option Color
  | [r, g, b] => do some (colorOfBytes (← hexByte r r) (← hexByte g g) (← hexByte b b) 255)
  | [r, g, b, a] => do
    some (colorOfBytes (← hexByte r r) (← hexByte g g) (← hexByte b b) (← hexByte a a))
  | [r, s, g, h, b, c] => do
    some (colorOfBytes (← hexByte r s) (← hexByte g h) (← hexByte b c) 255)
  | [r, s, g, h, b, c, a, d] => do
    some (colorOfBytes (← hexByte r s) (← hexByte g h) (← hexByte b c) (← hexByte a d))
  | _ => none

/-- The colour in hexadecimal at the start of a text, and what follows it.  The digits have to
end a word. -/
def readHexColor? (t : Text) : Option (Color × Text) :=
  match t with
  | '#' :: r =>
    let digits := r.takeWhile fun c => (Digits.hex? c).isSome
    let rest := r.drop digits.length
    if rest.head?.any isWordChar then none else (colorOfDigits? digits).map (·, rest)
  | _ => none

/-- The text after white space. -/
def skipBlanks (t : Text) : Text :=
  t.dropWhile isBlank

/-- The text after a character and the white space on both sides of it. -/
def afterDelimiter? (c : Char) (t : Text) : Option Text :=
  match skipBlanks t with
  | d :: r => if d = c then some (skipBlanks r) else none
  | [] => none

/-- A channel of one to three digits that is at most 255, and what follows it. -/
def readChannel? (t : Text) : Option (Single × Text) :=
  let digits := t.takeWhile Char.isDigit
  if digits.isEmpty ∨ digits.length > 3 ∨ Digits.value digits > 255 then none
  else some (.ofByte (Digits.value digits), t.drop digits.length)

/-- An opacity, brought to at most one: digits, or a point with digits after it and perhaps
before. -/
def readAlpha? (t : Text) : Option (Single × Text) :=
  let whole := t.takeWhile Char.isDigit
  let t := t.drop whole.length
  let places := match t with
    | '.' :: r => r.takeWhile Char.isDigit
    | _ => []
  if places.isEmpty then
    if whole.isEmpty then none else some ((Single.ofRatio false (Digits.value whole) 1).clamp, t)
  else
    let scale := Nat.pow 10 places.length
    some ((Single.ofRatio false (Digits.value (whole ++ places)) scale).clamp,
      t.drop (places.length + 1))

/-- The text after `rgb` or `rgba` and the opening parenthesis. -/
def afterFunctionName? (t : Text) : Option Text :=
  match t with
  | 'r' :: 'g' :: 'b' :: 'a' :: '(' :: r => some r
  | 'r' :: 'g' :: 'b' :: '(' :: r => some r
  | _ => none

/-- The colour in decimal at the start of a text, and what follows it. -/
def readRgbColor? (t : Text) : Option (Color × Text) := do
  let t ← afterFunctionName? t
  let (red, t) ← readChannel? (skipBlanks t)
  let (green, t) ← readChannel? (← afterDelimiter? ',' t)
  let (blue, t) ← readChannel? (← afterDelimiter? ',' t)
  let (alpha, t) ← match afterDelimiter? ',' t with
    | some t => readAlpha? t
    | none => some (.one, t)
  match skipBlanks t with
  | ')' :: rest => some (⟨red, green, blue, alpha⟩, rest)
  | _ => none

/-! ## Finding colours -/

/-- Where `read?` finds a colour in the text from offset `start` on. -/
def findColors (read? : Text → Option (Color × Text)) (start : Nat) : Text → List (Span × Color)
  | [] => []
  | c :: r =>
    let found := match read? (c :: r) with
      | some (color, rest) => [(⟨start, start + (Text.bytes (c :: r) - Text.bytes rest)⟩, color)]
      | none => []
    found ++ findColors read? (start + c.utf8Size) r

/-- The colours in the text from offset `start` on, the hexadecimal ones first. -/
def colorsIn (start : Nat) (t : Text) : List (Span × Color) :=
  findColors readHexColor? start t ++ findColors readRgbColor? start t

/-- The colours in the values of a style sheet, in the order of their positions. -/
def colorsOf (t : Text) : List ColorInformation :=
  let masked := maskComments t
  let found := (Sheet.ofText t).declarations.flatMap fun d =>
    colorsIn d.value.start (d.value.textIn masked)
  (found.map fun (span, color) => (⟨span.rangeIn t, color⟩ : ColorInformation)).mergeSort
    fun a b => a.range.start.upTo b.range.start

end Style

/-! ## Writing a colour -/

namespace Color

/-- A channel as two hexadecimal digits. -/
def hexPair (s : Single) : List Char :=
  Digits.hexOf 2 s.toByte

/-- A colour in hexadecimal; an opacity that is not full makes a fourth pair of digits. -/
def hexLabel (c : Color) : String :=
  String.ofList ('#' :: hexPair c.red ++ hexPair c.green ++ hexPair c.blue ++
    if c.alpha.lessThanOne then hexPair c.alpha else [])

/-- A colour in decimal; an opacity that is not full is written with two places. -/
def rgbLabel (c : Color) : String :=
  let channels := s!"{c.red.toByte}, {c.green.toByte}, {c.blue.toByte}"
  if c.alpha.lessThanOne then
    let alpha := ((c.alpha.times 100).round.dividedBy 100).format
    s!"rgba({channels}, {String.ofList alpha})"
  else s!"rgb({channels})"

end Color

end Mosaic
