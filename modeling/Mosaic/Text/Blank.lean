import Mosaic.Text.Measure

/-!
# White space, trimming and letter case

Two notions of white space are in use.  `isBlank` is the Unicode property `White_Space`, which
decides what is trimmed; `isMarkupBlank` is the five characters that separate the parts of a tag.
Letter case is ignored for ASCII letters only (`Text.sameIgnoringCase`).
-/

namespace Mosaic

/-- The characters with the Unicode property `White_Space`. -/
def isBlank (c : Char) : Bool :=
  let n := c.toNat
  (0x9 ≤ n && n ≤ 0xD) || n == 0x20 || n == 0x85 || n == 0xA0 || n == 0x1680 ||
    (0x2000 ≤ n && n ≤ 0x200A) || n == 0x2028 || n == 0x2029 || n == 0x202F || n == 0x205F ||
    n == 0x3000

/-- White space of markup: space, tab, line feed, form feed and carriage return. -/
def isMarkupBlank (c : Char) : Bool :=
  c == ' ' || c == '\t' || c == '\n' || c == '\x0c' || c == '\r'

namespace Text

/-- The text without leading white space. -/
def trimStart (t : Text) : Text :=
  t.dropWhile isBlank

/-- The text without trailing white space. -/
def trimEnd (t : Text) : Text :=
  (t.reverse.dropWhile isBlank).reverse

/-- The text without white space at either end. -/
def trim (t : Text) : Text :=
  trimEnd (trimStart t)

/-- The text with its ASCII letters in lower case. -/
def lower (t : Text) : Text :=
  t.map Char.toLower

/-- Whether two texts differ at most in the case of ASCII letters. -/
def sameIgnoringCase (a b : Text) : Bool :=
  lower a == lower b

/-- Whether `t` starts with `p`, ignoring the case of ASCII letters. -/
def startsIgnoringCase (p t : Text) : Bool :=
  sameIgnoringCase p (t.take p.length)

/-- Splits a text before the first of its suffixes that `found` accepts; without one, everything
is in the first part. -/
def breakAt (found : Text → Bool) : Text → Text × Text
  | [] => ([], [])
  | c :: r =>
    if found (c :: r) then ([], c :: r)
    else
      let (a, b) := breakAt found r
      (c :: a, b)

/-- Breaking a text loses nothing. -/
theorem breakAt_append (found : Text → Bool) (t : Text) :
    (breakAt found t).1 ++ (breakAt found t).2 = t := by
  induction t with
  | nil => rfl
  | cons c r ih =>
    by_cases h : found (c :: r) <;> simp [breakAt, h, ih]

/-- What follows the break is no longer than the text. -/
theorem length_breakAt_snd_le (found : Text → Bool) (t : Text) :
    (breakAt found t).2.length ≤ t.length := by
  have h := congrArg List.length (breakAt_append found t)
  simp only [List.length_append] at h
  omega

/-- Whether `p` occurs in `t`. -/
def contains (p : Text) : Text → Bool
  | [] => p.isEmpty
  | c :: r => p.isPrefixOf (c :: r) || contains p r

end Text

end Mosaic
