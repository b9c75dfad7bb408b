import Mosaic.Markup.Token

/-!
# From text to tokens

A `Cursor` stands somewhere in the markup: it knows the offset it has reached, the text that is
left, what it expects there (`Mode`) and the name of the start tag it met last, which decides
whether raw content follows.  `Cursor.step` makes one move; it may produce a token or only
change what is expected.  `Cursor.tokens` collects the tokens of all moves.

Every text is accepted: what is not recognised becomes a token of kind `other`, and a tag that
is never closed ends where the next markup begins.  The moves end because each one either reads
something or lowers the rank of the mode (`Cursor.weight_step_lt`).
-/

namespace Mosaic.Markup

/-- The elements whose content is not markup. -/
inductive RawElement where
  | script
  | style
  deriving DecidableEq, Repr

/-- The text that ends the content of such an element, in any letter case. -/
def RawElement.closing : RawElement → Text
  | .script => ['<', '/', 's', 'c', 'r', 'i', 'p', 't']
  | .style => ['<', '/', 's', 't', 'y', 'l', 'e']

/-- The kind of token that holds the content of such an element. -/
def RawElement.kind : RawElement → Kind
  | .script => .script
  | .style => .styles

/-- What a cursor expects to read next. -/
inductive Mode where
  /-- Text between tags. -/
  | content
  /-- The name of a start tag. -/
  | startTagName
  /-- The inside of a start tag. -/
  | insideTag
  /-- The inside of a start tag, just after an attribute name. -/
  | afterName
  /-- The value of an attribute, just after its `=`. -/
  | attributeValue
  /-- The name of an end tag. -/
  | endTagName
  /-- The inside of an end tag. -/
  | insideEndTag
  /-- The content of a raw element. -/
  | raw (element : RawElement)
  deriving DecidableEq, Repr

/-- How many moves a mode may make before it reads something. -/
def Mode.rank : Mode → Nat
  | .content => 0
  | .insideTag | .afterName | .insideEndTag | .raw _ => 1
  | .startTagName | .attributeValue | .endTagName => 2

theorem Mode.rank_content : Mode.content.rank = 0 := rfl

theorem Mode.rank_insideTag : Mode.insideTag.rank = 1 := rfl

theorem Mode.rank_afterName : Mode.afterName.rank = 1 := rfl

theorem Mode.rank_insideEndTag : Mode.insideEndTag.rank = 1 := rfl

theorem Mode.rank_attributeValue : Mode.attributeValue.rank = 2 := rfl

/-- What is expected after the `>` of a start tag with the given name. -/
def Mode.afterStartTag (name : Text) : Mode :=
  if Text.sameIgnoringCase name ['s', 'c', 'r', 'i', 'p', 't'] then .raw .script
  else if Text.sameIgnoringCase name ['s', 't', 'y', 'l', 'e'] then .raw .style
  else .content

/-- A place in markup that is being read. -/
structure Cursor where
  mode : Mode
  /-- The name of the last start tag. -/
  tag : Text
  /-- How many bytes have been read. -/
  offset : Nat
  /-- What is left to read. -/
  rest : Text
  deriving Repr

namespace Cursor

/-- The cursor at the beginning of a text. -/
def start (t : Text) : Cursor :=
  ⟨.content, [], 0, t⟩

/-- Reads `read`, leaves `rest`, and then expects `mode`; nothing comes of it. -/
def skip (c : Cursor) (mode : Mode) (read rest : Text) : Option Token × Cursor :=
  (none, { c with mode, offset := c.offset + Text.bytes read, rest })

/-- Reads `read` as one token, leaves `rest`, and then expects `mode`. -/
def emit (c : Cursor) (kind : Kind) (mode : Mode) (read rest : Text) : Option Token × Cursor :=
  (some ⟨kind, c.offset, read⟩, { c with mode, offset := c.offset + Text.bytes read, rest })

/-- The cursor after the white space it stands at. -/
def skipBlanks (c : Cursor) : Cursor :=
  { c with
    offset := c.offset + Text.bytes (c.rest.takeWhile isMarkupBlank)
    rest := c.rest.dropWhile isMarkupBlank }

/-! ## One move in each mode -/

/-- Text between tags: a comment up to its `-->`, the opening of a tag, an end tag without a
name up to its `>`, or everything before the next markup. -/
def stepContent (c : Cursor) : Option Token × Cursor :=
  match c.rest with
  | [] => (none, c)
  | x :: r =>
    if x = '<' ∧ ['!', '-', '-'].isPrefixOf r then
      let (before, after) := Text.breakAt (['-', '-', '>'].isPrefixOf ·) (x :: r)
      c.emit .other .content (before ++ after.take 3) (after.drop 3)
    else if x = '<' ∧ r.head? = some '/' then
      if (r.drop 1).head?.any isTagInitial then c.skip .endTagName ['<', '/'] (r.drop 1)
      else
        let (before, after) := Text.breakAt (['>'].isPrefixOf ·) (x :: r)
        c.emit .other .content (before ++ after.take 1) (after.drop 1)
    else if x = '<' ∧ r.head?.any isTagInitial then c.skip .startTagName ['<'] r
    else
      let (before, after) := Text.breakAt opensMarkup r
      c.emit .other .content (x :: before) after

/-- The name of a start tag, which is remembered. -/
def stepStartTagName (c : Cursor) : Option Token × Cursor :=
  let name := c.rest.takeWhile isNameChar
  { c with tag := name }.emit .startTag .insideTag name (c.rest.dropWhile isNameChar)

/-- The inside of a start tag, past white space: an `=` if a name came before, the end of the
tag, the `<` of other markup, an attribute name, or a stray character. -/
def stepInsideTag (c : Cursor) : Option Token × Cursor :=
  match c.rest with
  | [] => (none, c)
  | x :: r =>
    if x = '=' ∧ c.mode = .afterName then c.skip .attributeValue [x] r
    else if x = '/' ∧ r.head? = some '>' then
      c.emit .startTagSelfClose .content ['/', '>'] (r.drop 1)
    else if x = '>' then c.emit .startTagClose (.afterStartTag c.tag) [x] r
    else if x = '<' then c.skip .content [] c.rest
    else if isAttributeNameChar x then
      c.emit .attributeName .afterName (x :: r.takeWhile isAttributeNameChar)
        (r.dropWhile isAttributeNameChar)
    else c.emit .other .insideTag [x] r

/-- The value of an attribute, past white space: up to the closing quote if it opens with one,
nothing if the tag ends here, else up to white space or `>`. -/
def stepAttributeValue (c : Cursor) : Option Token × Cursor :=
  match c.rest with
  | [] => (none, c)
  | x :: r =>
    if x = '"' ∨ x = '\'' then
      let (before, after) := Text.breakAt ([x].isPrefixOf ·) r
      c.emit .attributeValue .insideTag (x :: (before ++ after.take 1)) (after.drop 1)
    else if x = '>' ∨ (x = '/' ∧ r.head? = some '>') then c.skip .insideTag [] c.rest
    else
      c.emit .attributeValue .insideTag (x :: r.takeWhile isBareValueChar)
        (r.dropWhile isBareValueChar)

/-- The name of an end tag. -/
def stepEndTagName (c : Cursor) : Option Token × Cursor :=
  c.emit .endTag .insideEndTag (c.rest.takeWhile isNameChar) (c.rest.dropWhile isNameChar)

/-- The inside of an end tag, past white space: its `>`, the `<` of other markup, or stray text
before either. -/
def stepInsideEndTag (c : Cursor) : Option Token × Cursor :=
  match c.rest with
  | [] => (none, c)
  | x :: r =>
    if x = '>' then c.emit .endTagClose .content [x] r
    else if x = '<' then c.skip .content [] c.rest
    else
      c.emit .other .insideEndTag (x :: r.takeWhile isStrayChar) (r.dropWhile isStrayChar)

/-- The content of a raw element, up to its end tag or the end of the text; empty content is no
token. -/
def stepRaw (c : Cursor) (element : RawElement) : Option Token × Cursor :=
  let (before, after) := Text.breakAt (Text.startsIgnoringCase element.closing) c.rest
  if before.isEmpty then c.skip .content [] c.rest
  else c.emit element.kind .content before after

/-- One move. -/
def step (c : Cursor) : Option Token × Cursor :=
  match c.mode with
  | .content => c.stepContent
  | .startTagName => c.stepStartTagName
  | .insideTag | .afterName => c.skipBlanks.stepInsideTag
  | .attributeValue => c.skipBlanks.stepAttributeValue
  | .endTagName => c.stepEndTagName
  | .insideEndTag => c.skipBlanks.stepInsideEndTag
  | .raw element => c.stepRaw element

/-! ## The moves come to an end -/

/-- What every move lowers: three for each character left, and the rank of the mode. -/
def weight (c : Cursor) : Nat :=
  3 * c.rest.length + c.mode.rank

theorem rank_afterStartTag_le (name : Text) : (Mode.afterStartTag name).rank ≤ 1 := by
  unfold Mode.afterStartTag
  split
  · simp [Mode.rank]
  · split <;> simp [Mode.rank]

theorem length_dropWhile_le (p : Char → Bool) (t : Text) : (t.dropWhile p).length ≤ t.length :=
  (List.dropWhile_suffix p).length_le

@[simp] theorem weight_skip (c : Cursor) (m : Mode) (read rest : Text) :
    (c.skip m read rest).2.weight = 3 * rest.length + m.rank := rfl

@[simp] theorem weight_emit (c : Cursor) (k : Kind) (m : Mode) (read rest : Text) :
    (c.emit k m read rest).2.weight = 3 * rest.length + m.rank := rfl

theorem weight_stepContent_lt (c : Cursor) (h : c.rest ≠ []) :
    c.stepContent.2.weight < 3 * c.rest.length := by
  unfold stepContent
  split
  · contradiction
  · next x r hr =>
    rw [hr]
    have hr' (f : Text → Bool) := Text.length_breakAt_snd_le f r
    have hx (f : Text → Bool) := Text.length_breakAt_snd_le f (x :: r)
    simp only [List.length_cons] at hx ⊢
    split
    · have := hx (['-', '-', '>'].isPrefixOf ·)
      simp only [weight_emit, Mode.rank, List.length_drop]; omega
    · split
      · split
        · next h2 _ =>
          have : r ≠ [] := by rintro rfl; simp at h2
          have := List.length_pos_iff.2 this
          simp only [weight_skip, Mode.rank, List.length_drop]; omega
        · have := hx (['>'].isPrefixOf ·)
          simp only [weight_emit, Mode.rank, List.length_drop]; omega
      · split
        · simp only [weight_skip, Mode.rank]; omega
        · have := hr' opensMarkup
          simp only [weight_emit, Mode.rank]; omega

theorem weight_stepInsideTag_lt (c : Cursor) (h : c.rest ≠ []) :
    c.stepInsideTag.2.weight < 3 * c.rest.length + 1 := by
  unfold stepInsideTag
  split
  · contradiction
  · next x r hr =>
    rw [hr]
    simp only [List.length_cons]
    have := rank_afterStartTag_le c.tag
    have := length_dropWhile_le isAttributeNameChar r
    repeat' split
    all_goals
      simp only [weight_emit, weight_skip, Mode.rank_content, Mode.rank_insideTag,
        Mode.rank_afterName, Mode.rank_attributeValue, List.length_drop, List.length_cons]
      omega

theorem weight_stepAttributeValue_lt (c : Cursor) (h : c.rest ≠ []) :
    c.stepAttributeValue.2.weight < 3 * c.rest.length + 2 := by
  unfold stepAttributeValue
  split
  · contradiction
  · next x r hr =>
    rw [hr]
    simp only [List.length_cons]
    have := Text.length_breakAt_snd_le ([x].isPrefixOf ·) r
    have := length_dropWhile_le isBareValueChar r
    repeat' split
    all_goals
      simp only [weight_emit, weight_skip, Mode.rank, List.length_drop, List.length_cons]
      omega

theorem weight_stepInsideEndTag_lt (c : Cursor) (h : c.rest ≠ []) :
    c.stepInsideEndTag.2.weight < 3 * c.rest.length + 1 := by
  unfold stepInsideEndTag
  split
  · contradiction
  · next x r hr =>
    rw [hr]
    simp only [List.length_cons]
    have := length_dropWhile_le isStrayChar r
    repeat' split
    all_goals
      simp only [weight_emit, weight_skip, Mode.rank, List.length_cons]
      omega

theorem weight_stepRaw_lt (c : Cursor) (e : RawElement) :
    (c.stepRaw e).2.weight < 3 * c.rest.length + 1 := by
  unfold stepRaw
  have := Text.length_breakAt_snd_le (Text.startsIgnoringCase e.closing) c.rest
  dsimp only
  split <;> simp only [weight_emit, weight_skip, Mode.rank] <;> omega

/-- White space is passed over without a change of mode. -/
theorem skipBlanks_mode (c : Cursor) : c.skipBlanks.mode = c.mode := rfl

theorem length_rest_skipBlanks_le (c : Cursor) : c.skipBlanks.rest.length ≤ c.rest.length :=
  length_dropWhile_le _ _

/-- **Every move lowers the weight** while there is something left to read. -/
theorem weight_step_lt (c : Cursor) (h : c.rest ≠ []) : c.step.2.weight < c.weight := by
  have hpos := List.length_pos_iff.2 h
  have hsk := length_rest_skipBlanks_le c
  unfold step
  split
  · next hm =>
    have := weight_stepContent_lt c h
    simp only [weight]; simp only [weight] at this; omega
  · next hm =>
    have := length_dropWhile_le isNameChar c.rest
    rw [stepStartTagName, weight_emit, Mode.rank_insideTag, weight, hm]; simp only [Mode.rank]; omega
  · next hm =>
    by_cases hs : c.skipBlanks.rest = []
    · simp only [stepInsideTag, hs, weight, skipBlanks_mode, hm, Mode.rank, List.length_nil]; omega
    · have := weight_stepInsideTag_lt _ hs
      simp only [weight, hm, Mode.rank] at this ⊢; omega
  · next hm =>
    by_cases hs : c.skipBlanks.rest = []
    · simp only [stepInsideTag, hs, weight, skipBlanks_mode, hm, Mode.rank, List.length_nil]; omega
    · have := weight_stepInsideTag_lt _ hs
      simp only [weight, hm, Mode.rank] at this ⊢; omega
  · next hm =>
    by_cases hs : c.skipBlanks.rest = []
    · simp only [stepAttributeValue, hs, weight, skipBlanks_mode, hm, Mode.rank, List.length_nil]
      omega
    · have := weight_stepAttributeValue_lt _ hs
      simp only [weight, hm, Mode.rank] at this ⊢; omega
  · next hm =>
    have := length_dropWhile_le isNameChar c.rest
    rw [stepEndTagName, weight_emit, Mode.rank_insideEndTag, weight, hm]; simp only [Mode.rank]; omega
  · next hm =>
    by_cases hs : c.skipBlanks.rest = []
    · simp only [stepInsideEndTag, hs, weight, skipBlanks_mode, hm, Mode.rank, List.length_nil]
      omega
    · have := weight_stepInsideEndTag_lt _ hs
      simp only [weight, hm, Mode.rank] at this ⊢; omega
  · next e hm =>
    have := weight_stepRaw_lt c e
    simp only [weight, hm, Mode.rank] at this ⊢; omega

/-! ## All moves -/

/-- The tokens from a cursor to the end of the text. -/
def tokens (c : Cursor) : List Token :=
  if h : c.rest = [] then []
  else
    have := weight_step_lt c h
    match c.step.1 with
    | none => c.step.2.tokens
    | some t => t :: c.step.2.tokens
termination_by c.weight

end Cursor

/-- The tokens of a text. -/
def tokens (t : Text) : List Token :=
  (Cursor.start t).tokens

end Mosaic.Markup
