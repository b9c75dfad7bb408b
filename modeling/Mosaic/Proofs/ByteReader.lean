import Mosaic.Proofs.ByteText
import Mosaic.Proofs.TokenStream

/-!
# Reading markup byte by byte

A `Reader` makes the moves of a `Cursor` on the bytes of a text.  It knows nothing but offsets: what
it looks at is sliced out of the bytes, and a slice that is not between two boundaries stops it
(`Reader.step?`).

* `Reader.step?_follows` — a reader that follows a cursor is never stopped, and follows it on.
* `Reader.spans?_eq` — within three moves for each byte the reader comes to the end, with the spans
  of all tokens.
-/

namespace Mosaic.Markup

open Text Utf8

/-! ## Characters beyond ASCII -/

lemma isAlphanum_of_le {c : Char} (h : 128 ≤ c.toNat) : c.isAlphanum = false := by
  have hv : c.val.toNat = c.toNat := rfl
  have hZ : 'Z'.val.toNat = 90 := rfl
  have hz : 'z'.val.toNat = 122 := rfl
  have h9 : '9'.val.toNat = 57 := rfl
  simp only [Char.isAlphanum, Char.isAlpha, Char.isUpper, Char.isLower, Char.isDigit,
    UInt32.le_iff_toNat_le, ge_iff_le, Bool.or_eq_false_iff, Bool.and_eq_false_iff,
    decide_eq_false_iff_not, hv, hZ, hz, h9]
  omega

lemma beq_eq_false_of_le {c : Char} (h : 128 ≤ c.toNat) {x : Char} (hx : x.toNat < 128) :
    (c == x) = false := by
  rw [beq_eq_false_iff_ne]
  rintro rfl
  omega

lemma isTagInitial_of_le (c : Char) (h : 128 ≤ c.toNat) : isTagInitial c = false := by
  have := isAlphanum_of_le h
  simp only [Char.isAlphanum, Bool.or_eq_false_iff] at this
  exact this.1

lemma isNameChar_of_le (c : Char) (h : 128 ≤ c.toNat) : isNameChar c = false := by
  simp only [isNameChar, isAlphanum_of_le h, Bool.false_or, Bool.or_eq_false_iff]
  refine ⟨⟨⟨?_, ?_⟩, ?_⟩, ?_⟩ <;> exact beq_eq_false_of_le h (by decide)

lemma isMarkupBlank_of_le (c : Char) (h : 128 ≤ c.toNat) : isMarkupBlank c = false := by
  simp only [isMarkupBlank, Bool.or_eq_false_iff]
  refine ⟨⟨⟨⟨?_, ?_⟩, ?_⟩, ?_⟩, ?_⟩ <;> exact beq_eq_false_of_le h (by decide)

lemma isAttributeNameChar_of_le (c : Char) (h : 128 ≤ c.toNat) : isAttributeNameChar c = true := by
  have : (['/', '>', '=', '"', '\'', '<'].contains c) = false := by
    simp only [List.contains_cons, List.contains_nil, Bool.or_false, Bool.or_eq_false_iff]
    refine ⟨?_, ?_, ?_, ?_, ?_, ?_⟩ <;> exact beq_eq_false_of_le h (by decide)
  rw [isAttributeNameChar, isMarkupBlank_of_le c h, this]
  rfl

lemma isBareValueChar_of_le (c : Char) (h : 128 ≤ c.toNat) : isBareValueChar c = true := by
  rw [isBareValueChar, isMarkupBlank_of_le c h, bne, beq_eq_false_of_le h (by decide)]
  rfl

lemma isStrayChar_of_le (c : Char) (h : 128 ≤ c.toNat) : isStrayChar c = true := by
  rw [isStrayChar, bne, bne, beq_eq_false_of_le h (by decide), beq_eq_false_of_le h (by decide)]
  rfl

/-! ## The reader -/

/-- Where a token stands. -/
structure Span where
  kind : Kind
  start : Nat
  stop : Nat
  deriving DecidableEq, Repr

/-- Where a token stands. -/
def Token.span (t : Token) : Span :=
  ⟨t.kind, t.start, t.stop⟩

/-- A place in the bytes of markup. -/
structure Reader where
  mode : Mode
  /-- The name of the last start tag. -/
  tag : List UInt8
  pos : Nat

namespace Reader

/-- The reader at the beginning of a text. -/
def start : Reader :=
  ⟨.content, [], 0⟩

/-- Goes to an offset, and then expects `mode`. -/
def jump (r : Reader) (mode : Mode) (pos : Nat) : Option Span × Reader :=
  (none, { r with mode, pos })

/-- Reads a token up to an offset, and then expects `mode`. -/
def emit (r : Reader) (kind : Kind) (mode : Mode) (stop : Nat) : Option Span × Reader :=
  (some ⟨kind, r.pos, stop⟩, { r with mode, pos := stop })

/-- Where the bytes that pass a test end. -/
def runStop (bs : List UInt8) (p : UInt8 → Bool) (start : Nat) : Nat :=
  start + ((bs.drop start).takeWhile p).length

/-- The reader after the white space it stands at. -/
def skipBlanks (bs : List UInt8) (r : Reader) : Reader :=
  { r with pos := runStop bs (onByte isMarkupBlank false) r.pos }

/-- Whether bytes start like a tag, an end tag, a comment or a declaration. -/
def opensMarkupBytes : List UInt8 → Bool
  | a :: b :: _ =>
    a.toNat == '<'.toNat && onByte (fun c => isTagInitial c || c == '/' || c == '!') false b
  | _ => false

/-- Whether the bytes stand at the front. -/
def startsWith (t : Text) (bs : List UInt8) : Bool :=
  (utf8 t).isPrefixOf bs

/-- Where the first occurrence of a text behind an offset ends, or else the end. -/
def stopBehind (bs : List UInt8) (pos : Nat) (t : Text) (rest : List UInt8) : Nat :=
  (search? (startsWith t) rest).elim bs.length (pos + · + bytes t)

/-- Text between tags. -/
def stepContent? (bs : List UInt8) (r : Reader) : Option (Option Span × Reader) := do
  let rest ← from? bs r.pos
  if startsWith ['<', '!', '-', '-'] rest then
    return r.emit .other .content (stopBehind bs r.pos ['-', '-', '>'] rest)
  else if startsWith ['<', '/'] rest then
    if bs[r.pos + 2]?.any (onByte isTagInitial false) then return r.jump .endTagName (r.pos + 2)
    else return r.emit .other .content (stopBehind bs r.pos ['>'] (← from? bs r.pos))
  else if startsWith ['<'] rest ∧ bs[r.pos + 1]?.any (onByte isTagInitial false) then
    return r.jump .startTagName (r.pos + 1)
  else
    return r.emit .other .content
      ((search? opensMarkupBytes (bs.drop (r.pos + 1))).elim bs.length (r.pos + 1 + ·))

/-- The name of a start tag, which is remembered. -/
def stepStartTagName? (bs : List UInt8) (r : Reader) : Option (Option Span × Reader) := do
  let stop := runStop bs (onByte isNameChar false) r.pos
  return { r with tag := ← between? bs r.pos stop }.emit .startTag .insideTag stop

/-- What is expected after the `>` of a start tag with the given name. -/
def afterStartTag (tag : List UInt8) : Mode :=
  if sameBytes tag (utf8 ['s', 'c', 'r', 'i', 'p', 't']) then .raw .script
  else if sameBytes tag (utf8 ['s', 't', 'y', 'l', 'e']) then .raw .style
  else .content

/-- The inside of a start tag, past white space. -/
def stepInsideTag? (bs : List UInt8) (r : Reader) : Option (Option Span × Reader) := do
  let rest ← from? bs r.pos
  if rest.isEmpty then return (none, r)
  else if startsWith ['='] rest ∧ r.mode = .afterName then
    return r.jump .attributeValue (r.pos + 1)
  else if startsWith ['/', '>'] rest then return r.emit .startTagSelfClose .content (r.pos + 2)
  else if startsWith ['>'] rest then
    return r.emit .startTagClose (afterStartTag r.tag) (r.pos + 1)
  else if startsWith ['<'] rest then return r.jump .content r.pos
  else
    let stop := runStop bs (onByte isAttributeNameChar true) r.pos
    if r.pos < stop then return r.emit .attributeName .afterName stop
    else return r.emit .other .insideTag (r.pos + 1)

/-- The value of an attribute, past white space. -/
def stepAttributeValue? (bs : List UInt8) (r : Reader) : Option (Option Span × Reader) := do
  match bs[r.pos]? with
  | none => return r.jump .insideTag r.pos
  | some b =>
    if b.toNat = '"'.toNat ∨ b.toNat = '\''.toNat then
      let rest ← from? bs (r.pos + 1)
      return r.emit .attributeValue .insideTag
        (stopBehind bs (r.pos + 1) [Char.ofNat b.toNat] rest)
    else if b.toNat = '>'.toNat then return r.jump .insideTag r.pos
    else if startsWith ['/', '>'] (← from? bs r.pos) then return r.jump .insideTag r.pos
    else
      return r.emit .attributeValue .insideTag (runStop bs (onByte isBareValueChar true) r.pos)

/-- The name of an end tag. -/
def stepEndTagName (bs : List UInt8) (r : Reader) : Option Span × Reader :=
  r.emit .endTag .insideEndTag (runStop bs (onByte isNameChar false) r.pos)

/-- The inside of an end tag, past white space. -/
def stepInsideEndTag (bs : List UInt8) (r : Reader) : Option Span × Reader :=
  match bs[r.pos]? with
  | none => (none, r)
  | some b =>
    if b.toNat = '>'.toNat then r.emit .endTagClose .content (r.pos + 1)
    else if b.toNat = '<'.toNat then r.jump .content r.pos
    else r.emit .other .insideEndTag (runStop bs (onByte isStrayChar true) r.pos)

/-- The content of a raw element. -/
def stepRaw? (bs : List UInt8) (r : Reader) (element : RawElement) :
    Option (Option Span × Reader) := do
  let found ← findIgnoringCase? (utf8 element.closing) (← from? bs r.pos)
  let stop := found.elim bs.length (r.pos + ·)
  if r.pos < stop then return r.emit element.kind .content stop
  else return r.jump .content r.pos

/-- One move, unless a slice fails. -/
def step? (bs : List UInt8) (r : Reader) : Option (Option Span × Reader) :=
  match r.mode with
  | .content => r.stepContent? bs
  | .startTagName => r.stepStartTagName? bs
  | .insideTag | .afterName => (r.skipBlanks bs).stepInsideTag? bs
  | .attributeValue => (r.skipBlanks bs).stepAttributeValue? bs
  | .endTagName => some (r.stepEndTagName bs)
  | .insideEndTag => some ((r.skipBlanks bs).stepInsideEndTag bs)
  | .raw element => r.stepRaw? bs element

/-- The spans of all tokens from a place on, unless a slice fails or more than `fuel` moves are
needed. -/
def spans? (bs : List UInt8) : Nat → Reader → Option (List Span)
  | fuel, r =>
    if bs.length ≤ r.pos then some []
    else
      match fuel with
      | 0 => none
      | fuel + 1 => do
        let (span, r) ← r.step? bs
        return span.toList ++ (← spans? bs fuel r)

/-! ## Bytes and characters -/

section Bytes

variable {p : Char → Bool} {high : Bool}

lemma getElem?_utf8 (read rest : Text) (k : Nat) :
    (utf8 (read ++ rest))[bytes read + k]? = (utf8 rest)[k]? := by
  rw [utf8_append, ← length_utf8, List.getElem?_append_right (Nat.le_add_right ..),
    Nat.add_sub_cancel_left]

lemma runStop_utf8 (hp : ∀ c : Char, 128 ≤ c.toNat → p c = high) (read rest : Text) :
    runStop (utf8 (read ++ rest)) (onByte p high) (bytes read)
      = bytes read + bytes (rest.takeWhile p) := by
  rw [runStop, drop_utf8, takeWhile_utf8 hp, length_utf8]

lemma startsWith_utf8 {t : Text} (ht : ∀ x ∈ t, x.toNat < 128) (rest : Text) :
    startsWith t (utf8 rest) = t.isPrefixOf rest :=
  isPrefixOf_utf8 ht rest

/-- The first byte of a text, tested as its first character. -/
lemma any_head_utf8 (hp : ∀ c : Char, 128 ≤ c.toNat → p c = false) (t : Text) :
    (utf8 t)[0]?.any (onByte p false) = t.head?.any p := by
  cases t with
  | nil => rfl
  | cons c r =>
    obtain ⟨b, l, he, -⟩ := encode_eq_cons c
    simpa [utf8_cons, he] using onByte_of_mem_encode hp (c := c) (b := b) (by simp [he])

/-- A search for a text stops behind it. -/
lemma stopBehind_utf8 {x : Char} {t : Text} (ht : ∀ y ∈ x :: t, y.toNat < 128)
    (read rest : Text) :
    stopBehind (utf8 (read ++ rest)) (bytes read) (x :: t) (utf8 rest)
      = bytes read + bytes ((breakAt ((x :: t).isPrefixOf ·) rest).1
          ++ (breakAt ((x :: t).isPrefixOf ·) rest).2.take (x :: t).length) := by
  have hascii : ∀ (b : UInt8) l, 128 ≤ b.toNat → startsWith (x :: t) (b :: l) = false := by
    intro b l hb
    have hx := ht x (by simp)
    have hne : (UInt8.ofNat x.toNat == b) = false := by
      rw [beq_eq_false_iff_ne]
      rintro rfl
      rw [UInt8.toNat_ofNat'] at hb
      omega
    rw [startsWith, utf8_cons, encode_ascii hx, List.singleton_append, List.isPrefixOf, hne,
      Bool.false_and]
  have hb := breakAt_append ((x :: t).isPrefixOf ·) rest
  rw [stopBehind, search?_utf8 (startsWith_utf8 ht) hascii]
  split
  next h =>
    rw [h, List.append_nil] at hb
    rw [h, List.take_nil, List.append_nil, hb, Option.elim_none, length_utf8, bytes_append]
  next h =>
    have hfound := (breakAt_snd ((x :: t).isPrefixOf ·) rest).resolve_left h
    rw [List.isPrefixOf_iff_prefix, List.prefix_iff_eq_take] at hfound
    rw [Option.elim_some, bytes_append, ← hfound, Nat.add_assoc]

end Bytes

end Reader

/-! ## Following a cursor -/

/-- The reader that stands where a cursor stands. -/
def Cursor.reader (c : Cursor) : Reader :=
  ⟨c.mode, utf8 c.tag, c.offset⟩

/-- A move of a cursor, as a reader makes it. -/
def Cursor.readerMove (m : Option Token × Cursor) : Option Span × Reader :=
  (m.1.map Token.span, m.2.reader)

namespace Reader

open Cursor

variable {mode : Mode} {tag read rest : Text}

lemma emit_reader (c : Cursor) (kind : Kind) (m : Mode) {text : Text} (rest : Text) {stop : Nat}
    (h : stop = c.offset + bytes text) :
    c.reader.emit kind m stop = readerMove (c.emit kind m text rest) := by
  subst h
  rfl

lemma jump_reader (c : Cursor) (m : Mode) {text : Text} (rest : Text) {pos : Nat}
    (h : pos = c.offset + bytes text) : c.reader.jump m pos = readerMove (c.skip m text rest) := by
  subst h
  rfl

lemma stepStartTagName?_utf8 (tag read rest : Text) :
    (reader ⟨.startTagName, tag, bytes read, rest⟩).stepStartTagName? (utf8 (read ++ rest))
      = some (readerMove (stepStartTagName ⟨.startTagName, tag, bytes read, rest⟩)) := by
  have hsplit : rest.takeWhile isNameChar ++ rest.dropWhile isNameChar = rest :=
    List.takeWhile_append_dropWhile
  have hstop := runStop_utf8 isNameChar_of_le read rest
  have htag := between?_utf8 read (rest.takeWhile isNameChar) (rest.dropWhile isNameChar)
  rw [hsplit] at htag
  simp only [stepStartTagName?, reader, hstop, htag]
  rfl

lemma stepEndTagName_utf8 (tag read rest : Text) :
    (reader ⟨.endTagName, tag, bytes read, rest⟩).stepEndTagName (utf8 (read ++ rest))
      = readerMove (Cursor.stepEndTagName ⟨.endTagName, tag, bytes read, rest⟩) :=
  emit_reader _ _ _ _ (runStop_utf8 isNameChar_of_le read rest)

lemma startsWith_cons {y : Char} {t : Text} (ht : ∀ z ∈ y :: t, z.toNat < 128) (x : Char)
    (r : Text) : startsWith (y :: t) (utf8 (x :: r)) ↔ x = y ∧ t.isPrefixOf r := by
  rw [startsWith_utf8 ht, List.isPrefixOf, Bool.and_eq_true, beq_iff_eq, eq_comm]

lemma singleton_isPrefixOf (x : Char) (t : Text) : [x].isPrefixOf t ↔ t.head? = some x := by
  cases t with
  | nil => simp
  | cons y t => simp [eq_comm (a := x)]

lemma opensMarkupBytes_of_le {b : UInt8} (h : 128 ≤ b.toNat) (l : List UInt8) :
    opensMarkupBytes (b :: l) = false := by
  have hne : (b.toNat == '<'.toNat) = false := by
    rw [beq_eq_false_iff_ne]
    have : '<'.toNat = 60 := rfl
    omega
  cases l with
  | nil => rfl
  | cons a l => rw [opensMarkupBytes, hne, Bool.false_and]

lemma opensMarkupBytes_utf8 (t : Text) : opensMarkupBytes (utf8 t) = opensMarkup t := by
  have hp : ∀ c : Char, 128 ≤ c.toNat → (isTagInitial c || c == '/' || c == '!') = false := by
    intro c hc
    rw [isTagInitial_of_le c hc, beq_eq_false_of_le hc (by decide),
      beq_eq_false_of_le hc (by decide)]
    rfl
  cases t with
  | nil => rfl
  | cons x r =>
    by_cases hx : x = '<'
    · subst hx
      cases r with
      | nil => rfl
      | cons c r =>
        obtain ⟨b, l, he, -⟩ := encode_eq_cons c
        have hb := onByte_of_mem_encode hp (c := c) (b := b) (by simp [he])
        rw [utf8_cons, encode_ascii (by decide), utf8_cons, he]
        exact hb
    · have hno : opensMarkup (x :: r) = false := by
        unfold opensMarkup
        split
        next h => exact absurd (List.cons.inj h).1 hx
        next => rfl
      rw [hno, utf8_cons]
      by_cases hc : x.toNat < 128
      · have hne : ((UInt8.ofNat x.toNat).toNat == '<'.toNat) = false := by
          rw [beq_eq_false_iff_ne, UInt8.toNat_ofNat', Nat.mod_eq_of_lt (by omega)]
          intro h
          exact hx (by rw [← Char.ofNat_toNat x, h, Char.ofNat_toNat])
        rw [encode_ascii hc, List.singleton_append]
        cases utf8 r with
        | nil => rfl
        | cons b l => rw [opensMarkupBytes, hne, Bool.false_and]
      · obtain ⟨b, l, he, -⟩ := encode_eq_cons x
        rw [he, List.cons_append]
        exact opensMarkupBytes_of_le (le_of_mem_encode hc (by simp [he])) _

/-- Other markup is searched for from the byte behind the first one on, which may be within a
character. -/
lemma searchMarkup_utf8 (read : Text) (x : Char) (r : Text) :
    (search? opensMarkupBytes ((utf8 (read ++ x :: r)).drop (bytes read + 1))).elim
        (utf8 (read ++ x :: r)).length (bytes read + 1 + ·)
      = bytes read + bytes (x :: (breakAt opensMarkup r).1) := by
  obtain ⟨b, l, he, -, hl⟩ := encode_eq_cons x
  have hsize : x.utf8Size = l.length + 1 := by
    rw [← String.length_utf8EncodeChar, he, List.length_cons]
  have hhigh : ∀ y ∈ l, ∀ k, opensMarkupBytes (y :: k) = false := by
    intro y hy k
    refine opensMarkupBytes_of_le ?_ k
    have := hl y hy
    simp only [startsChar, Bool.or_eq_true, decide_eq_true_eq] at this
    omega
  have hdrop : (utf8 (read ++ x :: r)).drop (bytes read + 1) = l ++ utf8 r := by
    rw [← List.drop_drop, drop_utf8, utf8_cons, he]
    rfl
  have hb := breakAt_append opensMarkup r
  rw [hdrop, search?_append hhigh, search?_utf8 opensMarkupBytes_utf8
    (fun b l h => opensMarkupBytes_of_le h l), length_utf8]
  split
  next h =>
    rw [h, List.append_nil] at hb
    simp [hb]
  next h =>
    simp only [Option.map_some, Option.elim_some, bytes_cons, hsize]
    omega

lemma stepContent?_utf8 (tag read : Text) (x : Char) (r : Text) :
    (reader ⟨.content, tag, bytes read, x :: r⟩).stepContent? (utf8 (read ++ x :: r))
      = some (readerMove (stepContent ⟨.content, tag, bytes read, x :: r⟩)) := by
  have hfrom := from?_utf8 read (x :: r)
  have hcomment := startsWith_cons (y := '<') (t := ['!', '-', '-']) (by simp) x r
  have hend := startsWith_cons (y := '<') (t := ['/']) (by simp) x r
  have hslash : ['/'].isPrefixOf r ↔ r.head? = some '/' := by
    cases r with
    | nil => simp
    | cons y r => simp [eq_comm (a := '/')]
  have hopen := startsWith_cons (y := '<') (t := []) (by simp) x r
  have hpos : (reader ⟨.content, tag, bytes read, x :: r⟩).pos = bytes read := rfl
  simp only [stepContent?, hpos, hfrom, Option.bind_eq_bind, Option.bind_some, hcomment, hend,
    hslash, hopen, stepContent]
  by_cases h1 : x = '<' ∧ ['!', '-', '-'].isPrefixOf r
  · rw [if_pos h1, if_pos h1]
    exact congrArg some (emit_reader _ _ _ _ (stopBehind_utf8 (by simp) read (x :: r)))
  · rw [if_neg h1, if_neg h1]
    by_cases h2 : x = '<' ∧ r.head? = some '/'
    · rw [if_pos h2, if_pos h2]
      obtain ⟨rfl, hr⟩ := h2
      obtain ⟨r', rfl⟩ : ∃ r', r = '/' :: r' := by
        cases r with
        | nil => simp at hr
        | cons y r' => exact ⟨r', by simpa using hr⟩
      have hinitial : (utf8 (read ++ '<' :: '/' :: r'))[bytes read + 2]?.any
          (onByte isTagInitial false) = r'.head?.any isTagInitial := by
        rw [getElem?_utf8]
        exact any_head_utf8 isTagInitial_of_le r'
      rw [hinitial]
      by_cases h3 : r'.head?.any isTagInitial
      · rw [if_pos h3]
        simp only [List.drop_succ_cons, List.drop_zero, if_pos h3]
        exact congrArg some (jump_reader _ _ _ rfl)
      · rw [if_neg h3]
        simp only [List.drop_succ_cons, List.drop_zero, if_neg h3]
        exact congrArg some (emit_reader _ _ _ _ (stopBehind_utf8 (by simp) read _))
    · rw [if_neg h2, if_neg h2]
      have hinitial : x = '<' → (utf8 (read ++ x :: r))[bytes read + 1]?.any
          (onByte isTagInitial false) = r.head?.any isTagInitial := by
        rintro rfl
        rw [getElem?_utf8]
        exact any_head_utf8 isTagInitial_of_le r
      by_cases h3 : x = '<' ∧ r.head?.any isTagInitial
      · rw [if_pos ⟨⟨h3.1, rfl⟩, by rw [hinitial h3.1]; exact h3.2⟩, if_pos h3]
        obtain ⟨rfl, -⟩ := h3
        exact congrArg some (jump_reader _ _ _ rfl)
      · rw [if_neg fun h => h3 ⟨h.1.1, by rw [← hinitial h.1.1]; exact h.2⟩, if_neg h3]
        exact congrArg some (emit_reader _ _ _ _ (searchMarkup_utf8 read x r))

lemma skipBlanks_utf8 (mode : Mode) (tag read rest : Text) :
    (reader ⟨mode, tag, bytes read, rest⟩).skipBlanks (utf8 (read ++ rest))
      = reader (Cursor.skipBlanks ⟨mode, tag, bytes read, rest⟩) := by
  have hstop := runStop_utf8 isMarkupBlank_of_le read rest
  simp only [skipBlanks, reader, hstop]
  rfl

lemma afterStartTag_utf8 (tag : Text) : afterStartTag (utf8 tag) = .afterStartTag tag := by
  unfold afterStartTag Mode.afterStartTag
  rw [sameBytes_utf8 (by simp [lower]), sameBytes_utf8 (by simp [lower])]

lemma stepInsideTag?_utf8 (mode : Mode) (tag read rest : Text) :
    (reader ⟨mode, tag, bytes read, rest⟩).stepInsideTag? (utf8 (read ++ rest))
      = some (readerMove (stepInsideTag ⟨mode, tag, bytes read, rest⟩)) := by
  have hfrom := from?_utf8 read rest
  have hpos : (reader ⟨mode, tag, bytes read, rest⟩).pos = bytes read := rfl
  have hmode : (reader ⟨mode, tag, bytes read, rest⟩).mode = mode := rfl
  have htag : (reader ⟨mode, tag, bytes read, rest⟩).tag = utf8 tag := rfl
  cases rest with
  | nil =>
    simp only [stepInsideTag?, hpos, hfrom, Option.bind_eq_bind, Option.bind_some, utf8_nil]
    rfl
  | cons x r =>
    have hne : ((utf8 (x :: r)).isEmpty) = false := by
      obtain ⟨b, l, he, -⟩ := encode_eq_cons x
      rw [utf8_cons, he]
      rfl
    have hequals := startsWith_cons (y := '=') (t := []) (by simp) x r
    have hself := startsWith_cons (y := '/') (t := ['>']) (by simp) x r
    have hclose := startsWith_cons (y := '>') (t := []) (by simp) x r
    have hopen := startsWith_cons (y := '<') (t := []) (by simp) x r
    have hnil : [].isPrefixOf r ↔ True := by simp
    simp only [stepInsideTag?, hpos, hmode, htag, hfrom, Option.bind_eq_bind, Option.bind_some, hne,
      Bool.false_eq_true, if_false, hequals, hself, singleton_isPrefixOf, hclose, hopen, hnil,
      and_true, stepInsideTag]
    by_cases h1 : x = '=' ∧ mode = .afterName
    · rw [if_pos h1, if_pos h1]
      obtain ⟨rfl, -⟩ := h1
      exact congrArg some (jump_reader _ _ _ rfl)
    · rw [if_neg h1, if_neg h1]
      by_cases h2 : x = '/' ∧ r.head? = some '>'
      · rw [if_pos h2, if_pos h2]
        exact congrArg some (emit_reader _ _ _ _ rfl)
      · rw [if_neg h2, if_neg h2]
        by_cases h3 : x = '>'
        · subst h3
          rw [if_pos rfl, if_pos rfl, afterStartTag_utf8]
          exact congrArg some (emit_reader _ _ _ _ rfl)
        · rw [if_neg h3, if_neg h3]
          by_cases h4 : x = '<'
          · rw [if_pos h4, if_pos h4]
            exact congrArg some (jump_reader _ _ _ rfl)
          · rw [if_neg h4, if_neg h4]
            have hstop := runStop_utf8 isAttributeNameChar_of_le read (x :: r)
            rw [hstop]
            by_cases h5 : isAttributeNameChar x
            · have hpos := x.utf8Size_pos
              rw [List.takeWhile_cons_of_pos h5, bytes_cons, if_pos (by omega), if_pos h5]
              exact congrArg some (emit_reader _ _ _ _ rfl)
            · -- a stray character is a single byte
              have hc : x.toNat < 128 := by
                by_contra hc
                exact h5 (isAttributeNameChar_of_le x (Nat.le_of_not_lt hc))
              rw [List.takeWhile_cons_of_neg h5, bytes_nil, if_neg (by omega), if_neg h5]
              exact congrArg some (emit_reader _ _ _ _ (by rw [bytes_cons, utf8Size_ascii hc]; rfl))

/-- The first byte of a text tells a character of ASCII. -/
lemma exists_head_utf8 (read : Text) (x : Char) (r : Text) :
    ∃ b, (utf8 (read ++ x :: r))[bytes read]? = some b ∧
      ∀ y : Char, y.toNat < 128 → (b.toNat = y.toNat ↔ x = y) := by
  obtain ⟨b, l, he, -⟩ := encode_eq_cons x
  refine ⟨b, ?_, fun y hy => ?_⟩
  · have := getElem?_utf8 read (x :: r) 0
    rw [Nat.add_zero] at this
    rw [this, utf8_cons, he]
    rfl
  · by_cases hx : x.toNat < 128
    · have hb : b.toNat = x.toNat := by
        rw [encode_ascii hx] at he
        rw [← (List.cons.inj he).1, UInt8.toNat_ofNat', Nat.mod_eq_of_lt (by omega)]
      rw [hb]
      constructor
      · intro h
        rw [← Char.ofNat_toNat x, h, Char.ofNat_toNat]
      · rintro rfl
        rfl
    · have hb := le_of_mem_encode hx (b := b) (by simp [he])
      constructor
      · omega
      · rintro rfl
        exact absurd hy hx

lemma stepAttributeValue?_utf8 (tag read : Text) {x : Char} (hblank : ¬ isMarkupBlank x)
    (r : Text) :
    (reader ⟨.attributeValue, tag, bytes read, x :: r⟩).stepAttributeValue? (utf8 (read ++ x :: r))
      = some (readerMove (stepAttributeValue ⟨.attributeValue, tag, bytes read, x :: r⟩)) := by
  have hpos : (reader ⟨.attributeValue, tag, bytes read, x :: r⟩).pos = bytes read := rfl
  obtain ⟨b, hget, hb⟩ := exists_head_utf8 read x r
  simp only [stepAttributeValue?, hpos, hget, stepAttributeValue, hb '"' (by decide),
    hb '\'' (by decide), hb '>' (by decide)]
  by_cases h1 : x = '"' ∨ x = '\''
  · rw [if_pos h1, if_pos h1]
    have hx : x.toNat < 128 ∧ x.utf8Size = 1 := by rcases h1 with rfl | rfl <;> decide
    have hchar : Char.ofNat b.toNat = x := by rw [(hb x hx.1).2 rfl, Char.ofNat_toNat]
    have hread : bytes read + 1 = bytes (read ++ [x]) := by rw [bytes_append, bytes_cons, hx.2]; rfl
    have hsource : read ++ x :: r = (read ++ [x]) ++ r := by simp
    rw [hsource, hread, from?_utf8, hchar, Option.bind_eq_bind, Option.bind_some,
      stopBehind_utf8 (by simpa using hx.1)]
    refine congrArg some (emit_reader _ _ _ _ ?_)
    rw [bytes_append, bytes_cons, bytes_nil, bytes_cons, Nat.add_zero, Nat.add_assoc]
    rfl
  · rw [if_neg h1, if_neg h1]
    have hself := startsWith_cons (y := '/') (t := ['>']) (by simp) x r
    simp only [from?_utf8, Option.bind_eq_bind, Option.bind_some, hself, singleton_isPrefixOf]
    by_cases h2 : x = '>'
    · rw [if_pos h2, if_pos (Or.inl h2)]
      exact congrArg some (jump_reader _ _ _ rfl)
    · rw [if_neg h2]
      by_cases h3 : x = '/' ∧ r.head? = some '>'
      · rw [if_pos h3, if_pos (Or.inr h3)]
        exact congrArg some (jump_reader _ _ _ rfl)
      · have hbare : isBareValueChar x := by simp [isBareValueChar, hblank, h2]
        rw [if_neg h3, if_neg (not_or.2 ⟨h2, h3⟩), runStop_utf8 isBareValueChar_of_le,
          List.takeWhile_cons_of_pos hbare]
        exact congrArg some (emit_reader _ _ _ _ rfl)

lemma stepInsideEndTag_utf8 (tag read : Text) (x : Char) (r : Text) :
    (reader ⟨.insideEndTag, tag, bytes read, x :: r⟩).stepInsideEndTag (utf8 (read ++ x :: r))
      = readerMove (Cursor.stepInsideEndTag ⟨.insideEndTag, tag, bytes read, x :: r⟩) := by
  have hpos : (reader ⟨.insideEndTag, tag, bytes read, x :: r⟩).pos = bytes read := rfl
  obtain ⟨b, hget, hb⟩ := exists_head_utf8 read x r
  simp only [stepInsideEndTag, hpos, hget, Cursor.stepInsideEndTag, hb '>' (by decide),
    hb '<' (by decide)]
  by_cases h1 : x = '>'
  · rw [if_pos h1, if_pos h1]
    subst h1
    exact emit_reader _ _ _ _ rfl
  · rw [if_neg h1, if_neg h1]
    by_cases h2 : x = '<'
    · rw [if_pos h2, if_pos h2]
      exact jump_reader _ _ _ rfl
    · have hstray : isStrayChar x := by simp [isStrayChar, h1, h2]
      rw [if_neg h2, if_neg h2, runStop_utf8 isStrayChar_of_le,
        List.takeWhile_cons_of_pos hstray]
      exact emit_reader _ _ _ _ rfl

lemma stepRaw?_utf8 (e : RawElement) (tag read rest : Text) :
    (reader ⟨.raw e, tag, bytes read, rest⟩).stepRaw? (utf8 (read ++ rest)) e
      = some (readerMove (stepRaw ⟨.raw e, tag, bytes read, rest⟩ e)) := by
  have hpos : (reader ⟨.raw e, tag, bytes read, rest⟩).pos = bytes read := rfl
  have hne : utf8 e.closing ≠ [] := by cases e <;> decide
  have hlower : ∀ x ∈ lower e.closing, x.toNat < 128 := by
    cases e <;> simp [RawElement.closing, lower]
  have hascii : ∀ (b : UInt8) l, 128 ≤ b.toNat →
      sameBytes ((b :: l).take (utf8 e.closing).length) (utf8 e.closing) = false := by
    intro b l hb
    cases e with
    | script => exact sameBytes_take_of_le hlower hb l
    | style => exact sameBytes_take_of_le hlower hb l
  have hsplit := breakAt_append (startsIgnoringCase e.closing) rest
  have hsearch : search? (fun l => sameBytes (l.take (utf8 e.closing).length) (utf8 e.closing))
      (utf8 rest) = _ := search?_utf8 (sameBytes_take_utf8 hlower) hascii rest
  have hstop : (search? (fun l => sameBytes (l.take (utf8 e.closing).length) (utf8 e.closing))
      (utf8 rest)).elim (utf8 (read ++ rest)).length (bytes read + ·)
        = bytes read + bytes (breakAt (startsIgnoringCase e.closing) rest).1 := by
    rw [hsearch]
    split
    next h =>
      rw [h, List.append_nil] at hsplit
      rw [hsplit, Option.elim_none, length_utf8, bytes_append]
    next => rfl
  simp only [stepRaw?, hpos, from?_utf8, Option.bind_eq_bind, Option.bind_some,
    findIgnoringCase?_eq hne, hstop, stepRaw]
  by_cases h : (breakAt (startsIgnoringCase e.closing) rest).1 = []
  · rw [h, bytes_nil, if_neg (by omega), List.isEmpty_nil, if_pos rfl]
    exact congrArg some (jump_reader _ _ _ rfl)
  · have := bytes_pos h
    rw [if_pos (by omega), if_neg (by simpa using h)]
    exact congrArg some (emit_reader _ _ _ _ rfl)

/-! ## The whole reading -/

/-- The reader follows a cursor: it stands where the cursor stands, and before the end of the text
it also knows what the cursor knows. -/
def Follows (r : Reader) (c : Cursor) : Prop :=
  r.pos = c.offset ∧ (c.rest ≠ [] → r = c.reader)

lemma follows_reader (c : Cursor) : c.reader.Follows c :=
  ⟨rfl, fun _ => rfl⟩

lemma exists_follows {m : Option Token × Cursor} {x : Option (Option Span × Reader)}
    (h : x = some (readerMove m)) : ∃ r, x = some (m.1.map Token.span, r) ∧ r.Follows m.2 :=
  ⟨m.2.reader, h, follows_reader m.2⟩

lemma getElem?_utf8_end (read : Text) : (utf8 (read ++ []))[bytes read]? = none := by
  rw [List.append_nil, ← length_utf8, List.getElem?_length]

/-- **A reader is never stopped**, and follows the move of its cursor. -/
theorem step?_follows (mode : Mode) (tag read : Text) {rest : Text} (hne : rest ≠ []) :
    ∃ r, (reader ⟨mode, tag, bytes read, rest⟩).step? (utf8 (read ++ rest))
        = some ((Cursor.step ⟨mode, tag, bytes read, rest⟩).1.map Token.span, r) ∧
      r.Follows (Cursor.step ⟨mode, tag, bytes read, rest⟩).2 := by
  -- past white space the cursor stands where more of the text has been read
  have hsource : read ++ rest
      = (read ++ rest.takeWhile isMarkupBlank) ++ rest.dropWhile isMarkupBlank := by
    rw [List.append_assoc, List.takeWhile_append_dropWhile]
  have hskip : Cursor.skipBlanks ⟨mode, tag, bytes read, rest⟩
      = ⟨mode, tag, bytes (read ++ rest.takeWhile isMarkupBlank),
          rest.dropWhile isMarkupBlank⟩ := by
    rw [bytes_append]
    rfl
  have hreader := skipBlanks_utf8 mode tag read rest
  have hhead := head?_dropWhile isMarkupBlank rest
  rw [hskip, hsource] at hreader
  cases mode with
  | content =>
    obtain ⟨x, r, rfl⟩ := List.exists_cons_of_ne_nil hne
    exact exists_follows (stepContent?_utf8 tag read x r)
  | startTagName => exact exists_follows (stepStartTagName?_utf8 tag read rest)
  | endTagName => exact exists_follows (congrArg some (stepEndTagName_utf8 tag read rest))
  | raw e => exact exists_follows (stepRaw?_utf8 e tag read rest)
  | insideTag =>
    simp only [step?, reader, Cursor.step] at hreader ⊢
    rw [hsource, hreader, hskip]
    exact exists_follows (stepInsideTag?_utf8 .insideTag tag _ _)
  | afterName =>
    simp only [step?, reader, Cursor.step] at hreader ⊢
    rw [hsource, hreader, hskip]
    exact exists_follows (stepInsideTag?_utf8 .afterName tag _ _)
  | attributeValue =>
    simp only [step?, reader, Cursor.step] at hreader ⊢
    rw [hsource, hreader, hskip]
    generalize rest.dropWhile isMarkupBlank = left at hhead
    cases left with
    | nil =>
      -- at the end of the text the reader expects no value any more
      refine ⟨⟨.insideTag, utf8 tag, bytes (read ++ rest.takeWhile isMarkupBlank)⟩, ?_, rfl, ?_⟩
      · simp only [stepAttributeValue?, getElem?_utf8_end]
        rfl
      · exact fun h => absurd rfl h
    | cons x r => exact exists_follows (stepAttributeValue?_utf8 tag _ (hhead x rfl) r)
  | insideEndTag =>
    simp only [step?, reader, Cursor.step] at hreader ⊢
    rw [hsource, hreader, hskip]
    generalize rest.dropWhile isMarkupBlank = left
    cases left with
    | nil =>
      refine exists_follows ?_
      simp only [stepInsideEndTag, getElem?_utf8_end]
      rfl
    | cons x r => exact exists_follows (congrArg some (stepInsideEndTag_utf8 tag _ x r))

lemma spans?_succ {bs : List UInt8} {fuel : Nat} {r r' : Reader} {span : Option Span}
    {spans : List Span} (hpos : r.pos < bs.length) (hstep : r.step? bs = some (span, r'))
    (hrest : spans? bs fuel r' = some spans) :
    spans? bs (fuel + 1) r = some (span.toList ++ spans) := by
  rw [spans?, if_neg (Nat.not_le.2 hpos)]
  simp [hstep, hrest]

/-- From wherever a cursor stands, the reader that follows it comes to the end within as many moves
as the weight of the cursor. -/
theorem spans?_cursor {source : Text} {w : Trail} {c : Cursor} (hl : c.Leaves source w)
    {fuel : Nat} (hfuel : c.weight ≤ fuel) {r : Reader} (hr : r.Follows c) :
    spans? (utf8 source) fuel r = some (c.tokens.map Token.span) := by
  -- before the end there is a move, which the reader makes, too
  have follow (c : Cursor) (hc : c.rest ≠ []) {w : Trail} (hl : c.Leaves source w) {r : Reader}
      (hr : r.Follows c) : r.pos < (utf8 source).length ∧
        ∃ r', r.step? (utf8 source) = some (c.step.1.map Token.span, r') ∧ r'.Follows c.step.2 := by
    obtain ⟨read, hs, ho, -⟩ := hl.read
    obtain ⟨mode, tag, offset, rest⟩ := c
    obtain rfl : bytes read = offset := ho
    have hpos := bytes_pos hc
    refine ⟨?_, ?_⟩
    · rw [hr.1, hs, length_utf8, bytes_append]
      exact Nat.lt_add_of_pos_right hpos
    · rw [hr.2 hc, hs]
      exact step?_follows mode tag read hc
  fun_induction Cursor.tokens c generalizing w fuel r with
  | case1 c hc =>
    obtain ⟨read, hs, ho, -⟩ := hl.read
    have hend : (utf8 source).length ≤ r.pos := by
      rw [hr.1, ← ho, hs, hc, List.append_nil, length_utf8]
    cases fuel with
    | zero => rw [spans?, if_pos hend]; rfl
    | succ n => rw [spans?, if_pos hend]; rfl
  | case2 c hc hw hstep ih =>
    obtain ⟨fuel, rfl⟩ : ∃ k, fuel = k + 1 := ⟨fuel - 1, by omega⟩
    obtain ⟨hpos, r', hr', hf⟩ := follow c hc hl hr
    have m := c.move_step hc
    rw [hstep] at m hr'
    exact spans?_succ hpos hr' (ih (hl.skip m) (by omega) hf)
  | case3 c hc hw t hstep ih =>
    obtain ⟨fuel, rfl⟩ : ∃ k, fuel = k + 1 := ⟨fuel - 1, by omega⟩
    obtain ⟨hpos, r', hr', hf⟩ := follow c hc hl hr
    have m := c.move_step hc
    rw [hstep] at m hr'
    exact spans?_succ hpos hr' (ih (hl.emit m).2 (by omega) hf)

/-- **Within three moves for each byte** the reader comes to the end of every text, with the spans
of all tokens. -/
theorem spans?_eq (source : Text) :
    spans? (utf8 source) (3 * bytes source) start = some ((tokens source).map Token.span) := by
  have hlen := length_le_bytes source
  refine spans?_cursor (leaves_start source) ?_ (follows_reader (Cursor.start source))
  show 3 * source.length + 0 ≤ 3 * bytes source
  omega

end Reader

end Mosaic.Markup
