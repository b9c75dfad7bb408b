import Mosaic.Proofs.TagReading

/-!
# The start tags of raw content

Raw content comes right behind the start tag of its element, however malformed the markup around it
is: the tokens in front of it are those of one start tag, from its name through its `>`.

* `Markup.TagPart`, `Markup.OpenTag`, `Markup.StartTag` — the tokens of a start tag.
* `Markup.Cursor.Follows` — the tokens in front of a cursor in a start tag, or behind one.
* `Markup.Cursor.Follows.move` — each move keeps that.
* `Markup.BehindTag` — a token of raw content behind its start tag, and
  `Markup.behindTag_of_kind`, which finds the tag.
-/

namespace Mosaic.Markup

open Text

/-! ## The tokens of a start tag -/

/-- What stands in a start tag behind its name. -/
inductive TagPart where
  /-- The name of an attribute, and maybe its value. -/
  | attr (name : Token) (value : Option Token)
  /-- A character that has no place there. -/
  | stray (t : Token)

namespace TagPart

/-- The tokens of a part. -/
def tokens : TagPart → List Token
  | attr name value => name :: value.toList
  | stray t => [t]

/-- The tokens are of the kinds that they should have. -/
inductive Proper : TagPart → Prop where
  | attr {name : Token} {value : Option Token} : name.kind = .attributeName →
      (∀ v ∈ value, v.kind = .attributeValue) → Proper (attr name value)
  | stray {t : Token} : t.kind = .other → '<' ∉ t.text → Proper (stray t)

/-- What an attribute says of the language. -/
def lang? : TagPart → Option String
  | attr name (some value) =>
    if sameIgnoringCase name.text ['l', 'a', 'n', 'g'] then some (Scan.langValue value.text)
    else none
  | _ => none

end TagPart

/-- A start tag up to somewhere behind its name. -/
structure OpenTag where
  name : Token
  parts : List TagPart
  named : name.kind = .startTag
  proper : ∀ p ∈ parts, p.Proper

namespace OpenTag

/-- The tokens of the tag so far. -/
def tokens (tag : OpenTag) : List Token :=
  tag.name :: tag.parts.flatMap TagPart.tokens

/-- The language that the tag names last. -/
def lang (tag : OpenTag) : Option String :=
  (tag.parts.filterMap TagPart.lang?).getLast?

/-- One more part. -/
def snoc (tag : OpenTag) (p : TagPart) (hp : p.Proper) : OpenTag :=
  { tag with
    parts := tag.parts ++ [p]
    proper := List.forall_mem_append.2 ⟨tag.proper, by simpa using hp⟩ }

lemma tokens_snoc (tag : OpenTag) (p : TagPart) (hp : p.Proper) :
    (tag.snoc p hp).tokens = tag.tokens ++ p.tokens := by
  simp [tokens, snoc]

end OpenTag

/-- A start tag with its `>`. -/
structure StartTag extends OpenTag where
  close : Token
  closed : close.kind = .startTagClose

/-- The tokens of the tag. -/
def StartTag.allTokens (tag : StartTag) : List Token :=
  tag.tokens ++ [tag.close]

/-! ## In front of a cursor -/

/-- The tokens end with those of a start tag that is being read. -/
def EndsInTag (front : List Token) (tag : OpenTag) : Prop :=
  ∃ before, front = before ++ tag.tokens

/-- The tokens end with those of a start tag. -/
def EndsWithTag (front : List Token) (tag : StartTag) : Prop :=
  ∃ before, front = before ++ tag.allTokens

lemma EndsInTag.snoc {front : List Token} {tag : OpenTag} {p : TagPart} (h : EndsInTag front tag)
    (hp : p.Proper) : EndsInTag (front ++ p.tokens) (tag.snoc p hp) := by
  obtain ⟨before, rfl⟩ := h
  exact ⟨before, by rw [OpenTag.tokens_snoc, List.append_assoc]⟩

/-- Only the start tag of a raw element has raw content behind it. -/
lemma Mode.name_of_afterStartTag {name : Text} {e : RawElement} (h : afterStartTag name = .raw e) :
    sameIgnoringCase name e.name := by
  unfold afterStartTag at h
  split at h
  next hname =>
    obtain rfl := Mode.raw.inj h
    exact hname
  · split at h
    next hname =>
      obtain rfl := Mode.raw.inj h
      exact hname
    · contradiction

namespace Cursor

/-- The tokens in front of a cursor that is inside a start tag, or right behind one with raw
content. -/
def Follows (front : List Token) (c : Cursor) : Prop :=
  match c.mode with
  | .insideTag => ∃ tag, EndsInTag front tag ∧ tag.name.text = c.tag
  | .afterName | .attributeValue => ∃ (tag : OpenTag) (name : Token)
      (hname : (TagPart.attr name none).Proper),
      EndsInTag front (tag.snoc (.attr name none) hname) ∧ tag.name.text = c.tag
  | .raw e => ∃ tag, EndsWithTag front tag ∧ sameIgnoringCase tag.name.text e.name ∧
      tag.close.stop = c.offset
  | _ => True

variable {front : List Token} {c c' : Cursor} {t : Token}

lemma Follows.inTag (h : c.Follows front) (hm : c.mode.inStartTag) :
    ∃ tag, EndsInTag front tag ∧ tag.name.text = c.tag := by
  obtain ⟨mode, name, o, rest⟩ := c
  cases mode with
  | insideTag => exact h
  | afterName | attributeValue =>
    obtain ⟨tag, n, hn, hends, hname⟩ := h
    exact ⟨_, hends, hname⟩
  | content | startTagName | endTagName | insideEndTag | raw => exact absurd hm (by simp [Mode.inStartTag])

/-- A move without a token. -/
lemma Follows.skip (h : c.Follows front) (m : Move c none c') : c'.Follows front := by
  cases m with
  | openEndTag | openStartTag | unclosed | noRaw => trivial
  | @runOut mode tag gap o blank inTag =>
    cases mode with
    | insideTag | afterName | attributeValue => exact h
    | insideEndTag => trivial
    | content | startTagName | endTagName | raw => exact absurd inTag (by simp [Mode.inStartTag])
  | equals => exact h
  | noValue => exact h.inTag rfl

/-- A move with a token. -/
lemma Follows.emit (h : c.Follows front) (m : Move c (some t) c') : c'.Follows (front ++ [t]) := by
  cases m with
  | loose | endTag | selfClose | closeEndTag | strayEnd | raw => trivial
  | @startTag tag read rest o =>
    exact ⟨⟨⟨.startTag, o, read⟩, [], rfl, nofun⟩, ⟨front, rfl⟩, rfl⟩
  | @close mode name gap rest o blank inTag =>
    obtain ⟨tag, ⟨before, rfl⟩, rfl⟩ := h.inTag inTag
    rcases Mode.afterStartTag_eq tag.name.text with he | ⟨e, he⟩
    · rw [he]
      trivial
    · have hsame := Mode.name_of_afterStartTag he
      rw [he]
      refine ⟨⟨tag, ⟨.startTagClose, o + bytes gap, ['>']⟩, rfl⟩, ⟨before, ?_⟩, hsame, rfl⟩
      rw [StartTag.allTokens, List.append_assoc]
  | @attributeName mode name gap read rest o blank inTag =>
    obtain ⟨tag, hends, htag⟩ := h.inTag inTag
    have hproper : (TagPart.attr ⟨.attributeName, o + bytes gap, read⟩ none).Proper :=
      .attr rfl (by simp)
    exact ⟨tag, _, hproper, hends.snoc hproper, htag⟩
  | @stray mode name gap rest x o blank inTag noMarkup =>
    obtain ⟨tag, hends, htag⟩ := h.inTag inTag
    exact ⟨_, hends.snoc (.stray rfl (by simpa using noMarkup.symm)), htag⟩
  | @value name gap read rest o =>
    obtain ⟨tag, n, hn, ⟨before, rfl⟩, htag⟩ := h
    cases hn with
    | attr hkind =>
      have hproper : (TagPart.attr n (some ⟨.attributeValue, o + bytes gap, read⟩)).Proper :=
        .attr hkind (by simp)
      refine ⟨tag.snoc _ hproper, ⟨before, ?_⟩, htag⟩
      rw [OpenTag.tokens_snoc, OpenTag.tokens_snoc]
      simp [TagPart.tokens]

end Cursor

/-! ## Raw content -/

lemma RawElement.kind_injective : Function.Injective RawElement.kind := by
  intro e e' h
  cases e <;> cases e' <;> first | rfl | exact absurd h (by decide)

/-- What a text is broken at is found nowhere before. -/
lemma not_found_of_suffix (found : Text → Bool) (t : Text) :
    ∀ y, y <:+ (breakAt found t).1 → y ≠ [] → ¬ found (y ++ (breakAt found t).2) := by
  induction t with
  | nil =>
    intro y hy hne
    exact absurd (List.suffix_nil.1 hy) hne
  | cons c r ih =>
    intro y hy hne
    by_cases h : found (c :: r)
    · rw [breakAt, if_pos h] at hy
      exact absurd (List.suffix_nil.1 hy) hne
    · rw [breakAt, if_neg h] at hy ⊢
      rcases List.suffix_cons_iff.1 hy with rfl | hy
      · rwa [List.cons_append, breakAt_append]
      · exact ih y hy hne

/-- Raw content is broken at its end tag, and so there is none in it. -/
lemma staysRaw_breakAt (e : RawElement) (t : Text) :
    StaysRaw e (breakAt (startsIgnoringCase e.closing) t).1 := by
  intro y hy hstarts
  -- a text that starts like the end tag is as long as that
  have hlength : e.closing.length ≤ y.length := by
    have h := congrArg List.length (beq_iff_eq.1 hstarts)
    simp only [lower, List.length_map, List.length_take] at h
    omega
  refine not_found_of_suffix _ t y hy ?_ ?_
  · rintro rfl
    revert hlength
    cases e <;> decide
  · rwa [startsIgnoringCase, List.take_append_of_le_length hlength]

/-- The token is the raw content of an element: behind the start tag of that element, without its end
tag in it, and up to there or to the end of the source. -/
structure BehindTag (source : Text) (e : RawElement) (front : List Token) (t : Token)
    (tag : StartTag) : Prop where
  ends : EndsWithTag front tag
  named : sameIgnoringCase tag.name.text e.name
  /-- The content starts where the tag stops. -/
  next : tag.close.stop = t.start
  stays : StaysRaw e t.text
  /-- Behind the content is its end tag, or nothing. -/
  stops : ∃ a b, source = a ++ (t.text ++ b) ∧ bytes a = t.start ∧
    (b = [] ∨ startsIgnoringCase e.closing b)

namespace Cursor

variable {source : Text} {w : Trail} {front : List Token} {c c' : Cursor} {t : Token} {e : RawElement}

/-- The only tokens of the kind of raw content are read as such. -/
lemma mode_of_kind (m : Move c (some t) c') (hk : t.kind = e.kind) : c.mode = .raw e := by
  have hraw := e.kind_eq
  rw [← hk] at hraw
  cases m with
  | raw =>
    rw [RawElement.kind_injective hk]
  | loose | startTag | endTag | selfClose | close | attributeName | stray | value | closeEndTag
  | strayEnd => simp at hraw

/-- Raw content is read behind its start tag. -/
lemma Follows.behindTag (h : c.Follows front) (hl : c.Leaves source w) (hm : c.mode = .raw e)
    (hstep : c.step.1 = some t) : ∃ tag, BehindTag source e front t tag := by
  obtain ⟨mode, name, o, rest⟩ := c
  obtain rfl : mode = .raw e := hm
  obtain ⟨tag, hends, hnamed, hnext⟩ := h
  obtain ⟨read, hsource, hread, -⟩ := hl.read
  have hbreak := breakAt_append (startsIgnoringCase e.closing) rest
  simp only [step, stepRaw] at hstep
  split at hstep
  · contradiction
  · obtain rfl := Option.some.inj hstep
    refine ⟨tag, hends, hnamed, hnext, staysRaw_breakAt e rest, read, _, ?_, hread,
      breakAt_snd (startsIgnoringCase e.closing) rest⟩
    rw [hsource]
    exact congrArg _ hbreak.symm

lemma exists_behindTag (c : Cursor) (h : c.Follows front) (hl : c.Leaves source w) :
    ∀ mid back, c.tokens = mid ++ t :: back → t.kind = e.kind →
      ∃ tag, BehindTag source e (front ++ mid) t tag := by
  fun_induction tokens c generalizing front w with
  | case1 c hc =>
    intro mid back hsplit
    simp at hsplit
  | case2 c hc hw hstep ih =>
    intro mid back hsplit hk
    have m := c.move_step hc
    rw [hstep] at m
    exact ih (h.skip m) (hl.skip m) mid back hsplit hk
  | case3 c hc hw u hstep ih =>
    intro mid back hsplit hk
    have m := c.move_step hc
    rw [hstep] at m
    cases mid with
    | nil =>
      obtain ⟨rfl, -⟩ := List.cons.inj hsplit
      rw [List.append_nil]
      exact h.behindTag hl (mode_of_kind m hk) hstep
    | cons v mid =>
      obtain ⟨rfl, hrest⟩ := List.cons.inj hsplit
      obtain ⟨tag, htag⟩ := ih (h.emit m) (hl.emit m).2 mid back hrest hk
      exact ⟨tag, by rwa [List.append_assoc] at htag⟩

end Cursor

/-- **Raw content is behind the start tag of its element.** -/
theorem behindTag_of_kind {source : Text} {front back : List Token} {t : Token} {e : RawElement}
    (h : tokens source = front ++ t :: back) (hk : t.kind = e.kind) :
    ∃ tag, BehindTag source e front t tag := by
  have hstart : (Cursor.start source).Follows [] := trivial
  exact Cursor.exists_behindTag _ hstart (Cursor.leaves_start source) front back h hk

end Mosaic.Markup
