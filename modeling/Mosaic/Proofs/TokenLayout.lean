import Mosaic.Proofs.CheckedScan

/-!
# What stands between tokens

Most of a text is in its tokens.  `Skipped` says what is not: white space in a tag, the `=` behind
the name of an attribute, and `opening` what opens a tag in front of its name.  A `Layout` puts a
text together from its tokens and nothing but that.

* `Cursor.Between.skip`, `Cursor.Between.emit` — a move keeps what was read since the last token to
  what may be skipped.
* `layout_tokens` — every text is laid out by its tokens.
* `scan_never_fails` — reading and scanning any text succeeds, and nothing of it is lost.
-/

namespace Mosaic.Markup

open Text

/-! ## Layouts -/

/-- Where the text between two tokens stands. -/
inductive Context where
  | content
  /-- In a start tag, behind its name. -/
  | startTag
  /-- In a start tag, just behind the name of an attribute. -/
  | attribute
  /-- Behind the name of an end tag. -/
  | endTag
  deriving DecidableEq

namespace Context

/-- Whether a start tag is open. -/
def inStartTag (k : Context) : Bool :=
  k = .startTag ∨ k = .attribute

/-- Where the text behind a token stands.  A single character that has no place in a start tag does
not end it, other markup does. -/
def after (k : Context) (t : Token) : Context :=
  match t.kind with
  | .startTag | .attributeValue => .startTag
  | .attributeName => .attribute
  | .endTag => .endTag
  | .other => if k.inStartTag ∧ '<' ∉ t.text then .startTag else .content
  | _ => .content

lemma ne_content_of_inStartTag {k : Context} (h : k.inStartTag) : k ≠ .content := by
  rintro rfl
  exact absurd h (by decide)

end Context

/-- A text of white space of markup. -/
def Blanks (t : Text) : Prop :=
  ∀ c ∈ t, isMarkupBlank c

lemma Blanks.append {s t : Text} (hs : Blanks s) (ht : Blanks t) : Blanks (s ++ t) := by
  intro c hc
  rcases List.mem_append.1 hc with hc | hc
  · exact hs c hc
  · exact ht c hc

/-- What may be skipped without a token. -/
inductive Skipped : Context → Text → Prop where
  | nothing (k : Context) : Skipped k []
  | blanks {k : Context} {gap : Text} (inTag : k ≠ .content) (blank : Blanks gap) : Skipped k gap
  | equals {gap gap' : Text} (blank : Blanks gap) (blank' : Blanks gap') :
    Skipped .attribute (gap ++ '=' :: gap')

lemma Skipped.append {k : Context} {gap gap' : Text} (h : Skipped k gap) (inTag : k ≠ .content)
    (blank : Blanks gap') : Skipped k (gap ++ gap') := by
  cases h with
  | nothing => exact .blanks inTag (by rwa [List.nil_append])
  | blanks _ hb => exact .blanks inTag (hb.append blank)
  | equals hb hb' =>
    rw [List.append_assoc, List.cons_append]
    exact .equals hb (hb'.append blank)

/-- What opens a tag in front of its name. -/
def opening : Kind → Text
  | .startTag => ['<']
  | .endTag => ['<', '/']
  | _ => []

/-- The text consists of the tokens in this order and of what is skipped between them.  It starts at
the offset `n` of the source. -/
inductive Layout : Context → Nat → Text → List Token → Prop where
  | nil {k : Context} {n : Nat} {gap : Text} (skipped : Skipped k gap) : Layout k n gap []
  | cons {k : Context} {n : Nat} {gap rest : Text} {t : Token} {ts : List Token}
    (skipped : Skipped k gap) (start : t.start = n + bytes (gap ++ opening t.kind))
    (nonempty : t.text ≠ []) (more : Layout (k.after t) t.stop rest ts) :
    Layout k n (gap ++ opening t.kind ++ (t.text ++ rest)) (t :: ts)

/-! ## What has been read since the last token -/

lemma Delimited.ne_nil {t : Text} (h : Delimited t) : t ≠ [] := by
  cases h <;> simp

lemma Mode.ne_name {m : Mode} (h : m.inStartTag ∨ m = .insideEndTag) :
    m ≠ .startTagName ∧ m ≠ .endTagName := by
  rcases h with hin | rfl
  · refine ⟨?_, ?_⟩ <;> rintro rfl <;> exact absurd hin (by decide)
  · exact ⟨by decide, by decide⟩

namespace Cursor

/-- Since the last token, which ended at the offset `n`, the cursor has read `gap`. -/
structure Between (k : Context) (n : Nat) (gap : Text) (c : Cursor) : Prop where
  offset : c.offset = n + bytes gap
  read : match c.mode with
    | .content => Skipped k gap
    | .startTagName => c.rest.head?.any isTagInitial ∧ ∃ g, Skipped k g ∧ gap = g ++ ['<']
    | .endTagName => c.rest.head?.any isTagInitial ∧ ∃ g, Skipped k g ∧ gap = g ++ ['<', '/']
    | .insideTag => k.inStartTag ∧ Skipped k gap
    | .afterName => k = .attribute ∧ Blanks gap
    | .attributeValue => k = .attribute ∧ ∃ g g', Blanks g ∧ Blanks g' ∧ gap = g ++ '=' :: g'
    | .insideEndTag => k = .endTag ∧ Blanks gap ∨
        gap = [] ∧ ∀ x ∈ c.rest.head?, x = '>' ∨ x = '<'
    | .raw _ => gap = []

variable {k : Context} {n : Nat} {s gap : Text} {c c' : Cursor}

lemma between_start (source : Text) : (start source).Between .content 0 [] where
  offset := rfl
  read := .nothing _

/-- Inside a start tag. -/
lemma Between.inStartTag (h : c.Between k n gap) (hm : c.mode.inStartTag) :
    k.inStartTag ∧ Skipped k gap := by
  obtain ⟨mode, tag, o, rest⟩ := c
  have hr := h.read
  cases mode with
  | insideTag => exact hr
  | afterName =>
    obtain ⟨rfl, hb⟩ := hr
    exact ⟨rfl, .blanks (by decide) hb⟩
  | attributeValue =>
    obtain ⟨rfl, g, g', hg, hg', rfl⟩ := hr
    exact ⟨rfl, .equals hg hg'⟩
  | content | startTagName | endTagName | insideEndTag | raw =>
    exact absurd hm (by simp [Mode.inStartTag])

/-- Where no name of a tag is to be read. -/
lemma Between.skipped (h : c.Between k n gap)
    (hm : c.mode ≠ .startTagName ∧ c.mode ≠ .endTagName) : Skipped k gap := by
  obtain ⟨mode, tag, o, rest⟩ := c
  have hr := h.read
  cases mode with
  | content => exact hr
  | insideTag | afterName | attributeValue => exact (h.inStartTag rfl).2
  | insideEndTag =>
    rcases hr with ⟨rfl, hb⟩ | ⟨rfl, -⟩
    · exact .blanks (by decide) hb
    · exact .nothing k
  | raw e =>
    subst hr
    exact .nothing k
  | startTagName => exact absurd rfl hm.1
  | endTagName => exact absurd rfl hm.2

/-- Where a tag has been opened, its name comes. -/
lemma Between.opened (h : c.Between k n gap)
    (hm : c.mode = .startTagName ∧ s = ['<'] ∨ c.mode = .endTagName ∧ s = ['<', '/']) :
    ∃ g, Skipped k g ∧ gap = g ++ s ∧ c.rest.head?.any isTagInitial := by
  obtain ⟨mode, tag, o, rest⟩ := c
  rcases hm with ⟨rfl, rfl⟩ | ⟨rfl, rfl⟩ <;> obtain ⟨named, g, hg, he⟩ := h.read
  · exact ⟨g, hg, he, named⟩
  · exact ⟨g, hg, he, named⟩

/-- White space is passed over in a tag. -/
lemma Between.pass {mode : Mode} {tag gap' rest : Text} {o : Nat}
    (h : Between k n gap ⟨mode, tag, o, gap' ++ rest⟩) (blank : Blanks gap')
    (inTag : mode.inStartTag ∨ mode = .insideEndTag) :
    Between k n (gap ++ gap') ⟨mode, tag, o + bytes gap', rest⟩ := by
  refine ⟨by rw [bytes_append, ← Nat.add_assoc, ← h.offset], ?_⟩
  cases mode with
  | insideTag =>
    obtain ⟨hk, hs⟩ := h.read
    exact ⟨hk, hs.append (k.ne_content_of_inStartTag hk) blank⟩
  | afterName =>
    obtain ⟨hk, hb⟩ := h.read
    exact ⟨hk, hb.append blank⟩
  | attributeValue =>
    obtain ⟨hk, g, g', hg, hg', rfl⟩ := h.read
    exact ⟨hk, g, g' ++ gap', hg, hg'.append blank, by simp⟩
  | insideEndTag =>
    rcases h.read with ⟨hk, hb⟩ | ⟨rfl, hx⟩
    · exact Or.inl ⟨hk, hb.append blank⟩
    · -- behind stray text no white space follows
      cases gap' with
      | nil => exact Or.inr ⟨rfl, hx⟩
      | cons x g => exact absurd (blank x (by simp)) (not_blank_of_markup (hx x (by simp)))
  | content | startTagName | endTagName | raw => exact absurd inTag (by simp [Mode.inStartTag])

/-- What a move reads without a token is kept. -/
theorem Between.skip (h : c.Between k n gap) (m : Move c none c') :
    ∃ gap', c'.Between k n (gap ++ gap') ∧ c.rest = gap' ++ c'.rest := by
  have ho := h.offset
  have offset {o : Nat} {gap : Text} (he : o = n + bytes gap) (g : Text) :
      o + bytes g = n + bytes (gap ++ g) := by rw [he, bytes_append, Nat.add_assoc]
  cases m with
  | openEndTag named =>
    exact ⟨['<', '/'], ⟨offset ho _, named, gap, h.skipped (by simp), rfl⟩, rfl⟩
  | openStartTag named =>
    exact ⟨['<'], ⟨offset ho _, named, gap, h.skipped (by simp), rfl⟩, rfl⟩
  | @runOut mode tag gap' o blank inTag =>
    rw [← List.append_nil gap'] at h
    exact ⟨gap', h.pass blank inTag, (List.append_nil gap').symm⟩
  | @equals tag gap' rest o blank =>
    have hp := h.pass blank (Or.inl rfl)
    obtain ⟨hk, hb⟩ := hp.read
    exact ⟨gap' ++ ['='], ⟨by simpa using offset hp.offset ['='], hk, gap ++ gap', [], hb,
      by simp [Blanks], by simp⟩, by simp⟩
  | @unclosed mode tag gap' rest o blank inTag =>
    have hp := h.pass blank inTag
    exact ⟨gap', ⟨hp.offset, hp.skipped (Mode.ne_name inTag)⟩, rfl⟩
  | @noValue tag gap' rest o blank =>
    have hp := h.pass blank (Or.inl rfl)
    exact ⟨gap', ⟨hp.offset, hp.inStartTag rfl⟩, rfl⟩
  | noRaw =>
    exact ⟨[], ⟨offset ho [], by simpa using h.skipped (by simp)⟩, rfl⟩

/-- A token that nothing opens comes behind what was skipped. -/
lemma Between.lay {mode : Mode} {tag text rest : Text} {o : Nat} {kind : Kind} {ts : List Token}
    (h : Between k n gap ⟨mode, tag, o, text ++ rest⟩)
    (hmode : mode ≠ .startTagName ∧ mode ≠ .endTagName) (bare : opening kind = [])
    (nonempty : text ≠ [])
    (more : Layout (k.after ⟨kind, o, text⟩) (Token.stop ⟨kind, o, text⟩) rest ts) :
    Layout k n (gap ++ (text ++ rest)) (⟨kind, o, text⟩ :: ts) := by
  have hl := @Layout.cons k n gap rest ⟨kind, o, text⟩ ts (h.skipped hmode)
    (by rw [bare, List.append_nil]; exact h.offset) nonempty more
  rwa [bare, List.append_nil] at hl

/-- White space in a tag comes before such a token. -/
lemma Between.lay_past {mode : Mode} {tag gap' text rest : Text} {o : Nat} {kind : Kind}
    {ts : List Token} (h : Between k n gap ⟨mode, tag, o, gap' ++ (text ++ rest)⟩)
    (blank : Blanks gap') (inTag : mode.inStartTag ∨ mode = .insideEndTag)
    (bare : opening kind = []) (nonempty : text ≠ [])
    (more : Layout (k.after ⟨kind, o + bytes gap', text⟩)
      (Token.stop ⟨kind, o + bytes gap', text⟩) rest ts) :
    Layout k n (gap ++ (gap' ++ (text ++ rest))) (⟨kind, o + bytes gap', text⟩ :: ts) := by
  rw [← List.append_assoc]
  exact (h.pass blank inTag).lay (Mode.ne_name inTag) bare nonempty more

/-- A token comes behind what was skipped, and nothing has been read since. -/
theorem Between.emit {t : Token} (h : c.Between k n gap) (m : Move c (some t) c') :
    (∀ ts, Layout (k.after t) t.stop c'.rest ts → Layout k n (gap ++ c.rest) (t :: ts)) ∧
      c'.Between (k.after t) t.stop [] := by
  cases m with
  | loose nonempty noEndTag =>
    exact ⟨fun ts more => h.lay (by simp) rfl nonempty more, rfl, .nothing _⟩
  | @startTag tag read rest o whole name =>
    obtain ⟨g, hg, rfl, named⟩ := h.opened (Or.inl ⟨rfl, rfl⟩)
    refine ⟨fun ts more => ?_, rfl, rfl, .nothing _⟩
    exact .cons (t := ⟨.startTag, o, read⟩) hg h.offset (name_ne_nil named whole) more
  | @endTag tag read rest o whole name =>
    obtain ⟨g, hg, rfl, named⟩ := h.opened (Or.inr ⟨rfl, rfl⟩)
    refine ⟨fun ts more => ?_, rfl, Or.inl ⟨rfl, by simp [Blanks]⟩⟩
    exact .cons (t := ⟨.endTag, o, read⟩) hg h.offset (name_ne_nil named whole) more
  | selfClose blank inTag =>
    exact ⟨fun ts => h.lay_past blank (Or.inl inTag) rfl (by simp), rfl, .nothing _⟩
  | @close mode tag gap' rest o blank inTag =>
    refine ⟨fun ts => h.lay_past blank (Or.inl inTag) rfl (by simp), rfl, ?_⟩
    rcases Mode.afterStartTag_eq tag with he | ⟨e, he⟩ <;> rw [he]
    exact .nothing _
  | attributeName blank inTag nonempty whole name =>
    exact ⟨fun ts => h.lay_past blank (Or.inl inTag) rfl nonempty, rfl, rfl, by simp [Blanks]⟩
  | @stray mode tag gap' rest x o blank inTag noMarkup =>
    -- such a character leaves the start tag open
    have hk : k.after ⟨.other, o + bytes gap', [x]⟩ = .startTag := by
      simp [Context.after, (h.inStartTag inTag).1, noMarkup.symm]
    refine ⟨fun ts => h.lay_past blank (Or.inl inTag) rfl (by simp), rfl, ?_⟩
    rw [hk]
    exact ⟨rfl, .nothing _⟩
  | value blank delimited =>
    have hne := delimited.ne_nil
    exact ⟨fun ts => h.lay_past blank (Or.inl rfl) rfl hne, rfl, rfl, .nothing _⟩
  | closeEndTag blank =>
    exact ⟨fun ts => h.lay_past blank (Or.inr rfl) rfl (by simp), rfl, .nothing _⟩
  | strayEnd blank nonempty stray whole =>
    exact ⟨fun ts => h.lay_past blank (Or.inr rfl) rfl nonempty, rfl, Or.inr ⟨rfl, whole⟩⟩
  | @raw e tag read rest o nonempty closed =>
    exact ⟨fun ts more => h.lay (by simp) (by cases e <;> rfl) nonempty more, rfl, .nothing _⟩

theorem layout_cursor (h : c.Between k n gap) : Layout k n (gap ++ c.rest) c.tokens := by
  fun_induction tokens c generalizing k n gap with
  | case1 c hc =>
    rw [hc, List.append_nil]
    refine .nil (h.skipped ⟨?_, ?_⟩) <;> intro hm
    · obtain ⟨_, _, _, named⟩ := h.opened (Or.inl ⟨hm, rfl⟩)
      simp [hc] at named
    · obtain ⟨_, _, _, named⟩ := h.opened (Or.inr ⟨hm, rfl⟩)
      simp [hc] at named
  | case2 c hc hw hstep ih =>
    have m := c.move_step hc
    rw [hstep] at m
    obtain ⟨gap', hb, he⟩ := h.skip m
    rw [he, ← List.append_assoc]
    exact ih hb
  | case3 c hc hw t hstep ih =>
    have m := c.move_step hc
    rw [hstep] at m
    obtain ⟨lay, hb⟩ := h.emit m
    exact lay _ (ih hb)

end Cursor

/-- **Every text is laid out by its tokens.** -/
theorem layout_tokens (source : Text) : Layout .content 0 source (tokens source) :=
  Cursor.layout_cursor (Cursor.between_start source)

/-! ## The order of tokens -/

namespace Stream

variable {source : Text} {w : Trail} {ts : List Token}

lemma liesIn (h : Stream source w ts) : ∀ t ∈ ts, t.LiesIn source := by
  induction ts generalizing w with
  | nil => nofun
  | cons t ts ih =>
    intro u hu
    rcases List.mem_cons.1 hu with rfl | hu
    · exact h.1.lies
    · exact ih h.2 u hu

lemma stop_le (h : Stream source w ts) : ∀ t ∈ ts, w.stop ≤ t.start := by
  induction ts generalizing w with
  | nil => nofun
  | cons t ts ih =>
    intro u hu
    rcases List.mem_cons.1 hu with rfl | hu
    · exact h.1.stop_le
    · calc w.stop ≤ t.start := h.1.stop_le
        _ ≤ t.stop := Nat.le_add_right ..
        _ ≤ (w.after t).stop := w.stop_le_after t
        _ ≤ u.start := ih h.2 u hu

/-- No token starts before an earlier one has ended. -/
lemma pairwise (h : Stream source w ts) : ts.Pairwise fun t u => t.stop ≤ u.start := by
  induction ts generalizing w with
  | nil => exact .nil
  | cons t ts ih =>
    exact .cons (fun u hu => (w.stop_le_after t).trans (h.2.stop_le u hu)) (ih h.2)

end Stream

/-- A token ends at boundaries of the source. -/
lemma Token.LiesIn.isBoundary {source : Text} {t : Token} (h : t.LiesIn source) :
    IsBoundary source t.start ∧ IsBoundary source t.stop := by
  obtain ⟨before, after, hs, hb, -⟩ := h.located
  refine ⟨⟨before, t.text ++ after, hs, hb⟩, before ++ t.text, after, ?_, ?_⟩
  · rw [hs, List.append_assoc]
  · rw [bytes_append, hb, Token.stop]

end Mosaic.Markup

namespace Mosaic

open Text Utf8 Markup

/-- **Every text is scanned.**  Read byte by byte, it comes to an end within three moves for each
byte, and neither there nor in the pass over the tokens does a slice or a difference fail.  The
tokens are not empty, end at boundaries and come in order; with white space in tags, the `=` of
attributes and the openings of tags they are the whole text. -/
theorem scan_never_fails (options : ScanOptions) (source : Text) :
    Reader.spans? (utf8 source) (3 * bytes source) .start
        = some ((tokens source).map Token.span) ∧
      scan? options source = some (scan options source) ∧
      (∀ t ∈ tokens source, t.start < t.stop ∧ IsBoundary source t.start ∧
        IsBoundary source t.stop ∧ slice t.start t.stop source = t.text) ∧
      (tokens source).Pairwise (fun t u => t.stop ≤ u.start) ∧
      Layout .content 0 source (tokens source) := by
  have hs := stream_tokens source
  refine ⟨Reader.spans?_eq source, scan?_eq options source, fun t ht => ?_, hs.pairwise,
    layout_tokens source⟩
  have hl := hs.liesIn t ht
  obtain ⟨hstart, hstop⟩ := hl.isBoundary
  obtain ⟨before, after, he, hb, -⟩ := hl.located
  refine ⟨hl.start_lt_stop, hstart, hstop, ?_⟩
  rw [he, Token.stop, ← hb, slice_parts]

end Mosaic
