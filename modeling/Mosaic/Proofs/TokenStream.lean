import Mosaic.Proofs.CursorMove

/-!
# The tokens of a text, in place

Whoever reads the tokens of a text one after the other relies on where they stand.  A `Trail` is
what is known after some tokens: where the last one ended, whether it was loose text, and whether a
start tag may still be open.  `Trail.Allows` says what the next token is like, `Stream` that all are
so.

* `stream_tokens` — the tokens of every text are a stream: each stands in the text where it says,
  none is empty, none starts before the last has ended, raw content is never followed at once by
  another token, and loose text outside start tags follows loose text without a gap.
-/

namespace Mosaic.Markup

open Text

/-! ## Streams -/

/-- What is known after some tokens. -/
structure Trail where
  /-- No further token starts before this offset. -/
  stop : Nat
  /-- Whether the last token was loose text. -/
  loose : Bool
  /-- Whether a start tag may still be open. -/
  inTag : Bool

namespace Trail

/-- Before all tokens. -/
def start : Trail :=
  ⟨0, false, false⟩

/-- Whether the token may stand in a start tag whose name came before.  Markup in loose text tells
that the tag was left. -/
def staysInTag (w : Trail) (t : Token) : Bool :=
  match t.kind with
  | .startTag => true
  | .attributeName | .attributeValue => w.inTag
  | .other => w.inTag && decide ('<' ∉ t.text)
  | _ => false

/-- After one more token.  Raw content ends at the `<` of an end tag, which is no token. -/
def after (w : Trail) (t : Token) : Trail :=
  { stop := if t.kind = .styles ∨ t.kind = .script then t.stop + 1 else t.stop
    loose := t.kind = .other
    inTag := w.staysInTag t }

end Trail

/-- The token stands in the source where it says. -/
structure Token.LiesIn (source : Text) (t : Token) : Prop where
  nonempty : t.text ≠ []
  located : ∃ before after, source = before ++ (t.text ++ after) ∧ bytes before = t.start ∧
    (t.kind = .endTag → ['<', '/'] <:+ before)
  delimited : t.kind = .attributeValue → Delimited t.text

/-- The token may come next. -/
structure Trail.Allows (source : Text) (w : Trail) (t : Token) : Prop where
  lies : t.LiesIn source
  stop_le : w.stop ≤ t.start
  joined : w.loose → t.kind = .other → w.inTag = false → t.start = w.stop

/-- The tokens come one after the other. -/
def Stream (source : Text) : Trail → List Token → Prop
  | _, [] => True
  | w, t :: ts => w.Allows source t ∧ Stream source (w.after t) ts

lemma RawElement.kind_eq (e : RawElement) : e.kind = .styles ∨ e.kind = .script := by
  cases e
  · exact Or.inr rfl
  · exact Or.inl rfl

lemma Mode.afterStartTag_eq (name : Text) :
    afterStartTag name = .content ∨ ∃ e, afterStartTag name = .raw e := by
  unfold afterStartTag
  split
  · exact Or.inr ⟨_, rfl⟩
  · split
    · exact Or.inr ⟨_, rfl⟩
    · exact Or.inl rfl

/-! ## Where a cursor stands behind a trail -/

namespace Cursor

/-- The cursor stands where raw content ended. -/
def AtRawEnd (c : Cursor) : Prop :=
  c.mode = .content ∧ (c.rest = [] ∨ ∃ e : RawElement, startsIgnoringCase e.closing c.rest)

/-- Loose text, if it comes next, comes at the offset `n`. -/
def Joins (c : Cursor) (n : Nat) : Prop :=
  match c.mode with
  | .content => c.offset = n
  | .insideEndTag => c.offset = n ∧ ∀ x ∈ c.rest.head?, x = '>' ∨ x = '<'
  | .startTagName | .endTagName => True
  | _ => False

/-- The cursor has left the trail `w` in the source. -/
structure Leaves (source : Text) (w : Trail) (c : Cursor) : Prop where
  read : ∃ read, source = read ++ c.rest ∧ bytes read = c.offset ∧
    (c.mode = .endTagName → ['<', '/'] <:+ read)
  named : c.mode = .startTagName ∨ c.mode = .endTagName → c.rest.head?.any isTagInitial
  stop_le : w.stop ≤ c.offset ∨ c.AtRawEnd ∧ w.stop = c.offset + 1
  inTag : c.mode.inStartTag → w.inTag
  joined : w.loose → w.inTag = false → c.Joins w.stop

lemma leaves_start (source : Text) : (Cursor.start source).Leaves source .start where
  read := ⟨[], rfl, rfl, nofun⟩
  named := by simp [Cursor.start]
  stop_le := Or.inl (Nat.le_refl 0)
  inTag := nofun
  joined := nofun

/-! ## Raw content ends at an end tag -/

/-- Only upper-case letters change when they are lowered, and to lower-case ones. -/
lemma eq_of_toLower_eq {c d : Char} (h : c.toLower = d) (hd : ¬ ('a' ≤ d ∧ d ≤ 'z')) : c = d := by
  unfold Char.toLower at h
  split at h
  next hu =>
    refine absurd ?_ hd
    subst h
    obtain ⟨h1, h2⟩ := hu
    rw [ge_iff_le, UInt32.le_iff_toNat_le] at h1
    rw [UInt32.le_iff_toNat_le] at h2
    simp only [Char.le_def, UInt32.le_iff_toNat_le, UInt32.toNat_add]
    have hA : 'A'.val.toNat = 65 := rfl
    have hZ : 'Z'.val.toNat = 90 := rfl
    have ha : 'a'.val.toNat = 97 := rfl
    have hz : 'z'.val.toNat = 122 := rfl
    have hd : ('a'.val - 'A'.val).toNat = 32 := rfl
    omega
  · exact h

lemma isAlpha_of_toLower {c : Char} (h : c.toLower.isAlpha) : c.isAlpha := by
  unfold Char.toLower at h
  split at h
  next hu => simp only [Char.isAlpha, Char.isUpper, decide_eq_true hu, Bool.true_or]
  · exact h

/-- The end tag of a raw element is one to the tokenizer. -/
lemma endTag_of_startsIgnoringCase {e : RawElement} {t : Text}
    (h : startsIgnoringCase e.closing t) :
    ∃ x r, t = '<' :: '/' :: x :: r ∧ isTagInitial x := by
  obtain ⟨n, l, hl⟩ : ∃ n l, '<' :: '/' :: 's' :: l = (t.take (n + 3)).map Char.toLower := by
    simp only [startsIgnoringCase, sameIgnoringCase, lower, beq_iff_eq] at h
    cases e with
    | script => exact ⟨5, _, h⟩
    | style => exact ⟨4, _, h⟩
  match t, hl with
  | [], hl | [_], hl | [_, _], hl => simp at hl
  | a :: b :: c :: r, hl =>
    simp only [List.take_succ_cons, List.map_cons, List.cons.injEq] at hl
    obtain ⟨ha, hb, hc, -⟩ := hl
    refine ⟨c, r, ?_, isAlpha_of_toLower (by rw [← hc]; decide)⟩
    rw [eq_of_toLower_eq ha.symm (by decide), eq_of_toLower_eq hb.symm (by decide)]

/-! ## The moves -/

variable {source : Text} {w : Trail} {c c' : Cursor}

/-- What stands in front of the rest has been read once the cursor is past it. -/
lemma Leaves.past {gap rest : Text} (h : c.Leaves source w) (he : c.rest = gap ++ rest) :
    ∃ read, source = read ++ rest ∧ bytes read = c.offset + bytes gap ∧ gap <:+ read := by
  obtain ⟨read, hs, ho, -⟩ := h.read
  exact ⟨read ++ gap, by rw [hs, he, List.append_assoc], by rw [bytes_append, ho], read, rfl⟩

/-- Where raw content has ended nothing is read but an end tag. -/
lemma AtRawEnd.rest_eq (h : c.AtRawEnd) :
    c.rest = [] ∨ ∃ x r, c.rest = '<' :: '/' :: x :: r ∧ isTagInitial x := by
  rcases h.2 with hr | ⟨e, he⟩
  · exact Or.inl hr
  · exact Or.inr (endTag_of_startsIgnoringCase he)

/-- Outside text between tags the trail ends where the cursor stands or before. -/
lemma Leaves.stop_le_offset (h : c.Leaves source w) (hm : c.mode ≠ .content) :
    w.stop ≤ c.offset := by
  rcases h.stop_le with hle | ⟨hr, -⟩
  · exact hle
  · exact absurd hr.1 hm

/-- Past the first byte read the trail has ended anyway. -/
lemma Leaves.stop_le_past (h : c.Leaves source w) {n : Nat} (hn : 1 ≤ n) :
    w.stop ≤ c.offset + n := by
  rcases h.stop_le with hle | ⟨-, hle⟩ <;> omega

lemma not_blank_of_markup {x : Char} (h : x = '>' ∨ x = '<') : ¬ isMarkupBlank x := by
  rcases h with rfl | rfl <;> decide

/-- Behind loose text outside start tags, a cursor past the name of an end tag stands at markup. -/
lemma Leaves.joins_endTag {tag gap rest : Text} {o : Nat}
    (h : Leaves source w ⟨.insideEndTag, tag, o, gap ++ rest⟩)
    (blank : ∀ c ∈ gap, isMarkupBlank c) (hl : w.loose) (ht : w.inTag = false) :
    gap = [] ∧ o = w.stop ∧ ∀ x ∈ rest.head?, x = '>' ∨ x = '<' := by
  obtain ⟨ho, hx⟩ := h.joined hl ht
  cases gap with
  | nil => exact ⟨rfl, ho, hx⟩
  | cons x gap => exact absurd (blank x (by simp)) (not_blank_of_markup (hx x (by simp)))

/-- A move without a token leaves the same trail behind. -/
theorem Leaves.skip (h : c.Leaves source w) (m : Move c none c') : c'.Leaves source w := by
  cases m with
  | openEndTag named =>
    obtain ⟨read, hs, ho, hr⟩ := h.past rfl
    exact ⟨⟨read, hs, ho, fun _ => hr⟩, fun _ => named, Or.inl (h.stop_le_past (by decide)), nofun,
      fun _ _ => trivial⟩
  | openStartTag named =>
    obtain ⟨read, hs, ho, -⟩ := h.past rfl
    exact ⟨⟨read, hs, ho, nofun⟩, fun _ => named, Or.inl (h.stop_le_past (by decide)), nofun,
      fun _ _ => trivial⟩
  | @runOut mode tag gap o blank inTag =>
    obtain ⟨read, hs, ho, -⟩ := h.past (List.append_nil gap).symm
    have hmode : mode ≠ .content ∧ mode ≠ .startTagName ∧ mode ≠ .endTagName := by
      refine ⟨?_, ?_, ?_⟩ <;> rintro rfl <;> simp [Mode.inStartTag] at inTag
    refine ⟨⟨read, hs, ho, fun he => absurd he hmode.2.2⟩, ?_, ?_, h.inTag, ?_⟩
    · rintro (he | he)
      · exact absurd he hmode.2.1
      · exact absurd he hmode.2.2
    · exact Or.inl (Nat.le_add_right_of_le (h.stop_le_offset hmode.1))
    · intro hl ht
      rcases inTag with hin | rfl
      · exact absurd (h.inTag hin) (by simp [ht])
      · rw [← List.append_nil gap] at h
        obtain ⟨rfl, rfl, hx⟩ := h.joins_endTag blank hl ht
        exact ⟨rfl, hx⟩
  | @equals tag gap rest o blank =>
    obtain ⟨read, hs, ho, -⟩ := h.past (show _ = (gap ++ ['=']) ++ rest by simp)
    have hin : w.inTag := h.inTag rfl
    refine ⟨⟨read, hs, by rw [ho, bytes_append, Nat.add_assoc], nofun⟩, by simp, ?_, fun _ => hin,
      fun _ ht => absurd hin (by simp [ht])⟩
    exact Or.inl (Nat.add_assoc o _ _ ▸ h.stop_le_past (Nat.le_add_left ..))
  | @unclosed mode tag gap rest o blank inTag =>
    obtain ⟨read, hs, ho, -⟩ := h.past rfl
    have hmode : mode ≠ .content := by rintro rfl; simp [Mode.inStartTag] at inTag
    refine ⟨⟨read, hs, ho, nofun⟩, by simp, ?_, nofun, ?_⟩
    · exact Or.inl (Nat.le_add_right_of_le (h.stop_le_offset hmode))
    · intro hl ht
      rcases inTag with hin | rfl
      · exact absurd (h.inTag hin) (by simp [ht])
      · obtain ⟨rfl, rfl, -⟩ := h.joins_endTag blank hl ht
        rfl
  | noValue blank =>
    obtain ⟨read, hs, ho, -⟩ := h.past rfl
    have hin : w.inTag := h.inTag rfl
    exact ⟨⟨read, hs, ho, nofun⟩, by simp,
      Or.inl (Nat.le_add_right_of_le (h.stop_le_offset (by simp))), fun _ => hin,
      fun _ ht => absurd hin (by simp [ht])⟩
  | noRaw closed =>
    obtain ⟨read, hs, ho, -⟩ := h.past (List.nil_append _).symm
    exact ⟨⟨read, hs, ho, nofun⟩, by simp, Or.inl (h.stop_le_offset (by simp)), nofun,
      fun hl ht => (h.joined hl ht).elim⟩

/-! ## The tokens of moves -/

/-- A token that is read past `gap` may come next. -/
lemma Leaves.allows {gap text rest : Text} {kind : Kind} (h : c.Leaves source w)
    (he : c.rest = gap ++ (text ++ rest)) (nonempty : text ≠ [])
    (hstop : w.stop ≤ c.offset) (hkind : kind = .endTag → c.mode = .endTagName ∧ gap = [])
    (hvalue : kind = .attributeValue → Delimited text)
    (hjoin : w.loose → kind = .other → w.inTag = false → c.offset + bytes gap = w.stop) :
    w.Allows source ⟨kind, c.offset + bytes gap, text⟩ := by
  refine ⟨⟨nonempty, ?_, hvalue⟩, Nat.le_add_right_of_le hstop, hjoin⟩
  obtain ⟨read, hs, ho, hname⟩ := h.read
  refine ⟨read ++ gap, rest, by rw [hs, he, List.append_assoc], by rw [bytes_append, ho], ?_⟩
  intro hk
  obtain ⟨hm, rfl⟩ := hkind hk
  rw [List.append_nil]
  exact hname hm

/-- The cursor behind a token that is no raw content has left it behind. -/
lemma Leaves.behind {mode : Mode} {tag gap text rest : Text} {kind : Kind}
    (h : c.Leaves source w) (he : c.rest = gap ++ (text ++ rest))
    (hmode : mode ≠ .startTagName ∧ mode ≠ .endTagName)
    (hkind : kind ≠ .styles ∧ kind ≠ .script)
    (hin : mode.inStartTag → w.staysInTag ⟨kind, c.offset + bytes gap, text⟩)
    (hjoin : kind = .other → w.staysInTag ⟨kind, c.offset + bytes gap, text⟩ = false →
      mode = .content ∨ mode = .insideEndTag ∧ ∀ x ∈ rest.head?, x = '>' ∨ x = '<') :
    Leaves source (w.after ⟨kind, c.offset + bytes gap, text⟩)
      ⟨mode, tag, c.offset + bytes gap + bytes text, rest⟩ := by
  have hstop : (w.after ⟨kind, c.offset + bytes gap, text⟩).stop
      = c.offset + bytes gap + bytes text := by
    simp [Trail.after, Token.stop, hkind]
  obtain ⟨read, hs, ho, -⟩ := h.past (show _ = (gap ++ text) ++ rest by rw [he]; simp)
  refine ⟨⟨read, hs, by rw [ho, bytes_append, Nat.add_assoc], fun hm => absurd hm hmode.2⟩, ?_,
    Or.inl (Nat.le_of_eq hstop), hin, ?_⟩
  · rintro (hm | hm)
    · exact absurd hm hmode.1
    · exact absurd hm hmode.2
  · intro hl ht
    rw [hstop]
    rcases hjoin (by simpa [Trail.after] using hl) ht with rfl | ⟨rfl, hx⟩
    · rfl
    · exact ⟨rfl, hx⟩

/-- A name that starts with a letter is not empty. -/
lemma name_ne_nil {read rest : Text} (named : (read ++ rest).head?.any isTagInitial)
    (whole : ∀ c ∈ rest.head?, ¬ isNameChar c) : read ≠ [] := by
  rintro rfl
  cases rest with
  | nil => simp at named
  | cons x r =>
    have hx : isTagInitial x := by simpa using named
    refine whole x rfl ?_
    simp only [isTagInitial] at hx
    simp [isNameChar, Char.isAlphanum, hx]

/-- A token is allowed next, and the cursor after it has left it behind. -/
theorem Leaves.emit {t : Token} (h : c.Leaves source w) (m : Move c (some t) c') :
    w.Allows source t ∧ c'.Leaves source (w.after t) := by
  cases m with
  | @loose tag read rest o nonempty noEndTag =>
    have hstop : w.stop ≤ o := by
      rcases h.stop_le with hle | ⟨hr, -⟩
      · exact hle
      · rcases hr.rest_eq with hnil | ⟨x, r, he, hx⟩
        · exact absurd (List.append_eq_nil_iff.1 hnil).1 nonempty
        · exact absurd hx (noEndTag x r he)
    exact ⟨@Leaves.allows _ _ _ [] read rest .other h rfl nonempty hstop nofun nofun
        fun hl _ ht => h.joined hl ht,
      @Leaves.behind _ _ _ .content tag [] read rest .other h rfl (by simp) (by simp) nofun
        fun _ _ => Or.inl rfl⟩
  | @startTag tag read rest o whole name =>
    have hne : read ≠ [] := name_ne_nil (h.named (Or.inl rfl)) whole
    exact ⟨@Leaves.allows _ _ _ [] read rest .startTag h rfl hne (h.stop_le_offset (by simp))
        nofun nofun nofun,
      @Leaves.behind _ _ _ .insideTag read [] read rest .startTag h rfl (by simp) (by simp)
        (fun _ => rfl) nofun⟩
  | @endTag tag read rest o whole name =>
    have hne : read ≠ [] := name_ne_nil (h.named (Or.inr rfl)) whole
    exact ⟨@Leaves.allows _ _ _ [] read rest .endTag h rfl hne (h.stop_le_offset (by simp))
        (fun _ => ⟨rfl, rfl⟩) nofun nofun,
      @Leaves.behind _ _ _ .insideEndTag tag [] read rest .endTag h rfl (by simp) (by simp)
        nofun nofun⟩
  | @selfClose mode tag gap rest o blank inTag =>
    have hmode : mode ≠ .content := by rintro rfl; simp [Mode.inStartTag] at inTag
    exact ⟨h.allows rfl (by simp) (h.stop_le_offset hmode) nofun nofun nofun,
      h.behind rfl (by simp) (by simp) nofun nofun⟩
  | @close mode tag gap rest o blank inTag =>
    have hmode : mode ≠ .content := by rintro rfl; simp [Mode.inStartTag] at inTag
    refine ⟨h.allows rfl (by simp) (h.stop_le_offset hmode) nofun nofun nofun, ?_⟩
    rcases Mode.afterStartTag_eq tag with he | ⟨e, he⟩ <;> rw [he]
    · exact h.behind rfl (by simp) (by simp) nofun nofun
    · exact h.behind rfl (by simp) (by simp) nofun nofun
  | @attributeName mode tag gap read rest o blank inTag nonempty whole name =>
    have hmode : mode ≠ .content := by rintro rfl; simp [Mode.inStartTag] at inTag
    exact ⟨h.allows rfl nonempty (h.stop_le_offset hmode) nofun nofun nofun,
      h.behind rfl (by simp) (by simp) (fun _ => h.inTag inTag) nofun⟩
  | @stray mode tag gap rest x o blank inTag noMarkup =>
    have hmode : mode ≠ .content := by rintro rfl; simp [Mode.inStartTag] at inTag
    have hin : w.inTag := h.inTag inTag
    have hstay : w.staysInTag ⟨.other, o + bytes gap, [x]⟩ := by
      simp [Trail.staysInTag, hin, noMarkup.symm]
    exact ⟨h.allows rfl (by simp) (h.stop_le_offset hmode) nofun nofun
        (fun _ _ ht => absurd hin (by simp [ht])),
      h.behind rfl (by simp) (by simp) (fun _ => hstay) (fun _ ht => absurd hstay (by simp [ht]))⟩
  | @value tag gap read rest o blank delimited =>
    have hne : read ≠ [] := by cases delimited <;> simp
    exact ⟨h.allows rfl hne (h.stop_le_offset (by simp)) nofun (fun _ => delimited) nofun,
      h.behind rfl (by simp) (by simp) (fun _ => h.inTag rfl) nofun⟩
  | @closeEndTag tag gap rest o blank =>
    exact ⟨h.allows rfl (by simp) (h.stop_le_offset (by simp)) nofun nofun nofun,
      h.behind rfl (by simp) (by simp) nofun nofun⟩
  | @strayEnd tag gap read rest o blank nonempty stray whole =>
    refine ⟨h.allows rfl nonempty (h.stop_le_offset (by simp)) nofun nofun ?_,
      h.behind rfl (by simp) (by simp) nofun (fun _ _ => Or.inr ⟨rfl, whole⟩)⟩
    intro hl _ ht
    -- behind loose text this end tag was entered at markup, where nothing stray is read
    obtain ⟨-, -, hx⟩ := h.joins_endTag blank hl ht
    cases read with
    | nil => exact absurd rfl nonempty
    | cons x r =>
      have hs := stray x (by simp)
      rcases hx x (by simp) with rfl | rfl <;> exact absurd hs (by decide)
  | @raw e tag read rest o nonempty closed =>
    have hstop : (w.after ⟨e.kind, o, read⟩).stop = o + bytes read + 1 := by
      simp [Trail.after, Token.stop, e.kind_eq]
    have hkind : e.kind ≠ .other ∧ e.kind ≠ .endTag ∧ e.kind ≠ .attributeValue := by
      cases e <;> decide
    refine ⟨@Leaves.allows _ _ _ [] read rest e.kind h rfl nonempty (h.stop_le_offset (by simp))
      (fun hk => absurd hk hkind.2.1) (fun hk => absurd hk hkind.2.2)
      (fun _ hk => absurd hk hkind.1), ?_⟩
    obtain ⟨text, hs, ho, -⟩ := h.past rfl
    refine ⟨⟨text, hs, ho, nofun⟩, by simp, Or.inr ⟨⟨rfl, ?_⟩, hstop⟩, nofun, fun hl => ?_⟩
    · exact closed.imp_right fun hc => ⟨e, hc⟩
    · exact absurd (by simpa [Trail.after] using hl) hkind.1

theorem stream_cursor (source : Text) (w : Trail) (c : Cursor) (h : c.Leaves source w) :
    Stream source w c.tokens := by
  fun_induction tokens c generalizing w with
  | case1 c hc => trivial
  | case2 c hc hw hstep ih =>
    have m := c.move_step hc
    rw [hstep] at m
    exact ih w (h.skip m)
  | case3 c hc hw t hstep ih =>
    have m := c.move_step hc
    rw [hstep] at m
    obtain ⟨ha, hl⟩ := h.emit m
    exact ⟨ha, ih _ hl⟩

end Cursor

/-- **The tokens of every text are a stream.** -/
theorem stream_tokens (source : Text) : Stream source .start (tokens source) :=
  Cursor.stream_cursor source .start (Cursor.start source) (Cursor.leaves_start source)

end Mosaic.Markup
