import Mosaic.Proofs.Boundary
import Mosaic.Markup.Cursor

/-!
# What one move of a cursor can do

`Cursor.Move` lists the moves of a cursor as rules: from which mode, over which text, to which token
and to which mode.  `Cursor.move_step` says that every step is one of them, so that a property of
all token streams is shown by going through the rules once.

In every rule the text before the move is the text after it with what was read in front of it; what
was passed over without a token is white space, an `=` or the opening of a tag.
-/

namespace Mosaic

/-! ## Breaking a text -/

namespace Text

lemma breakAt_snd (found : Text → Bool) (t : Text) :
    (breakAt found t).2 = [] ∨ found (breakAt found t).2 := by
  induction t with
  | nil => exact Or.inl rfl
  | cons c r ih =>
    by_cases h : found (c :: r)
    · exact Or.inr (by rwa [breakAt, if_pos h])
    · rw [breakAt, if_neg h]
      exact ih

/-- Nothing before the break starts with a character at which the text would have been broken. -/
lemma not_mem_breakAt_fst (q : Char) (t : Text) : q ∉ (breakAt ([q].isPrefixOf ·) t).1 := by
  induction t with
  | nil => simp [breakAt]
  | cons c r ih =>
    by_cases h : q = c
    · simp [breakAt, h]
    · simpa [breakAt, h] using ih

lemma head?_dropWhile (p : Char → Bool) (t : Text) : ∀ c ∈ (t.dropWhile p).head?, ¬ p c := by
  intro c hc
  have := List.head?_dropWhile_not p t
  rw [Option.mem_def.1 hc] at this
  simpa using this

lemma forall_takeWhile (p : Char → Bool) (t : Text) : ∀ c ∈ t.takeWhile p, p c :=
  fun _ hc => List.mem_takeWhile_imp hc

/-- Breaking a text that starts with `x` and putting some more on the front part leaves a front part
that is not empty. -/
lemma breakAt_take_ne_nil (found : Text → Bool) (x : Char) (r : Text) {n : Nat} (hn : n ≠ 0) :
    (breakAt found (x :: r)).1 ++ (breakAt found (x :: r)).2.take n ≠ [] := by
  intro hnil
  obtain ⟨h1, h2⟩ := List.append_eq_nil_iff.1 hnil
  have hb := breakAt_append found (x :: r)
  rw [h1, (List.take_eq_nil_iff.1 h2).resolve_left hn] at hb
  exact absurd hb (by simp)

lemma breakAt_take_drop (found : Text → Bool) (t : Text) (n : Nat) :
    ((breakAt found t).1 ++ (breakAt found t).2.take n) ++ (breakAt found t).2.drop n = t := by
  rw [List.append_assoc, List.take_append_drop, breakAt_append]

end Text

open Text

namespace Markup

/-- The modes in which a start tag is being read, after its name. -/
def Mode.inStartTag : Mode → Bool
  | .insideTag | .afterName | .attributeValue => true
  | _ => false

/-- Whether an attribute value, quotes included, is delimited as a value can be: by two quotes that
do not occur between them, by one quote and the end of the text, or by no quote at all. -/
inductive Delimited : Text → Prop where
  | quoted (q : Char) (inner : Text) :
    q = '"' ∨ q = '\'' → q ∉ inner → Delimited (q :: (inner ++ [q]))
  | unfinished (q : Char) (inner : Text) : q = '"' ∨ q = '\'' → q ∉ inner → Delimited (q :: inner)
  | bare (x : Char) (inner : Text) : x ≠ '"' → x ≠ '\'' → Delimited (x :: inner)

namespace Cursor

/-- The moves of a cursor. -/
inductive Move : Cursor → Option Token → Cursor → Prop where
  /-- A comment, an end tag without a name, or text. -/
  | loose {tag read rest : Text} {o : Nat} (nonempty : read ≠ [])
      (noEndTag : ∀ x r, read ++ rest = '<' :: '/' :: x :: r → ¬ isTagInitial x) :
      Move ⟨.content, tag, o, read ++ rest⟩ (some ⟨.other, o, read⟩)
        ⟨.content, tag, o + bytes read, rest⟩
  | openEndTag {tag rest : Text} {o : Nat} (named : rest.head?.any isTagInitial) :
      Move ⟨.content, tag, o, ['<', '/'] ++ rest⟩ none
        ⟨.endTagName, tag, o + bytes ['<', '/'], rest⟩
  | openStartTag {tag rest : Text} {o : Nat} (named : rest.head?.any isTagInitial) :
      Move ⟨.content, tag, o, ['<'] ++ rest⟩ none ⟨.startTagName, tag, o + bytes ['<'], rest⟩
  | startTag {tag read rest : Text} {o : Nat} (whole : ∀ c ∈ rest.head?, ¬ isNameChar c)
      (name : ∀ c ∈ read, isNameChar c) :
      Move ⟨.startTagName, tag, o, read ++ rest⟩ (some ⟨.startTag, o, read⟩)
        ⟨.insideTag, read, o + bytes read, rest⟩
  | endTag {tag read rest : Text} {o : Nat} (whole : ∀ c ∈ rest.head?, ¬ isNameChar c)
      (name : ∀ c ∈ read, isNameChar c) :
      Move ⟨.endTagName, tag, o, read ++ rest⟩ (some ⟨.endTag, o, read⟩)
        ⟨.insideEndTag, tag, o + bytes read, rest⟩
  /-- The text ends inside a tag. -/
  | runOut {m : Mode} {tag gap : Text} {o : Nat} (blank : ∀ c ∈ gap, isMarkupBlank c)
      (inTag : m.inStartTag ∨ m = .insideEndTag) :
      Move ⟨m, tag, o, gap⟩ none ⟨m, tag, o + bytes gap, []⟩
  | equals {tag gap rest : Text} {o : Nat} (blank : ∀ c ∈ gap, isMarkupBlank c) :
      Move ⟨.afterName, tag, o, gap ++ (['='] ++ rest)⟩ none
        ⟨.attributeValue, tag, o + bytes gap + bytes ['='], rest⟩
  | selfClose {m : Mode} {tag gap rest : Text} {o : Nat} (blank : ∀ c ∈ gap, isMarkupBlank c)
      (inTag : m.inStartTag) :
      Move ⟨m, tag, o, gap ++ (['/', '>'] ++ rest)⟩
        (some ⟨.startTagSelfClose, o + bytes gap, ['/', '>']⟩)
        ⟨.content, tag, o + bytes gap + bytes ['/', '>'], rest⟩
  | close {m : Mode} {tag gap rest : Text} {o : Nat} (blank : ∀ c ∈ gap, isMarkupBlank c)
      (inTag : m.inStartTag) :
      Move ⟨m, tag, o, gap ++ (['>'] ++ rest)⟩ (some ⟨.startTagClose, o + bytes gap, ['>']⟩)
        ⟨.afterStartTag tag, tag, o + bytes gap + bytes ['>'], rest⟩
  /-- Other markup begins inside a tag. -/
  | unclosed {m : Mode} {tag gap rest : Text} {o : Nat} (blank : ∀ c ∈ gap, isMarkupBlank c)
      (inTag : m.inStartTag ∨ m = .insideEndTag) :
      Move ⟨m, tag, o, gap ++ '<' :: rest⟩ none ⟨.content, tag, o + bytes gap, '<' :: rest⟩
  | attributeName {m : Mode} {tag gap read rest : Text} {o : Nat}
      (blank : ∀ c ∈ gap, isMarkupBlank c) (inTag : m.inStartTag) (nonempty : read ≠ [])
      (whole : ∀ c ∈ rest.head?, ¬ isAttributeNameChar c)
      (name : ∀ c ∈ read, isAttributeNameChar c) :
      Move ⟨m, tag, o, gap ++ (read ++ rest)⟩ (some ⟨.attributeName, o + bytes gap, read⟩)
        ⟨.afterName, tag, o + bytes gap + bytes read, rest⟩
  /-- A character that has no place in a start tag. -/
  | stray {m : Mode} {tag gap rest : Text} {x : Char} {o : Nat}
      (blank : ∀ c ∈ gap, isMarkupBlank c) (inTag : m.inStartTag) (noMarkup : x ≠ '<') :
      Move ⟨m, tag, o, gap ++ ([x] ++ rest)⟩ (some ⟨.other, o + bytes gap, [x]⟩)
        ⟨.insideTag, tag, o + bytes gap + bytes [x], rest⟩
  | value {tag gap read rest : Text} {o : Nat} (blank : ∀ c ∈ gap, isMarkupBlank c)
      (delimited : Delimited read) :
      Move ⟨.attributeValue, tag, o, gap ++ (read ++ rest)⟩
        (some ⟨.attributeValue, o + bytes gap, read⟩)
        ⟨.insideTag, tag, o + bytes gap + bytes read, rest⟩
  /-- The tag ends where the value of an attribute is expected. -/
  | noValue {tag gap rest : Text} {o : Nat} (blank : ∀ c ∈ gap, isMarkupBlank c) :
      Move ⟨.attributeValue, tag, o, gap ++ rest⟩ none ⟨.insideTag, tag, o + bytes gap, rest⟩
  | closeEndTag {tag gap rest : Text} {o : Nat} (blank : ∀ c ∈ gap, isMarkupBlank c) :
      Move ⟨.insideEndTag, tag, o, gap ++ (['>'] ++ rest)⟩
        (some ⟨.endTagClose, o + bytes gap, ['>']⟩)
        ⟨.content, tag, o + bytes gap + bytes ['>'], rest⟩
  /-- What stands in an end tag besides its name. -/
  | strayEnd {tag gap read rest : Text} {o : Nat} (blank : ∀ c ∈ gap, isMarkupBlank c)
      (nonempty : read ≠ []) (stray : ∀ c ∈ read, isStrayChar c)
      (whole : ∀ c ∈ rest.head?, c = '>' ∨ c = '<') :
      Move ⟨.insideEndTag, tag, o, gap ++ (read ++ rest)⟩ (some ⟨.other, o + bytes gap, read⟩)
        ⟨.insideEndTag, tag, o + bytes gap + bytes read, rest⟩
  | raw {e : RawElement} {tag read rest : Text} {o : Nat} (nonempty : read ≠ [])
      (closed : rest = [] ∨ startsIgnoringCase e.closing rest) :
      Move ⟨.raw e, tag, o, read ++ rest⟩ (some ⟨e.kind, o, read⟩)
        ⟨.content, tag, o + bytes read, rest⟩
  | noRaw {e : RawElement} {tag rest : Text} {o : Nat}
      (closed : rest = [] ∨ startsIgnoringCase e.closing rest) :
      Move ⟨.raw e, tag, o, rest⟩ none ⟨.content, tag, o, rest⟩

/-! ## Every step is a move -/

variable {mode : Mode} (tag rest : Text) (o : Nat)

lemma move_stepContent (h : rest ≠ []) :
    Move ⟨.content, tag, o, rest⟩ (stepContent ⟨.content, tag, o, rest⟩).1
      (stepContent ⟨.content, tag, o, rest⟩).2 := by
  cases rest with
  | nil => exact absurd rfl h
  | cons x r =>
    simp only [stepContent]
    split
    next hcomment =>
      -- a comment, up to its end
      have he := breakAt_take_drop (['-', '-', '>'].isPrefixOf ·) (x :: r) 3
      have hm := @Move.loose tag _ ((breakAt (['-', '-', '>'].isPrefixOf ·) (x :: r)).2.drop 3) o
        (breakAt_take_ne_nil (['-', '-', '>'].isPrefixOf ·) x r (n := 3) (by decide))
        (by
          intro y s hs
          rw [he, List.cons.injEq] at hs
          simp [hs.2] at hcomment)
      rwa [he] at hm
    next =>
      split
      next h2 =>
        obtain ⟨rfl, hr⟩ := h2
        obtain ⟨r', rfl⟩ : ∃ r', r = '/' :: r' := by
          cases r with
          | nil => simp at hr
          | cons y r' => exact ⟨r', by simpa using hr⟩
        split
        next hn => exact .openEndTag hn
        next hn =>
          -- an end tag without a name, up to its end
          have he := breakAt_take_drop (['>'].isPrefixOf ·) ('<' :: '/' :: r') 1
          have hm := @Move.loose tag _
            ((breakAt (['>'].isPrefixOf ·) ('<' :: '/' :: r')).2.drop 1) o
            (breakAt_take_ne_nil (['>'].isPrefixOf ·) '<' ('/' :: r') (n := 1) (by decide))
            (by
              intro y s hs
              rw [he] at hs
              obtain rfl : r' = y :: s := by simpa using hs
              simpa using hn)
          rwa [he] at hm
      next h2 =>
        split
        next h3 =>
          obtain ⟨rfl, hn⟩ := h3
          exact .openStartTag hn
        · have he : (x :: (breakAt opensMarkup r).1) ++ (breakAt opensMarkup r).2 = x :: r := by
            rw [List.cons_append, breakAt_append]
          have hm := @Move.loose tag _ (breakAt opensMarkup r).2 o
            (List.cons_ne_nil x (breakAt opensMarkup r).1)
            (by
              intro y s hs
              rw [he, List.cons.injEq] at hs
              exact absurd ⟨hs.1, by simp [hs.2]⟩ h2)
          rwa [he] at hm

/-- The inside of a start tag, past the white space `gap`. -/
lemma move_stepInsideTag (gap : Text) (hgap : ∀ c ∈ gap, isMarkupBlank c)
    (hmode : mode = .insideTag ∨ mode = .afterName) :
    Move ⟨mode, tag, o, gap ++ rest⟩ (stepInsideTag ⟨mode, tag, o + bytes gap, rest⟩).1
      (stepInsideTag ⟨mode, tag, o + bytes gap, rest⟩).2 := by
  have hin : mode.inStartTag := by rcases hmode with rfl | rfl <;> rfl
  cases rest with
  | nil => simpa [stepInsideTag] using @Move.runOut mode tag gap o hgap (Or.inl hin)
  | cons x r =>
    simp only [stepInsideTag]
    split
    next h1 =>
      obtain ⟨rfl, rfl⟩ := h1
      exact .equals hgap
    · split
      next h2 =>
        obtain ⟨rfl, hr⟩ := h2
        obtain ⟨r', rfl⟩ : ∃ r', r = '>' :: r' := by
          cases r with
          | nil => simp at hr
          | cons y r' => exact ⟨r', by simpa using hr⟩
        exact .selfClose hgap hin
      · split
        next h3 =>
          subst h3
          exact .close hgap hin
        · split
          next h4 =>
            subst h4
            simpa [skip] using @Move.unclosed mode tag gap r o hgap (Or.inl hin)
          next h4 =>
            split
            next h5 =>
              have hm := @Move.attributeName mode tag gap _ _ o hgap hin
                (List.cons_ne_nil x (r.takeWhile isAttributeNameChar))
                (head?_dropWhile isAttributeNameChar r)
                (by
                  intro c hc
                  rcases List.mem_cons.1 hc with rfl | hc
                  · exact h5
                  · exact forall_takeWhile _ r c hc)
              rwa [List.cons_append, List.takeWhile_append_dropWhile] at hm
            · exact .stray hgap hin h4

/-- The value of an attribute, past the white space `gap`. -/
lemma move_stepAttributeValue (gap : Text) (hgap : ∀ c ∈ gap, isMarkupBlank c) :
    Move ⟨.attributeValue, tag, o, gap ++ rest⟩
      (stepAttributeValue ⟨.attributeValue, tag, o + bytes gap, rest⟩).1
      (stepAttributeValue ⟨.attributeValue, tag, o + bytes gap, rest⟩).2 := by
  cases rest with
  | nil => simpa [stepAttributeValue] using @Move.runOut _ tag gap o hgap (Or.inl rfl)
  | cons x r =>
    simp only [stepAttributeValue]
    split
    next hq =>
      -- in quotes: up to the same quote, or to the end of the text
      have hb := breakAt_append ([x].isPrefixOf ·) r
      have hx := not_mem_breakAt_fst x r
      rcases breakAt_snd ([x].isPrefixOf ·) r with hnil | hfound
      · have hm := @Move.value tag gap _ [] o hgap
          (.unfinished x (breakAt ([x].isPrefixOf ·) r).1 hq hx)
        rw [hnil, List.append_nil] at hb
        simpa [hnil, hb, emit] using hm
      · obtain ⟨r', hr'⟩ : ∃ r', (breakAt ([x].isPrefixOf ·) r).2 = x :: r' := by
          cases hs : (breakAt ([x].isPrefixOf ·) r).2 with
          | nil => simp [hs] at hfound
          | cons y r' => exact ⟨r', by rw [show x = y by simpa [hs] using hfound]⟩
        have hm := @Move.value tag gap _ r' o hgap
          (.quoted x (breakAt ([x].isPrefixOf ·) r).1 hq hx)
        have he : x :: ((breakAt ([x].isPrefixOf ·) r).1 ++ [x]) ++ r' = x :: r := by
          rw [List.cons_append, List.append_assoc, List.singleton_append, ← hr', hb]
        rw [he] at hm
        simpa [hr', emit] using hm
    next hq =>
      rw [not_or] at hq
      split
      · simpa [skip] using @Move.noValue tag gap (x :: r) o hgap
      · have hm := @Move.value tag gap _ (r.dropWhile isBareValueChar) o hgap
          (.bare x (r.takeWhile isBareValueChar) hq.1 hq.2)
        rwa [List.cons_append, List.takeWhile_append_dropWhile] at hm

/-- The inside of an end tag, past the white space `gap`. -/
lemma move_stepInsideEndTag (gap : Text) (hgap : ∀ c ∈ gap, isMarkupBlank c) :
    Move ⟨.insideEndTag, tag, o, gap ++ rest⟩
      (stepInsideEndTag ⟨.insideEndTag, tag, o + bytes gap, rest⟩).1
      (stepInsideEndTag ⟨.insideEndTag, tag, o + bytes gap, rest⟩).2 := by
  cases rest with
  | nil => simpa [stepInsideEndTag] using @Move.runOut _ tag gap o hgap (Or.inr rfl)
  | cons x r =>
    simp only [stepInsideEndTag]
    split
    next h1 =>
      subst h1
      exact .closeEndTag hgap
    next h1 =>
      split
      next h2 =>
        subst h2
        simpa [skip] using @Move.unclosed _ tag gap r o hgap (Or.inr rfl)
      next h2 =>
        have hm := @Move.strayEnd tag gap _ (r.dropWhile isStrayChar) o hgap
          (List.cons_ne_nil x (r.takeWhile isStrayChar))
          (by
            intro c hc
            rcases List.mem_cons.1 hc with rfl | hc
            · simp [isStrayChar, h1, h2]
            · exact forall_takeWhile _ r c hc)
          (by
            intro c hc
            have := head?_dropWhile isStrayChar r c hc
            simpa [isStrayChar, or_iff_not_imp_left] using this)
        rwa [List.cons_append, List.takeWhile_append_dropWhile] at hm

lemma move_stepRaw (e : RawElement) :
    Move ⟨.raw e, tag, o, rest⟩ (stepRaw ⟨.raw e, tag, o, rest⟩ e).1
      (stepRaw ⟨.raw e, tag, o, rest⟩ e).2 := by
  have hb := breakAt_append (startsIgnoringCase e.closing) rest
  have hs := breakAt_snd (startsIgnoringCase e.closing) rest
  simp only [stepRaw]
  split
  next he =>
    rw [List.isEmpty_iff.1 he, List.nil_append] at hb
    rw [hb] at hs
    exact .noRaw hs
  next he =>
    have hm := @Move.raw e tag _ _ o
      (fun h => he (by rw [h]; rfl) : (breakAt (startsIgnoringCase e.closing) rest).1 ≠ []) hs
    rwa [hb] at hm

/-- **Every step is a move.** -/
theorem move_step (c : Cursor) (h : c.rest ≠ []) : Move c c.step.1 c.step.2 := by
  obtain ⟨mode, tag, o, rest⟩ := c
  have hblank : rest.takeWhile isMarkupBlank ++ rest.dropWhile isMarkupBlank = rest :=
    List.takeWhile_append_dropWhile
  have hgap := forall_takeWhile isMarkupBlank rest
  cases mode with
  | content => exact move_stepContent tag rest o h
  | startTagName =>
    have hm := @Move.startTag tag _ _ o (head?_dropWhile isNameChar rest)
      (forall_takeWhile isNameChar rest)
    rwa [List.takeWhile_append_dropWhile] at hm
  | insideTag =>
    have hm := move_stepInsideTag tag (rest.dropWhile isMarkupBlank) o _ hgap
      (Or.inl rfl)
    rwa [hblank] at hm
  | afterName =>
    have hm := move_stepInsideTag tag (rest.dropWhile isMarkupBlank) o _ hgap
      (Or.inr rfl)
    rwa [hblank] at hm
  | attributeValue =>
    have hm := move_stepAttributeValue tag (rest.dropWhile isMarkupBlank) o _ hgap
    rwa [hblank] at hm
  | endTagName =>
    have hm := @Move.endTag tag _ _ o (head?_dropWhile isNameChar rest)
      (forall_takeWhile isNameChar rest)
    rwa [List.takeWhile_append_dropWhile] at hm
  | insideEndTag =>
    have hm := move_stepInsideEndTag tag (rest.dropWhile isMarkupBlank) o _ hgap
    rwa [hblank] at hm
  | raw e => exact move_stepRaw tag rest o e

end Cursor

end Markup

end Mosaic
