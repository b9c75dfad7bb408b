import Mosaic.Proofs.TokenStream
import Mosaic.Region.Scan

/-!
# Reading well-formed markup

What the cursor makes of markup that is as it should be: text, comments, start tags with their
attributes, end tags and raw content.  `Cursor.Reads` says that a cursor comes, over some tokens, to
another one, and each piece of markup has its own rule.  The rules are put together by
`Reads.trans`.

* `Reads.text`, `Reads.comment` — what stands between tags.
* `Reads.startTag`, `Reads.attributeName`, `Reads.attributeValue`, `Reads.close`,
  `Reads.selfClose` — a start tag.
* `Reads.openTag`, `Reads.selfClosedTag` — a whole start tag.
* `Reads.raw` — the content of a raw element, which ends at its end tag only.
* `Reads.endTag`, `Reads.insideEndTag` — an end tag.
* `ScanState.Passes` — what a pass over the tokens makes of what the cursor reads.
-/

namespace Mosaic

namespace Text

variable {p : Char → Bool} {a b : Text}

lemma takeWhile_append (ha : ∀ c ∈ a, p c) (hb : ∀ c ∈ b.head?, ¬ p c) :
    (a ++ b).takeWhile p = a := by
  rw [List.takeWhile_append_of_pos ha]
  cases b with
  | nil => simp
  | cons x b => rw [List.takeWhile_cons_of_neg (hb x rfl), List.append_nil]

lemma dropWhile_append (ha : ∀ c ∈ a, p c) (hb : ∀ c ∈ b.head?, ¬ p c) :
    (a ++ b).dropWhile p = b := by
  rw [List.dropWhile_append_of_pos ha]
  cases b with
  | nil => rfl
  | cons x b => rw [List.dropWhile_cons_of_neg (hb x rfl)]

/-- A text breaks where it is said to, if it does not break before. -/
lemma breakAt_eq {found : Text → Bool} (ha : ∀ x, x <:+ a → x ≠ [] → ¬ found (x ++ b))
    (hb : b = [] ∨ found b) : breakAt found (a ++ b) = (a, b) := by
  induction a with
  | nil =>
    rcases hb with rfl | hb
    · rfl
    · cases b with
      | nil => rfl
      | cons x b => rw [List.nil_append, breakAt, if_pos hb]
  | cons x a ih =>
    have hx : ¬ found (x :: (a ++ b)) := ha (x :: a) List.suffix_rfl (by simp)
    rw [List.cons_append, breakAt, if_neg hx,
      ih fun y hy => ha y (hy.trans (List.suffix_cons x a))]

lemma startsIgnoringCase_append (p r : Text) : startsIgnoringCase p (p ++ r) := by
  simp [startsIgnoringCase, sameIgnoringCase]

end Text

namespace Markup

open Text

/-! ## Markup as it is written -/

/-- The name of a tag: a letter, and then characters of a name. -/
structure IsTagName (name : Text) : Prop where
  initial : name.head?.any isTagInitial
  chars : ∀ c ∈ name, isNameChar c

instance (name : Text) : Decidable (IsTagName name) :=
  decidable_of_iff (name.head?.any isTagInitial ∧ name.all isNameChar)
    ⟨fun h => ⟨h.1, List.all_eq_true.1 h.2⟩, fun h => ⟨h.initial, List.all_eq_true.2 h.chars⟩⟩

/-- The value of an attribute as it is written: an `=` with white space around it, and some text in
double quotes. -/
structure QuotedValue where
  before : Text
  after : Text
  value : Text
  blanksBefore : ∀ c ∈ before, isMarkupBlank c
  blanksAfter : ∀ c ∈ after, isMarkupBlank c
  noQuote : '"' ∉ value

/-- The value with its quotes. -/
def QuotedValue.quoted (v : QuotedValue) : Text :=
  '"' :: (v.value ++ ['"'])

/-- The text of the value. -/
def QuotedValue.written (v : QuotedValue) : Text :=
  v.before ++ '=' :: (v.after ++ v.quoted)

/-- An attribute as it is written: white space, a name and maybe a value. -/
structure Attribute where
  gap : Text
  name : Text
  value : Option QuotedValue
  gapped : gap ≠ []
  blanks : ∀ c ∈ gap, isMarkupBlank c
  named : name ≠ []
  chars : ∀ c ∈ name, isAttributeNameChar c

namespace Attribute

/-- The text of the attribute. -/
def written (a : Attribute) : Text :=
  a.gap ++ (a.name ++ a.value.elim [] QuotedValue.written)

/-- The tokens of the attribute, if it stands at offset `n`. -/
def tokens (n : Nat) (a : Attribute) : List Token :=
  let start := n + bytes a.gap
  ⟨.attributeName, start, a.name⟩ :: a.value.elim [] fun v =>
    [⟨.attributeValue, start + bytes a.name + bytes v.before + 1 + bytes v.after, v.quoted⟩]

/-- The tokens of attributes, the first of which stands at offset `n`. -/
def tokensFrom : Nat → List Attribute → List Token
  | _, [] => []
  | n, a :: as => a.tokens n ++ tokensFrom (n + bytes a.written) as

lemma kind_of_mem_tokensFrom {as : List Attribute} {n : Nat} {t : Token}
    (h : t ∈ tokensFrom n as) : t.kind = .attributeName ∨ t.kind = .attributeValue := by
  induction as generalizing n with
  | nil => simp [tokensFrom] at h
  | cons a as ih =>
    rw [tokensFrom, tokens, List.cons_append, List.mem_cons, List.mem_append] at h
    rcases h with rfl | h | h
    · exact Or.inl rfl
    · cases hv : a.value with
      | none => simp [hv] at h
      | some v =>
        simp only [hv, Option.elim_some, List.mem_singleton] at h
        exact Or.inr (h ▸ rfl)
    · exact ih h

/-- What follows a name inside a tag is white space or the end of the tag. -/
lemma blank_of_mem_head? {as : List Attribute} {tail rest : Text} {x c : Char}
    (htail : ∀ c ∈ tail, isMarkupBlank c)
    (hc : c ∈ (as.flatMap written ++ (tail ++ x :: rest)).head?) : isMarkupBlank c ∨ c = x := by
  cases as with
  | nil =>
    cases tail with
    | nil => exact Or.inr (by simpa using hc.symm)
    | cons y tail =>
      obtain rfl : y = c := by simpa using hc
      exact Or.inl (htail y (by simp))
  | cons a as =>
    have hgapped := a.gapped
    have hblanks := a.blanks
    rw [List.flatMap_cons, written] at hc
    cases hgap : a.gap with
    | nil => contradiction
    | cons y gap =>
      obtain rfl : y = c := by simpa [hgap] using hc
      exact Or.inl (hblanks y (by simp [hgap]))

end Attribute

/-- A start tag as it is written, up to its `>` or `/>`. -/
structure TagHead where
  name : Text
  attributes : List Attribute
  tail : Text
  named : IsTagName name
  blanks : ∀ c ∈ tail, isMarkupBlank c

/-- The text of the tag. -/
def TagHead.written (h : TagHead) : Text :=
  '<' :: (h.name ++ (h.attributes.flatMap Attribute.written ++ h.tail))

/-- What a comment may say. -/
structure IsComment (body : Text) : Prop where
  noEnd : ¬ ['-', '-', '>'] <:+: body
  noEarlyEnd : ¬ ['>'] <+: body ∧ ¬ ['-', '>'] <+: body

namespace RawElement

/-- The name of the element. -/
def name : RawElement → Text
  | .script => ['s', 'c', 'r', 'i', 'p', 't']
  | .style => ['s', 't', 'y', 'l', 'e']

lemma isTagName_name (e : RawElement) : IsTagName e.name := by
  cases e <;> decide

lemma closing_eq (e : RawElement) : e.closing = ['<', '/'] ++ e.name := by
  cases e <;> rfl

/-- Raw content follows the start tag of such an element. -/
lemma afterStartTag_of_same {e : RawElement} {name : Text} (h : sameIgnoringCase name e.name) :
    Mode.afterStartTag name = .raw e := by
  rw [sameIgnoringCase, beq_iff_eq] at h
  unfold Mode.afterStartTag sameIgnoringCase
  rw [h]
  cases e <;> decide

/-- Markup follows all other start tags. -/
lemma afterStartTag_of_markup {name : Text}
    (h : ∀ e : RawElement, ¬ sameIgnoringCase name e.name) :
    Mode.afterStartTag name = .content := by
  have hscript : ¬ sameIgnoringCase name ['s', 'c', 'r', 'i', 'p', 't'] := h .script
  have hstyle : ¬ sameIgnoringCase name ['s', 't', 'y', 'l', 'e'] := h .style
  rw [Mode.afterStartTag, if_neg hscript, if_neg hstyle]

end RawElement

/-- The text does not end the raw element. -/
def StaysRaw (e : RawElement) (body : Text) : Prop :=
  ∀ y, y <:+ body → ¬ startsIgnoringCase e.closing y

instance (e : RawElement) (body : Text) : Decidable (StaysRaw e body) :=
  decidable_of_iff (∀ y ∈ body.tails, ¬ startsIgnoringCase e.closing y)
    (forall_congr' fun y => imp_congr_left (List.mem_tails y body))

/-- Neither does the text together with the end tag end it early. -/
lemma StaysRaw.not_startsIgnoringCase {e : RawElement} {body rest y : Text} (h : StaysRaw e body)
    (hr : startsIgnoringCase e.closing rest) (hy : y <:+ body) (hne : y ≠ []) :
    ¬ startsIgnoringCase e.closing (y ++ rest) := by
  intro hfound
  obtain ⟨x, r, rfl, -⟩ := Cursor.endTag_of_startsIgnoringCase hr
  by_cases hlong : e.closing.length ≤ y.length
  · rw [startsIgnoringCase, List.take_append_of_le_length hlong] at hfound
    exact h y hy hfound
  · -- the `<` of the end tag would have to be a later character of its own text
    rw [startsIgnoringCase, sameIgnoringCase, beq_iff_eq] at hfound
    have hat : (lower e.closing)[y.length]? = some '<' := by
      rw [hfound, lower, List.getElem?_map, List.getElem?_take_of_lt (by omega)]
      simp
    obtain ⟨k, hk⟩ := Nat.exists_eq_succ_of_ne_zero (List.length_pos_iff.2 hne).ne'
    rw [hk, ← List.getElem?_tail] at hat
    have hmem := List.mem_of_getElem? hat
    revert hmem
    cases e <;> decide

namespace Cursor

variable {c c' c'' : Cursor} {ts ts' : List Token} {t : Token} {tag name gap body rest : Text}
  {n : Nat} {m : Mode}

lemma utf8Size_lt : '<'.utf8Size = 1 := rfl

lemma utf8Size_gt : '>'.utf8Size = 1 := rfl

lemma utf8Size_slash : '/'.utf8Size = 1 := rfl

lemma utf8Size_equals : '='.utf8Size = 1 := rfl

/-! ## Coming from one cursor to another -/

/-- Over some tokens the cursor comes to another one. -/
def Reads (c : Cursor) (ts : List Token) (c' : Cursor) : Prop :=
  c.tokens = ts ++ c'.tokens

lemma Reads.trans (h : c.Reads ts c') (h' : c'.Reads ts' c'') : c.Reads (ts ++ ts') c'' := by
  rw [Reads, h, h', List.append_assoc]

lemma Reads.of_skip (h : c.rest ≠ []) (hs : c.step = (none, c')) : c.Reads [] c' := by
  rw [Reads, tokens, dif_neg h]
  simp only [hs, List.nil_append]

lemma Reads.of_emit (h : c.rest ≠ []) (hs : c.step = (some t, c')) : c.Reads [t] c' := by
  rw [Reads, tokens, dif_neg h]
  simp only [hs, List.singleton_append]

/-! ## Between tags -/

/-- Loose text is one token, up to the next markup. -/
lemma Reads.text (hne : body ≠ []) (hlt : '<' ∉ body) (hr : rest = [] ∨ opensMarkup rest) :
    Reads ⟨.content, tag, n, body ++ rest⟩ [⟨.other, n, body⟩]
      ⟨.content, tag, n + bytes body, rest⟩ := by
  cases body with
  | nil => contradiction
  | cons x body =>
    have hx : x ≠ '<' := fun h => hlt (by simp [h])
    have hbreak : breakAt opensMarkup (body ++ rest) = (body, rest) := by
      refine breakAt_eq (fun y hy hne => ?_) hr
      cases y with
      | nil => contradiction
      | cons z y =>
        have hz : z ≠ '<' := fun h => hlt (List.mem_cons_of_mem _ (hy.subset (by simp [h])))
        cases y with
        | nil => cases rest <;> simp [opensMarkup, hz]
        | cons => simp [opensMarkup, hz]
    refine Reads.of_emit (by simp) ?_
    simp only [step, stepContent, List.cons_append, hx, false_and, if_false, hbreak, emit]

/-- A comment does not end before its end. -/
lemma breakAt_comment (h : IsComment body) (rest : Text) :
    breakAt (['-', '-', '>'].isPrefixOf ·)
        (['<', '!', '-', '-'] ++ body ++ (['-', '-', '>'] ++ rest))
      = (['<', '!', '-', '-'] ++ body, ['-', '-', '>'] ++ rest) := by
  refine breakAt_eq (fun y hy hne hfound => ?_) (Or.inr (by simp))
  rw [List.isPrefixOf_iff_prefix] at hfound
  have hlong : ['-', '-', '>'] <+: y := by
    match y, hne with
    | [a], _ => simp at hfound
    | [a, b], _ => simp at hfound
    | a :: b :: c :: y, _ => simpa using hfound
  rcases List.suffix_or_suffix_of_suffix hy (List.suffix_append _ body) with hy | ⟨z, rfl⟩
  · exact h.noEnd (hlong.isInfix.trans hy.isInfix)
  · -- it would have to begin in the opening of the comment
    obtain ⟨w, hw⟩ := hy
    have hz : z ∈ ['<', '!', '-', '-'].tails :=
      (List.mem_tails _ _).2 ⟨w, List.append_cancel_right ((List.append_assoc ..).trans hw)⟩
    simp only [List.tails, List.mem_cons, List.not_mem_nil, or_false] at hz
    rcases hz with rfl | rfl | rfl | rfl | rfl
    · simp at hlong
    · simp at hlong
    · exact h.noEarlyEnd.1 (by simpa using hlong)
    · exact h.noEarlyEnd.2 (by simpa using hlong)
    · exact h.noEnd hlong.isInfix

/-- A comment is one token. -/
lemma Reads.comment (h : IsComment body) :
    Reads ⟨.content, tag, n, ['<', '!', '-', '-'] ++ body ++ (['-', '-', '>'] ++ rest)⟩
      [⟨.other, n, ['<', '!', '-', '-'] ++ body ++ ['-', '-', '>']⟩]
      ⟨.content, tag, n + bytes (['<', '!', '-', '-'] ++ body ++ ['-', '-', '>']), rest⟩ := by
  refine Reads.of_emit (by simp) ?_
  have hbreak := breakAt_comment h rest
  simp only [List.cons_append, List.nil_append] at hbreak
  simp [step, stepContent, hbreak, emit]

/-! ## Start tags -/

lemma not_isTagInitial_of_mem {x : Char} (h : x ∈ ['!', '/']) : ¬ isTagInitial x := by
  simp only [List.mem_cons, List.not_mem_nil, or_false] at h
  rcases h with rfl | rfl <;> decide

/-- The opening of a start tag and its name. -/
lemma Reads.startTag (hname : IsTagName name) (hr : ∀ c ∈ rest.head?, ¬ isNameChar c) :
    Reads ⟨.content, tag, n, '<' :: (name ++ rest)⟩ [⟨.startTag, n + 1, name⟩]
      ⟨.insideTag, name, n + 1 + bytes name, rest⟩ := by
  have hinitial := hname.initial
  have hskip : Reads ⟨.content, tag, n, '<' :: (name ++ rest)⟩ []
      ⟨.startTagName, tag, n + 1, name ++ rest⟩ := by
    refine Reads.of_skip (by simp) ?_
    cases name with
    | nil => simp at hinitial
    | cons x name =>
      have hx : isTagInitial x := by simpa using hinitial
      have hbang : x ≠ '!' := fun h => not_isTagInitial_of_mem (by simp [h]) hx
      have hslash : x ≠ '/' := fun h => not_isTagInitial_of_mem (by simp [h]) hx
      simp [step, stepContent, List.isPrefixOf, hbang.symm, hslash, hx, skip, utf8Size_lt]
  refine hskip.trans (Reads.of_emit ?_ ?_)
  · intro hnil
    simp [(List.append_eq_nil_iff.1 hnil).1] at hinitial
  · simp only [step, stepStartTagName, emit, takeWhile_append hname.chars hr,
      dropWhile_append hname.chars hr]

/-- Inside a start tag the cursor passes over white space first. -/
lemma step_insideTag (hm : m = .insideTag ∨ m = .afterName) (hgap : ∀ c ∈ gap, isMarkupBlank c)
    (hr : ∀ c ∈ rest.head?, ¬ isMarkupBlank c) :
    step ⟨m, tag, n, gap ++ rest⟩ = stepInsideTag ⟨m, tag, n + bytes gap, rest⟩ := by
  rcases hm with rfl | rfl <;>
    simp only [step, skipBlanks, takeWhile_append hgap hr, dropWhile_append hgap hr]

/-- The name of an attribute. -/
lemma Reads.attributeName (hm : m = .insideTag ∨ m = .afterName)
    (hgap : ∀ c ∈ gap, isMarkupBlank c) (hne : name ≠ [])
    (hname : ∀ c ∈ name, isAttributeNameChar c) (hr : ∀ c ∈ rest.head?, ¬ isAttributeNameChar c) :
    Reads ⟨m, tag, n, gap ++ (name ++ rest)⟩ [⟨.attributeName, n + bytes gap, name⟩]
      ⟨.afterName, tag, n + bytes gap + bytes name, rest⟩ := by
  cases name with
  | nil => contradiction
  | cons x name =>
    have hx : isAttributeNameChar x := hname x (by simp)
    obtain ⟨hblank, hslash, hclose, heq, -, -, hopen⟩ : isMarkupBlank x = false ∧ x ≠ '/' ∧
        x ≠ '>' ∧ x ≠ '=' ∧ x ≠ '"' ∧ x ≠ '\'' ∧ x ≠ '<' := by
      simpa [isAttributeNameChar] using hx
    have htail (c : Char) (hc : c ∈ name) : isAttributeNameChar c := hname c (by simp [hc])
    refine Reads.of_emit (by simp) ?_
    rw [step_insideTag hm hgap (by simpa using hblank)]
    simp only [stepInsideTag, List.cons_append, heq, hslash, hclose, hopen, false_and, if_false, hx,
      if_true, takeWhile_append htail hr, dropWhile_append htail hr, emit]

/-- The value of an attribute. -/
lemma Reads.attributeValue (v : QuotedValue) :
    Reads ⟨.afterName, tag, n, v.written ++ rest⟩
      [⟨.attributeValue, n + bytes v.before + 1 + bytes v.after, v.quoted⟩]
      ⟨.insideTag, tag, n + bytes v.written, rest⟩ := by
  obtain ⟨before, after, value, hbefore, hafter, hvalue⟩ := v
  simp only [QuotedValue.written, QuotedValue.quoted, List.append_assoc, List.cons_append,
    List.nil_append]
  have hskip : Reads ⟨.afterName, tag, n, before ++ '=' :: (after ++ '"' :: (value ++ '"' :: rest))⟩
      [] ⟨.attributeValue, tag, n + bytes before + 1, after ++ '"' :: (value ++ '"' :: rest)⟩ := by
    refine Reads.of_skip (by simp) ?_
    rw [step_insideTag (Or.inr rfl) hbefore (by simp [isMarkupBlank])]
    simp [stepInsideTag, skip, utf8Size_equals]
  have hbreak : breakAt (['"'].isPrefixOf ·) (value ++ '"' :: rest) = (value, '"' :: rest) := by
    refine breakAt_eq (fun y hy hne => ?_) (Or.inr (by simp))
    cases y with
    | nil => contradiction
    | cons z y =>
      have hz : '"' ≠ z := fun h => hvalue (hy.subset (h ▸ List.mem_cons_self))
      simp [hz]
  refine hskip.trans (Reads.of_emit (by simp) ?_)
  have hq : ∀ c ∈ ('"' :: (value ++ '"' :: rest)).head?, ¬ isMarkupBlank c := by
    simp [isMarkupBlank]
  simp [step, skipBlanks, takeWhile_append hafter hq, dropWhile_append hafter hq,
    stepAttributeValue, hbreak, emit, utf8Size_equals, Nat.add_assoc]

/-- The `>` that ends a start tag. -/
lemma Reads.close (hm : m = .insideTag ∨ m = .afterName) (hgap : ∀ c ∈ gap, isMarkupBlank c) :
    Reads ⟨m, tag, n, gap ++ '>' :: rest⟩ [⟨.startTagClose, n + bytes gap, ['>']⟩]
      ⟨.afterStartTag tag, tag, n + bytes gap + 1, rest⟩ := by
  refine Reads.of_emit (by simp) ?_
  rw [step_insideTag hm hgap (by simp [isMarkupBlank])]
  simp [stepInsideTag, emit, utf8Size_gt]

/-- The `/>` that ends a start tag. -/
lemma Reads.selfClose (hm : m = .insideTag ∨ m = .afterName) (hgap : ∀ c ∈ gap, isMarkupBlank c) :
    Reads ⟨m, tag, n, gap ++ '/' :: '>' :: rest⟩
      [⟨.startTagSelfClose, n + bytes gap, ['/', '>']⟩]
      ⟨.content, tag, n + bytes gap + 2, rest⟩ := by
  refine Reads.of_emit (by simp) ?_
  rw [step_insideTag hm hgap (by simp [isMarkupBlank])]
  simp [stepInsideTag, emit, utf8Size_gt, utf8Size_slash]

lemma not_isAttributeNameChar {c : Char} (h : isMarkupBlank c ∨ c = '>' ∨ c = '/') :
    ¬ isAttributeNameChar c := by
  rcases h with h | rfl | rfl
  · simp [isAttributeNameChar, h]
  · decide
  · decide

/-- An attribute with something behind it that does not belong to its name. -/
lemma Reads.attribute (a : Attribute) (tag : Text) (n : Nat) (hm : m = .insideTag ∨ m = .afterName)
    (hrest : ∀ c ∈ rest.head?, ¬ isAttributeNameChar c) :
    ∃ m', (m' = .insideTag ∨ m' = .afterName) ∧
      Reads ⟨m, tag, n, a.written ++ rest⟩ (a.tokens n) ⟨m', tag, n + bytes a.written, rest⟩ := by
  obtain ⟨gap, name, value, gapped, blanks, named, chars⟩ := a
  cases value with
  | none =>
    refine ⟨.afterName, Or.inr rfl, ?_⟩
    have hname : Reads ⟨m, tag, n, gap ++ (name ++ rest)⟩ _ _ :=
      Reads.attributeName hm blanks named chars hrest
    simpa [Attribute.written, Attribute.tokens, Nat.add_assoc] using hname
  | some v =>
    refine ⟨.insideTag, Or.inl rfl, ?_⟩
    have hends : ∀ c ∈ (v.written ++ rest).head?, ¬ isAttributeNameChar c := by
      intro c hc
      cases hb : v.before with
      | nil =>
        obtain rfl : '=' = c := by simpa [QuotedValue.written, hb] using hc
        decide
      | cons x before =>
        obtain rfl : x = c := by simpa [QuotedValue.written, hb] using hc
        exact not_isAttributeNameChar (Or.inl (v.blanksBefore x (by simp [hb])))
    have hname : Reads ⟨m, tag, n, gap ++ (name ++ (v.written ++ rest))⟩ _ _ :=
      Reads.attributeName hm blanks named chars hends
    have hread := hname.trans (Reads.attributeValue v)
    simpa [Attribute.written, Attribute.tokens, Nat.add_assoc] using hread

/-- The attributes of a start tag. -/
lemma Reads.attributes (as : List Attribute) (tag rest : Text) (n : Nat) {x : Char}
    (hx : x = '>' ∨ x = '/') (hm : m = .insideTag ∨ m = .afterName)
    (hgap : ∀ c ∈ gap, isMarkupBlank c) :
    ∃ m', (m' = .insideTag ∨ m' = .afterName) ∧
      Reads ⟨m, tag, n, as.flatMap Attribute.written ++ (gap ++ x :: rest)⟩
        (Attribute.tokensFrom n as)
        ⟨m', tag, n + bytes (as.flatMap Attribute.written), gap ++ x :: rest⟩ := by
  induction as generalizing m n with
  | nil => exact ⟨m, hm, rfl⟩
  | cons a as ih =>
    have hends : ∀ c ∈ (as.flatMap Attribute.written ++ (gap ++ x :: rest)).head?,
        ¬ isAttributeNameChar c := by
      intro c hc
      refine not_isAttributeNameChar ((Attribute.blank_of_mem_head? hgap hc).imp_right ?_)
      rintro rfl
      exact hx
    obtain ⟨m₁, hm₁, hfirst⟩ := Reads.attribute a tag n hm hends
    obtain ⟨m', hm', hothers⟩ := ih (n + bytes a.written) hm₁
    refine ⟨m', hm', ?_⟩
    have hread := hfirst.trans hothers
    rw [List.flatMap_cons, List.append_assoc, bytes_append, ← Nat.add_assoc]
    exact hread

lemma not_isNameChar {c : Char} (h : isMarkupBlank c ∨ c = '>' ∨ c = '/') : ¬ isNameChar c := by
  rcases h with h | rfl | rfl
  · simp only [isMarkupBlank, Bool.or_eq_true, beq_iff_eq] at h
    obtain (((rfl | rfl) | rfl) | rfl) | rfl := h <;> decide
  · decide
  · decide

/-- The name and the attributes of a start tag. -/
lemma Reads.tagHead (h : TagHead) (tag rest : Text) (n : Nat) {x : Char} (hx : x = '>' ∨ x = '/') :
    ∃ m, (m = .insideTag ∨ m = .afterName) ∧
      Reads ⟨.content, tag, n, h.written ++ x :: rest⟩
        (⟨.startTag, n + 1, h.name⟩ :: Attribute.tokensFrom (n + 1 + bytes h.name) h.attributes)
        ⟨m, h.name, n + 1 + bytes h.name + bytes (h.attributes.flatMap Attribute.written),
          h.tail ++ x :: rest⟩ := by
  have hends : ∀ c ∈ (h.attributes.flatMap Attribute.written ++ (h.tail ++ x :: rest)).head?,
      ¬ isNameChar c := by
    intro c hc
    refine not_isNameChar ((Attribute.blank_of_mem_head? h.blanks hc).imp_right ?_)
    rintro rfl
    exact hx
  obtain ⟨m, hm, hattributes⟩ := Reads.attributes h.attributes h.name rest (n + 1 + bytes h.name)
    hx (Or.inl rfl) h.blanks
  refine ⟨m, hm, ?_⟩
  have hname : Reads ⟨.content, tag, n, '<' :: (h.name ++ (_ ++ (h.tail ++ x :: rest)))⟩ _ _ :=
    Reads.startTag h.named hends
  simpa [TagHead.written] using hname.trans hattributes

/-- A start tag with all that it says. -/
lemma Reads.openTag (h : TagHead) :
    Reads ⟨.content, tag, n, h.written ++ '>' :: rest⟩
      (⟨.startTag, n + 1, h.name⟩ ::
        (Attribute.tokensFrom (n + 1 + bytes h.name) h.attributes ++
          [⟨.startTagClose, n + bytes h.written, ['>']⟩]))
      ⟨.afterStartTag h.name, h.name, n + bytes h.written + 1, rest⟩ := by
  obtain ⟨m, hm, hhead⟩ := Reads.tagHead h tag rest n (Or.inl rfl)
  have hread := hhead.trans (Reads.close hm h.blanks)
  simpa [TagHead.written, utf8Size_lt, Nat.add_assoc] using hread

/-- A start tag that is closed at once. -/
lemma Reads.selfClosedTag (h : TagHead) :
    Reads ⟨.content, tag, n, h.written ++ '/' :: '>' :: rest⟩
      (⟨.startTag, n + 1, h.name⟩ ::
        (Attribute.tokensFrom (n + 1 + bytes h.name) h.attributes ++
          [⟨.startTagSelfClose, n + bytes h.written, ['/', '>']⟩]))
      ⟨.content, h.name, n + bytes h.written + 2, rest⟩ := by
  obtain ⟨m, hm, hhead⟩ := Reads.tagHead h tag ('>' :: rest) n (Or.inr rfl)
  have hread := hhead.trans (Reads.selfClose hm h.blanks)
  simpa [TagHead.written, utf8Size_lt, Nat.add_assoc] using hread

/-! ## Raw content -/

/-- The content of a raw element is one token, up to the end tag of the element. -/
lemma Reads.raw {e : RawElement} (hne : body ≠ []) (hbody : StaysRaw e body)
    (hr : startsIgnoringCase e.closing rest) :
    Reads ⟨.raw e, tag, n, body ++ rest⟩ [⟨e.kind, n, body⟩]
      ⟨.content, tag, n + bytes body, rest⟩ := by
  have hbreak : breakAt (startsIgnoringCase e.closing) (body ++ rest) = (body, rest) :=
    breakAt_eq (fun _ hy => hbody.not_startsIgnoringCase hr hy) (Or.inr hr)
  refine Reads.of_emit (by simp [hne]) ?_
  simp [step, stepRaw, hbreak, hne, emit]

/-- Where a raw element has no content, its end tag comes next. -/
lemma Reads.raw_nil {e : RawElement} (hr : startsIgnoringCase e.closing rest) (hne : rest ≠ []) :
    Reads ⟨.raw e, tag, n, rest⟩ [] ⟨.content, tag, n, rest⟩ := by
  have hbreak : breakAt (startsIgnoringCase e.closing) rest = ([], rest) :=
    breakAt_eq (fun y hy hy' => absurd (List.suffix_nil.1 hy) hy') (Or.inr hr)
  refine Reads.of_skip hne ?_
  simp [step, stepRaw, hbreak, skip]

/-! ## End tags -/

/-- The opening of an end tag and its name. -/
lemma Reads.endTag (hname : IsTagName name) (hr : ∀ c ∈ rest.head?, ¬ isNameChar c) :
    Reads ⟨.content, tag, n, '<' :: '/' :: (name ++ rest)⟩ [⟨.endTag, n + 2, name⟩]
      ⟨.insideEndTag, tag, n + 2 + bytes name, rest⟩ := by
  have hinitial := hname.initial
  have hskip : Reads ⟨.content, tag, n, '<' :: '/' :: (name ++ rest)⟩ []
      ⟨.endTagName, tag, n + 2, name ++ rest⟩ := by
    refine Reads.of_skip (by simp) ?_
    cases name with
    | nil => simp at hinitial
    | cons x name =>
      have hx : isTagInitial x := by simpa using hinitial
      simp [step, stepContent, hx, skip, utf8Size_lt, utf8Size_slash]
  refine hskip.trans (Reads.of_emit ?_ ?_)
  · intro hnil
    simp [(List.append_eq_nil_iff.1 hnil).1] at hinitial
  · simp only [step, stepEndTagName, emit, takeWhile_append hname.chars hr,
      dropWhile_append hname.chars hr]

/-- Inside an end tag the cursor passes over white space first. -/
lemma step_insideEndTag (hgap : ∀ c ∈ gap, isMarkupBlank c)
    (hr : ∀ c ∈ rest.head?, ¬ isMarkupBlank c) :
    step ⟨.insideEndTag, tag, n, gap ++ rest⟩
      = stepInsideEndTag ⟨.insideEndTag, tag, n + bytes gap, rest⟩ := by
  simp only [step, skipBlanks, takeWhile_append hgap hr, dropWhile_append hgap hr]

/-- The `>` that ends an end tag. -/
lemma Reads.closeEndTag (hgap : ∀ c ∈ gap, isMarkupBlank c) :
    Reads ⟨.insideEndTag, tag, n, gap ++ '>' :: rest⟩ [⟨.endTagClose, n + bytes gap, ['>']⟩]
      ⟨.content, tag, n + bytes gap + 1, rest⟩ := by
  refine Reads.of_emit (by simp) ?_
  rw [step_insideEndTag hgap (by simp [isMarkupBlank])]
  simp [stepInsideEndTag, emit, utf8Size_gt]

/-- The inside of an end tag.  What stands before its `>` is white space and stray text. -/
lemma Reads.insideEndTag (tag rest : Text) (n : Nat) (hbody : ∀ c ∈ body, isStrayChar c) :
    ∃ ts, (∀ t ∈ ts, t.kind = .other ∧ '<' ∉ t.text) ∧
      Reads ⟨.insideEndTag, tag, n, body ++ '>' :: rest⟩
        (ts ++ [⟨.endTagClose, n + bytes body, ['>']⟩])
        ⟨.content, tag, n + bytes body + 1, rest⟩ := by
  have hgap := forall_takeWhile isMarkupBlank body
  have hstray (c : Char) (hc : c ∈ body.dropWhile isMarkupBlank) : isStrayChar c :=
    hbody c (List.dropWhile_subset _ hc)
  have hhead := head?_dropWhile isMarkupBlank body
  rw [← List.takeWhile_append_dropWhile (p := isMarkupBlank) (l := body)]
  generalize body.takeWhile isMarkupBlank = gap at hgap ⊢
  generalize body.dropWhile isMarkupBlank = stray at hstray hhead ⊢
  cases stray with
  | nil => exact ⟨[], by simp, by simpa using Reads.closeEndTag hgap⟩
  | cons x stray =>
    obtain ⟨hclose, hopen⟩ : x ≠ '>' ∧ x ≠ '<' := by simpa [isStrayChar] using hstray x (by simp)
    have htail (c : Char) (hc : c ∈ stray) : isStrayChar c := hstray c (by simp [hc])
    have hstop : ∀ c ∈ ('>' :: rest).head?, ¬ isStrayChar c := by simp [isStrayChar]
    refine ⟨[⟨.other, n + bytes gap, x :: stray⟩], ?_, ?_⟩
    · simp only [List.mem_singleton, forall_eq, true_and]
      intro hmem
      simpa [isStrayChar] using hstray '<' hmem
    · have hemit : Reads ⟨.insideEndTag, tag, n, gap ++ (x :: (stray ++ '>' :: rest))⟩
          [⟨.other, n + bytes gap, x :: stray⟩]
          ⟨.insideEndTag, tag, n + bytes gap + bytes (x :: stray), '>' :: rest⟩ := by
        refine Reads.of_emit (by simp) ?_
        rw [step_insideEndTag hgap (by simpa using hhead)]
        simp only [stepInsideEndTag, hclose, hopen, if_false, takeWhile_append htail hstop,
          dropWhile_append htail hstop, emit]
      have hclose : Reads
          ⟨.insideEndTag, tag, n + bytes gap + bytes (x :: stray), [] ++ '>' :: rest⟩ _ _ :=
        Reads.closeEndTag (by simp)
      simpa [Nat.add_assoc] using hemit.trans hclose

end Cursor

end Markup

namespace ScanState

open Markup

variable {options : ScanOptions} {source : Text} {s s' s'' : ScanState} {t : Token}
  {ts ts' : List Token} {found found' : List Region} {c c' c'' : Cursor}

/-! ## A pass over what is read -/

/-- Over some tokens a pass yields regions and comes to another state. -/
def Yields (options : ScanOptions) (source : Text) (s : ScanState) (ts : List Token)
    (found : List Region) (s' : ScanState) : Prop :=
  ∀ rest, regions options source s (ts ++ rest) = found ++ regions options source s' rest

lemma Yields.of_step (h : s.step options source t = (s', found)) :
    Yields options source s [t] found s' := by
  intro rest
  rw [List.singleton_append, regions, h]

lemma Yields.trans (h : Yields options source s ts found s')
    (h' : Yields options source s' ts' found' s'') :
    Yields options source s (ts ++ ts') (found ++ found') s'' := by
  intro rest
  rw [List.append_assoc, h, h', List.append_assoc]

/-- Tokens that change nothing. -/
lemma Yields.of_forall (h : ∀ t ∈ ts, s.step options source t = (s, [])) :
    Yields options source s ts [] s := by
  induction ts with
  | nil => exact fun _ => rfl
  | cons t ts ih =>
    exact (Yields.of_step (h t (by simp))).trans (ih fun u hu => h u (by simp [hu]))

/-- From a cursor to another one, a pass yields regions and comes to another state. -/
def Passes (options : ScanOptions) (source : Text) (s : ScanState) (c : Cursor)
    (found : List Region) (s' : ScanState) (c' : Cursor) : Prop :=
  regions options source s c.tokens = found ++ regions options source s' c'.tokens

lemma Passes.of_reads (h : c.Reads ts c') (h' : Yields options source s ts found s') :
    Passes options source s c found s' c' := by
  rw [Passes, h, h']

lemma Passes.trans (h : Passes options source s c found s' c')
    (h' : Passes options source s' c' found' s'' c'') :
    Passes options source s c (found ++ found') s'' c'' := by
  rw [Passes, h, h', List.append_assoc]

end ScanState

end Mosaic
