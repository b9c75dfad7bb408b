import Mosaic.Proofs.LetterCase
import Mosaic.Region.Scan

/-!
# Regions in any letter case

A pass over a lowered text goes the same way as one over the text itself: every move of the cursor
and every step over a token commutes with lowering, and offsets stay.  Names are compared in any
letter case and the value of `lang` is lowered, so the regions do not only correspond, they are the
same.  Two texts that differ in the case of their letters have one lowered text, and so the same
regions.

* `Markup.Cursor.step_lowered` — one move, and `Markup.tokens_lower` all of them.
* `ScanState.step_lowered` — one token, and `scan_lower` all of them.
* `scan_ignores_case` — two texts, and two names of the template element.
-/

namespace Mosaic

open Text

namespace Markup

/-- The token of the lowered text. -/
def Token.lowered (t : Token) : Token :=
  { t with text := lower t.text }

@[simp] lemma Token.stop_lowered (t : Token) : t.lowered.stop = t.stop := by
  rw [Token.stop, Token.stop, lowered, bytes_lower]

lemma opensMarkup_lower (t : Text) : opensMarkup (lower t) = opensMarkup t := by
  match t with
  | [] => rfl
  | [_] => simp [opensMarkup]
  | a :: b :: r =>
    by_cases ha : a = '<'
    · subst ha
      show (isTagInitial b.toLower || b.toLower == '/' || b.toLower == '!')
        = (isTagInitial b || b == '/' || b == '!')
      rw [ignoresCase_isTagInitial, toLower_beq (by decide), toLower_beq (by decide)]
    · have hlower : a.toLower ≠ '<' := fun h => ha ((toLower_eq_iff (by decide)).1 h)
      simp [opensMarkup, ha, hlower]

namespace Cursor

/-- The cursor in the lowered text. -/
def lowered (c : Cursor) : Cursor :=
  { c with tag := lower c.tag, rest := lower c.rest }

/-- A move in the lowered text. -/
def loweredMove (m : Option Token × Cursor) : Option Token × Cursor :=
  (m.1.map Token.lowered, m.2.lowered)

variable (c : Cursor)

lemma loweredMove_skip (m : Mode) (read rest : Text) :
    loweredMove (c.skip m read rest) = c.lowered.skip m (lower read) (lower rest) := by
  simp [loweredMove, skip, lowered]

lemma loweredMove_emit (k : Kind) (m : Mode) (read rest : Text) :
    loweredMove (c.emit k m read rest) = c.lowered.emit k m (lower read) (lower rest) := by
  simp [loweredMove, emit, lowered, Token.lowered]

lemma skipBlanks_lowered : c.lowered.skipBlanks = c.skipBlanks.lowered := by
  simp only [skipBlanks, lowered, takeWhile_lower ignoresCase_isMarkupBlank,
    dropWhile_lower ignoresCase_isMarkupBlank, bytes_lower]

/-! ## One move in each mode -/

lemma stepContent_lowered : c.lowered.stepContent = loweredMove c.stepContent := by
  obtain ⟨mode, tag, o, rest⟩ := c
  cases rest with
  | nil => rfl
  | cons x r =>
    have hlt : x.toLower = '<' ↔ x = '<' := toLower_eq_iff (by decide)
    have hslash : (lower r).head? = some '/' ↔ r.head? = some '/' := head?_lower (by decide)
    have hcomment := isPrefixOf_lower ['!', '-', '-'] (by decide) r
    have hend := breakAt_lower (isPrefixOf_lower ['-', '-', '>'] (by decide)) (x :: r)
    have hstop := breakAt_lower (isPrefixOf_lower ['>'] (by decide)) (x :: r)
    have hmarkup := breakAt_lower opensMarkup_lower r
    rw [lower_cons] at hend hstop
    simp only [stepContent, lowered, lower_cons, hlt, hslash, hcomment, hend, hstop, hmarkup,
      drop_lower, take_lower, any_head?_lower ignoresCase_isTagInitial, apply_ite loweredMove,
      loweredMove_skip, loweredMove_emit, lower_append]
    rfl

lemma stepStartTagName_lowered :
    c.lowered.stepStartTagName = loweredMove c.stepStartTagName := by
  simp only [stepStartTagName, loweredMove_emit, lowered,
    takeWhile_lower ignoresCase_isNameChar, dropWhile_lower ignoresCase_isNameChar]

lemma afterStartTag_lower (name : Text) :
    Mode.afterStartTag (lower name) = Mode.afterStartTag name := by
  simp only [Mode.afterStartTag, sameIgnoringCase_lower_left]

lemma stepInsideTag_lowered : c.lowered.stepInsideTag = loweredMove c.stepInsideTag := by
  obtain ⟨mode, tag, o, rest⟩ := c
  cases rest with
  | nil => rfl
  | cons x r =>
    have hequals : x.toLower = '=' ↔ x = '=' := toLower_eq_iff (by decide)
    have hslash : x.toLower = '/' ↔ x = '/' := toLower_eq_iff (by decide)
    have hgt : x.toLower = '>' ↔ x = '>' := toLower_eq_iff (by decide)
    have hlt : x.toLower = '<' ↔ x = '<' := toLower_eq_iff (by decide)
    have hclose : (lower r).head? = some '>' ↔ r.head? = some '>' := head?_lower (by decide)
    simp only [stepInsideTag, lowered, lower_cons, hequals, hslash, hgt, hlt, hclose, drop_lower,
      ignoresCase_isAttributeNameChar x, takeWhile_lower ignoresCase_isAttributeNameChar,
      dropWhile_lower ignoresCase_isAttributeNameChar, afterStartTag_lower, apply_ite loweredMove,
      loweredMove_skip, loweredMove_emit]
    rfl

lemma stepAttributeValue_lowered :
    c.lowered.stepAttributeValue = loweredMove c.stepAttributeValue := by
  obtain ⟨mode, tag, o, rest⟩ := c
  cases rest with
  | nil => rfl
  | cons x r =>
    by_cases hquote : x = '"' ∨ x = '\''
    · -- the closing quote is the same character as the opening one
      have hx : x.isAlpha = false := by rcases hquote with rfl | rfl <;> decide
      have hself : x.toLower = x := (toLower_eq_iff (by simp [hx])).2 rfl
      have hclose := breakAt_lower (isPrefixOf_lower [x] (by simp [hx])) r
      simp only [stepAttributeValue, lowered, lower_cons, hself, if_pos hquote, hclose, drop_lower,
        take_lower, loweredMove_emit, lower_append]
    · have hquote' : ¬ (x.toLower = '"' ∨ x.toLower = '\'') := by
        rwa [toLower_eq_iff (by decide), toLower_eq_iff (by decide)]
      have hslash : x.toLower = '/' ↔ x = '/' := toLower_eq_iff (by decide)
      have hgt : x.toLower = '>' ↔ x = '>' := toLower_eq_iff (by decide)
      have hclose : (lower r).head? = some '>' ↔ r.head? = some '>' := head?_lower (by decide)
      simp only [stepAttributeValue, lowered, lower_cons, if_neg hquote, if_neg hquote', hslash,
        hgt, hclose, takeWhile_lower ignoresCase_isBareValueChar,
        dropWhile_lower ignoresCase_isBareValueChar, apply_ite loweredMove, loweredMove_skip,
        loweredMove_emit]
      rfl

lemma stepEndTagName_lowered : c.lowered.stepEndTagName = loweredMove c.stepEndTagName := by
  simp only [stepEndTagName, loweredMove_emit, lowered,
    takeWhile_lower ignoresCase_isNameChar, dropWhile_lower ignoresCase_isNameChar]

lemma stepInsideEndTag_lowered : c.lowered.stepInsideEndTag = loweredMove c.stepInsideEndTag := by
  obtain ⟨mode, tag, o, rest⟩ := c
  cases rest with
  | nil => rfl
  | cons x r =>
    have hgt : x.toLower = '>' ↔ x = '>' := toLower_eq_iff (by decide)
    have hlt : x.toLower = '<' ↔ x = '<' := toLower_eq_iff (by decide)
    simp only [stepInsideEndTag, lowered, lower_cons, hgt, hlt,
      takeWhile_lower ignoresCase_isStrayChar, dropWhile_lower ignoresCase_isStrayChar,
      apply_ite loweredMove, loweredMove_skip, loweredMove_emit]
    rfl

lemma stepRaw_lowered (e : RawElement) : c.lowered.stepRaw e = loweredMove (c.stepRaw e) := by
  simp only [stepRaw, lowered, breakAt_lower (startsIgnoringCase_lower_right e.closing),
    isEmpty_lower, apply_ite loweredMove, loweredMove_skip, loweredMove_emit]
  rfl

/-- **One move in the lowered text** is the move in the text, lowered. -/
theorem step_lowered : c.lowered.step = loweredMove c.step := by
  obtain ⟨mode, tag, o, rest⟩ := c
  cases mode with
  | content => exact stepContent_lowered _
  | startTagName => exact stepStartTagName_lowered _
  | insideTag | afterName =>
    exact (congrArg stepInsideTag (skipBlanks_lowered _)).trans (stepInsideTag_lowered _)
  | attributeValue =>
    exact (congrArg stepAttributeValue (skipBlanks_lowered _)).trans (stepAttributeValue_lowered _)
  | endTagName => exact stepEndTagName_lowered _
  | insideEndTag =>
    exact (congrArg stepInsideEndTag (skipBlanks_lowered _)).trans (stepInsideEndTag_lowered _)
  | raw e => exact stepRaw_lowered _ e

/-- All moves in the lowered text. -/
theorem tokens_lowered : c.lowered.tokens = c.tokens.map Token.lowered := by
  fun_induction tokens c with
  | case1 c h => rw [tokens, dif_pos (show c.lowered.rest = [] by simp [lowered, h])]; rfl
  | case2 c h _ hstep ih =>
    rw [tokens, dif_neg (show c.lowered.rest ≠ [] by simpa [lowered] using h)]
    simp only [step_lowered, loweredMove, hstep, Option.map_none, ih]
  | case3 c h _ t hstep ih =>
    rw [tokens, dif_neg (show c.lowered.rest ≠ [] by simpa [lowered] using h)]
    simp only [step_lowered, loweredMove, hstep, Option.map_some, ih, List.map_cons]

end Cursor

/-- **The tokens of the lowered text** are those of the text, lowered. -/
theorem tokens_lower (t : Text) : tokens (lower t) = (tokens t).map Token.lowered :=
  (Cursor.start t).tokens_lowered

end Markup

/-! ## The spans of single regions -/

namespace Scan

open Markup

variable {options : ScanOptions} {name : Text}

lemma quoted?_lower (t : Text) : quoted? (lower t) = (quoted? t).map lower := by
  cases t with
  | nil => rfl
  | cons q r =>
    have hquote : (q.toLower = '"' ∨ q.toLower = '\'') ↔ (q = '"' ∨ q = '\'') := by
      rw [toLower_eq_iff (by decide), toLower_eq_iff (by decide)]
    by_cases hq : q = '"' ∨ q = '\''
    · have hx : ¬ q.isAlpha := by rcases hq with rfl | rfl <;> decide
      have hself : q.toLower = q := (toLower_eq_iff hx).2 rfl
      have hdrop : (lower r).dropLast = lower r.dropLast := List.map_dropLast.symm
      simp only [quoted?, lower_cons, hself, getLast?_lower hx, hdrop]
      split <;> rfl
    · simp only [quoted?, lower_cons, hquote, hq, false_and, if_false, Option.map_none]

/-- The language that a `lang` attribute names. -/
lemma langValue_lower (value : Text) : langValue (lower value) = langValue value := by
  have hunquote : unquote (lower value) = lower (unquote value) := by
    rw [unquote, unquote, quoted?_lower]
    cases quoted? value <;> rfl
  rw [langValue, langValue, hunquote, trim_lower, lower_lower]

lemma trimmedBlock_lower (source : Text) (language : String) (start stop : Nat) :
    trimmedBlock (lower source) language start stop = trimmedBlock source language start stop := by
  simp only [trimmedBlock, slice_lower, reverse_lower, takeWhile_lower ignoresCase_isBlank,
    bytes_lower]

lemma metadataBlock?_lower (start : Nat) (run : Text) :
    metadataBlock? start (lower run) = metadataBlock? start run := by
  simp only [metadataBlock?, trim_lower, reverse_lower, takeWhile_lower ignoresCase_dash,
    takeWhile_lower ignoresCase_isBlank, bytes_lower, length_lower]

lemma attributeRegion?_lower (name : Text) (value : Token) :
    attributeRegion? options (lower name) value.lowered = attributeRegion? options name value := by
  have hlanguage : attributeLanguage? options (lower name) = attributeLanguage? options name := by
    simp only [attributeLanguage?, sameIgnoringCase_lower_left, startsIgnoringCase_lower_right,
      length_lower]
  simp only [attributeRegion?, hlanguage, Token.lowered, quoted?_lower]
  cases attributeLanguage? options name with
  | none => rfl
  | some language =>
    cases quoted? value.text with
    | none => rfl
    | some inner =>
      have hlf : '\n' ∈ lower inner ↔ '\n' ∈ inner := mem_lower_iff (by decide)
      have hcr : '\r' ∈ lower inner ↔ '\r' ∈ inner := mem_lower_iff (by decide)
      simp only [Option.map_some, isEmpty_lower, hlf, hcr, Token.stop, bytes_lower]

lemma closesElement_lower (name t : Text) :
    closesElement (lower name) (lower t) = closesElement name t := by
  simp only [closesElement, trimStart_lower, startsIgnoringCase_lower, length_lower, drop_lower,
    any_head?_lower ignoresCase_isNameChar]

lemma startsWithEndTag_cons (name : Text) (a b : Char) (r : Text) :
    startsWithEndTag name (a :: b :: r) = (a == '<' && b == '/' && closesElement name r) := by
  unfold startsWithEndTag
  split
  next h =>
    obtain ⟨rfl, rfl, rfl⟩ : a = '<' ∧ b = '/' ∧ r = _ := by simpa using h
    simp
  next h =>
    by_cases hab : a = '<' ∧ b = '/'
    · exact absurd (by rw [hab.1, hab.2]) (h r)
    · simp only [not_and] at hab
      by_cases ha : a = '<' <;> simp [ha, hab]

lemma startsWithEndTag_lower (name t : Text) :
    startsWithEndTag (lower name) (lower t) = startsWithEndTag name t := by
  match t with
  | [] => rfl
  | [_] => simp [startsWithEndTag]
  | a :: b :: r =>
    rw [lower_cons, lower_cons, startsWithEndTag_cons, startsWithEndTag_cons, closesElement_lower,
      toLower_beq (by decide), toLower_beq (by decide)]

lemma endTagOffset?_lower (name t : Text) :
    endTagOffset? (lower name) (lower t) = endTagOffset? name t := by
  simp only [endTagOffset?, breakAt_lower (startsWithEndTag_lower name), bytes_lower,
    isEmpty_lower]

end Scan

/-! ## One pass over the tokens -/

/-- The phase of a pass over the lowered text. -/
def Phase.lowered : Phase → Phase
  | .outside => .outside
  | .opening tag => .opening (lower tag)
  | .inside tag start nested sameName => .inside (lower tag) start nested sameName

namespace ScanState

open Scan Markup

/-- What a pass over the lowered text remembers. -/
def lowered (s : ScanState) : ScanState :=
  { s with
    phase := s.phase.lowered
    name := s.name.map lower
    run := s.run.map fun r => (r.1, lower r.2) }

/-- A step over a lowered token. -/
def loweredStep (r : ScanState × List Region) : ScanState × List Region :=
  (r.1.lowered, r.2)

variable {options : ScanOptions} (s : ScanState) (t : Token)

lemma endRun_lowered : s.lowered.endRun = loweredStep s.endRun := by
  obtain ⟨phase, depth, name, lang, run, templateSeen, metadataSeen⟩ := s
  cases run with
  | none => rfl
  | some run =>
    obtain ⟨start, text⟩ := run
    cases metadataSeen with
    | true => rfl
    | false =>
      simp only [endRun, lowered, Option.map_some, metadataBlock?_lower, Bool.false_eq_true,
        if_false]
      cases metadataBlock? start text <;> rfl

lemma extendRun_lowered : s.lowered.extendRun t.lowered = (s.extendRun t).lowered := by
  obtain ⟨phase, depth, name, lang, run, templateSeen, metadataSeen⟩ := s
  cases run with
  | none => rfl
  | some run => simp only [extendRun, lowered, Token.lowered, Option.map_some, lower_append]

section Outside

variable {tag : String} (htag : lower tag.toList = lower options.templateTag.toList)

include htag in
lemma stepOutside_lowered :
    s.lowered.stepOutside { options with templateTag := tag } t.lowered
      = loweredStep (s.stepOutside options t) := by
  obtain ⟨phase, depth, name, lang, run, templateSeen, metadataSeen⟩ := s
  obtain ⟨kind, start, text⟩ := t
  cases kind with
  | startTag =>
    have hname : sameIgnoringCase (lower text) tag.toList
        = sameIgnoringCase text options.templateTag.toList := by
      rw [sameIgnoringCase, sameIgnoringCase, lower_lower, htag]
    simp only [stepOutside, lowered, Token.lowered, hname, apply_ite loweredStep]
    rfl
  | attributeValue =>
    cases name with
    | none => rfl
    | some name =>
      have hregion : attributeRegion? { options with templateTag := tag } (lower name)
          ⟨.attributeValue, start, lower text⟩ = attributeRegion? options name _ :=
        attributeRegion?_lower name ⟨.attributeValue, start, text⟩
      simp only [stepOutside, lowered, Token.lowered, Option.map_some, sameIgnoringCase_lower_left,
        langValue_lower, hregion, apply_ite loweredStep]
      rfl
  | styles | script =>
    simp only [stepOutside, Token.stop_lowered]
    rfl
  | attributeName | startTagClose | startTagSelfClose | endTag | endTagClose | other => rfl

end Outside

lemma stepOpening_lowered (tag : Text) :
    s.lowered.stepOpening (lower tag) t.lowered = loweredStep (s.stepOpening tag t) := by
  obtain ⟨kind, start, text⟩ := t
  cases kind with
  | startTagClose =>
    simp only [stepOpening, Token.stop_lowered]
    rfl
  | _ => rfl

section Inside

variable (source tag : Text) (start nested : Nat) (sameName : Bool)

lemma looseEndTag?_lowered :
    looseEndTag? (lower source) (lower tag) t.lowered = looseEndTag? source tag t := by
  obtain ⟨kind, offset, text⟩ := t
  have hcomment := isPrefixOf_lower ['<', '!', '-', '-'] (by decide) text
  have hstop := Token.stop_lowered ⟨kind, offset, text⟩
  cases kind with
  | other => simp only [looseEndTag?, Token.lowered, hcomment, endTagOffset?_lower]
  | styles | script =>
    simp only [looseEndTag?, hstop, bytes_lower]
    simp only [Token.lowered, endTagOffset?_lower]
  | _ => rfl

lemma closeTemplate_lowered (options options' : ScanOptions)
    (hlanguage : options'.templateLanguage = options.templateLanguage) (stop : Nat) :
    s.lowered.closeTemplate options' (lower source) (lower tag) start nested sameName stop
      = loweredStep (s.closeTemplate options source tag start nested sameName stop) := by
  cases nested with
  | zero =>
    simp only [closeTemplate, trimmedBlock_lower, hlanguage]
    rfl
  | succ n => rfl

lemma stepInside_lowered (options' : ScanOptions)
    (hlanguage : options'.templateLanguage = options.templateLanguage) :
    s.lowered.stepInside options' (lower source) (lower tag) start nested sameName t.lowered
      = loweredStep (s.stepInside options source tag start nested sameName t) := by
  have hclose := closeTemplate_lowered s source tag start nested sameName options options'
    hlanguage
  have hloose := looseEndTag?_lowered t source tag
  obtain ⟨kind, offset, text⟩ := t
  cases kind with
  | startTag =>
    simp only [stepInside, Token.lowered, sameIgnoringCase_lower, apply_ite loweredStep]
    rfl
  | endTag =>
    simp only [stepInside, Token.lowered, sameIgnoringCase_lower, hclose, apply_ite loweredStep]
    rfl
  | other | styles | script =>
    simp only [stepInside, hloose]
    simp only [Token.lowered, hclose]
    split <;> rfl
  | _ => rfl

end Inside

/-- **One step over a lowered token** is the step over the token, lowered; the regions that it
completes are the same. -/
theorem step_lowered {tag : String} (htag : lower tag.toList = lower options.templateTag.toList)
    (source : Text) :
    s.lowered.step { options with templateTag := tag } (lower source) t.lowered
      = loweredStep (s.step options source t) := by
  cases hphase : s.phase with
  | outside =>
    have hphase' : s.lowered.phase = .outside := by simp [lowered, hphase, Phase.lowered]
    have hkind :
        (t.lowered.kind = .other ∧ s.lowered.depth = 0) ↔ (t.kind = .other ∧ s.depth = 0) := Iff.rfl
    simp only [step, hphase, hphase', hkind, extendRun_lowered, endRun_lowered, loweredStep,
      stepOutside_lowered _ _ htag]
    split <;> rfl
  | opening tag =>
    have hphase' : s.lowered.phase = .opening (lower tag) := by
      simp [lowered, hphase, Phase.lowered]
    simp only [step, hphase, hphase', stepOpening_lowered]
  | inside tag start nested sameName =>
    have hphase' : s.lowered.phase = .inside (lower tag) start nested sameName := by
      simp [lowered, hphase, Phase.lowered]
    simp only [step, hphase, hphase']
    exact stepInside_lowered s t source tag start nested sameName _ rfl

/-- The regions that lowered tokens yield. -/
theorem regions_lowered {tag : String} (htag : lower tag.toList = lower options.templateTag.toList)
    (source : Text) (ts : List Token) :
    regions { options with templateTag := tag } (lower source) s.lowered (ts.map Token.lowered)
      = regions options source s ts := by
  induction ts generalizing s with
  | nil => simp only [List.map_nil, regions, endRun_lowered, loweredStep]
  | cons t ts ih =>
    simp only [List.map_cons, regions, step_lowered s t htag, loweredStep, ih]

end ScanState

/-- **The regions of the lowered text** are those of the text. -/
theorem scan_lower (options : ScanOptions) {tag : String}
    (htag : lower tag.toList = lower options.templateTag.toList) (source : Text) :
    scan { options with templateTag := tag } (lower source) = scan options source := by
  rw [scan, scan, Markup.tokens_lower]
  exact ScanState.regions_lowered {} htag source (Markup.tokens source)

/-- **Letter case does not matter for regions.**  Two texts that are equal but for the case of ASCII
letters, scanned with options that are equal but for the case of the template element's name, have
the same regions: the same spans, in the same languages, of the same kinds. -/
theorem scan_ignores_case (options : ScanOptions) (tag : String) (source source' : Text)
    (hsource : sameIgnoringCase source source')
    (htag : sameIgnoringCase options.templateTag.toList tag.toList) :
    scan options source = scan { options with templateTag := tag } source' := by
  rw [sameIgnoringCase_iff] at hsource htag
  calc scan options source
      = scan { options with templateTag := tag } (lower source) :=
        (scan_lower options htag.symm source).symm
    _ = scan { options with templateTag := tag } (lower source') := by rw [hsource]
    _ = scan { options with templateTag := tag } source' :=
        scan_lower { options with templateTag := tag } rfl source'

/-- A file in two spellings, with a nested element of the template's name, an end tag in loose text,
a `lang` attribute and a handler. -/
theorem scan_ignores_case_two_spellings :
    let source : Text :=
      "<View><view/>x</ VIEW><Style LANG='SCSS'>b{}</STYLE><p OnClick=\"f()\">".toList
    let source' : Text :=
      "<vieW><VIEW/>X</ View><sTYLE lang='ScsS'>B{}</style><P onCLICK=\"F()\">".toList
    sameIgnoringCase source source' ∧ sameIgnoringCase "view".toList "VIew".toList ∧
      scan { templateTag := "view" } source = scan { templateTag := "VIew" } source' ∧
      scan { templateTag := "VIew" } source'
        = [.block "html" 6 14, .block "scss" 41 44, .ofAttribute "js" 64 67] := by
  intro source source'
  have hsource : sameIgnoringCase source source' := by decide +kernel
  have htag : sameIgnoringCase "view".toList "VIew".toList := by decide +kernel
  refine ⟨hsource, htag, scan_ignores_case { templateTag := "view" } "VIew" _ _ hsource htag, ?_⟩
  decide +kernel

end Mosaic
