import Mosaic.Proofs.ByteReader
import Mosaic.Proofs.RegionSpacing

/-!
# A scan that could fail

The pass over the tokens once more, with nothing but their spans: every text is sliced out of the
source, and a slice that is not between two boundaries ends the pass without a result, as does a
difference below zero.

* `CheckedScan.step?_eq` — no token makes the pass fail, and what is remembered and found is the
  same.
* `scan?_eq` — the checked scan of every text succeeds, with the regions of the text.
-/

namespace Mosaic

open Text Utf8 Markup Scan

/-- The text between two offsets, which have to be boundaries in order. -/
def Text.slice? (t : Text) (start stop : Nat) : Option Text :=
  if start ≤ stop ∧ isCharBoundary (utf8 t) start ∧ isCharBoundary (utf8 t) stop then
    some (slice start stop t)
  else none

namespace CheckedScan

/-! ## The spans of single regions -/

/-- The block from `start` to `stop` without the white space at either end. -/
def trimmedRegion? (source : Text) (language : String) (start stop : Nat) : Option Region := do
  let stop := max stop start
  let inner ← source.slice? start stop
  let lead ← sub? (bytes inner) (bytes (trimStart inner))
  let trail ← sub? (bytes inner) (bytes (trimEnd inner))
  return .block language (start + lead) (max (← sub? stop trail) (start + lead))

/-- The metadata block in a run of loose text. -/
def metadataRegion? (source : Text) (start stop : Nat) : Option (Option Region) := do
  let raw ← source.slice? start stop
  let inner := trim raw
  if ¬ ['-', '-', '-'].isPrefixOf inner ∨ ¬ ['-', '-', '-'].isSuffixOf inner then return none
  let opening := (inner.takeWhile (· == '-')).length
  if opening = bytes inner then return none
  let closing := (inner.reverse.takeWhile (· == '-')).length
  let lead ← sub? (bytes raw) (bytes (trimStart raw))
  let first := start + lead + opening
  return some (.block metadataLanguage first (← sub? (start + lead + bytes inner) closing))

/-- The language in which the value of an attribute is written, if it is code at all. -/
def attributeLanguage? (options : ScanOptions) (name : Text) : Option (Option String) := do
  if sameIgnoringCase name ['s', 't', 'y', 'l', 'e'] then return some (styleLanguage none)
  else if 2 < bytes name then
    if sameBytes (← cut? (utf8 name) 0 2) (utf8 ['o', 'n']) then
      return some options.scriptLanguage.id
    else return none
  else return none

/-- The region of an attribute value. -/
def attributeRegion? (options : ScanOptions) (source name : Text) (t : Span) :
    Option (Option Region) := do
  match ← attributeLanguage? options name with
  | none => return none
  | some language =>
    let raw ← source.slice? t.start t.stop
    let inner := unquote raw
    if bytes inner + 2 ≠ bytes raw ∨ inner.isEmpty ∨ '\n' ∈ inner ∨ '\r' ∈ inner then return none
    else return some (.ofAttribute language (t.start + 1) (← sub? t.stop 1))

/-- The offsets at which `p` stands in a text that starts at offset `n`. -/
def matchOffsets (p : Text) : Nat → Text → List Nat
  | _, [] => []
  | n, c :: r =>
    (if p.isPrefixOf (c :: r) then [n] else []) ++ matchOffsets p (n + c.utf8Size) r

/-- The byte offset of the first end tag for `name` in loose text. -/
def findEndTag? (t name : Text) : Option (Option Nat) :=
  (matchOffsets ['<', '/'] 0 t).findM? fun n => do
    return closesElement name (← t.slice? (n + 2) (bytes t))

/-! ## The pass -/

/-- What a pass over spans remembers. -/
structure Pass where
  phase : Phase := .outside
  /-- How many elements are open, that of the template included. -/
  depth : Nat := 0
  name : Option Text := none
  lang : Option String := none
  /-- Where the loose text just read outside every element stands. -/
  run : Option (Nat × Nat) := none
  templateSeen : Bool := false
  metadataSeen : Bool := false

namespace Pass

/-- The end of a run of loose text. -/
def endRun? (source : Text) (p : Pass) : Option (Pass × List Region) :=
  match p.run with
  | none => some (p, [])
  | some (start, stop) =>
    if p.metadataSeen then some ({ p with run := none }, [])
    else do
      match ← metadataRegion? source start stop with
      | none => return ({ p with run := none }, [])
      | some r => return ({ p with run := none, metadataSeen := true }, [r])

/-- Adds a token to the run of loose text. -/
def extendRun (p : Pass) (t : Span) : Pass :=
  match p.run with
  | none => { p with run := some (t.start, t.stop) }
  | some (start, _) => { p with run := some (start, t.stop) }

/-- A token outside the template element. -/
def stepOutside? (options : ScanOptions) (source : Text) (p : Pass) (t : Span) :
    Option (Pass × List Region) :=
  match t.kind with
  | .startTag => do
    let p := { p with depth := p.depth + 1, name := none, lang := none }
    let name ← source.slice? t.start t.stop
    if p.depth = 1 ∧ ¬p.templateSeen ∧ sameIgnoringCase name options.templateTag.toList then
      return ({ p with phase := .opening name, templateSeen := true }, [])
    else return (p, [])
  | .attributeName => do return ({ p with name := some (← source.slice? t.start t.stop) }, [])
  | .attributeValue =>
    match p.name with
    | none => some (p, [])
    | some name => do
      let p := { p with name := none }
      if sameIgnoringCase name ['l', 'a', 'n', 'g'] then
        return ({ p with lang := some (langValue (← source.slice? t.start t.stop)) }, [])
      else return (p, (← attributeRegion? options source name t).toList)
  | .startTagClose => some ({ p with name := none }, [])
  | .startTagSelfClose => some ({ p with depth := p.depth - 1, name := none, lang := none }, [])
  | .endTag => some ({ p with depth := p.depth - 1, lang := none }, [])
  | .styles => some ({ p with lang := none }, [.block (styleLanguage p.lang) t.start t.stop])
  | .script =>
    some ({ p with lang := none },
      [.block (scriptLanguage p.lang options.scriptLanguage) t.start t.stop])
  | .endTagClose | .other => some (p, [])

/-- The template element has been left. -/
def leave? (p : Pass) (found : List Region) : Option (Pass × List Region) := do
  return ({ p with phase := .outside, depth := ← sub? p.depth 1 }, found)

/-- A token in the start tag of the template element. -/
def stepOpening? (p : Pass) (tag : Text) (t : Span) : Option (Pass × List Region) :=
  match t.kind with
  | .startTagClose => some ({ p with phase := .inside tag t.stop 0 false }, [])
  | .startTagSelfClose => p.leave? []
  | _ => some (p, [])

/-- An end tag for the template element, at an offset that may have to be computed. -/
def closeTemplate? (options : ScanOptions) (source : Text) (p : Pass) (tag : Text)
    (start nested : Nat) (sameName : Bool) (stop : Option Nat) : Option (Pass × List Region) := do
  if nested = 0 then
    p.leave? [← trimmedRegion? source options.templateLanguage start (← stop)]
  else return ({ p with phase := .inside tag start (← sub? nested 1) sameName }, [])

/-- Whether the tokenizer has told what is in the token: it is a comment, or raw content whose own
end tag came. -/
def isClassified (source : Text) (t : Span) (text : Text) : Bool :=
  if t.kind = .other then ['<', '!', '-', '-'].isPrefixOf text
  else t.stop != (utf8 source).length

/-- A token in the content of the template element. -/
def stepInside? (options : ScanOptions) (source : Text) (p : Pass) (tag : Text)
    (start nested : Nat) (sameName : Bool) (t : Span) : Option (Pass × List Region) :=
  match t.kind with
  | .startTag => do
    if sameIgnoringCase (← source.slice? t.start t.stop) tag then
      return ({ p with phase := .inside tag start (nested + 1) true }, [])
    else return ({ p with phase := .inside tag start nested false }, [])
  | .startTagSelfClose =>
    let nested := if sameName then nested - 1 else nested
    some ({ p with phase := .inside tag start nested false }, [])
  | .startTagClose => some ({ p with phase := .inside tag start nested false }, [])
  | .endTag => do
    if sameIgnoringCase (← source.slice? t.start t.stop) tag then
      p.closeTemplate? options source tag start nested sameName (sub? t.start 2)
    else return (p, [])
  | .other | .styles | .script => do
    let raw ← source.slice? t.start t.stop
    if isClassified source t raw then return (p, [])
    else
      match ← findEndTag? raw tag with
      | some n => p.closeTemplate? options source tag start nested sameName (some (t.start + n))
      | none => return (p, [])
  | _ => some (p, [])

/-- One token. -/
def step? (options : ScanOptions) (source : Text) (p : Pass) (t : Span) :
    Option (Pass × List Region) :=
  match p.phase with
  | .outside =>
    if t.kind = .other ∧ p.depth = 0 then some (p.extendRun t, [])
    else do
      let (p, metadata) ← p.endRun? source
      let (p, found) ← p.stepOutside? options source t
      return (p, metadata ++ found)
  | .opening tag => p.stepOpening? tag t
  | .inside tag start nested sameName => p.stepInside? options source tag start nested sameName t

/-- The regions that a list of spans yields.  A template that is never closed is left at the end. -/
def regions? (options : ScanOptions) (source : Text) : Pass → List Span → Option (List Region)
  | p, [] => do
    let p ← if p.phase = .outside then some p else (p.leave? []).map (·.1)
    return (← p.endRun? source).2
  | p, t :: ts => do
    let (p, found) ← p.step? options source t
    return found ++ (← regions? options source p ts)

end Pass

end CheckedScan

/-- The regions of a text, as found by reading its bytes; nothing, if a slice or a difference
fails. -/
def scan? (options : ScanOptions) (source : Text) : Option (List Region) := do
  CheckedScan.Pass.regions? options source {}
    (← Reader.spans? (utf8 source) (3 * bytes source) .start)

/-! ## Slices and differences that succeed -/

namespace Text

variable {source : Text} {m n : Nat}

lemma slice?_of_boundary (hm : IsBoundary source m) (hn : IsBoundary source n) (h : m ≤ n) :
    source.slice? m n = some (slice m n source) :=
  if_pos ⟨h, (isCharBoundary_utf8 _ _).2 hm, (isCharBoundary_utf8 _ _).2 hn⟩

lemma slice?_parts (before inner after : Text) :
    (before ++ (inner ++ after)).slice? (bytes before) (bytes before + bytes inner)
      = some inner := by
  have hm : IsBoundary (before ++ (inner ++ after)) (bytes before) :=
    ⟨before, inner ++ after, rfl, rfl⟩
  have hn : IsBoundary (before ++ (inner ++ after)) (bytes before + bytes inner) :=
    ⟨before ++ inner, after, by simp, bytes_append before inner⟩
  rw [slice?_of_boundary hm hn (Nat.le_add_right ..), slice_parts]

/-- The white space at the front is what trimming takes away. -/
lemma bytes_trimStart (t : Text) : bytes (t.takeWhile isBlank) + bytes (trimStart t) = bytes t := by
  rw [trimStart, ← bytes_append, List.takeWhile_append_dropWhile]

lemma bytes_trimEnd (t : Text) :
    bytes (trimEnd t) + bytes (t.reverse.takeWhile isBlank) = bytes t := by
  rw [trimEnd, bytes_reverse, Nat.add_comm, ← bytes_append, List.takeWhile_append_dropWhile,
    bytes_reverse]

end Text

namespace CheckedScan

variable {options : ScanOptions} {source : Text}

/-- The text of a token can be sliced out of the source. -/
lemma slice?_span {t : Token} (ht : t.LiesIn source) :
    source.slice? t.start t.stop = some t.text := by
  obtain ⟨before, after, rfl, hb, -⟩ := ht.located
  rw [Token.stop, ← hb]
  exact slice?_parts before t.text after

theorem trimmedRegion?_eq (language : String) {start stop : Nat} (hs : IsBoundary source start)
    (he : IsBoundary source stop) :
    trimmedRegion? source language start stop = some (trimmedBlock source language start stop) := by
  have hmax := hs.max he
  have hle : start ≤ max start stop := le_max_left ..
  have hlen := bytes_slice hs hmax hle
  simp only [trimmedRegion?, trimmedBlock, max_comm stop start, slice?_of_boundary hs hmax hle,
    Option.bind_eq_bind, Option.bind_some]
  generalize slice start (max start stop) source = inner at hlen
  have hlead := bytes_trimStart inner
  have htrail := bytes_trimEnd inner
  rw [sub?_of_le (by omega), sub?_of_le (by omega)]
  simp only [Option.bind_some]
  rw [sub?_of_le (by omega), Option.bind_some,
    show bytes inner - bytes (trimStart inner) = bytes (inner.takeWhile isBlank) by omega,
    show bytes inner - bytes (trimEnd inner) = bytes (inner.reverse.takeWhile isBlank) by omega,
    max_comm]
  rfl

/-- A character stands at the front some times if it is counted there at least as often. -/
lemma replicate_isPrefixOf (q : Char) (n : Nat) (t : Text) :
    (List.replicate n q).isPrefixOf t ↔ n ≤ (t.takeWhile (· == q)).length := by
  induction n generalizing t with
  | zero => simp
  | succ n ih =>
    cases t with
    | nil => simp [List.replicate_succ]
    | cons c r =>
      rw [List.replicate_succ, List.isPrefixOf, Bool.and_eq_true, beq_iff_eq, ih]
      by_cases hc : c = q
      · simp [hc]
      · simp [hc, Ne.symm hc]

/-- A text of dashes is as long in bytes as in characters, and no other text that starts with as
many dashes is. -/
lemma dashes_eq_bytes_iff (t : Text) :
    (t.takeWhile (· == '-')).length = bytes t ↔ (t.takeWhile (· == '-')).length = t.length := by
  have hle : (t.takeWhile (· == '-')).length ≤ t.length := (List.takeWhile_prefix _).length_le
  have hbytes := length_le_bytes t
  constructor
  · intro h
    omega
  · intro h
    have heq : t.takeWhile (· == '-') = t := (List.takeWhile_prefix _).eq_of_length h
    rw [h, bytes_of_dashes (List.takeWhile_eq_self_iff.1 heq)]

theorem metadataRegion?_eq {before run after : Text} {start : Nat}
    (hsource : source = before ++ (run ++ after)) (hstart : bytes before = start) :
    metadataRegion? source start (start + bytes run) = some (metadataBlock? start run) := by
  subst hsource hstart
  have hlead := bytes_trimStart run
  have hfront : ['-', '-', '-'].isPrefixOf (trim run)
      ↔ 3 ≤ ((trim run).takeWhile (· == '-')).length := replicate_isPrefixOf '-' 3 (trim run)
  have hback : ['-', '-', '-'].isSuffixOf (trim run)
      ↔ 3 ≤ ((trim run).reverse.takeWhile (· == '-')).length :=
    replicate_isPrefixOf '-' 3 (trim run).reverse
  have hclosing : ((trim run).reverse.takeWhile (· == '-')).length ≤ (trim run).length := by
    have hrev : (trim run).reverse.length = (trim run).length := List.length_reverse
    rw [← hrev]
    exact (List.takeWhile_prefix _).length_le
  have hbytes := length_le_bytes (trim run)
  have hwhole := dashes_eq_bytes_iff (trim run)
  simp only [metadataRegion?, metadataBlock?, slice?_parts, Option.bind_eq_bind, Option.bind_some]
  generalize trim run = inner at hfront hback hclosing hbytes hwhole
  generalize (inner.takeWhile (· == '-')).length = opening at hfront hwhole
  generalize (inner.reverse.takeWhile (· == '-')).length = closing at hback hclosing
  by_cases hdash : opening < 3 ∨ closing < 3
  · have hno : ¬ ['-', '-', '-'].isPrefixOf inner ∨ ¬ ['-', '-', '-'].isSuffixOf inner := by
      rw [hfront, hback]
      omega
    rw [if_pos hno, if_pos (by omega)]
    rfl
  · have hyes : ¬ (¬ ['-', '-', '-'].isPrefixOf inner ∨ ¬ ['-', '-', '-'].isSuffixOf inner) := by
      rw [hfront, hback]
      omega
    by_cases hall : opening = inner.length
    · rw [if_neg hyes, if_pos (hwhole.2 hall), if_pos (by omega)]
      rfl
    · rw [if_neg hyes, if_neg fun h => hall (hwhole.1 h), if_neg (by omega),
        sub?_of_le (by omega), Option.bind_some, sub?_of_le (by omega),
        show bytes run - bytes (trimStart run) = bytes (run.takeWhile isBlank) by omega]
      rfl

/-- Behind two letters there is more in bytes exactly if there is more in characters. -/
lemma two_lt_bytes_iff {name : Text} (h : startsIgnoringCase ['o', 'n'] name) :
    2 < bytes name ↔ 2 < name.length := by
  rw [startsIgnoringCase, sameIgnoringCase, beq_iff_eq] at h
  rcases name with _ | ⟨a, _ | ⟨b, r⟩⟩
  · exact absurd h (by decide)
  · simp [lower] at h
  · obtain ⟨ha, hb⟩ : 'o' = a.toLower ∧ 'n' = b.toLower := by
      simpa [lower] using h
    have h1 : a.utf8Size = 1 := utf8Size_ascii (ascii_of_toLower (by rw [← ha]; decide))
    have h2 : b.utf8Size = 1 := utf8Size_ascii (ascii_of_toLower (by rw [← hb]; decide))
    cases r with
    | nil => simp [h1, h2]
    | cons c r =>
      have := c.utf8Size_pos
      simp only [bytes_cons, List.length_cons]
      omega

theorem attributeLanguage?_eq (options : ScanOptions) (name : Text) :
    attributeLanguage? options name = some (Scan.attributeLanguage? options name) := by
  have hlower : ∀ x ∈ lower ['o', 'n'], x.toNat < 128 := by simp [lower]
  have htake : sameBytes ((utf8 name).take 2) (utf8 ['o', 'n'])
      = startsIgnoringCase ['o', 'n'] name := sameBytes_take_utf8 hlower name
  simp only [attributeLanguage?, Scan.attributeLanguage?]
  split
  · rfl
  · by_cases hl : 2 < bytes name
    · have hcut : cut? (utf8 name) 0 2 = some ((utf8 name).take 2) :=
        if_pos ⟨Nat.zero_le 2, by rw [length_utf8]; omega⟩
      rw [if_pos hl, hcut, Option.bind_eq_bind, Option.bind_some, htake]
      by_cases hon : startsIgnoringCase ['o', 'n'] name
      · rw [if_pos hon, if_pos ⟨hon, (two_lt_bytes_iff hon).1 hl⟩]
        rfl
      · rw [if_neg hon, if_neg fun h => hon h.1]
        rfl
    · rw [if_neg hl, if_neg fun h => hl ((two_lt_bytes_iff h.1).2 h.2)]
      rfl

/-- Quotes have been taken off exactly if two bytes are missing. -/
lemma unquote_cases (t : Text) :
    (∃ inner, quoted? t = some inner ∧ unquote t = inner ∧ bytes inner + 2 = bytes t) ∨
      quoted? t = none ∧ unquote t = t := by
  cases h : quoted? t with
  | none => exact Or.inr ⟨rfl, by rw [unquote, h]; rfl⟩
  | some inner =>
    obtain ⟨q, hq, rfl⟩ := quoted?_eq_some h
    have hsize : q.utf8Size = 1 := by rcases hq with rfl | rfl <;> rfl
    refine Or.inl ⟨inner, rfl, by rw [unquote, h]; rfl, ?_⟩
    simp only [bytes_cons, bytes_append, bytes_nil, hsize]
    omega

theorem attributeRegion?_eq (options : ScanOptions) (name : Text) {t : Token}
    (ht : t.LiesIn source) :
    attributeRegion? options source name t.span = some (Scan.attributeRegion? options name t) := by
  have hslice := slice?_span ht
  have hlt : t.start < t.stop := ht.start_lt_stop
  simp only [attributeRegion?, Scan.attributeRegion?, attributeLanguage?_eq, Token.span,
    Option.bind_eq_bind, Option.bind_some]
  cases Scan.attributeLanguage? options name with
  | none => rfl
  | some language =>
    simp only [hslice, Option.bind_some]
    rcases unquote_cases t.text with ⟨inner, hq, hu, hb⟩ | ⟨hq, hu⟩
    · simp only [hq, hu]
      by_cases hplain : inner.isEmpty ∨ '\n' ∈ inner ∨ '\r' ∈ inner
      · rw [if_pos (Or.inr hplain), if_pos hplain]
        rfl
      · rw [if_neg (not_or.2 ⟨fun h => h hb, hplain⟩), if_neg hplain,
          sub?_of_le (by omega)]
        rfl
    · rw [hu, if_pos (Or.inl (by omega)), hq]
      rfl

/-! ## End tags in loose text -/

lemma startsWithEndTag_of_other {name t : Text} (h : ¬ ['<', '/'].isPrefixOf t) :
    startsWithEndTag name t = false := by
  unfold startsWithEndTag
  split
  next => exact absurd rfl h
  next => rfl

/-- The search goes over the offsets of `</` only, and that is enough. -/
lemma findM?_matchOffsets {t name : Text} {f : Nat → Option Bool}
    (hf : ∀ a s, t = a ++ '<' :: '/' :: s → f (bytes a) = some (closesElement name s))
    {a s : Text} (ht : t = a ++ s) :
    (matchOffsets ['<', '/'] (bytes a) s).findM? f
      = some (if (breakAt (startsWithEndTag name) s).2.isEmpty then none
          else some (bytes a + bytes (breakAt (startsWithEndTag name) s).1)) := by
  induction s generalizing a with
  | nil => rfl
  | cons c r ih =>
    have hnext := ih (a := a ++ [c]) (by simp [ht])
    have hoffset : bytes (a ++ [c]) = bytes a + c.utf8Size := by simp
    rw [hoffset] at hnext
    by_cases hfound : startsWithEndTag name (c :: r)
    · have hprefix : ['<', '/'].isPrefixOf (c :: r) := by
        by_contra hno
        simp [startsWithEndTag_of_other hno] at hfound
      obtain ⟨s, hs⟩ := List.isPrefixOf_iff_prefix.1 hprefix
      have hcheck : f (bytes a) = some true := by
        rw [hf a s (by rw [ht, ← hs]; rfl), ← hfound, ← hs]
        rfl
      rw [matchOffsets, if_pos hprefix, List.singleton_append, List.findM?, hcheck, breakAt,
        if_pos hfound]
      simp
    · have hrest : (matchOffsets ['<', '/'] (bytes a) (c :: r)).findM? f
          = (matchOffsets ['<', '/'] (bytes a + c.utf8Size) r).findM? f := by
        rw [matchOffsets]
        by_cases hprefix : ['<', '/'].isPrefixOf (c :: r)
        · obtain ⟨s, hs⟩ := List.isPrefixOf_iff_prefix.1 hprefix
          have hcheck : f (bytes a) = some false := by
            rw [hf a s (by rw [ht, ← hs]; rfl)]
            rw [← hs] at hfound
            exact congrArg some (Bool.eq_false_iff.2 hfound)
          rw [if_pos hprefix, List.singleton_append, List.findM?, hcheck]
          rfl
        · rw [if_neg hprefix, List.nil_append]
      rw [hrest, hnext, breakAt, if_neg hfound]
      simp [Nat.add_assoc]

theorem findEndTag?_eq (t name : Text) : findEndTag? t name = some (endTagOffset? name t) := by
  have hf : ∀ a s, t = a ++ '<' :: '/' :: s →
      (do return closesElement name (← t.slice? (bytes a + 2) (bytes t)))
        = some (closesElement name s) := by
    intro a s ht
    have hslice := slice?_parts (a ++ ['<', '/']) s []
    have hsource : (a ++ ['<', '/']) ++ (s ++ []) = t := by simp [ht]
    have hfront : bytes (a ++ ['<', '/']) = bytes a + 2 := by
      rw [bytes_append]
      rfl
    have hall : bytes a + 2 + bytes s = bytes t := by rw [← hfront, ← bytes_append, ← hsource]; simp
    rw [hsource, hfront, hall] at hslice
    rw [hslice]
    rfl
  have h := findM?_matchOffsets
    (f := fun n => do return closesElement name (← t.slice? (n + 2) (bytes t))) hf
    (List.nil_append t).symm
  rw [bytes_nil, Nat.zero_add] at h
  exact h

/-! ## The pass -/

/-- What a pass remembers, with the run of loose text as a span. -/
def Pass.ofState (s : ScanState) : Pass where
  phase := s.phase
  depth := if s.phase = .outside then s.depth else s.depth + 1
  name := s.name
  lang := s.lang
  run := s.run.map fun (start, text) => (start, start + bytes text)
  templateSeen := s.templateSeen
  metadataSeen := s.metadataSeen

namespace Pass

variable {s : ScanState} {w : Trail} {t : Token}

/-- What a checked step yields, if it does what the step does. -/
abbrev Agrees (x : Option (Pass × List Region)) (y : ScanState × List Region) : Prop :=
  x = some (ofState y.1, y.2)

theorem endRun?_eq (h : s.Fits source w) : Agrees ((ofState s).endRun? source) s.endRun := by
  unfold Agrees endRun? ScanState.endRun
  cases hrun : s.run with
  | none => simp [ofState, hrun]
  | some p =>
    obtain ⟨start, text⟩ := p
    obtain ⟨-, -, -, before, after, hs, hb, -⟩ := h.run start text hrun
    have hspan : (ofState s).run = some (start, start + bytes text) := by simp [ofState, hrun]
    have hseen : (ofState s).metadataSeen = s.metadataSeen := rfl
    simp only [hspan, hseen, metadataRegion?_eq hs hb, Option.bind_eq_bind, Option.bind_some]
    split
    · simp [ofState]
    · cases metadataBlock? start text with
      | none => simp [ofState]
      | some r => simp [ofState]

/-- A run of loose text stays the text of a span. -/
theorem extendRun_eq (h : s.Fits source w) (ht : w.Allows source t) (hp : s.phase = .outside)
    (hd : s.depth = 0) (hk : t.kind = .other) :
    (ofState s).extendRun t.span = ofState (s.extendRun t) := by
  unfold extendRun ScanState.extendRun
  cases hrun : s.run with
  | none => simp [ofState, hrun, Token.span, Token.stop]
  | some p =>
    obtain ⟨start, text⟩ := p
    obtain ⟨-, -, hl, -, -, -, -, hend⟩ := h.run start text hrun
    have hjoin : t.start = w.stop := ht.joined hl hk (h.outside hp hd)
    have hstop : t.span.stop = start + bytes (text ++ t.text) := by
      rw [bytes_append, ← Nat.add_assoc, hend, ← hjoin]
      rfl
    simp [ofState, hrun, hstop]

theorem stepOutside?_eq (options : ScanOptions) (ht : t.LiesIn source) (hp : s.phase = .outside) :
    Agrees ((ofState s).stepOutside? options source t.span) (s.stepOutside options t) := by
  have hslice := slice?_span ht
  have hkind : t.span.kind = t.kind := rfl
  have hstart : t.span.start = t.start := rfl
  have hstop : t.span.stop = t.stop := rfl
  have hdepth : (ofState s).depth = s.depth := if_pos hp
  unfold Agrees stepOutside? ScanState.stepOutside
  rw [hkind]
  cases t.kind with
  | startTag =>
    have hseen : (ofState s).templateSeen = s.templateSeen := rfl
    have hone : s.depth + 1 = 1 ↔ s.depth = 0 := by omega
    simp only [hstart, hstop, hslice, hdepth, hseen, hone, Option.bind_eq_bind, Option.bind_some]
    split
    · simp [ofState]
    · simp [ofState, hp]
  | attributeName => simp [hstart, hstop, hslice, ofState, hp]
  | attributeValue =>
    have hname : (ofState s).name = s.name := rfl
    simp only [hname]
    cases s.name with
    | none => simp
    | some name =>
      have hregion := attributeRegion?_eq options name ht
      simp only [hstart, hstop, hslice, hregion, Option.bind_eq_bind, Option.bind_some]
      split
      · simp [ofState, hp]
      · simp [ofState, hp]
  | startTagClose => simp [ofState, hp]
  | startTagSelfClose => simp [ofState, hp]
  | endTag => simp [ofState, hp]
  | endTagClose => simp [ofState, hp]
  | styles => simp [ofState, hp, hstart, hstop]
  | script => simp [ofState, hp, hstart, hstop]
  | other => simp [ofState, hp]

theorem stepOpening?_eq (tag : Text) (hp : s.phase = .opening tag) :
    Agrees ((ofState s).stepOpening? tag t.span) (s.stepOpening tag t) := by
  have hkind : t.span.kind = t.kind := rfl
  unfold Agrees stepOpening? ScanState.stepOpening
  rw [hkind]
  cases t.kind <;> simp [ofState, hp, leave?, sub?, Token.span]

/-- Leaving the template closes its element, which has been counted. -/
theorem closeTemplate?_eq {options : ScanOptions} {tag : Text} {start nested stop : Nat}
    {sameName : Bool} (hp : s.phase = .inside tag start nested sameName)
    (hs : IsBoundary source start) (he : IsBoundary source stop) :
    Agrees ((ofState s).closeTemplate? options source tag start nested sameName (some stop))
      (s.closeTemplate options source tag start nested sameName stop) := by
  unfold Agrees closeTemplate? ScanState.closeTemplate
  cases nested with
  | zero => simp [trimmedRegion?_eq _ hs he, leave?, sub?, ofState, hp]
  | succ n => simp [sub?, ofState, hp]

/-- In front of the name of an end tag there are two more bytes. -/
lemma exists_endTag_start (ht : t.LiesIn source) (hk : t.kind = .endTag) :
    ∃ n, sub? t.start 2 = some n ∧ n = t.start - 2 ∧ IsBoundary source n := by
  obtain ⟨before, after, hs, hb, hopen⟩ := ht.located
  obtain ⟨front, rfl⟩ := hopen hk
  have hlen : bytes front + 2 = t.start := by
    rw [← hb, bytes_append]
    rfl
  refine ⟨t.start - 2, sub?_of_le (by omega), rfl, front, ['<', '/'] ++ (t.text ++ after), ?_, ?_⟩
  · rw [hs, List.append_assoc]
  · omega

/-- An end tag in a token starts at a boundary. -/
lemma isBoundary_endTagOffset (ht : t.LiesIn source) {tag : Text} {n : Nat}
    (h : endTagOffset? tag t.text = some n) : IsBoundary source (t.start + n) := by
  obtain ⟨before, after, hs, hb, -⟩ := ht.located
  obtain ⟨a, b, htext, rfl⟩ := ScanState.endTagOffset?_eq_some h
  refine ⟨before ++ a, ('<' :: b) ++ after, ?_, by rw [bytes_append, hb]⟩
  rw [hs, htext]
  simp

lemma looseEndTag?_eq (source tag : Text)
    (hk : t.kind = .other ∨ t.kind = .styles ∨ t.kind = .script) :
    ScanState.looseEndTag? source tag t
      = if isClassified source t.span t.text then none else endTagOffset? tag t.text := by
  have hkind : t.span.kind = t.kind := rfl
  have hstop : t.span.stop = t.stop := rfl
  unfold ScanState.looseEndTag? isClassified
  rw [hkind, hstop, length_utf8]
  rcases hk with hk | hk | hk
  · simp [hk]
  · by_cases he : t.stop = bytes source <;> simp [hk, he]
  · by_cases he : t.stop = bytes source <;> simp [hk, he]

theorem stepInside?_eq (options : ScanOptions) {tag : Text} {start nested : Nat} {sameName : Bool}
    (hp : s.phase = .inside tag start nested sameName) (hs : IsBoundary source start)
    (ht : t.LiesIn source) :
    Agrees ((ofState s).stepInside? options source tag start nested sameName t.span)
      (s.stepInside options source tag start nested sameName t) := by
  have hslice := slice?_span ht
  have hkind : t.span.kind = t.kind := rfl
  have hstart : t.span.start = t.start := rfl
  have hstop : t.span.stop = t.stop := rfl
  have loose (hk : t.kind = .other ∨ t.kind = .styles ∨ t.kind = .script) :
      Agrees (do
          let raw ← source.slice? t.span.start t.span.stop
          if isClassified source t.span raw then return (ofState s, [])
          else
            match ← findEndTag? raw tag with
            | some n =>
              (ofState s).closeTemplate? options source tag start nested sameName
                (some (t.span.start + n))
            | none => return (ofState s, []))
        (match ScanState.looseEndTag? source tag t with
        | some offset =>
          s.closeTemplate options source tag start nested sameName (t.start + offset)
        | none => (s, [])) := by
    rw [looseEndTag?_eq source tag hk, hstart, hstop, hslice]
    simp only [Option.bind_eq_bind, Option.bind_some, findEndTag?_eq]
    by_cases hclass : isClassified source t.span t.text
    · rw [if_pos hclass, if_pos hclass]
      rfl
    · rw [if_neg hclass, if_neg hclass]
      cases hn : endTagOffset? tag t.text with
      | none => rfl
      | some n => exact closeTemplate?_eq hp hs (isBoundary_endTagOffset ht hn)
  unfold stepInside? ScanState.stepInside
  rw [hkind]
  cases hk : t.kind with
  | startTag =>
    simp only [hstart, hstop, hslice, Option.bind_eq_bind, Option.bind_some]
    by_cases hname : sameIgnoringCase t.text tag
    · rw [if_pos hname, if_pos hname]
      simp [Agrees, ofState, hp]
    · rw [if_neg hname, if_neg hname]
      simp [Agrees, ofState, hp]
  | startTagSelfClose => simp [Agrees, ofState, hp]
  | startTagClose => simp [Agrees, ofState, hp]
  | endTag =>
    simp only [hstart, hstop, hslice, Option.bind_eq_bind, Option.bind_some]
    by_cases hname : sameIgnoringCase t.text tag
    · obtain ⟨n, hn, rfl, he⟩ := exists_endTag_start ht hk
      rw [if_pos hname, if_pos hname, hn]
      exact closeTemplate?_eq hp hs he
    · rw [if_neg hname, if_neg hname]
      rfl
  | other => exact loose (Or.inl hk)
  | styles => exact loose (Or.inr (Or.inl hk))
  | script => exact loose (Or.inr (Or.inr hk))
  | attributeName => rfl
  | attributeValue => rfl
  | endTagClose => rfl

/-- **No token makes the pass fail**, and what is remembered and found is the same. -/
theorem step?_eq (options : ScanOptions) (h : s.Fits source w) (ht : w.Allows source t) :
    Agrees ((ofState s).step? options source t.span) (s.step options source t) := by
  have hkind : t.span.kind = t.kind := rfl
  have hphase : (ofState s).phase = s.phase := rfl
  unfold step? ScanState.step
  rw [hphase]
  cases hp : s.phase with
  | outside =>
    have hdepth : (ofState s).depth = s.depth := if_pos hp
    simp only [hkind, hdepth]
    by_cases hk : t.kind = .other ∧ s.depth = 0
    · rw [if_pos hk, if_pos hk, extendRun_eq h ht hp hk.2 hk.1]
    · have hrun : (ofState s).endRun? source = _ := endRun?_eq h
      have hp' : s.endRun.1.phase = .outside := by rw [ScanState.endRun_fst, hp]
      have hstep : (ofState s.endRun.1).stepOutside? options source t.span = _ :=
        stepOutside?_eq options ht.lies hp'
      rw [if_neg hk, if_neg hk, hrun, Option.bind_eq_bind, Option.bind_some, hstep]
      rfl
  | opening tag => exact stepOpening?_eq tag hp
  | inside tag start nested sameName =>
    exact stepInside?_eq options hp (h.content tag start nested sameName hp).1 ht.lies

/-- The regions that a stream of tokens yields can be told from the spans. -/
theorem regions?_eq (options : ScanOptions) (ts : List Token) (h : s.Fits source w)
    (hts : Stream source w ts) :
    (ofState s).regions? options source (ts.map Token.span)
      = some (s.regions options source ts) := by
  induction ts generalizing s w with
  | nil =>
    have hrun : (ofState s).endRun? source = _ := endRun?_eq h
    by_cases hp : s.phase = .outside
    · have hp' : (ofState s).phase = .outside := hp
      rw [List.map_nil, regions?, if_pos hp']
      simp only [Option.bind_eq_bind, Option.bind_some, hrun]
      rfl
    · -- a template that is not closed has been counted, and no loose text is collected in it
      have hp' : ¬ (ofState s).phase = .outside := hp
      have hnone : s.run = none := h.run_eq_none hp
      have hdepth : (ofState s).depth = s.depth + 1 := if_neg hp
      have hspan : (ofState s).run = none := by simp [ofState, hnone]
      rw [List.map_nil, regions?, if_neg hp', leave?, hdepth, sub?_of_le (by omega)]
      simp [endRun?, hspan, ScanState.regions, ScanState.endRun, hnone]
  | cons t ts ih =>
    have hstep : (ofState s).step? options source t.span = _ := step?_eq options h hts.1
    have hrest := ih (ScanState.fits_step options h hts.1).1 hts.2
    rw [List.map_cons, regions?, hstep, Option.bind_eq_bind, Option.bind_some]
    simp only [hrest]
    rfl

end Pass

end CheckedScan

/-- **The checked scan of every text succeeds**, with the regions of the text. -/
theorem scan?_eq (options : ScanOptions) (source : Text) :
    scan? options source = some (scan options source) := by
  rw [scan?, Reader.spans?_eq, Option.bind_eq_bind, Option.bind_some]
  exact CheckedScan.Pass.regions?_eq options (tokens source) (ScanState.fits_start source)
    (stream_tokens source)

end Mosaic
