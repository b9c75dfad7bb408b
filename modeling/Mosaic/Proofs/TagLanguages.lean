import Mosaic.Proofs.RawTags
import Mosaic.Proofs.TemplateContent

/-!
# The languages of blocks

Outside the template, the content of a `<style>` or `<script>` is a block, and its language is the one
that the start tag in front of it names.  A pass forgets at each start tag what an earlier one said, so
nothing else has a say in it.

* `ScanState.after` — what a pass remembers after some tokens.
* `ScanState.Knows` — what it remembers of the start tag that it is in, if it is outside the template.
* `ScanState.knows_tokens` — after the tokens of a start tag it knows the language that the tag names.
* `blocks_from_own_tags` — each token of raw content outside the template is one block, in the language
  that its own start tag names.
-/

namespace Mosaic

open Text Markup

/-- The language of the content of an element whose start tag names the language `lang`. -/
def Markup.RawElement.language (options : ScanOptions) (lang : Option String) : RawElement → String
  | .style => styleLanguage lang
  | .script => scriptLanguage lang options.scriptLanguage

namespace ScanState

open Scan

variable {options : ScanOptions} {source : Text} {s : ScanState} {t : Token} {ts us : List Token}
  {lang : Option String} {tag : OpenTag} {p : TagPart}

/-! ## After some tokens -/

/-- What a pass remembers after some tokens. -/
def after (options : ScanOptions) (source : Text) (s : ScanState) (ts : List Token) : ScanState :=
  ts.foldl (fun s t => (s.step options source t).1) s

lemma after_append (s : ScanState) (ts us : List Token) :
    s.after options source (ts ++ us) = (s.after options source ts).after options source us :=
  List.foldl_append

lemma yields_step {found : List Region} (h : (s.step options source t).2 = found) :
    Yields options source s [t] found (s.step options source t).1 :=
  Yields.of_step (Prod.ext rfl h)

lemma yields_after (s : ScanState) (ts : List Token) :
    ∃ found, Yields options source s ts found (s.after options source ts) := by
  induction ts generalizing s with
  | nil => exact ⟨[], fun _ => rfl⟩
  | cons t ts ih =>
    obtain ⟨found, hfound⟩ := ih (s.step options source t).1
    exact ⟨_, (Yields.of_step rfl).trans hfound⟩

/-! ## In a start tag -/

/-- Outside the template, and in an element, the pass knows the language that the start tag names. -/
def Knows (lang : Option String) (s : ScanState) : Prop :=
  s.phase = .outside → 0 < s.depth ∧ s.run = none ∧ s.lang = lang

/-- In an element there is no run of loose text. -/
lemma step_of_no_run (hp : s.phase = .outside) (hdepth : 0 < s.depth) (hrun : s.run = none) :
    s.step options source t = s.stepOutside options t := by
  simp [step, hp, hdepth.ne', endRun, hrun]

/-- The token may stand in a start tag, its `>` included. -/
def StandsInTag (t : Token) : Prop :=
  match t.kind with
  | .startTag | .attributeName | .attributeValue | .startTagClose => True
  | .other => '<' ∉ t.text
  | _ => False

/-- What stands in a start tag does not lead out of the template. -/
lemma outside_of_step (ht : StandsInTag t) (h : (s.step options source t).1.phase = .outside) :
    s.phase = .outside := by
  obtain ⟨kind, n, text⟩ := t
  cases hp : s.phase with
  | outside => rfl
  | opening tag =>
    simp only [step, hp] at h
    cases kind with
    | startTagClose => simp [stepOpening] at h
    | startTag | attributeName | attributeValue | other => simp [stepOpening, hp] at h
    | startTagSelfClose | endTag | endTagClose | styles | script => exact ht.elim
  | inside tag start nested sameName =>
    simp only [step, hp] at h
    cases kind with
    | startTag =>
      simp only [stepInside] at h
      split at h <;> simp at h
    | startTagClose => simp [stepInside] at h
    | attributeName | attributeValue => simp [stepInside, hp] at h
    | other => simp [stepInside, looseEndTag?_of_loose ht, hp] at h
    | startTagSelfClose | endTag | endTagClose | styles | script => exact ht.elim

/-- A start tag begins, and nothing is known of its language. -/
lemma knows_startTag (ht : t.kind = .startTag) : (s.step options source t).1.Knows none := by
  intro hphase
  have hp : s.phase = .outside := outside_of_step (by simp [StandsInTag, ht]) hphase
  simp only [step, hp, ht] at hphase ⊢
  rw [if_neg (by simp)] at hphase ⊢
  simp only [stepOutside, ht] at hphase ⊢
  split at hphase
  · simp at hphase
  next hopens =>
    rw [if_neg hopens]
    refine ⟨Nat.succ_pos _, ?_, rfl⟩
    rw [endRun_fst]

/-- What stands in a start tag and names no language. -/
lemma Knows.keep (h : s.Knows lang) (ht : StandsInTag t)
    (hout : s.phase = .outside → (s.stepOutside options t).1.depth = s.depth ∧
      (s.stepOutside options t).1.run = s.run ∧ (s.stepOutside options t).1.lang = s.lang) :
    (s.step options source t).1.Knows lang := by
  intro hphase
  have hp := outside_of_step ht hphase
  obtain ⟨hdepth, hrun, hlang⟩ := h hp
  obtain ⟨h1, h2, h3⟩ := hout hp
  rw [step_of_no_run hp hdepth hrun, h1, h2, h3]
  exact ⟨hdepth, hrun, hlang⟩

/-- A value behind its name, which is forgotten then. -/
lemma Knows.value {name value : Token} (h : s.Knows lang) (hname : name.kind = .attributeName)
    (hvalue : value.kind = .attributeValue) :
    (s.after options source [name, value]).Knows ((TagPart.attr name (some value)).lang?.or lang) := by
  have hstands : StandsInTag name ∧ StandsInTag value := by simp [StandsInTag, hname, hvalue]
  intro hphase
  have hp' : (s.step options source name).1.phase = .outside := outside_of_step hstands.2 hphase
  have hp := outside_of_step hstands.1 hp'
  obtain ⟨hdepth, hrun, hlang⟩ := h hp
  have hfirst : (s.step options source name).1 = { s with name := some name.text } := by
    rw [step_of_no_run hp hdepth hrun]
    simp [stepOutside, hname]
  have hsecond : (ScanState.step options source { s with name := some name.text } value) =
      ScanState.stepOutside options { s with name := some name.text } value :=
    step_of_no_run hp hdepth hrun
  simp only [after, List.foldl_cons, List.foldl_nil, hfirst]
  rw [hsecond]
  simp only [stepOutside, hvalue, TagPart.lang?]
  split
  · exact ⟨hdepth, hrun, rfl⟩
  · exact ⟨hdepth, hrun, hlang⟩

/-- **Each part of a start tag is heard**, the last language named counts. -/
lemma Knows.part (h : s.Knows lang) (hp : p.Proper) :
    (s.after options source p.tokens).Knows (p.lang?.or lang) := by
  cases hp with
  | @attr name value hname hvalue =>
    cases value with
    | none => exact h.keep (by simp [StandsInTag, hname]) fun _ => by simp [stepOutside, hname]
    | some value => exact h.value hname (hvalue value rfl)
  | @stray t hkind hmarkup =>
    exact h.keep (by simpa [StandsInTag, hkind] using hmarkup) fun _ => by
      simp [stepOutside, hkind]

/-- After the tokens of a start tag the pass knows the language that the tag names last. -/
theorem knows_tokens (options : ScanOptions) (source : Text) (s : ScanState) (tag : OpenTag) :
    (s.after options source tag.tokens).Knows tag.lang := by
  obtain ⟨name, parts, hname, hproper⟩ := tag
  simp only [OpenTag.tokens, OpenTag.lang]
  induction parts using List.reverseRecOn with
  | nil => exact knows_startTag hname
  | append_singleton parts p ih =>
    obtain ⟨hparts, hp⟩ := List.forall_mem_append.1 hproper
    have h : ScanState.Knows _ (ScanState.after options source _ p.tokens) :=
      (ih hparts).part (hp p (by simp))
    rw [← after_append] at h
    rw [List.flatMap_append, List.flatMap_singleton, List.filterMap_append, List.getLast?_append]
    cases hlang : p.lang? <;> simpa [hlang] using h

/-- Neither does its `>` change that. -/
lemma knows_allTokens (options : ScanOptions) (source : Text) (s : ScanState) (tag : StartTag) :
    (s.after options source tag.allTokens).Knows tag.lang := by
  rw [StartTag.allTokens, after_append]
  exact (knows_tokens options source s tag.toOpenTag).keep (by simp [StandsInTag, tag.closed])
    fun _ => by simp [stepOutside, tag.closed]

/-- Raw content outside the template is one block in the language that is known. -/
lemma Knows.raw {e : RawElement} (h : s.Knows lang) (hp : s.phase = .outside)
    (hk : t.kind = e.kind) :
    (s.step options source t).2 = [.block (e.language options lang) t.start t.stop] := by
  obtain ⟨hdepth, hrun, hlang⟩ := h hp
  rw [step_of_no_run hp hdepth hrun]
  cases e <;> simp [stepOutside, hk, RawElement.kind, RawElement.language, hlang]

end ScanState

/-! ## Blocks -/

/-- The token of raw content yields one block, in the language that its start tag names. -/
structure YieldsBlock (options : ScanOptions) (source : Text) (e : RawElement) (front : List Token)
    (t : Token) (tag : StartTag) (r : Region) : Prop where
  region : r = .block (e.language options tag.lang) t.start t.stop
  /-- The token itself yields it, and nothing else. -/
  step : ((ScanState.after options source {} front).step options source t).2 = [r]
  found : r ∈ scan options source
  /-- No other region has anything in common with it. -/
  only : ∀ r' ∈ scan options source, r'.start ≤ t.stop → t.start ≤ r'.stop → r' = r

lemma yieldsBlock {options : ScanOptions} {source : Text} {e : RawElement} {front back : List Token}
    {t : Token} {tag : StartTag} (h : tokens source = front ++ t :: back) (hk : t.kind = e.kind)
    (htag : EndsWithTag front tag)
    (hout : (ScanState.after options source {} front).phase = .outside) :
    YieldsBlock options source e front t tag
      (.block (e.language options tag.lang) t.start t.stop) := by
  have hstep : ((ScanState.after options source {} front).step options source t).2 =
      [.block (e.language options tag.lang) t.start t.stop] := by
    obtain ⟨before, rfl⟩ := htag
    rw [ScanState.after_append] at hout ⊢
    exact (ScanState.knows_allTokens options source _ tag).raw hout hk
  have hfound : Region.block (e.language options tag.lang) t.start t.stop ∈ scan options source := by
    obtain ⟨found, hfront⟩ : ∃ found, ScanState.Yields options source {} front found
        (ScanState.after options source {} front) := ScanState.yields_after {} front
    have hscan := hfront.trans (ScanState.yields_step hstep) back
    rw [List.append_assoc, List.singleton_append, ← h] at hscan
    rw [scan, hscan]
    simp
  refine ⟨rfl, hstep, hfound, fun r hr hstart hstop => ?_⟩
  -- the later of the two starts is in both
  have hr' : r.start ≤ r.stop := (scan_liesIn hr).start_le_stop
  have ht : t.start ≤ t.stop := (scan_liesIn hfound).start_le_stop
  exact eq_of_contains (scan_pairwise options source) hr hfound
    (Region.contains_iff.2 ⟨le_max_left r.start t.start, max_le hr' hstop⟩)
    (Region.contains_iff.2 ⟨le_max_right r.start t.start, max_le hstart ht⟩)

/-- **The content of an element is a block in the language that its own start tag names.**  Each token
of raw content comes right behind the start tag of its element, and stops at the end tag or with the
source.  Outside the template it is one block, and no other start tag has a say in its language. -/
theorem blocks_from_own_tags (options : ScanOptions) (source : Text) :
    (∀ front t back e, tokens source = front ++ t :: back → t.kind = RawElement.kind e →
      ∃ tag, BehindTag source e front t tag) ∧
    (∀ front t back e tag, tokens source = front ++ t :: back → t.kind = RawElement.kind e →
      BehindTag source e front t tag →
      (ScanState.after options source {} front).phase = .outside →
      ∃ r, YieldsBlock options source e front t tag r) :=
  ⟨fun _ _ _ _ h hk => behindTag_of_kind h hk,
    fun _ _ _ _ _ h hk htag hout => ⟨_, yieldsBlock h hk htag.ends hout⟩⟩

end Mosaic
