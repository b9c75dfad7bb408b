import Mosaic.Proofs.RegionSpacing
import Mosaic.Proofs.TagReading

/-!
# The content of the template element

The template element ends at the end tag that belongs to it.  Its content may hold end tags of its
own name wherever they do not count: in comments, in the values of attributes, in scripts and
styles, and where they end an inner element of that name.

* `TemplateNode` — what the content is made of, and its text.
* `TemplateNode.opened`, `TemplateNode.Balanced` — how many inner elements of the name of the
  template are open.
* `Scan.trimmedBlock_eq` — the block of a span of text.
* `ScanState.passes_markup` — a pass comes over one part that is not text, and counts what is open.
* `ScanState.exists_passes_nodes` — it comes over all parts, by induction.
* `ScanState.passes_templateTag`, `ScanState.passes_templateEnd` — where the template begins and
  ends.
* `scan_template` — the first region of the file is the content, without the white space around it.
-/

namespace Mosaic

open Text Markup

/-! ## Content as it is written -/

/-- A part of the content of the template element. -/
inductive TemplateNode where
  | text (body : Text) (loose : '<' ∉ body)
  | comment (body : Text) (comment : IsComment body)
  /-- A start tag, after which markup goes on. -/
  | openTag (head : TagHead) (markup : ∀ e : RawElement, ¬ sameIgnoringCase head.name e.name)
  | selfClosedTag (head : TagHead)
  /-- An end tag, with stray text behind its name. -/
  | endTag (name stray : Text) (named : IsTagName name) (ends : ∀ c ∈ stray.head?, ¬ isNameChar c)
    (strays : ∀ c ∈ stray, isStrayChar c)
  /-- A script or style element with its end tag. -/
  | raw (element : RawElement) (head : TagHead) (body : Text)
    (named : sameIgnoringCase head.name element.name) (stays : StaysRaw element body)

namespace TemplateNode

/-- The text of an end tag. -/
def endTagText (name stray : Text) : Text :=
  ['<', '/'] ++ name ++ stray ++ ['>']

lemma bytes_endTagText (name stray : Text) :
    bytes (endTagText name stray) = 2 + bytes name + bytes stray + 1 := by
  rw [endTagText, bytes_append, bytes_append, bytes_append]
  rfl

/-- The text of a part. -/
def written : TemplateNode → Text
  | text body _ => body
  | comment body _ => ['<', '!', '-', '-'] ++ body ++ ['-', '-', '>']
  | openTag head _ => head.written ++ ['>']
  | selfClosedTag head => head.written ++ ['/', '>']
  | endTag name stray _ _ _ => endTagText name stray
  | raw _ head body _ _ => head.written ++ ['>'] ++ body ++ endTagText head.name []

/-- The number of open elements with the name `tag` after a part, if there were `open` ones before.
There is none if the part ends an element that was not open. -/
def opened (tag : Text) (n : Nat) : TemplateNode → Option Nat
  | text _ _ | comment _ _ | selfClosedTag _ | raw _ _ _ _ _ => some n
  | openTag head _ => some (if sameIgnoringCase head.name tag then n + 1 else n)
  | endTag name _ _ _ _ =>
    if sameIgnoringCase name tag then if n = 0 then none else some (n - 1) else some n

/-- A part that is not text. -/
def IsMarkup : TemplateNode → Prop
  | text _ _ => False
  | _ => True

lemma text_or_isMarkup (node : TemplateNode) :
    (∃ body loose, node = text body loose) ∨ node.IsMarkup := by
  cases node with
  | text body loose => exact Or.inl ⟨body, loose, rfl⟩
  | _ => exact Or.inr trivial

lemma opensMarkup_written (node : TemplateNode) (h : node.IsMarkup) (rest : Text) :
    opensMarkup (node.written ++ rest) := by
  have hhead (head : TagHead) (r : Text) : opensMarkup (head.written ++ r) := by
    have hinitial := head.named.initial
    rw [TagHead.written]
    cases hname : head.name with
    | nil => simp [hname] at hinitial
    | cons x name =>
      have hx : isTagInitial x := by simpa [hname] using hinitial
      simp [opensMarkup, hx]
  cases node with
  | text body loose => exact h.elim
  | comment body comment => rfl
  | openTag head markup => simpa [written] using hhead head _
  | selfClosedTag head => simpa [written] using hhead head _
  | endTag name stray named ends strays => simp [written, endTagText, opensMarkup]
  | raw e head body named stays => simpa [written] using hhead head _

/-- Elements with the name `tag` are ended in the content in which they start. -/
def Balanced (tag : Text) (nodes : List TemplateNode) : Prop :=
  nodes.foldlM (opened tag) 0 = some 0

end TemplateNode

/-! ## The block of the template -/

/-- The block of a span is its text without the white space at either end. -/
lemma Scan.trimmedBlock_eq (before body after : Text) (language : String) :
    trimmedBlock (before ++ (body ++ after)) language (bytes before) (bytes before + bytes body)
      = .block language (bytes before + bytes (body.takeWhile isBlank))
          (bytes before + bytes (body.takeWhile isBlank) + bytes (trim body)) := by
  simp only [trimmedBlock, max_eq_right (Nat.le_add_right (bytes before) (bytes body)),
    slice_parts, max_trimmed]

/-! ## A pass in the content of the template -/

namespace ScanState

open Scan

variable {options : ScanOptions} {source tag name body rest : Text} {n start k : Nat}
  {e : RawElement}

/-- Text without markup holds no end tag. -/
lemma looseEndTag?_of_loose (h : '<' ∉ body) :
    looseEndTag? source tag ⟨.other, n, body⟩ = none := by
  have hnone : endTagOffset? tag body = none := by
    cases hoffset : endTagOffset? tag body with
    | none => rfl
    | some offset =>
      obtain ⟨a, b, rfl, -⟩ := endTagOffset?_eq_some hoffset
      exact absurd (by simp) h
  simp [looseEndTag?, hnone]

lemma looseEndTag?_of_comment :
    looseEndTag? source tag ⟨.other, n, ['<', '!', '-', '-'] ++ body⟩ = none := by
  simp [looseEndTag?]

/-- Raw content that its end tag follows holds no end tag. -/
lemma looseEndTag?_of_raw (h : n + bytes body < bytes source) :
    looseEndTag? source tag ⟨e.kind, n, body⟩ = none := by
  cases e <;> simp [looseEndTag?, RawElement.kind, Token.stop, h.ne]

/-- The state of a pass in the content of the template element, which starts at `start`, with `k`
open elements of its name. -/
def inTemplate (tag : Text) (start k : Nat) (sameName : Bool) : ScanState :=
  { phase := .inside tag start k sameName, templateSeen := true }

/-- The name and the attributes of a start tag. -/
lemma yields_tagHead (head : TagHead) (m m' : Nat) (sameName : Bool) :
    Yields options source (inTemplate tag start k sameName)
      (⟨.startTag, m, head.name⟩ :: Attribute.tokensFrom m' head.attributes) []
      (inTemplate tag start (if sameIgnoringCase head.name tag then k + 1 else k)
        (sameIgnoringCase head.name tag)) := by
  have hname : (inTemplate tag start k sameName).step options source ⟨.startTag, m, head.name⟩
      = (inTemplate tag start (if sameIgnoringCase head.name tag then k + 1 else k)
          (sameIgnoringCase head.name tag), []) := by
    cases h : sameIgnoringCase head.name tag <;> simp [step, inTemplate, stepInside, h]
  refine (Yields.of_step hname).trans (Yields.of_forall fun t ht => ?_)
  rcases Attribute.kind_of_mem_tokensFrom ht with h | h <;>
    simp [step, inTemplate, stepInside, h]

/-- A start tag, up to what is expected behind it. -/
lemma passes_innerOpenTag (head : TagHead) {t : Text} :
    Passes options source (inTemplate tag start k false)
      ⟨.content, t, n, head.written ++ '>' :: rest⟩ []
      (inTemplate tag start (if sameIgnoringCase head.name tag then k + 1 else k) false)
      ⟨.afterStartTag head.name, head.name, n + bytes head.written + 1, rest⟩ :=
  .of_reads (.openTag head) ((yields_tagHead head _ _ _).trans (.of_step rfl))

/-- A start tag that is closed at once opens nothing. -/
lemma passes_selfClosedTag (head : TagHead) {t : Text} :
    Passes options source (inTemplate tag start k false)
      ⟨.content, t, n, head.written ++ '/' :: '>' :: rest⟩ [] (inTemplate tag start k false)
      ⟨.content, head.name, n + bytes head.written + 2, rest⟩ := by
  refine .of_reads (.selfClosedTag head) ((yields_tagHead head _ _ _).trans (.of_step ?_))
  cases h : sameIgnoringCase head.name tag <;> simp [step, inTemplate, stepInside]

/-- Text in which the template does not end. -/
lemma step_of_looseEndTag?_eq_none {t : Token} (h : looseEndTag? source tag t = none)
    (hkind : t.kind = .other ∨ ∃ e : RawElement, t.kind = e.kind) :
    (inTemplate tag start k false).step options source t = (inTemplate tag start k false, []) := by
  rcases hkind with hk | ⟨e, hk⟩
  · simp [step, inTemplate, stepInside, hk, h]
  · cases e <;> simp [step, inTemplate, stepInside, hk, RawElement.kind, h]

/-- Loose text, up to the next markup. -/
lemma passes_text (hlt : '<' ∉ body) (hr : opensMarkup rest) {t : Text} :
    Passes options source (inTemplate tag start k false) ⟨.content, t, n, body ++ rest⟩ []
      (inTemplate tag start k false) ⟨.content, t, n + bytes body, rest⟩ := by
  by_cases hne : body = []
  · subst hne
    rfl
  · exact .of_reads (.text hne hlt (Or.inr hr))
      (.of_step (step_of_looseEndTag?_eq_none (looseEndTag?_of_loose hlt) (Or.inl rfl)))

/-- A comment. -/
lemma passes_comment (h : IsComment body) {t : Text} :
    Passes options source (inTemplate tag start k false)
      ⟨.content, t, n, ['<', '!', '-', '-'] ++ body ++ (['-', '-', '>'] ++ rest)⟩ []
      (inTemplate tag start k false)
      ⟨.content, t, n + bytes (['<', '!', '-', '-'] ++ body ++ ['-', '-', '>']), rest⟩ := by
  refine .of_reads (.comment h) (.of_step ?_)
  rw [List.append_assoc]
  exact step_of_looseEndTag?_eq_none looseEndTag?_of_comment (Or.inl rfl)

/-- An end tag behind its name. -/
lemma passes_insideEndTag (hstrays : ∀ c ∈ body, isStrayChar c) {t : Text} :
    Passes options source (inTemplate tag start k false)
      ⟨.insideEndTag, t, n, body ++ '>' :: rest⟩ [] (inTemplate tag start k false)
      ⟨.content, t, n + bytes body + 1, rest⟩ := by
  obtain ⟨ts, hts, hread⟩ := Cursor.Reads.insideEndTag t rest n hstrays
  refine .of_reads hread ((Yields.of_forall fun u hu => ?_).trans (.of_step rfl))
  obtain ⟨hkind, hlt⟩ := hts u hu
  obtain ⟨kind, m, text⟩ := u
  obtain rfl : kind = .other := hkind
  exact step_of_looseEndTag?_eq_none (looseEndTag?_of_loose hlt) (Or.inl rfl)

/-- An end tag that does not end the template. -/
lemma passes_innerEndTag {stray t : Text} {k' : Nat} (hname : IsTagName name)
    (hends : ∀ c ∈ stray.head?, ¬ isNameChar c) (hstrays : ∀ c ∈ stray, isStrayChar c)
    (hk : (TemplateNode.endTag name stray hname hends hstrays).opened tag k = some k') :
    Passes options source (inTemplate tag start k false)
      ⟨.content, t, n, TemplateNode.endTagText name stray ++ rest⟩ []
      (inTemplate tag start k' false)
      ⟨.content, t, n + bytes (TemplateNode.endTagText name stray), rest⟩ := by
  have hstep : (inTemplate tag start k false).step options source ⟨.endTag, n + 2, name⟩
      = (inTemplate tag start k' false, []) := by
    rw [TemplateNode.opened] at hk
    split at hk
    next hsame =>
      cases k with
      | zero => simp at hk
      | succ k =>
        obtain rfl : k = k' := by simpa using hk
        simp [step, inTemplate, stepInside, hsame, closeTemplate]
    next hother =>
      obtain rfl : k = k' := by simpa using hk
      simp [step, inTemplate, stepInside, hother]
  have hafter : ∀ c ∈ (stray ++ '>' :: rest).head?, ¬ isNameChar c := by
    intro c hc
    cases stray with
    | nil =>
      obtain rfl : '>' = c := by simpa using hc
      decide
    | cons x stray => exact hends c (by simpa using hc)
  have hnamed : Passes options source (inTemplate tag start k false)
      ⟨.content, t, n, '<' :: '/' :: (name ++ (stray ++ '>' :: rest))⟩ []
      (inTemplate tag start k' false)
      ⟨.insideEndTag, t, n + 2 + bytes name, stray ++ '>' :: rest⟩ :=
    .of_reads (.endTag hname hafter) (.of_step hstep)
  rw [TemplateNode.bytes_endTagText]
  simpa [TemplateNode.endTagText, Nat.add_assoc] using hnamed.trans (passes_insideEndTag hstrays)

/-- The end tag of a raw element belongs to it. -/
lemma startsIgnoringCase_endTagText (h : sameIgnoringCase name e.name) (stray rest : Text) :
    startsIgnoringCase e.closing (TemplateNode.endTagText name stray ++ rest) := by
  rw [sameIgnoringCase, beq_iff_eq] at h
  have hlength : name.length = e.name.length := by
    simpa [lower] using congrArg List.length h
  have htake : (TemplateNode.endTagText name stray ++ rest).take e.closing.length
      = ['<', '/'] ++ name := by
    rw [e.closing_eq, List.length_append, ← hlength, ← List.length_append,
      TemplateNode.endTagText, List.append_assoc, List.append_assoc, List.take_left]
  rw [startsIgnoringCase, htake, sameIgnoringCase, beq_iff_eq, e.closing_eq, lower, lower,
    List.map_append, List.map_append]
  exact congrArg _ h.symm

/-- A raw element, whatever its content looks like. -/
lemma passes_raw {head : TagHead} {t : Text} (hname : sameIgnoringCase head.name e.name)
    (hraw : ∀ e : RawElement, ¬ sameIgnoringCase e.name tag) (hbody : StaysRaw e body)
    (hsize : n + bytes (head.written ++ ['>'] ++ body) < bytes source) :
    Passes options source (inTemplate tag start k false)
      ⟨.content, t, n,
        head.written ++ '>' :: (body ++ (TemplateNode.endTagText head.name [] ++ rest))⟩ []
      (inTemplate tag start k false)
      ⟨.content, head.name,
        n + bytes (head.written ++ ['>'] ++ body ++ TemplateNode.endTagText head.name []),
        rest⟩ := by
  have hother : ¬ sameIgnoringCase head.name tag := by
    have := hraw e
    simp only [sameIgnoringCase, beq_iff_eq] at this hname ⊢
    rwa [hname]
  let closing := TemplateNode.endTagText head.name []
  have hopen : Passes options source (inTemplate tag start k false)
      ⟨.content, t, n, head.written ++ '>' :: (body ++ (closing ++ rest))⟩ [] _ _ :=
    passes_innerOpenTag head
  rw [RawElement.afterStartTag_of_same hname, if_neg hother] at hopen
  have hcontent : Passes options source (inTemplate tag start k false)
      ⟨.raw e, head.name, n + bytes head.written + 1, body ++ (closing ++ rest)⟩ []
      (inTemplate tag start k false)
      ⟨.content, head.name, n + bytes head.written + 1 + bytes body, closing ++ rest⟩ := by
    have hcloses := startsIgnoringCase_endTagText hname [] rest
    by_cases hne : body = []
    · subst hne
      exact .of_reads (.raw_nil hcloses (by simp [closing, TemplateNode.endTagText]))
        (fun _ => rfl)
    · refine .of_reads (.raw hne hbody hcloses) (.of_step (step_of_looseEndTag?_eq_none
        (looseEndTag?_of_raw ?_) (Or.inr ⟨e, rfl⟩)))
      simpa [Nat.add_assoc, Cursor.utf8Size_gt] using hsize
  have hclose : Passes options source (inTemplate tag start k false)
      ⟨.content, head.name, n + bytes head.written + 1 + bytes body, closing ++ rest⟩ []
      (inTemplate tag start k false) _ :=
    passes_innerEndTag head.named (by simp) (by simp) (by simp [TemplateNode.opened, hother])
  simpa [Nat.add_assoc, Cursor.utf8Size_gt] using (hopen.trans hcontent).trans hclose

/-- A part that is not text, whatever was open before it. -/
lemma passes_markup (options : ScanOptions) (source rest : Text) (start n : Nat) (t : Text)
    {node : TemplateNode} {k' : Nat} (hnode : node.IsMarkup)
    (hraw : ∀ e : RawElement, ¬ sameIgnoringCase e.name tag) (hk : node.opened tag k = some k')
    (hsize : n + bytes node.written ≤ bytes source) :
    ∃ t', Passes options source (inTemplate tag start k false)
      ⟨.content, t, n, node.written ++ rest⟩ [] (inTemplate tag start k' false)
      ⟨.content, t', n + bytes node.written, rest⟩ := by
  cases node with
  | text body loose => exact hnode.elim
  | comment body comment =>
    obtain rfl : k = k' := by simpa [TemplateNode.opened] using hk
    refine ⟨t, ?_⟩
    rw [TemplateNode.written, List.append_assoc (_ ++ body)]
    exact passes_comment comment
  | openTag head markup =>
    refine ⟨head.name, ?_⟩
    have hpass : Passes options source (inTemplate tag start k false)
        ⟨.content, t, n, head.written ++ '>' :: rest⟩ [] _ _ := passes_innerOpenTag head
    rw [RawElement.afterStartTag_of_markup markup, Option.some.inj hk] at hpass
    simpa [TemplateNode.written, Nat.add_assoc, Cursor.utf8Size_gt] using hpass
  | selfClosedTag head =>
    obtain rfl : k = k' := by simpa [TemplateNode.opened] using hk
    refine ⟨head.name, ?_⟩
    have hpass : Passes options source (inTemplate tag start k false)
        ⟨.content, t, n, head.written ++ '/' :: '>' :: rest⟩ [] (inTemplate tag start k false) _ :=
      passes_selfClosedTag head
    simpa [TemplateNode.written, Nat.add_assoc, Cursor.utf8Size_gt, Cursor.utf8Size_slash]
      using hpass
  | endTag name stray named ends strays => exact ⟨t, passes_innerEndTag named ends strays hk⟩
  | raw e head body named stays =>
    obtain rfl : k = k' := by simpa [TemplateNode.opened] using hk
    have hlt : n + bytes (head.written ++ ['>'] ++ body) < bytes source := by
      rw [TemplateNode.written, bytes_append, TemplateNode.bytes_endTagText] at hsize
      omega
    refine ⟨head.name, ?_⟩
    simpa [TemplateNode.written] using passes_raw named hraw stays hlt

/-- **A pass comes over content, and then knows how many elements of the name of the template are
open.**  Loose text is read together with the text that follows it. -/
lemma exists_passes_nodes (options : ScanOptions) (nodes : List TemplateNode)
    {pending : Text} {k' : Nat} (hraw : ∀ e : RawElement, ¬ sameIgnoringCase e.name tag)
    (hk : nodes.foldlM (TemplateNode.opened tag) k = some k') (hpending : '<' ∉ pending)
    (hrest : opensMarkup rest) (start n : Nat) (t : Text)
    (hsize : n + bytes (pending ++ nodes.flatMap TemplateNode.written) ≤ bytes source) :
    ∃ t', Passes options source (inTemplate tag start k false)
      ⟨.content, t, n, pending ++ (nodes.flatMap TemplateNode.written ++ rest)⟩ []
      (inTemplate tag start k' false)
      ⟨.content, t', n + bytes (pending ++ nodes.flatMap TemplateNode.written), rest⟩ := by
  induction nodes generalizing pending k n t with
  | nil =>
    obtain rfl : k = k' := by simpa using hk
    exact ⟨t, by simpa using passes_text hpending hrest⟩
  | cons node nodes ih =>
    rw [List.foldlM_cons, Option.bind_eq_bind, Option.bind_eq_some_iff] at hk
    obtain ⟨k₁, hnode, hk⟩ := hk
    rw [List.flatMap_cons] at hsize ⊢
    rcases node.text_or_isMarkup with ⟨body, loose, rfl⟩ | hmarkup
    · obtain rfl : k = k₁ := by simpa [TemplateNode.opened] using hnode
      have hlt : '<' ∉ pending ++ body := by simp [hpending, loose]
      obtain ⟨t', hpass⟩ := ih hk hlt n t (by simpa [TemplateNode.written] using hsize)
      exact ⟨t', by simpa [TemplateNode.written] using hpass⟩
    · let others := nodes.flatMap TemplateNode.written ++ rest
      have htext : Passes options source (inTemplate tag start k false)
          ⟨.content, t, n, pending ++ (node.written ++ others)⟩ [] (inTemplate tag start k false)
          ⟨.content, t, n + bytes pending, node.written ++ others⟩ :=
        passes_text hpending (node.opensMarkup_written hmarkup others)
      simp only [bytes_append] at hsize
      obtain ⟨t₁, hpass⟩ := passes_markup options source others start (n + bytes pending) t hmarkup
        hraw hnode (by omega)
      have hnone : '<' ∉ ([] : Text) := by simp
      have hfits : n + bytes pending + bytes node.written
          + bytes ([] ++ nodes.flatMap TemplateNode.written) ≤ bytes source := by
        rw [List.nil_append]
        omega
      obtain ⟨t', hpasses⟩ := ih hk hnone (n + bytes pending + bytes node.written) t₁ hfits
      exact ⟨t', by simpa [others, Nat.add_assoc] using (htext.trans hpass).trans hpasses⟩

/-! ## The template as a whole -/

/-- The start tag of the template element, at the beginning of a file. -/
lemma passes_templateTag (htag : IsTagName tag)
    (hsame : sameIgnoringCase tag options.templateTag.toList)
    (hraw : ∀ e : RawElement, ¬ sameIgnoringCase e.name tag) {t : Text} :
    Passes options source {} ⟨.content, t, 0, ['<'] ++ tag ++ ['>'] ++ rest⟩ []
      (inTemplate tag (bytes (['<'] ++ tag ++ ['>'])) 0 false)
      ⟨.content, tag, bytes (['<'] ++ tag ++ ['>']), rest⟩ := by
  let head : TagHead := ⟨tag, [], [], htag, by simp⟩
  have hname : ScanState.step options source {} ⟨.startTag, 0 + 1, tag⟩
      = ({ phase := .opening tag, templateSeen := true }, []) := by
    simp [step, stepOutside, endRun, hsame]
  have hclose (m : Nat) :
      ScanState.step options source { phase := .opening tag, templateSeen := true }
        ⟨.startTagClose, m, ['>']⟩ = (inTemplate tag (m + 1) 0 false, []) := rfl
  have hpass : Passes options source {} ⟨.content, t, 0, head.written ++ '>' :: rest⟩ [] _ _ :=
    .of_reads (.openTag head) ((Yields.of_step hname).trans (Yields.of_step (hclose _)))
  have hmarkup : Mode.afterStartTag head.name = .content :=
    RawElement.afterStartTag_of_markup fun e h => hraw e (by
      rw [sameIgnoringCase, beq_iff_eq] at h ⊢
      exact h.symm)
  have hbytes : bytes head.written + 1 = bytes (['<'] ++ tag ++ ['>']) := by
    simp [head, TagHead.written, Cursor.utf8Size_lt, Cursor.utf8Size_gt, Nat.add_assoc]
  rw [hmarkup, Nat.zero_add, hbytes] at hpass
  simpa [head, TagHead.written] using hpass

/-- The end tag of the template element completes its region. -/
lemma passes_templateEnd (htag : IsTagName tag) {t : Text} :
    Passes options source (inTemplate tag start 0 false)
      ⟨.content, t, n, ['<', '/'] ++ tag ++ ['>'] ++ rest⟩
      [trimmedBlock source options.templateLanguage start n] { templateSeen := true }
      ⟨.insideEndTag, t, n + 2 + bytes tag, '>' :: rest⟩ := by
  have hstep : (inTemplate tag start 0 false).step options source ⟨.endTag, n + 2, tag⟩
      = ({ templateSeen := true }, [trimmedBlock source options.templateLanguage start n]) := by
    simp [step, inTemplate, stepInside, closeTemplate, sameIgnoringCase]
  have hpass : Passes options source (inTemplate tag start 0 false)
      ⟨.content, t, n, '<' :: '/' :: (tag ++ '>' :: rest)⟩ _ _ _ :=
    .of_reads (.endTag htag (by simp [isNameChar])) (.of_step hstep)
  simpa using hpass

end ScanState

/-- **The template ends at the end tag that belongs to it.**  The first region of a file that begins
with the template element is its content, without the white space at either end, wherever else an
end tag of its name is written. -/
theorem scan_template (options : ScanOptions) (nodes : List TemplateNode) (rest : Text)
    (htag : IsTagName options.templateTag.toList)
    (hraw : ∀ e : RawElement, ¬ sameIgnoringCase e.name options.templateTag.toList)
    (hbalanced : TemplateNode.Balanced options.templateTag.toList nodes) :
    let tag := options.templateTag.toList
    let content := nodes.flatMap TemplateNode.written
    let before := ['<'] ++ tag ++ ['>']
    let first := bytes before + bytes (content.takeWhile isBlank)
    (scan options (before ++ (content ++ (['<', '/'] ++ tag ++ ['>'] ++ rest)))).head?
      = some (.block options.templateLanguage first (first + bytes (trim content))) := by
  intro tag content before first
  let after := ['<', '/'] ++ tag ++ ['>'] ++ rest
  let source := before ++ (content ++ after)
  have hopening : ScanState.Passes options source {} ⟨.content, [], 0, source⟩ []
      (.inTemplate tag (bytes before) 0 false) ⟨.content, tag, bytes before, content ++ after⟩ :=
    ScanState.passes_templateTag htag (beq_self_eq_true _) hraw
  have hnone : '<' ∉ ([] : Text) := by simp
  have hafter : opensMarkup after := by simp [after, opensMarkup]
  have hfits : bytes before + bytes content ≤ bytes source := by
    simp only [source, bytes_append]
    omega
  obtain ⟨t, hcontent⟩ := ScanState.exists_passes_nodes options nodes hraw hbalanced hnone hafter
    (bytes before) (bytes before) tag hfits
  have hpass := (hopening.trans hcontent).trans (ScanState.passes_templateEnd htag)
  have hscan : scan options source
      = ScanState.regions options source {} (Cursor.tokens ⟨.content, [], 0, source⟩) := rfl
  rw [hscan, hpass]
  simp only [List.nil_append, List.singleton_append, List.head?_cons]
  exact congrArg some (Scan.trimmedBlock_eq before content after options.templateLanguage)

/-- A template in which end tags of its name stand in an attribute, in a comment and in a script,
and in which an inner element of its name is ended. -/
theorem scan_template_inner_element :
    IsTagName "html".toList ∧ (∀ e : RawElement, ¬ sameIgnoringCase e.name "html".toList) ∧
      (scan {} ("<html>\n <HTML lang=\"</html>\"><!-- </html> --><html/></Html x></p>" ++
        "<script>'</html>'</script> \n</html></html>").toList).head?
          = some (.block "html" 8 91) := by
  let lang : Attribute :=
    ⟨[' '], "lang".toList, some ⟨[], [], "</html>".toList, by simp, by simp, by decide⟩, by simp,
      by simp [isMarkupBlank], by decide, List.all_eq_true.1 (by decide)⟩
  have hraw (e : RawElement) : ¬ sameIgnoringCase e.name "html".toList := by
    cases e <;> decide
  let nodes : List TemplateNode :=
    [.text "\n ".toList (by decide),
      .openTag ⟨"HTML".toList, [lang], [], by decide, by simp⟩ (fun e => by cases e <;> decide),
      .comment " </html> ".toList ⟨by decide, by decide, by decide⟩,
      .selfClosedTag ⟨"html".toList, [], [], by decide, by simp⟩,
      .endTag "Html".toList " x".toList (by decide) (by simp [isNameChar])
        (List.all_eq_true.1 (by decide)),
      .endTag "p".toList [] (by decide) (by simp) (by simp),
      .raw .script ⟨"script".toList, [], [], by decide, by simp⟩
        "'</html>'".toList (by decide) (by decide),
      .text " \n".toList (by decide)]
  have hbalanced : TemplateNode.Balanced "html".toList nodes := by
    unfold TemplateNode.Balanced
    decide +kernel
  have hscan := scan_template {} nodes "</html>".toList (by decide) hraw hbalanced
  refine ⟨by decide, hraw, ?_⟩
  have hsource : (['<'] ++ "html".toList ++ ['>']) ++ (nodes.flatMap TemplateNode.written ++
      (['<', '/'] ++ "html".toList ++ ['>'] ++ "</html>".toList))
        = ("<html>\n <HTML lang=\"</html>\"><!-- </html> --><html/></Html x></p>" ++
            "<script>'</html>'</script> \n</html></html>").toList := by
    decide +kernel
  rw [← hsource]
  exact hscan.trans (by decide +kernel)

/-- The template ends where the tokens say, and not always where a reader may think.  A script ends
where an end tag begins with its name; nothing is quoted in an end tag; what follows a start tag of
that name is a script, if it is ended at all; and a template with the name of a raw element, though
in other letters, has raw content.  In these files the content goes on to the offsets 40, 25, 14 and
22. -/
theorem template_ends_elsewhere :
    (¬ "</script>".toList <:+: "</scriptx></html>".toList ∧
      (scan {} "<html><script></scriptx></html></script></html>".toList).head?
        = some (.block "html" 6 24)) ∧
    (scan {} "<html><b></b x=\"</html>\"></html>".toList).head? = some (.block "html" 6 16) ∧
    (scan {} "<html><script></html></script>".toList).head? = none ∧
    (scan { templateTag := "STYLE" } "<STYLE><style></style></STYLE>".toList).head?
      = some (.block "html" 7 14) := by
  decide +kernel

end Mosaic
