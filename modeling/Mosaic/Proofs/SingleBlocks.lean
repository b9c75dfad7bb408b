import Mosaic.Proofs.TokenLayout

/-!
# The blocks that a file has once

A pass finds one metadata block and one template, and notes that it has.  A `<script>` may name any
language, though, also that of these two blocks, and then its content is one more block of that
language.

* `Region.IsNamedScript` tells such a block from the others by the tokens of the source: it is the
  content of a `<script>`, and the start tag before it has a `lang` that reads the language.
* `ScanState.Recalls` ties the name and the language that a pass remembers to the tokens it has
  read, `ScanState.owed` is the number of blocks of a language that it may still find by itself.
* `ScanState.own_step_le` — each block that a token completes and no script names is taken from what
  is owed.
* `template_and_metadata_once` — so a file has one block at most that is in the language of the
  template and that no script names, and the same goes for the metadata.
-/

namespace Mosaic

open Text Markup

/-! ## Blocks that a script names -/

namespace Markup

/-- The token is the name of an attribute in the last start tag among the tokens. -/
def IsNameInTag (ts : List Token) (n : Token) : Prop :=
  n.kind = .attributeName ∧ ∀ u ∈ ts, u.kind = .startTag → u.start < n.start

instance (ts : List Token) (n : Token) : Decidable (IsNameInTag ts n) :=
  inferInstanceAs (Decidable (_ ∧ _))

/-- The token `v` is the value of the attribute that `n` names: no other name stands between. -/
def IsValueOf (ts : List Token) (n v : Token) : Prop :=
  v.kind = .attributeValue ∧ n.stop ≤ v.start ∧
    ∀ u ∈ ts, u.kind = .attributeName → u.start ≤ n.start ∨ v.stop ≤ u.start

instance (ts : List Token) (n v : Token) : Decidable (IsValueOf ts n v) :=
  inferInstanceAs (Decidable (_ ∧ _))

/-- The last start tag among the tokens has an attribute `lang` whose value reads `language`. -/
def TagSays (ts : List Token) (language : String) : Prop :=
  ∃ n ∈ ts, IsNameInTag ts n ∧ sameIgnoringCase n.text ['l', 'a', 'n', 'g'] ∧
    ∃ v ∈ ts, IsValueOf ts n v ∧ Scan.langValue v.text = language

instance (ts : List Token) (language : String) : Decidable (TagSays ts language) :=
  inferInstanceAs (Decidable (∃ n ∈ ts, _))

variable {ts : List Token} {t n v : Token} {language : String}

/-- The tokens before and after one of a text are told by where they end. -/
lemma tokens_split {source : Text} {front back : List Token}
    (h : tokens source = front ++ t :: back) :
    (∀ u ∈ front, u.start < u.stop ∧ u.stop ≤ t.start) ∧ ∀ u ∈ t :: back, t.start < u.stop := by
  have hs := stream_tokens source
  have hsize : ∀ u ∈ front ++ t :: back, u.start < u.stop :=
    fun u hu => (hs.liesIn u (h ▸ hu)).start_lt_stop
  obtain ⟨-, hback, hfront⟩ := List.pairwise_append.1 (h ▸ hs.pairwise)
  refine ⟨fun u hu => ⟨hsize u (by simp [hu]), hfront u hu t (by simp)⟩, fun u hu => ?_⟩
  rcases List.mem_cons.1 hu with rfl | hu'
  · exact hsize u (by simp)
  · calc t.start < t.stop := hsize t (by simp)
      _ ≤ u.start := (List.pairwise_cons.1 hback).1 u hu'
      _ ≤ u.stop := Nat.le_add_right ..

/-- The tokens that end before one of a text starts are those read before it. -/
lemma filter_tokens {source : Text} {front back : List Token}
    (h : tokens source = front ++ t :: back) :
    (tokens source).filter (·.stop ≤ t.start) = front := by
  obtain ⟨hfront, hback⟩ := tokens_split h
  rw [h, List.filter_append, List.filter_eq_self.2, List.filter_eq_nil_iff.2, List.append_nil]
  · exact fun u hu => by simpa using hback u hu
  · exact fun u hu => by simpa using (hfront u hu).2

/-- What is no start tag leaves the names of the last one in it. -/
lemma IsNameInTag.append (h : IsNameInTag ts n) (ht : t.kind ≠ .startTag) :
    IsNameInTag (ts ++ [t]) n := by
  refine ⟨h.1, List.forall_mem_append.2 ⟨h.2, fun u hu hk => ?_⟩⟩
  exact absurd hk (List.mem_singleton.1 hu ▸ ht)

/-- What comes behind a value stands between no name and it. -/
lemma IsValueOf.append (h : IsValueOf ts n v) (ht : v.stop ≤ t.start) :
    IsValueOf (ts ++ [t]) n v := by
  refine ⟨h.1, h.2.1, List.forall_mem_append.2 ⟨h.2.2, fun u hu _ => .inr ?_⟩⟩
  exact List.mem_singleton.1 hu ▸ ht

lemma TagSays.append (h : TagSays ts language) (hbefore : ∀ u ∈ ts, u.stop ≤ t.start)
    (ht : t.kind ≠ .startTag) : TagSays (ts ++ [t]) language := by
  obtain ⟨n, hn, hname, hlang, v, hv, hvalue, hsays⟩ := h
  exact ⟨n, List.mem_append_left _ hn, hname.append ht, hlang, v, List.mem_append_left _ hv,
    hvalue.append (hbefore v hv), hsays⟩

end Markup

namespace Region

/-- The region is the content of a `<script>` whose start tag says the language of the region. -/
def IsNamedScript (source : Text) (r : Region) : Prop :=
  ∃ t ∈ tokens source, t.kind = .script ∧ t.start = r.start ∧ t.stop = r.stop ∧
    TagSays ((tokens source).filter (·.stop ≤ t.start)) r.language

instance (source : Text) (r : Region) : Decidable (r.IsNamedScript source) :=
  inferInstanceAs (Decidable (∃ t ∈ tokens source, _))

/-- The region is a block of the language, and no script has named that language for it. -/
def IsOwn (source : Text) (language : String) (r : Region) : Prop :=
  r.inAttribute = false ∧ r.language = language ∧ ¬ r.IsNamedScript source

instance (source : Text) (language : String) (r : Region) : Decidable (r.IsOwn source language) :=
  inferInstanceAs (Decidable (_ ∧ _))

end Region

/-- A style block is in a style language, whatever `lang` says. -/
lemma isStyleLanguage_styleLanguage (lang : Option String) :
    isStyleLanguage (styleLanguage lang) = true := by
  unfold styleLanguage isStyleLanguage
  split
  next l =>
    split
    next h => rw [h, Bool.or_true]
    next => simp
  next => simp

/-- A script block in a language that is no default of scripts has it from `lang`. -/
lemma eq_some_of_scriptLanguage {lang : Option String} {default : ScriptLanguage}
    {language : String} (h : scriptLanguage lang default = language)
    (hlanguage : ScriptLanguage.ofId? language = none) : lang = some language := by
  have hid : ∀ script : ScriptLanguage, script.id ≠ language := by
    rintro script rfl
    cases script <;> simp [ScriptLanguage.id, ScriptLanguage.ofId?] at hlanguage
  unfold scriptLanguage at h
  split at h
  next l =>
    split at h
    · exact absurd h (hid .ts)
    · split at h
      · exact absurd h (hid .js)
      · split at h
        · exact absurd h (hid default)
        · rw [h]
  next => exact absurd h (hid default)

/-! ## What a pass remembers of the last start tag -/

namespace ScanState

open Scan

/-- What the pass remembers of a start tag stands in the last one that it has read. -/
structure Recalls (front : List Token) (s : ScanState) : Prop where
  seen : s.phase ≠ .outside → s.templateSeen = true
  /-- The start tags in the template are not looked at. -/
  blank : s.phase ≠ .outside → s.name = none ∧ s.lang = none
  /-- The name is that of the last attribute. -/
  name : ∀ text, s.name = some text → ∃ n ∈ front, n.text = text ∧ IsNameInTag front n ∧
    ∀ u ∈ front, u.kind = .attributeName → u.start ≤ n.start
  lang : ∀ language, s.lang = some language → TagSays front language

variable {options : ScanOptions} {source : Text} {s s' : ScanState} {t : Token}
  {front back : List Token} {language : String}

lemma recalls_start : Recalls [] {} where
  seen := by simp
  blank := by simp
  name := by simp
  lang := by simp

lemma recalls_of_blank (hseen : s.phase ≠ .outside → s.templateSeen = true) (hname : s.name = none)
    (hlang : s.lang = none) : s.Recalls front :=
  ⟨hseen, fun _ => ⟨hname, hlang⟩, by simp [hname], by simp [hlang]⟩

/-- A token that is no start tag leaves what the pass remembers true, unless it adds to it. -/
lemma Recalls.append (h : s.Recalls front)
    (hbefore : ∀ u ∈ front, u.start < u.stop ∧ u.stop ≤ t.start) (ht : t.kind ≠ .startTag)
    (hp : s'.phase = .outside) (hname : s'.name = s.name ∧ t.kind ≠ .attributeName ∨ s'.name = none)
    (hlang : s'.lang = s.lang ∨ s'.lang = none) : s'.Recalls (front ++ [t]) := by
  refine ⟨absurd hp, absurd hp, fun text he => ?_, fun language he => ?_⟩
  · rcases hname with ⟨hname, hk⟩ | hname
    · obtain ⟨n, hn, htext, hin, hlast⟩ := h.name text (hname ▸ he)
      refine ⟨n, List.mem_append_left _ hn, htext, hin.append ht,
        List.forall_mem_append.2 ⟨hlast, fun u hu hu' => ?_⟩⟩
      exact absurd hu' (List.mem_singleton.1 hu ▸ hk)
    · simp [hname] at he
  · rcases hlang with hlang | hlang
    · exact (h.lang language (hlang ▸ he)).append (fun u hu => (hbefore u hu).2) ht
    · simp [hlang] at he

/-- In the template only the phase changes. -/
lemma Recalls.inTemplate (h : s.Recalls front) (hp : s.phase ≠ .outside) (phase : Phase)
    (ts : List Token) : { s with phase }.Recalls ts :=
  recalls_of_blank (fun _ => h.seen hp) (h.blank hp).1 (h.blank hp).2

/-- A run of loose text says nothing of a tag. -/
lemma Recalls.endRun (h : s.Recalls front) : s.endRun.1.Recalls front := by
  rw [endRun_fst]
  exact ⟨h.seen, h.blank, h.name, h.lang⟩

lemma recalls_stepOutside (options : ScanOptions) (h : s.Recalls front)
    (hbefore : ∀ u ∈ front, u.start < u.stop ∧ u.stop ≤ t.start) (hp : s.phase = .outside) :
    (s.stepOutside options t).1.Recalls (front ++ [t]) := by
  unfold stepOutside
  cases hk : t.kind with
  | startTag =>
    simp only
    split
    · exact recalls_of_blank (fun _ => rfl) rfl rfl
    · exact recalls_of_blank (absurd hp) rfl rfl
  | attributeName =>
    have hkeep : { s with name := none }.Recalls (front ++ [t]) :=
      h.append hbefore (by simp [hk]) hp (.inr rfl) (.inl rfl)
    have hstart : ∀ u ∈ front, u.start < t.start :=
      fun u hu => (hbefore u hu).1.trans_le (hbefore u hu).2
    refine ⟨absurd hp, absurd hp, fun text he => ?_, hkeep.lang⟩
    refine ⟨t, by simp, Option.some.inj he, ⟨hk, List.forall_mem_append.2 ⟨?_, ?_⟩⟩,
      List.forall_mem_append.2 ⟨fun u hu _ => (hstart u hu).le, by simp⟩⟩
    · exact fun u hu _ => hstart u hu
    · simp [hk]
  | attributeValue =>
    simp only
    split
    · exact h.append hbefore (by simp [hk]) hp (.inl ⟨rfl, by simp [hk]⟩) (.inl rfl)
    next name hname =>
      have hkeep : { s with name := none }.Recalls (front ++ [t]) :=
        h.append hbefore (by simp [hk]) hp (.inr rfl) (.inl rfl)
      split
      next hlang =>
        refine ⟨hkeep.seen, absurd hp, hkeep.name, fun language he => ?_⟩
        obtain ⟨n, hn, rfl, hin, hlast⟩ := h.name name hname
        refine ⟨n, List.mem_append_left _ hn, hin.append (by simp [hk]), hlang, t, by simp,
          ⟨hk, (hbefore n hn).2, List.forall_mem_append.2 ⟨?_, by simp [hk]⟩⟩, Option.some.inj he⟩
        exact fun u hu hu' => .inl (hlast u hu hu')
      next => exact hkeep
  | startTagClose => exact h.append hbefore (by simp [hk]) hp (.inr rfl) (.inl rfl)
  | startTagSelfClose => exact recalls_of_blank (absurd hp) rfl rfl
  | endTag | styles | script =>
    exact h.append hbefore (by simp [hk]) hp (.inl ⟨rfl, by simp [hk]⟩) (.inr rfl)
  | endTagClose | other =>
    exact h.append hbefore (by simp [hk]) hp (.inl ⟨rfl, by simp [hk]⟩) (.inl rfl)

/-- The content of the template goes on after a token, or the token ends it. -/
def ContentStep (options : ScanOptions) (source : Text) (s : ScanState)
    (out : ScanState × List Region) : Prop :=
  (∃ tag start nested sameName,
      out = ({ s with phase := .inside tag start nested sameName }, [])) ∨
    ∃ start stop,
      out = ({ s with phase := .outside },
        [trimmedBlock source options.templateLanguage start stop])

lemma contentStep_stepInside (options : ScanOptions) (source : Text) (t : Token) {tag : Text}
    {start nested : Nat} {sameName : Bool} (hp : s.phase = .inside tag start nested sameName) :
    ContentStep options source s (s.stepInside options source tag start nested sameName t) := by
  have same : ContentStep options source s (s, []) :=
    .inl ⟨tag, start, nested, sameName, by rw [← hp]⟩
  have closes (stop : Nat) : ContentStep options source s
      (s.closeTemplate options source tag start nested sameName stop) := by
    cases nested with
    | zero => exact .inr ⟨_, _, rfl⟩
    | succ n => exact .inl ⟨_, _, _, _, rfl⟩
  unfold stepInside
  split
  next =>
    split
    · exact .inl ⟨_, _, _, _, rfl⟩
    · exact .inl ⟨_, _, _, _, rfl⟩
  next => exact .inl ⟨_, _, _, _, rfl⟩
  next => exact .inl ⟨_, _, _, _, rfl⟩
  next =>
    split
    · exact closes _
    · exact same
  iterate 3
    next =>
      split
      · exact closes _
      · exact same
  next => exact same

/-- **Each token leaves what the pass remembers true** of the tokens up to it. -/
theorem recalls_step (options : ScanOptions) (source : Text) (h : s.Recalls front)
    (hbefore : ∀ u ∈ front, u.start < u.stop ∧ u.stop ≤ t.start) :
    (s.step options source t).1.Recalls (front ++ [t]) := by
  unfold step
  split
  next hp =>
    split
    next hk =>
      -- text that joins the run is no part of a tag
      unfold extendRun
      split
      · exact h.append hbefore (by simp [hk.1]) hp (.inl ⟨rfl, by simp [hk.1]⟩) (.inl rfl)
      · exact h.append hbefore (by simp [hk.1]) hp (.inl ⟨rfl, by simp [hk.1]⟩) (.inl rfl)
    next =>
      exact recalls_stepOutside options h.endRun hbefore (by rw [endRun_fst, hp])
  next tag hp =>
    have hout : s.phase ≠ .outside := by simp [hp]
    unfold stepOpening
    split
    · exact h.inTemplate hout _ _
    · exact h.inTemplate hout _ _
    · exact h.inTemplate hout s.phase _
  next tag start nested sameName hp =>
    have hout : s.phase ≠ .outside := by simp [hp]
    rcases contentStep_stepInside options source t hp with ⟨_, _, _, _, he⟩ | ⟨_, _, he⟩
    · exact he ▸ h.inTemplate hout _ _
    · exact he ▸ h.inTemplate hout _ _

/-! ## What a pass may still find -/

/-- The number of blocks of a language that the pass may still find, those of scripts apart. -/
def owed (options : ScanOptions) (language : String) (s : ScanState) : Nat :=
  (if language = metadataLanguage ∧ ¬ s.metadataSeen then 1 else 0) +
    if language = options.templateLanguage ∧ ¬ (s.templateSeen ∧ s.phase = .outside) then 1 else 0

/-- How many of the regions are blocks of the language that no script names. -/
def ownCount (source : Text) (language : String) (rs : List Region) : Nat :=
  rs.countP fun r => r.IsOwn source language

lemma ownCount_append (source : Text) (language : String) (rs rs' : List Region) :
    ownCount source language (rs ++ rs') =
      ownCount source language rs + ownCount source language rs' :=
  List.countP_append

lemma ownCount_eq_zero {rs : List Region} (h : ∀ r ∈ rs, ¬ r.IsOwn source language) :
    ownCount source language rs = 0 :=
  List.countP_eq_zero.2 fun r hr => by simpa using h r hr

/-- One region counts once at most, and not at all if it is in another language. -/
lemma ownCount_singleton_le (source : Text) (language : String) (r : Region) :
    ownCount source language [r] ≤ if language = r.language then 1 else 0 := by
  split
  next => exact List.countP_le_length
  next hne =>
    refine (ownCount_eq_zero fun r' hr' hown => hne ?_).le
    rw [← hown.2.1, List.mem_singleton.1 hr']

/-- The metadata block that a run may be is the one owed. -/
lemma own_endRun_le (options : ScanOptions) (source : Text) (language : String) (s : ScanState) :
    ownCount source language s.endRun.2 + owed options language s.endRun.1 ≤
      owed options language s := by
  unfold endRun
  split
  next => simp [ownCount]
  next =>
    split
    next => simp [ownCount, owed]
    next hseen =>
      split
      next => simp [ownCount, owed]
      next r hr =>
        have hone := ownCount_singleton_le source language r
        have hlanguage : r.language = metadataLanguage := by
          simp only [metadataBlock?, Option.ite_none_left_eq_some, Option.some.injEq] at hr
          exact hr.2 ▸ rfl
        rw [hlanguage] at hone
        simpa [owed, hseen] using hone

/-- A script block in a language that is no default of scripts is named. -/
lemma isNamedScript_script (h : s.Recalls front) (hts : tokens source = front ++ t :: back)
    (hk : t.kind = .script) (hscript : ScriptLanguage.ofId? language = none)
    (hlanguage : scriptLanguage s.lang options.scriptLanguage = language) :
    (Region.block language t.start t.stop).IsNamedScript source := by
  have hlang := h.lang language (eq_some_of_scriptLanguage hlanguage hscript)
  refine ⟨t, by simp [hts], hk, rfl, rfl, ?_⟩
  rw [filter_tokens hts]
  exact hlang

lemma inAttribute_attributeRegion {name : Text} {r : Region}
    (h : attributeRegion? options name t = some r) : r.inAttribute = true := by
  unfold attributeRegion? at h
  split at h
  next =>
    rw [Option.ite_none_left_eq_some] at h
    exact Option.some.inj h.2 ▸ rfl
  next => contradiction

/-- Outside the template the pass finds attribute values, blocks in style languages, and blocks in
script languages or named ones. -/
lemma not_isOwn_stepOutside (options : ScanOptions) (h : s.Recalls front)
    (hts : tokens source = front ++ t :: back) (hstyle : isStyleLanguage language = false)
    (hscript : ScriptLanguage.ofId? language = none) :
    ∀ r ∈ (s.stepOutside options t).2, ¬ r.IsOwn source language := by
  rintro r hr ⟨hattribute, hlanguage, hnamed⟩
  unfold stepOutside at hr
  cases hk : t.kind with
  | startTag =>
    simp only [hk] at hr
    split at hr
    · simp at hr
    · simp at hr
  | attributeValue =>
    simp only [hk] at hr
    split at hr
    · simp at hr
    next name _ =>
      split at hr
      · simp at hr
      · simp [inAttribute_attributeRegion (Option.mem_toList.1 hr)] at hattribute
  | styles =>
    obtain rfl : r = .block (styleLanguage s.lang) t.start t.stop := by simpa [hk] using hr
    obtain rfl : styleLanguage s.lang = language := hlanguage
    exact absurd (isStyleLanguage_styleLanguage s.lang) (by simp [hstyle])
  | script =>
    obtain rfl : r = .block (scriptLanguage s.lang options.scriptLanguage) t.start t.stop := by
      simpa [hk] using hr
    obtain rfl : scriptLanguage s.lang options.scriptLanguage = language := hlanguage
    exact hnamed (isNamedScript_script h hts hk hscript rfl)
  | attributeName | startTagClose | startTagSelfClose | endTag | endTagClose | other =>
    simp [hk] at hr

/-- Outside the template nothing more comes to be owed. -/
lemma owed_stepOutside_le (options : ScanOptions) (language : String) (s : ScanState)
    (t : Token) :
    owed options language (s.stepOutside options t).1 ≤ owed options language s := by
  unfold stepOutside
  split
  next =>
    simp only
    split
    next hk => simp [owed, hk.2.1]
    next => exact le_rfl
  next => exact le_rfl
  next =>
    split
    next => exact le_rfl
    next =>
      simp only
      split
      · exact le_rfl
      · exact le_rfl
  all_goals exact le_rfl

/-- **Each block of its own that a token completes is taken from what is owed.** -/
theorem own_step_le (options : ScanOptions) (h : s.Recalls front)
    (hts : tokens source = front ++ t :: back) (hstyle : isStyleLanguage language = false)
    (hscript : ScriptLanguage.ofId? language = none) :
    ownCount source language (s.step options source t).2 +
        owed options language (s.step options source t).1 ≤ owed options language s := by
  unfold step
  split
  next hp =>
    split
    next =>
      unfold extendRun
      split
      · simp [ownCount, owed]
      · simp [ownCount, owed]
    next =>
      have hmetadata := own_endRun_le options source language s
      have hnone := ownCount_eq_zero (not_isOwn_stepOutside options h.endRun hts hstyle hscript)
      have howed := owed_stepOutside_le options language s.endRun.1 t
      simp only [ownCount_append]
      omega
  next tag hp =>
    have hseen := h.seen (by simp [hp])
    unfold stepOpening
    split
    · simp [ownCount, owed, hp]
    · simp [ownCount, owed, hseen]
    · simp [ownCount]
  next tag start nested sameName hp =>
    have hseen := h.seen (by simp [hp])
    rcases contentStep_stepInside options source t hp with ⟨_, _, _, _, he⟩ | ⟨first, stop, he⟩
    · simp [he, ownCount, owed, hp]
    · have hone := ownCount_singleton_le source language
        (trimmedBlock source options.templateLanguage first stop)
      rw [show (trimmedBlock source options.templateLanguage first stop).language =
        options.templateLanguage from rfl] at hone
      rw [he, Nat.add_comm]
      simpa [owed, hp, hseen] using hone

/-- **A pass finds no more blocks of its own than are owed.** -/
theorem own_regions_le (options : ScanOptions) (ts : List Token) (h : s.Recalls front)
    (hts : tokens source = front ++ ts) (hstyle : isStyleLanguage language = false)
    (hscript : ScriptLanguage.ofId? language = none) :
    ownCount source language (s.regions options source ts) ≤ owed options language s := by
  induction ts generalizing s front with
  | nil =>
    exact (Nat.le_add_right ..).trans (own_endRun_le options source language s)
  | cons t ts ih =>
    have hstep := own_step_le options h hts hstyle hscript
    have hrest := ih (recalls_step options source h (tokens_split hts).1) (by simp [hts])
    simp only [regions, ownCount_append]
    omega

end ScanState

/-! ## The regions of a file -/

/-- **A file has one template and one metadata block, besides what its scripts name so.**  In either
language it has at most one block more than there are scripts that name the language, and so have
the documents that are put together from it; where no script names it, they have one part at
most. -/
theorem template_and_metadata_once (tag : String) (script : ScriptLanguage) (source : Text)
    (language : String) (hlanguage : language ∈ [templateLanguage, metadataLanguage]) :
    let options : ScanOptions := { templateTag := tag, scriptLanguage := script }
    let blocks := (scan options source).filter fun r => !r.inAttribute && r.language == language
    let named := blocks.filter fun r => r.IsNamedScript source
    blocks.length ≤ named.length + 1 ∧
      ∀ uri id version e, Embedded.Of (.ofText options uri id version source) e →
        e.language = language → e.segments.length ≤ named.length + 1 := by
  intro options blocks named
  have howed : ScanState.owed options language {} ≤ 1 := by
    rcases List.mem_pair.1 hlanguage with rfl | rfl
    · simp [ScanState.owed, options, templateLanguage, metadataLanguage]
    · simp [ScanState.owed, options, templateLanguage, metadataLanguage]
  have hown : ScanState.ownCount source language (scan options source) ≤ 1 := by
    refine (ScanState.own_regions_le options (tokens source) ScanState.recalls_start rfl
      ?_ ?_).trans howed
    · rcases List.mem_pair.1 hlanguage with rfl | rfl <;> decide
    · rcases List.mem_pair.1 hlanguage with rfl | rfl <;> decide
  have hrest : (blocks.filter fun r => !decide (r.IsNamedScript source)).length =
      ScanState.ownCount source language (scan options source) := by
    rw [← List.countP_eq_length_filter, List.countP_filter]
    refine List.countP_congr fun r _ => ?_
    rw [decide_eq_true_iff]
    simp only [Region.IsOwn, Bool.and_eq_true, Bool.not_eq_true', beq_iff_eq,
      decide_eq_false_iff_not]
    tauto
  have hblocks : blocks.length ≤ named.length + 1 := by
    rw [blocks.length_eq_length_filter_add fun r => decide (r.IsNamedScript source), hrest]
    exact Nat.add_le_add_left hown _
  refine ⟨hblocks, fun uri id version e he hl => ?_⟩
  rcases he with ⟨language', rfl⟩ | ⟨r, -, rfl⟩
  · obtain rfl : language' = language := hl
    have hsegments := congrArg List.length (Embedded.map_region_segmentsFrom source 0 blocks)
    rw [List.length_map] at hsegments
    exact hsegments.le.trans hblocks
  · simp [Embedded.ofRegion]

/-- A second run between dashes is no metadata block. -/
theorem template_and_metadata_once_two_runs :
    let source : Text := "---\na: 1\n---<html>a</html>---\nb: 2\n---".toList
    let file := Snapshot.ofText {} "file:///a" "sfc" 1 source
    metadataLanguage ∈ [templateLanguage, metadataLanguage] ∧
      (Embedded.ofLanguage file metadataLanguage).segments.length ≤ 1 := by
  intro source file
  have hlanguage : metadataLanguage ∈ [templateLanguage, metadataLanguage] := by decide
  have hnone : (((scan {} source).filter fun r => !r.inAttribute && r.language == metadataLanguage)
      |>.filter fun r => r.IsNamedScript source) = [] := by decide +kernel
  have hdoc := (template_and_metadata_once "html" .js source metadataLanguage hlanguage).2
    "file:///a" "sfc" 1 (Embedded.ofLanguage file metadataLanguage) (.inl ⟨_, rfl⟩) rfl
  rw [hnone] at hdoc
  exact ⟨hlanguage, hdoc⟩

/-- A script that names the language of the template, or of the metadata, gives a second block of
that language. -/
theorem script_joins_template :
    let template : Text := "<html>a</html><script lang=\"html\">b</script>".toList
    let metadata : Text := "---\na: 1\n---<script lang=\"yml\">b</script>".toList
    scan {} template = [.block "html" 6 7, .block "html" 34 35] ∧
      (Region.block "html" 34 35).IsNamedScript template ∧
      (Embedded.ofLanguage (.ofText {} "file:///a" "sfc" 1 template) "html").segments.length = 2 ∧
      scan {} metadata = [.block "yml" 3 9, .block "yml" 31 32] ∧
      (Embedded.ofLanguage (.ofText {} "file:///a" "sfc" 1 metadata) "yml").segments.length
        = 2 := by
  decide +kernel

end Mosaic
