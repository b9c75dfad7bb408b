import Mosaic.Proofs.RegionPlace
import Mosaic.Document.Embedded

/-!
# Regions never touch

Regions are found in six places of a pass over the tokens, and some long after their text was read:
the metadata block when its run of loose text ends, the block of the template when its end tag
comes.  `ScanState.Fits` ties what the pass remembers to the tokens read so far, and
`ScanState.anchor` is the offset before which it finds no region any more.

* `ScanState.fits_step` — every token keeps the state fitting, and the regions it completes lie
  between the old anchor and the new one.
* `scan_spaced` — the regions of a text lie in it, one behind the other, and never touch.
* `regions_never_touch` — an offset is in one region at most, so that neither the region at an
  offset nor the local offset of an embedded document depends on an order of search.
-/

namespace Mosaic

open Text Markup

/-! ## Spaced regions -/

/-- The regions lie in the source one behind the other, from the offset `lo` on and all before `hi`.
The end of a region belongs to it, so that the next one starts later. -/
def Spaced (source : Text) : Nat → List Region → Nat → Prop
  | lo, [], hi => lo ≤ hi
  | lo, r :: rs, hi => r.LiesIn source ∧ lo ≤ r.start ∧ Spaced source (r.stop + 1) rs hi

namespace Spaced

variable {source : Text} {rs rs' : List Region} {lo mid hi : Nat}

lemma nil (h : lo ≤ hi) : Spaced source lo [] hi := h

lemma single {r : Region} (hr : r.LiesIn source) (h : lo ≤ r.start) (h' : r.stop < hi) :
    Spaced source lo [r] hi :=
  ⟨hr, h, h'⟩

lemma mono {lo' : Nat} (h : Spaced source lo rs hi) (hlo : lo' ≤ lo) : Spaced source lo' rs hi := by
  cases rs with
  | nil => exact hlo.trans h
  | cons r rs => exact ⟨h.1, hlo.trans h.2.1, h.2.2⟩

lemma append (h : Spaced source lo rs mid) (h' : Spaced source mid rs' hi) :
    Spaced source lo (rs ++ rs') hi := by
  induction rs generalizing lo with
  | nil => exact h'.mono h
  | cons r rs ih => exact ⟨h.1, h.2.1, ih h.2.2⟩

lemma liesIn (h : Spaced source lo rs hi) : ∀ r ∈ rs, r.LiesIn source := by
  induction rs generalizing lo with
  | nil => exact fun r hr => absurd hr (by simp)
  | cons r rs ih =>
    rw [List.forall_mem_cons]
    exact ⟨h.1, ih h.2.2⟩

lemma lo_le (h : Spaced source lo rs hi) : ∀ r ∈ rs, lo ≤ r.start := by
  induction rs generalizing lo with
  | nil => exact fun r hr => absurd hr (by simp)
  | cons r rs ih =>
    rw [List.forall_mem_cons]
    refine ⟨h.2.1, fun s hs => ?_⟩
    have h1 := h.1.start_le_stop
    have h2 := ih h.2.2 s hs
    have h3 := h.2.1
    omega

/-- Each region ends before all later ones start. -/
theorem pairwise (h : Spaced source lo rs hi) : rs.Pairwise fun r s => r.stop < s.start := by
  induction rs generalizing lo with
  | nil => exact List.Pairwise.nil
  | cons r rs ih => exact List.Pairwise.cons h.2.2.lo_le (ih h.2.2)

end Spaced

/-! ## What a pass remembers -/

namespace ScanState

open Scan

/-- No region that is found later starts before this offset. -/
def anchor (s : ScanState) (w : Trail) : Nat :=
  match s.phase, s.run with
  | .inside _ start _ _, _ => start
  | _, some (start, _) => start
  | _, none => w.stop

/-- What the pass remembers is true of the tokens read so far. -/
structure Fits (source : Text) (s : ScanState) (w : Trail) : Prop where
  /-- Loose text outside every element is outside every tag. -/
  outside : s.phase = .outside → s.depth = 0 → w.inTag = false
  run : ∀ start text, s.run = some (start, text) →
    s.phase = .outside ∧ s.depth = 0 ∧ w.loose ∧
      ∃ before after, source = before ++ (text ++ after) ∧ bytes before = start ∧
        start + bytes text = w.stop
  content : ∀ tag start nested sameName, s.phase = .inside tag start nested sameName →
    IsBoundary source start ∧ start ≤ w.stop

/-- One token keeps the state fitting and finds its regions between the anchors. -/
def StepFits (source : Text) (w : Trail) (lo : Nat) (t : Token)
    (out : ScanState × List Region) : Prop :=
  out.1.Fits source (w.after t) ∧ Spaced source lo out.2 (out.1.anchor (w.after t))

variable {options : ScanOptions} {source : Text} {s : ScanState} {w : Trail} {t : Token}

lemma fits_start (source : Text) : Fits source {} .start where
  outside := fun _ _ => rfl
  run := nofun
  content := nofun

end ScanState

namespace Markup

lemma Token.LiesIn.start_lt_stop {source : Text} {t : Token} (h : t.LiesIn source) :
    t.start < t.stop :=
  Nat.lt_add_of_pos_right (bytes_pos h.nonempty)

lemma Trail.stop_le_after (w : Trail) (t : Token) : t.stop ≤ (w.after t).stop := by
  simp only [Trail.after]
  split <;> omega

end Markup

namespace ScanState

open Scan

variable {options : ScanOptions} {source : Text} {s : ScanState} {w : Trail} {t : Token}

/-! ## Outside the template -/

/-- A run of loose text that is joined by more of it. -/
lemma fits_extendRun (h : s.Fits source w) (ht : w.Allows source t) (hp : s.phase = .outside)
    (hd : s.depth = 0) (hk : t.kind = .other) :
    StepFits source w (s.anchor w) t (s.extendRun t, []) := by
  have hin := h.outside hp hd
  have hloose : (w.after t).loose := by simp [Trail.after, hk]
  have hstop : (w.after t).stop = t.stop := by simp [Trail.after, hk]
  have hout : (w.after t).inTag = false := by simp [Trail.after, Trail.staysInTag, hk, hin]
  obtain ⟨before, after, hs, hb, -⟩ := ht.lies.located
  cases hrun : s.run with
  | none =>
    have hext : s.extendRun t = { s with run := some (t.start, t.text) } := by
      simp [extendRun, hrun]
    rw [hext]
    refine ⟨⟨fun _ _ => hout, ?_, ?_⟩, ?_⟩
    · rintro start text ⟨rfl, rfl⟩
      exact ⟨hp, hd, hloose, before, after, hs, hb, hstop.symm⟩
    · intro tag start nested sameName he
      simp [hp] at he
    · simp only [anchor, hp, hrun]
      exact ht.stop_le
  | some p =>
    obtain ⟨start, text⟩ := p
    obtain ⟨-, -, hl, before', after', hs', hb', hend⟩ := h.run start text hrun
    have hjoin : t.start = w.stop := ht.joined hl hk hin
    have hext : s.extendRun t = { s with run := some (start, text ++ t.text) } := by
      simp [extendRun, hrun]
    rw [hext]
    refine ⟨⟨fun _ _ => hout, ?_, ?_⟩, ?_⟩
    · rintro start text ⟨rfl, rfl⟩
      refine ⟨hp, hd, hloose, before', after, ?_, hb', ?_⟩
      · -- both texts in front of the token are the cut at its start
        have hcut : before = before' ++ text := by
          rw [← takeBytes_bytes_append before (t.text ++ after), ← hs, hs', hb, hjoin, ← hend,
            ← hb', ← bytes_append, ← List.append_assoc, takeBytes_bytes_append]
        rw [hs, hcut]
        simp
      · rw [hstop, Token.stop, hjoin, ← hend, bytes_append, Nat.add_assoc]
    · intro tag start nested sameName he
      simp [hp] at he
    · simp [anchor, hp, hrun, Spaced]

/-- The end of a run of loose text changes nothing but the run. -/
lemma endRun_fst (s : ScanState) :
    s.endRun.1 = { s with run := none, metadataSeen := s.endRun.1.metadataSeen } := by
  unfold endRun
  split
  next h => rw [← h]
  next =>
    split
    · rfl
    · split <;> rfl

/-- The metadata block that a run of loose text may be lies in it. -/
lemma spaced_endRun (h : s.Fits source w) (hp : s.phase = .outside) :
    Spaced source (s.anchor w) s.endRun.2 w.stop := by
  unfold endRun anchor
  rw [hp]
  cases hrun : s.run with
  | none => exact .nil (Nat.le_refl _)
  | some p =>
    obtain ⟨start, text⟩ := p
    obtain ⟨-, -, -, before, after, hs, hb, hend⟩ := h.run start text hrun
    have hle : start ≤ w.stop := by omega
    simp only
    split
    · exact .nil hle
    · split
      · exact .nil hle
      next r hr =>
        obtain ⟨hl, h1, h2⟩ := metadataBlock_liesIn hs hb hr
        exact .single hl h1 (by omega)

/-- Outside the content of the template and without a run, regions are found up to the token read
last. -/
lemma stepFits_of_no_run {lo : Nat} {s' : ScanState} {found : List Region}
    (hp : ∀ tag start nested sameName, s'.phase ≠ .inside tag start nested sameName)
    (hrun : s'.run = none)
    (hout : s'.phase = .outside → s'.depth = 0 → w.staysInTag t = false)
    (hs : Spaced source lo found (w.after t).stop) : StepFits source w lo t (s', found) := by
  refine ⟨⟨hout, ?_, ?_⟩, ?_⟩
  · intro start text he
    simp [hrun] at he
  · intro tag start nested sameName he
    exact absurd he (hp tag start nested sameName)
  · have ha : s'.anchor (w.after t) = (w.after t).stop := by
      unfold anchor
      split
      next he => exact absurd he (hp _ _ _ _)
      next he _ => simp [hrun] at he
      next => rfl
    rwa [ha]

lemma Trail.Allows.stop_le_after (ht : w.Allows source t) : w.stop ≤ (w.after t).stop := by
  have h1 := ht.stop_le
  have h2 := ht.lies.start_lt_stop
  have h3 := w.stop_le_after t
  omega

/-- A token outside the template element that is no part of a run. -/
lemma fits_stepOutside (options : ScanOptions) (h : s.Fits source w) (ht : w.Allows source t)
    (hp : s.phase = .outside)
    (hrun : s.run = none) (hk : ¬ (t.kind = .other ∧ s.depth = 0)) :
    StepFits source w w.stop t (s.stepOutside options t) := by
  have hle : w.stop ≤ (w.after t).stop := Trail.Allows.stop_le_after ht
  have hstop := w.stop_le_after t
  have hlies := ht.lies
  have hout := h.outside hp
  unfold stepOutside
  cases hkind : t.kind with
  | startTag =>
    simp only
    split
    · exact stepFits_of_no_run (by simp) hrun (by simp) (.nil hle)
    · exact stepFits_of_no_run (by simp [hp]) hrun (by simp) (.nil hle)
  | attributeName =>
    exact stepFits_of_no_run (by simp [hp]) hrun
      (fun _ hd => by simpa [Trail.staysInTag, hkind] using hout hd) (.nil hle)
  | attributeValue =>
    have hin : s.depth = 0 → w.staysInTag t = false :=
      fun hd => by simpa [Trail.staysInTag, hkind] using hout hd
    simp only
    split
    · exact stepFits_of_no_run (by simp [hp]) hrun (fun _ => hin) (.nil hle)
    next name _ =>
      split
      · exact stepFits_of_no_run (by simp [hp]) hrun (fun _ => hin) (.nil hle)
      · refine stepFits_of_no_run (by simp [hp]) hrun (fun _ => hin) ?_
        cases hr : attributeRegion? options name t with
        | none => exact .nil hle
        | some r =>
          obtain ⟨hl, h1, h2⟩ := attributeRegion_liesIn hlies hkind hr
          have h3 := ht.stop_le
          exact .single hl (by omega) (by omega)
  | startTagClose =>
    exact stepFits_of_no_run (by simp [hp]) hrun (by simp [Trail.staysInTag, hkind]) (.nil hle)
  | startTagSelfClose =>
    exact stepFits_of_no_run (by simp [hp]) hrun (by simp [Trail.staysInTag, hkind]) (.nil hle)
  | endTag =>
    exact stepFits_of_no_run (by simp [hp]) hrun (by simp [Trail.staysInTag, hkind]) (.nil hle)
  | endTagClose =>
    exact stepFits_of_no_run (by simp [hp]) hrun (by simp [Trail.staysInTag, hkind]) (.nil hle)
  | other =>
    refine stepFits_of_no_run (by simp [hp]) hrun (fun _ hd => ?_) (.nil hle)
    exact absurd ⟨hkind, hd⟩ hk
  | styles =>
    refine stepFits_of_no_run (by simp [hp]) hrun (by simp [Trail.staysInTag, hkind]) ?_
    exact .single (block_liesIn _ hlies) ht.stop_le (by simp [Trail.after, hkind, Region.block])
  | script =>
    refine stepFits_of_no_run (by simp [hp]) hrun (by simp [Trail.staysInTag, hkind]) ?_
    exact .single (block_liesIn _ hlies) ht.stop_le (by simp [Trail.after, hkind, Region.block])

/-! ## In the template -/

/-- Only outside the template element loose text is collected. -/
lemma Fits.run_eq_none (h : s.Fits source w) (hp : s.phase ≠ .outside) : s.run = none := by
  cases hrun : s.run with
  | none => rfl
  | some p => exact absurd (h.run p.1 p.2 hrun).1 hp

/-- The content of the template goes on. -/
lemma stepFits_inside {tag : Text} {start nested : Nat} {sameName : Bool} {s' : ScanState}
    (hp : s'.phase = .inside tag start nested sameName) (hrun : s'.run = none)
    (hs : IsBoundary source start) (hle : start ≤ (w.after t).stop) {lo : Nat} (hlo : lo ≤ start) :
    StepFits source w lo t (s', []) := by
  refine ⟨⟨?_, ?_, ?_⟩, ?_⟩
  · intro he
    simp [hp] at he
  · intro start text he
    simp [hrun] at he
  · intro tag' start' nested' sameName' he
    rw [hp] at he
    cases he
    exact ⟨hs, hle⟩
  · simpa [anchor, hp] using Spaced.nil hlo

lemma fits_stepOpening {tag : Text} (h : s.Fits source w) (ht : w.Allows source t)
    (hp : s.phase = .opening tag) :
    StepFits source w (s.anchor w) t (s.stepOpening tag t) := by
  have hrun : s.run = none := h.run_eq_none (by simp [hp])
  have hle : w.stop ≤ (w.after t).stop := Trail.Allows.stop_le_after ht
  have ha : s.anchor w = w.stop := by simp [anchor, hp, hrun]
  rw [ha]
  unfold stepOpening
  split
  next =>
    obtain ⟨before, after, rfl, hb, -⟩ := ht.lies.located
    have h1 := ht.stop_le
    have h2 := ht.lies.start_lt_stop
    have hb' : IsBoundary (before ++ (t.text ++ after)) t.stop :=
      ⟨before ++ t.text, after, by simp, by rw [bytes_append, hb]; rfl⟩
    have hlo : w.stop ≤ t.stop := by omega
    exact stepFits_inside rfl (by exact hrun) hb' (w.stop_le_after t) hlo
  next hk => exact stepFits_of_no_run (by simp) hrun (by simp [Trail.staysInTag, hk]) (.nil hle)
  next => exact stepFits_of_no_run (by simp [hp]) hrun (by simp [hp]) (.nil hle)

/-- An end tag of the template element, which may close the template. -/
lemma fits_closeTemplate {tag : Text} {start nested stop : Nat} {sameName : Bool}
    (hrun : s.run = none) (hs : IsBoundary source start) (he : IsBoundary source stop)
    (hstart : start < (w.after t).stop) (hstop : stop < (w.after t).stop)
    (hin : w.staysInTag t = false) :
    StepFits source w start t (s.closeTemplate options source tag start nested sameName stop) := by
  cases nested with
  | zero =>
    obtain ⟨hl, h1, h2⟩ := trimmedBlock_liesIn options.templateLanguage hs he
    have h3 : max start stop < (w.after t).stop := max_lt hstart hstop
    exact stepFits_of_no_run (by simp) hrun (fun _ _ => hin) (.single hl h1 (by omega))
  | succ n => exact stepFits_inside rfl (by exact hrun) hs hstart.le (Nat.le_refl _)

/-- An end tag in text that is no markup to the tokenizer is a part of the token. -/
lemma endTagOffset?_eq_some {name text : Text} {n : Nat} (h : endTagOffset? name text = some n) :
    ∃ a b, text = a ++ '<' :: b ∧ bytes a = n := by
  simp only [endTagOffset?, List.isEmpty_iff, Option.ite_none_left_eq_some, Option.some.injEq] at h
  obtain ⟨hne, hn⟩ := h
  have happ := breakAt_append (startsWithEndTag name) text
  have hfound := (breakAt_snd (startsWithEndTag name) text).resolve_left hne
  unfold startsWithEndTag at hfound
  split at hfound
  next r hr => exact ⟨_, _, by rw [← hr]; exact happ.symm, hn⟩
  next => exact absurd hfound (by simp)

/-- Loose text with an end tag of the template, or raw content with one, leaves every start tag. -/
lemma looseEndTag?_eq_some {tag : Text} {n : Nat} (h : looseEndTag? source tag t = some n) :
    (∃ a b, t.text = a ++ '<' :: b ∧ bytes a = n) ∧ w.staysInTag t = false := by
  unfold looseEndTag? at h
  split at h
  next hk =>
    rw [Option.ite_none_left_eq_some] at h
    obtain ⟨a, b, ht, hn⟩ := endTagOffset?_eq_some h.2
    exact ⟨⟨a, b, ht, hn⟩, by simp [Trail.staysInTag, hk, ht]⟩
  next hk =>
    rw [Option.ite_none_right_eq_some] at h
    exact ⟨endTagOffset?_eq_some h.2, by simp [Trail.staysInTag, hk]⟩
  next hk =>
    rw [Option.ite_none_right_eq_some] at h
    exact ⟨endTagOffset?_eq_some h.2, by simp [Trail.staysInTag, hk]⟩
  next => contradiction

/-- A token in the content of the template element. -/
lemma fits_stepInside {tag : Text} {start nested : Nat} {sameName : Bool} (h : s.Fits source w)
    (ht : w.Allows source t) (hp : s.phase = .inside tag start nested sameName) :
    StepFits source w (s.anchor w) t (s.stepInside options source tag start nested sameName t) := by
  have hrun : s.run = none := h.run_eq_none (by simp [hp])
  obtain ⟨hs, hle⟩ := h.content tag start nested sameName hp
  have ha : s.anchor w = start := by simp [anchor, hp]
  obtain ⟨before, after, hsource, hb, hopen⟩ := ht.lies.located
  have hstart : start ≤ t.start := hle.trans ht.stop_le
  have hlt := ht.lies.start_lt_stop
  have hstop := w.stop_le_after t
  rw [ha]
  have goesOn : StepFits source w start t (s, []) :=
    stepFits_inside hp hrun hs (by omega) (Nat.le_refl _)
  have ends (n : Nat) (hn : looseEndTag? source tag t = some n) : StepFits source w start t
      (s.closeTemplate options source tag start nested sameName (t.start + n)) := by
    obtain ⟨⟨a, b, htext, rfl⟩, hin⟩ := looseEndTag?_eq_some (w := w) hn
    have hend : IsBoundary source (t.start + bytes a) := by
      refine ⟨before ++ a, ('<' :: b) ++ after, ?_, by rw [bytes_append, hb]⟩
      rw [hsource, htext]
      simp
    have hsize : t.start + bytes a < t.stop := by
      rw [Token.stop, htext, bytes_append]
      have := bytes_pos (List.cons_ne_nil '<' b)
      omega
    exact fits_closeTemplate hrun hs hend (by omega) (by omega) hin
  unfold stepInside
  split
  next =>
    split
    · exact stepFits_inside rfl (by exact hrun) hs (by omega) (Nat.le_refl _)
    · exact stepFits_inside rfl (by exact hrun) hs (by omega) (Nat.le_refl _)
  next => exact stepFits_inside rfl (by exact hrun) hs (by omega) (Nat.le_refl _)
  next => exact stepFits_inside rfl (by exact hrun) hs (by omega) (Nat.le_refl _)
  next hk =>
    split
    · -- the template ends before the two characters that open the end tag
      obtain ⟨front, hf⟩ := hopen hk
      have hend : IsBoundary source (t.start - 2) := by
        refine ⟨front, ['<', '/'] ++ (t.text ++ after), ?_, ?_⟩
        · rw [hsource, ← hf, List.append_assoc]
        · rw [← hb, ← hf, bytes_append]
          rfl
      exact fits_closeTemplate hrun hs hend (by omega) (by omega) (by simp [Trail.staysInTag, hk])
    · exact goesOn
  next =>
    split
    next n hn => exact ends n hn
    · exact goesOn
  next =>
    split
    next n hn => exact ends n hn
    · exact goesOn
  next =>
    split
    next n hn => exact ends n hn
    · exact goesOn
  next => exact goesOn

/-! ## The whole pass -/

/-- **Every token keeps the state fitting**, and the regions it completes lie between the
anchors. -/
theorem fits_step (options : ScanOptions) (h : s.Fits source w) (ht : w.Allows source t) :
    StepFits source w (s.anchor w) t (s.step options source t) := by
  unfold step
  split
  next hp =>
    split
    next hk => exact fits_extendRun h ht hp hk.2 hk.1
    next hk =>
      -- a run of loose text ends before the token is looked at
      have hmeta := spaced_endRun h hp
      have hp' : s.endRun.1.phase = .outside := by rw [endRun_fst, hp]
      have hd' : s.endRun.1.depth = s.depth := by rw [endRun_fst]
      have hrun' : s.endRun.1.run = none := by rw [endRun_fst]
      have h' : s.endRun.1.Fits source w := by
        refine ⟨fun _ hd => h.outside hp (by rw [← hd', hd]), ?_, ?_⟩
        · intro start text he
          simp [hrun'] at he
        · intro tag start nested sameName he
          simp [hp'] at he
      obtain ⟨hf, hs⟩ := fits_stepOutside options h' ht hp' hrun' (by rwa [hd'])
      exact ⟨hf, hmeta.append hs⟩
  next tag hp => exact fits_stepOpening h ht hp
  next tag start nested sameName hp => exact fits_stepInside h ht hp

/-- The regions that a stream of tokens yields are spaced. -/
theorem spaced_regions (options : ScanOptions) (ts : List Token) (h : s.Fits source w)
    (hts : Stream source w ts) :
    ∃ hi, Spaced source (s.anchor w) (s.regions options source ts) hi := by
  induction ts generalizing s w with
  | nil =>
    cases hp : s.phase with
    | outside => exact ⟨w.stop, spaced_endRun h hp⟩
    | opening | inside =>
      have hrun : s.run = none := h.run_eq_none (by simp [hp])
      exact ⟨s.anchor w, by simpa [regions, endRun, hrun] using Spaced.nil (Nat.le_refl _)⟩
  | cons t ts ih =>
    obtain ⟨hf, hs⟩ := fits_step options h hts.1
    obtain ⟨hi, hrest⟩ := ih hf hts.2
    exact ⟨hi, hs.append hrest⟩

end ScanState

/-- **The regions of a text are spaced.** -/
theorem scan_spaced (options : ScanOptions) (source : Text) :
    ∃ hi, Spaced source 0 (scan options source) hi :=
  ScanState.spaced_regions options (tokens source) (ScanState.fits_start source)
    (stream_tokens source)

lemma scan_liesIn {options : ScanOptions} {source : Text} {r : Region}
    (h : r ∈ scan options source) : r.LiesIn source :=
  (scan_spaced options source).choose_spec.liesIn r h

/-! ## Searches among regions -/

namespace Region

/-- The first region ends before the second one starts. -/
def Before (r s : Region) : Prop :=
  r.stop < s.start

lemma contains_iff {r : Region} {n : Nat} : r.contains n ↔ r.start ≤ n ∧ n ≤ r.stop := by
  simp [contains]

/-- Two regions one before the other contain no common offset. -/
lemma Before.not_contains {r s : Region} {n : Nat} (h : r.Before s) (hr : r.contains n) :
    ¬ s.contains n := by
  rw [contains_iff] at hr ⊢
  unfold Before at h
  omega

end Region

section Search

variable {rs : List Region} {r s : Region} {n : Nat}

/-- Regions one before the other: the one that contains an offset is the only one. -/
lemma eq_of_contains (h : rs.Pairwise Region.Before) (hr : r ∈ rs) (hs : s ∈ rs)
    (hrn : r.contains n) (hsn : s.contains n) : r = s := by
  have h1 : rs.Pairwise fun r s => r.contains n → s.contains n → r = s :=
    h.imp fun hb h1 h2 => absurd h2 (hb.not_contains h1)
  have h2 : rs.Pairwise fun r s => s.contains n → r.contains n → s = r :=
    h.imp fun hb h1 h2 => absurd h1 (hb.not_contains h2)
  exact List.Pairwise.forall_of_forall_of_flip (fun _ _ _ _ => rfl) h1 h2 hr hs hrn hsn

lemma length_filter_contains_le_one (h : rs.Pairwise Region.Before) (n : Nat) :
    (rs.filter (·.contains n)).length ≤ 1 := by
  have hmem : ∀ r ∈ rs.filter (·.contains n), r.contains n := fun r hr => (List.mem_filter.1 hr).2
  have hf := h.filter (·.contains n)
  generalize rs.filter (·.contains n) = found at hmem hf ⊢
  match found, hmem, hf with
  | [], _, _ => exact Nat.zero_le 1
  | [_], _, _ => exact Nat.le_refl 1
  | a :: b :: _, hmem, hf =>
    have hab : a.Before b := List.rel_of_pairwise_cons hf (by simp)
    exact absurd (hmem b (by simp)) (hab.not_contains (hmem a (by simp)))

lemma find?_contains_eq_some_iff (h : rs.Pairwise Region.Before) :
    rs.find? (·.contains n) = some r ↔ r ∈ rs ∧ r.contains n := by
  constructor
  · intro hf
    exact ⟨List.mem_of_find?_eq_some hf, by simpa using List.find?_some hf⟩
  · rintro ⟨hr, hn⟩
    have hsome : (rs.find? (·.contains n)).isSome := List.find?_isSome.2 ⟨r, hr, hn⟩
    obtain ⟨s, hs⟩ := Option.isSome_iff_exists.1 hsome
    have hin : s.contains n := by simpa using List.find?_some hs
    rw [hs, eq_of_contains h (List.mem_of_find?_eq_some hs) hr hin hn]

end Search

namespace Embedded

variable {e : Embedded} {n k : Nat}

lemma map_region_segmentsFrom (host : Text) (n : Nat) (rs : List Region) :
    (segmentsFrom host n rs).map (·.region) = rs := by
  induction rs generalizing n with
  | nil => rfl
  | cons r rs ih => rw [segmentsFrom, List.map_cons, ih]

/-- Among regions one before the other, the local offset is that in the region of the offset. -/
lemma findSome?_toLocal?_eq_some_iff {ss : List Segment}
    (h : (ss.map (·.region)).Pairwise Region.Before) :
    ss.findSome? (fun s => (s.region.toLocal? n).map (s.localStart + ·)) = some k ↔
      ∃ s ∈ ss, s.region.contains n ∧ k = s.localStart + (n - s.region.start) := by
  induction ss with
  | nil => simp
  | cons s ss ih =>
    rw [List.map_cons, List.pairwise_cons] at h
    rw [List.findSome?_cons]
    by_cases hc : s.region.contains n
    · have hlater : ∀ s' ∈ ss, ¬ s'.region.contains n :=
        fun s' hs' => (h.1 _ (List.mem_map_of_mem hs')).not_contains hc
      have hs : s.region.toLocal? n = some (n - s.region.start) := by simp [Region.toLocal?, hc]
      simp only [hs, Option.map_some, Option.some.injEq]
      constructor
      · rintro rfl
        exact ⟨s, by simp, hc, rfl⟩
      · rintro ⟨s', hs', hc', rfl⟩
        rcases List.mem_cons.1 hs' with rfl | hs'
        · rfl
        · exact absurd hc' (hlater s' hs')
    · have hs : s.region.toLocal? n = none := by simp [Region.toLocal?, hc]
      simp only [hs, Option.map_none]
      rw [ih h.2]
      simp [hc]

end Embedded

/-! ## The regions of a file -/

/-- The regions of a text come one before the other. -/
lemma scan_pairwise (options : ScanOptions) (source : Text) :
    (scan options source).Pairwise Region.Before :=
  (scan_spaced options source).choose_spec.pairwise

/-- The embedded documents of a file: the one that joins the blocks of a language, and the one of a
single region. -/
def Embedded.Of (host : Snapshot) (e : Embedded) : Prop :=
  (∃ language, e = .ofLanguage host language) ∨ ∃ r ∈ host.regions, e = .ofRegion host r

lemma Embedded.Of.pairwise {host : Snapshot} {e : Embedded} (he : e.Of host)
    (h : host.regions.Pairwise Region.Before) :
    (e.segments.map (·.region)).Pairwise Region.Before := by
  rcases he with ⟨language, rfl⟩ | ⟨r, -, rfl⟩
  · rw [ofLanguage, map_region_segmentsFrom]
    exact h.filter _
  · exact List.pairwise_singleton ..

/-- **The regions of every text are parts of it, in ascending order, and never touch.**  So an
offset is in one of them at most, the region found at an offset is the one that contains it, and the
local offset in an embedded document is the one in the only segment that contains the host
offset. -/
theorem regions_never_touch (options : ScanOptions) (source : Text) :
    (∀ r ∈ scan options source, r.start ≤ r.stop ∧ r.stop ≤ bytes source ∧
      IsBoundary source r.start ∧ IsBoundary source r.stop) ∧
    (scan options source).Pairwise (fun r s => r.stop < s.start) ∧
    (∀ n, ((scan options source).filter (·.contains n)).length ≤ 1) ∧
    ∀ uri language version, let host := Snapshot.ofText options uri language version source
      (∀ n r, host.regionAt? n = some r ↔ r ∈ scan options source ∧ r.contains n) ∧
      ∀ e : Embedded, e.Of host →
        (∀ n, (e.segments.filter (·.region.contains n)).length ≤ 1) ∧
        ∀ n k, e.offsetToLocal? n = some k ↔
          ∃ s ∈ e.segments, s.region.contains n ∧ k = s.localStart + (n - s.region.start) := by
  have hpair : (scan options source).Pairwise Region.Before :=
    (scan_spaced options source).choose_spec.pairwise
  refine ⟨fun r hr => ?_, hpair, length_filter_contains_le_one hpair, fun _ _ _ => ⟨?_, ?_⟩⟩
  · have hl := scan_liesIn hr
    exact ⟨hl.start_le_stop, hl.isBoundary_stop.le, hl.isBoundary_start, hl.isBoundary_stop⟩
  · exact fun n r => find?_contains_eq_some_iff hpair
  · intro e he
    have hseg := he.pairwise hpair
    refine ⟨fun n => ?_, fun n k => Embedded.findSome?_toLocal?_eq_some_iff hseg⟩
    have := length_filter_contains_le_one hseg n
    rwa [List.filter_map, List.length_map] at this

end Mosaic
