import Mosaic.Proofs.CursorInBlock
import Mosaic.Proofs.FanOut
import Mosaic.Proofs.InlinePlaces
import Mosaic.Proofs.TextEdits

/-!
# Formatting the blocks of a language

A formatter edits the text of all blocks of its language as one text.  As long as each edit stays in
the block in which it starts, it makes no difference whether the edits are made in that text or, in
host coordinates, in the file: the file is then the same outside the blocks, and its blocks hold the
formatted text.

* `flatMap_filter_key` — a sorted list is its groups, one after the other.
* `Embedded.EditsBlocks` — the edits of a formatter that stay in their blocks.
* `Embedded.Joins.hasParts_host`, `Embedded.Joins.hasParts_local` — the texts of the blocks are parts
  of both texts.
* `formatting_commutes` — the two ways to make the edits.
-/

namespace Mosaic

open Text

/-- A list that is sorted by key is its groups, one after the other. -/
lemma flatMap_filter_key {α κ : Type} [DecidableEq κ] {key : α → Option κ} {R : κ → κ → Prop}
    {ks : List κ} {xs : List α} (hks : ks.Pairwise R)
    (hasymm : ∀ k ∈ ks, ∀ k' ∈ ks, R k k' → ¬ R k' k)
    (hmem : ∀ x ∈ xs, ∃ k ∈ ks, key x = some k)
    (hxs : xs.Pairwise fun x y => ∀ k k', key x = some k → key y = some k' → k = k' ∨ R k k') :
    (ks.flatMap fun k => xs.filter fun x => key x = some k) = xs := by
  induction xs with
  | nil => simp
  | cons x xs ih =>
    obtain ⟨hfirst, hrest⟩ := List.pairwise_cons.1 hxs
    have hgroups := ih (fun y hy => hmem y (by simp [hy])) hrest
    obtain ⟨k, hk, hx⟩ := hmem x (by simp)
    obtain ⟨before, behind, rfl⟩ := List.append_of_mem hk
    obtain ⟨-, hbehind, hbefore⟩ := List.pairwise_append.1 hks
    -- no later element belongs to an earlier group, and no later group has the first element
    have hnone : before.flatMap (fun j => (x :: xs).filter fun y => key y = some j) = [] := by
      refine List.flatMap_eq_nil_iff.2 fun j hj => List.filter_eq_nil_iff.2 fun y hy => ?_
      have hjk : R j k := hbefore j hj k (by simp)
      have hnot : ¬ R k j := hasymm j (by simp [hj]) k hk hjk
      have hne : j ≠ k := by
        rintro rfl
        exact hnot hjk
      simp only [decide_eq_true_eq]
      intro hyj
      rcases List.mem_cons.1 hy with rfl | hy
      · exact hne (Option.some.inj (hyj.symm.trans hx))
      · rcases hfirst y hy k j hx hyj with he | hr
        · exact hne he.symm
        · exact hnot hr
    have hnone' : before.flatMap (fun j => xs.filter fun y => key y = some j) = [] := by
      rw [List.flatMap_eq_nil_iff] at hnone ⊢
      intro j hj
      have := hnone j hj
      rw [List.filter_eq_nil_iff] at this ⊢
      exact fun y hy => this y (by simp [hy])
    have hlater : behind.flatMap (fun j => (x :: xs).filter fun y => key y = some j)
        = behind.flatMap fun j => xs.filter fun y => key y = some j := by
      refine List.flatMap_congr fun j hj => List.filter_cons_of_neg ?_
      have hkj : R k j := (List.pairwise_cons.1 hbehind).1 j hj
      have hne : k ≠ j := by
        rintro rfl
        exact hasymm k hk k hk hkj hkj
      simpa [hx] using hne
    rw [List.flatMap_append, hnone', List.nil_append, List.flatMap_cons] at hgroups
    rw [List.flatMap_append, hnone, List.nil_append, List.flatMap_cons, hlater,
      List.filter_cons_of_pos (by simpa using hx), List.cons_append, hgroups]

namespace Embedded

variable {e : Embedded} {rs : List Region} {s : Segment} {n : Nat} {edit : TextEdit}
  {edits : List TextEdit}

/-- The span of an edit starts and ends in the same segment. -/
def Stays (e : Embedded) (edit : TextEdit) : Prop :=
  offsetAt e.text edit.range.start ≤ offsetAt e.text edit.range.stop ∧
    ∃ s, e.segmentAt? (offsetAt e.text edit.range.start) = some s ∧
      offsetAt e.text edit.range.stop ≤ s.localStop

/-- Edits of the embedded text that stay in their segments and come one behind the other. -/
structure EditsBlocks (e : Embedded) (edits : List TextEdit) : Prop where
  stays : ∀ edit ∈ edits, e.Stays edit
  pairwise : edits.Pairwise fun x y =>
    offsetAt e.text x.range.stop ≤ offsetAt e.text y.range.start

/-- The edits that start in a segment. -/
def editsOf (e : Embedded) (s : Segment) (edits : List TextEdit) : List TextEdit :=
  edits.filter fun x => e.segmentAt? (offsetAt e.text x.range.start) = some s

/-- An edit, counted from the start of a segment. -/
def relative (e : Embedded) (s : Segment) (edit : TextEdit) : Replacement :=
  ⟨⟨offsetAt e.text edit.range.start - s.localStart,
    offsetAt e.text edit.range.stop - s.localStart⟩, edit.newText.toList⟩

/-- An edit as it is sent to the client. -/
def sent (e : Embedded) (edit : TextEdit) : TextEdit :=
  (edit.translate e.rangeToHost?).getD edit

/-- The text of a segment, with the edits that start in it. -/
def edited (e : Embedded) (edits : List TextEdit) (s : Segment) : Text :=
  replaceFrom (s.region.textIn e.host.text) 0 ((e.editsOf s edits).map (e.relative s))

/-! ## The edits of a segment -/

/-- What is known of an edit that starts in a segment. -/
lemma Joins.mem_editsOf (h : e.Joins rs) (hedits : e.EditsBlocks edits)
    (hx : edit ∈ e.editsOf s edits) :
    edit ∈ edits ∧ e.segmentAt? (offsetAt e.text edit.range.start) = some s ∧ s ∈ e.segments ∧
      s.localStart ≤ offsetAt e.text edit.range.start ∧
      offsetAt e.text edit.range.start ≤ offsetAt e.text edit.range.stop ∧
      offsetAt e.text edit.range.stop ≤ s.localStop := by
  obtain ⟨hmem, hat⟩ :
      edit ∈ edits ∧ e.segmentAt? (offsetAt e.text edit.range.start) = some s := by
    simpa [editsOf] using hx
  obtain ⟨hle, s', hat', hstop⟩ := hedits.stays edit hmem
  obtain rfl : s = s' := Option.some.inj (hat.symm.trans hat')
  obtain ⟨hs, hstart⟩ := h.mem_of_segmentAt? (isBoundary_offsetAt ..).le hat
  exact ⟨hmem, hat, hs, hstart, hle, hstop⟩

/-- Where an edit of a segment is in the embedded text. -/
lemma Joins.replacementOf_local (h : e.Joins rs) (hedits : e.EditsBlocks edits)
    (hx : edit ∈ e.editsOf s edits) :
    replacementOf e.text edit = (e.relative s edit).shift s.localStart := by
  obtain ⟨-, -, -, hstart, hle, -⟩ := h.mem_editsOf hedits hx
  simp only [replacementOf, spanOf, relative, Replacement.shift, Replacement.mk.injEq,
    Span.mk.injEq, and_true]
  omega

/-- **An edit of a segment goes to the host**, where it is as far behind the start of the region as
it was behind the start of the segment. -/
theorem Joins.replacementOf_host (h : e.Joins rs) (hmode : e.mode = .offset)
    (hedits : e.EditsBlocks edits) (hx : edit ∈ e.editsOf s edits) :
    edit.translate e.rangeToHost? = some (e.sent edit) ∧
      replacementOf e.host.text (e.sent edit) = (e.relative s edit).shift s.region.start := by
  obtain ⟨-, hat, hs, hstart, hle, hstop⟩ := h.mem_editsOf hedits hx
  have hm := h.isBoundary_toHost hs hstart (hle.trans hstop) (isBoundary_offsetAt ..)
  have hn := h.isBoundary_toHost hs (hstart.trans hle) hstop (isBoundary_offsetAt ..)
  have hsize : s.localStop = s.localStart + s.region.size := rfl
  have hsent : edit.translate e.rangeToHost? = some { edit with
      range := Text.rangeOf e.host.text (s.toHost (offsetAt e.text edit.range.start))
        (s.toHost (offsetAt e.text edit.range.stop)) } := by
    simp only [TextEdit.translate, rangeToHost?, hmode, max_eq_right hle, spanToHost, hat,
      if_pos hstop, Snapshot.positionAt, Option.map_some, Text.rangeOf]
  have hle' : s.toHost (offsetAt e.text edit.range.start)
      ≤ s.toHost (offsetAt e.text edit.range.stop) := toHost_mono s hle
  rw [sent, hsent]
  refine ⟨rfl, ?_⟩
  simp only [Option.getD_some, replacementOf, spanOf_rangeOf hm hn hle']
  simp only [relative, Replacement.shift, Segment.toHost, Region.toHost, Replacement.mk.injEq,
    Span.mk.injEq, and_true]
  omega

/-- The edits of a segment are edits of its text. -/
lemma Joins.replaces_editsOf (h : e.Joins rs) (hs : s ∈ e.segments) (hedits : e.EditsBlocks edits) :
    Replaces (s.region.textIn e.host.text) ((e.editsOf s edits).map (e.relative s)) := by
  have hall {P : Replacement → Prop} (hP : ∀ x ∈ e.editsOf s edits, P (e.relative s x)) :
      ∀ y ∈ (e.editsOf s edits).map (e.relative s), P y := by
    simpa using hP
  refine ⟨hall fun x hx => ?_, hall fun x hx => ?_, List.pairwise_map.2 ?_⟩
  · obtain ⟨-, -, -, hstart, hle, hstop⟩ := h.mem_editsOf hedits hx
    exact ⟨h.isBoundary_sub hs (isBoundary_offsetAt ..) hstart (hle.trans hstop),
      h.isBoundary_sub hs (isBoundary_offsetAt ..) (hstart.trans hle) hstop⟩
  · obtain ⟨-, -, -, -, hle, -⟩ := h.mem_editsOf hedits hx
    exact Nat.sub_le_sub_right hle _
  · exact (hedits.pairwise.filter _).imp fun hle => Nat.sub_le_sub_right hle _

/-- **The edits are those of the segments, one segment after the other.** -/
theorem Joins.flatMap_editsOf (h : e.Joins rs) (hedits : e.EditsBlocks edits) :
    e.segments.flatMap (fun s => e.editsOf s edits) = edits := by
  have hlies (s : Segment) (hs : s ∈ e.segments) : s.region.start ≤ s.region.stop :=
    (h.liesIn_segment hs).start_le_stop
  refine flatMap_filter_key (R := fun s s' => s.region.Before s'.region)
    (h.pairwise_segments.imp fun hab => hab.2) (fun s hs s' hs' hb hb' => ?_) (fun x hx => ?_) ?_
  · have := hlies s hs
    have := hlies s' hs'
    simp only [Region.Before] at hb hb'
    omega
  · obtain ⟨-, s, hat, -⟩ := hedits.stays x hx
    exact ⟨s, (h.mem_of_segmentAt? (isBoundary_offsetAt ..).le hat).1, hat⟩
  · refine hedits.pairwise.imp_of_mem fun {x y} hx _ hxy s s' hat hat' => ?_
    obtain ⟨hs, hle⟩ := h.mem_of_segmentAt? (isBoundary_offsetAt ..).le hat
    have hbefore := (hle.trans (hedits.stays x hx).1).trans hxy
    exact (h.later_of_segmentAt? hat' hs hbefore).imp id And.right

/-- What becomes of all edits, if those of each segment are moved together. -/
lemma Joins.map_edits (h : e.Joins rs) (hedits : e.EditsBlocks edits) {f : TextEdit → Replacement}
    {pos : Segment → Nat}
    (hf : ∀ s, ∀ x ∈ e.editsOf s edits, f x = (e.relative s x).shift (pos s)) :
    edits.map f = e.segments.flatMap fun s =>
      ((e.editsOf s edits).map (e.relative s)).map (Replacement.shift (pos s)) := by
  conv_lhs => rw [← h.flatMap_editsOf hedits]
  rw [List.map_flatMap]
  refine List.flatMap_congr fun s _ => ?_
  rw [List.map_map]
  exact List.map_congr_left (hf s)

/-! ## The blocks as parts of both texts -/

/-- The texts of the regions are parts of the host. -/
lemma Joins.hasParts_host (h : e.Joins rs) : HasParts e.host.text e.segments (·.region.start)
    (·.region.textIn e.host.text) where
  occurs s hs := by
    obtain ⟨before, inner, after, hhost, hinner, hstart, -⟩ :=
      (h.liesIn_segment hs).exists_parts
    exact ⟨before, after, hinner ▸ hhost, hstart⟩
  pairwise := by
    refine h.pairwise_segments.imp_of_mem fun {s s'} hs _ hss' => ?_
    have hlies := h.liesIn_segment hs
    have hle := hlies.start_le_stop
    have hbefore := hss'.2
    simp only [bytes_textIn hlies, Region.size, Region.Before] at hbefore ⊢
    omega

/-- And they are parts of the embedded text. -/
lemma Joins.hasParts_local (h : e.Joins rs) : HasParts e.text e.segments (·.localStart)
    (·.region.textIn e.host.text) where
  occurs _ hs := h.text_segment hs
  pairwise := h.pairwise_segments.imp_of_mem fun hs _ hss' => (h.localStop_eq hs).trans_le hss'.1

/-- If all of a text is replaced segment by segment, nothing is between what takes their place. -/
lemma replaceFrom_segments (host a : Text) (rs : List Region) (new : Segment → Text) :
    replaceFrom (a ++ rs.flatMap (·.textIn host)) (bytes a)
        ((segmentsFrom host (bytes a) rs).map fun s =>
          ⟨⟨s.localStart, s.localStart + bytes (s.region.textIn host)⟩, new s⟩)
      = (segmentsFrom host (bytes a) rs).flatMap new := by
  induction rs generalizing a with
  | nil =>
    have := dropBytes_bytes_append a []
    simpa [segmentsFrom, replaceFrom] using this
  | cons r rs ih =>
    have hnext := ih (a ++ r.textIn host)
    rw [bytes_append, List.append_assoc] at hnext
    simp only [segmentsFrom, List.map_cons, replaceFrom, List.flatMap_cons, hnext]
    simp [slice, takeBytes]

end Embedded

/-! ## Formatting -/

/-- **It makes no difference whether a formatter's edits are made in the embedded text or in the
file**, if each stays in the block in which it starts.  In host coordinates they leave everything as
it is outside the blocks of the language, and give each block its text with its own edits; one
after the other these are the embedded text with all edits. -/
theorem formatting_commutes (options : ScanOptions) (uri id : String) (version : Int)
    (source : Text) (language : String) (edits : List TextEdit)
    (hedits : (Embedded.ofLanguage (.ofText options uri id version source) language).EditsBlocks
      edits) :
    let file := Snapshot.ofText options uri id version source
    let e := Embedded.ofLanguage file language
    ∃ sent, edits.mapM (TextEdit.translate e.rangeToHost?) = some sent ∧
      (∀ (a : Adapter) (settings : Json), (a.format e settings).answer = .ok edits →
        (FileRequest.format settings).contributed ⟨a, e⟩ = some sent) ∧
      ∃ new : Segment → Text,
        applyEdits source sent = replaceFrom source 0 (e.segments.map fun s =>
          ⟨⟨s.region.start, s.region.stop⟩, new s⟩) ∧
        e.segments.flatMap new = applyEdits e.text edits := by
  intro file e
  have h : e.Joins (Embedded.blocksOf file language) :=
    Embedded.joins_ofLanguage options uri id version source language
  have hreplaces (s : Segment) (hs : s ∈ e.segments) := h.replaces_editsOf hs hedits
  have hsent : edits.mapM (TextEdit.translate e.rangeToHost?) = some (edits.map e.sent) := by
    rw [mapM_eq_some_iff, List.forall₂_map_right_iff, List.forall₂_same]
    intro x hx
    obtain ⟨-, s, hat, -⟩ := hedits.stays x hx
    exact (h.replacementOf_host rfl hedits
      (List.mem_filter.2 ⟨hx, decide_eq_true_iff.2 hat⟩)).1
  have hhost : (edits.map e.sent).map (replacementOf source) = e.segments.flatMap fun s =>
      ((e.editsOf s edits).map (e.relative s)).map (Replacement.shift s.region.start) := by
    rw [List.map_map]
    exact h.map_edits hedits fun s x hx => (h.replacementOf_host rfl hedits hx).2
  have hlocal : edits.map (replacementOf e.text) = e.segments.flatMap fun s =>
      ((e.editsOf s edits).map (e.relative s)).map (Replacement.shift s.localStart) :=
    h.map_edits hedits fun s x hx => h.replacementOf_local hedits hx
  have hinhost := replaceFrom_parts h.hasParts_host hreplaces (.zero _) fun _ _ => Nat.zero_le _
  have hinlocal := replaceFrom_parts h.hasParts_local hreplaces (.zero _) fun _ _ => Nat.zero_le _
  refine ⟨edits.map e.sent, hsent, fun a settings ha => ?_, e.edited edits, ?_, ?_⟩
  · rw [FileRequest.contributed_of_answer (s := ⟨a, e⟩) ha]
    exact hsent
  · rw [applyEdits, hhost]
    refine hinhost.trans (congrArg _ (List.map_congr_left fun s hs => ?_))
    have hlies := h.liesIn_segment hs
    have hstop : s.region.start + bytes (s.region.textIn e.host.text) = s.region.stop := by
      rw [Embedded.bytes_textIn hlies, Region.size, Nat.add_sub_cancel' hlies.start_le_stop]
    rw [hstop]
    rfl
  · rw [applyEdits, hlocal]
    exact (hinlocal.trans
      (Embedded.replaceFrom_segments source [] (Embedded.blocksOf file language)
        (e.edited edits))).symm

/-- The selector of a first block is replaced, and something is inserted where the two blocks meet,
which goes to the second one. -/
theorem formatting_commutes_two_blocks :
    let source : Text := "<style>a{}</style><p/><style>b{}</style>".toList
    let e := Embedded.ofLanguage (.ofText {} "file:///a" "sfc" 1 source) "css"
    let edits : List TextEdit := [⟨⟨⟨0, 0⟩, ⟨0, 1⟩⟩, "é"⟩, ⟨⟨⟨0, 3⟩, ⟨0, 3⟩⟩, " "⟩]
    e.EditsBlocks edits ∧
      ∃ sent, edits.mapM (TextEdit.translate e.rangeToHost?) = some sent ∧
        ∃ new : Segment → Text,
          applyEdits source sent = replaceFrom source 0 (e.segments.map fun s =>
            ⟨⟨s.region.start, s.region.stop⟩, new s⟩) ∧
          e.segments.flatMap new = "é{} b{}".toList := by
  intro source e edits
  have hedits : e.EditsBlocks edits := by
    refine ⟨?_, by decide +kernel⟩
    simp only [edits, List.forall_mem_cons, List.not_mem_nil, false_imp_iff, implies_true, and_true]
    exact ⟨⟨by decide +kernel, ⟨.block "css" 7 10, 0⟩, by decide +kernel, by decide +kernel⟩,
      by decide +kernel, ⟨.block "css" 29 32, 3⟩, by decide +kernel, by decide +kernel⟩
  obtain ⟨sent, hsent, -, new, hhost, hlocal⟩ :=
    formatting_commutes {} "file:///a" "sfc" 1 source "css" edits hedits
  exact ⟨hedits, sent, hsent, new, hhost, hlocal.trans (by decide +kernel)⟩

end Mosaic
