import Mosaic.Proofs.HighlightedNames
import Mosaic.Proofs.NestedOutlines

/-!
# Ranges of a block language in the file

All blocks of a language are one text to its adapter.  What comes later in that text comes later in
the file, and a range that ends in the segment in which it starts reads the same in the file as it
does in the embedded text.  The end of a range goes to the file by another rule than its start, so
that it stays in the block of the start where two blocks meet.

* `Embedded.Joins.strictMonoOn_offsetToHost` — offsets keep their order, and different ones stay
  different.
* `Embedded.Joins.rangeToHost?_rangeOf`, `Embedded.Joins.spanToHost_ordered` — the host range of a
  part of the embedded text.
* `Embedded.Joins.reproduces_spanToHost` — what a range within a segment is in the file.
* `block_ranges_keep_text` — the blocks of a language.
-/

namespace Mosaic

open Text

namespace Embedded

/-- Part of the host reads like a part of the embedded text, and lies in the region of a segment. -/
structure Reproduces (e : Embedded) (s : Segment) (m n a b : Nat) : Prop where
  text : slice m n e.host.text = slice a b e.text
  start_le : s.region.start ≤ m
  le_stop : n ≤ s.region.stop

variable {e : Embedded} {rs : List Region} {s : Segment} {a b : Nat}

/-- **Offsets of the embedded text keep their order in the file**, and different ones stay
different. -/
theorem Joins.strictMonoOn_offsetToHost (h : e.Joins rs) :
    StrictMonoOn e.offsetToHost {n | n ≤ bytes e.text} :=
  fun _ _ _ hn hmn => h.offsetToHost_lt hmn hn

/-- The host range of a part of the embedded text is that of its host span. -/
lemma rangeToHost?_rangeOf (hmode : e.mode = .offset) (ha : IsBoundary e.text a)
    (hb : IsBoundary e.text b) (hab : a ≤ b) :
    e.rangeToHost? (rangeOf e.text a b)
      = some (rangeOf e.host.text (e.spanToHost a b).1 (e.spanToHost a b).2) := by
  have hstart : offsetAt e.text (rangeOf e.text a b).start = a :=
    offsetAt_positionAt_of_boundary ha
  rw [rangeToHost?_offset hmode, lastIn_rangeOf hab, hstart, isBoundary_iff.1 hb]

/-- The host span of a part of the embedded text stands between characters, and does not end before
it starts. -/
lemma Joins.spanToHost_ordered (h : e.Joins rs) (hne : e.segments ≠ []) (ha : IsBoundary e.text a)
    (hb : IsBoundary e.text b) (hab : a ≤ b) :
    IsBoundary e.host.text (e.spanToHost a b).1 ∧ IsBoundary e.host.text (e.spanToHost a b).2 ∧
      (e.spanToHost a b).1 ≤ (e.spanToHost a b).2 := by
  obtain ⟨s, hs, ha1, ha2, hat⟩ := h.segmentAt?_spec hne ha.le
  obtain ⟨s', hs', hb1, hb2, hat'⟩ := h.segmentAt?_spec hne hb.le
  refine ⟨?_, ?_, ?_⟩
  · simpa only [spanToHost, hat] using h.isBoundary_toHost hs ha1 ha2 ha
  · simp only [spanToHost, hat, offsetToHost, hat']
    split
    next hend => exact h.isBoundary_toHost hs (ha1.trans hab) hend hb
    next => exact h.isBoundary_toHost hs' hb1 hb2 hb
  · rw [spanToHost_fst, ← spanToHost_snd_self]
    exact h.spanToHost_snd_mono le_rfl hab hb.le

/-- **A range within a segment reads the same in the file**, and lies in the region of the
segment. -/
theorem Joins.reproduces_spanToHost (h : e.Joins rs) (hs : s ∈ e.segments)
    (hat : e.segmentAt? a = some s) (ha : IsBoundary e.text a) (hb : IsBoundary e.text b)
    (hab : a ≤ b) (hend : b ≤ s.localStop) :
    e.Reproduces s (e.spanToHost a b).1 (e.spanToHost a b).2 a b := by
  have hle : s.localStart ≤ a := (h.mem_of_segmentAt? ha.le hat).2
  have hlies := (h.liesIn_segment hs).start_le_stop
  have hspan : e.spanToHost a b = (s.toHost a, s.toHost b) := by
    simp only [spanToHost, hat, if_pos hend]
  rw [hspan]
  exact ⟨h.slice_toHost hs ha hb hle hab hend, (Region.contains_iff.1 (contains_toHost hlies a)).1,
    (Region.contains_iff.1 (contains_toHost hlies b)).2⟩

end Embedded

/-- **Ranges of a block language keep their order and their text.**  Of two offsets of the embedded
text the later one is later in the file.  A part of the embedded text has a host range between
characters, in order, that comes back as it was; if it ends in the segment in which it starts, the
file has the same text there, in the region of that segment. -/
theorem block_ranges_keep_text (options : ScanOptions) (uri id : String) (version : Int)
    (source : Text) (language : String)
    (hlanguage : language ∈ (Snapshot.ofText options uri id version source).blockLanguages) :
    let e := Embedded.ofLanguage (.ofText options uri id version source) language
    StrictMonoOn e.offsetToHost {n | n ≤ bytes e.text} ∧
      ∀ a b, IsBoundary e.text a → IsBoundary e.text b → a ≤ b → ∃ m n,
        e.rangeToHost? (rangeOf e.text a b) = some (rangeOf source m n) ∧
        IsBoundary source m ∧ IsBoundary source n ∧ m ≤ n ∧
        (positionAt source m).upTo (positionAt source n) ∧
        e.rangeToLocal? (rangeOf source m n) = some (rangeOf e.text a b) ∧
        ∃ s ∈ e.segments, e.segmentAt? a = some s ∧
          (b ≤ s.localStop → e.Reproduces s m n a b) := by
  intro e
  have hjoins := Embedded.joins_ofLanguage options uri id version source language
  have hne : e.segments ≠ [] := by
    intro hnil
    have hblocks := Embedded.map_region_segmentsFrom source 0
      (Embedded.blocksOf (.ofText options uri id version source) language)
    exact Router.mem_blockLanguages.1 hlanguage (hblocks.symm.trans (congrArg _ hnil))
  refine ⟨hjoins.strictMonoOn_offsetToHost, fun a b ha hb hab => ?_⟩
  have hrange := Embedded.rangeToHost?_rangeOf (e := e) rfl ha hb hab
  obtain ⟨hm, hn, hmn⟩ := hjoins.spanToHost_ordered hne ha hb hab
  have hback := hjoins.range_round_trip_offset rfl hne hab ha hb
  rw [hrange, Option.bind_some] at hback
  obtain ⟨s, hs, -, -, hat⟩ := hjoins.segmentAt?_spec hne ha.le
  exact ⟨_, _, hrange, hm, hn, hmn, positionAt_upTo source hmn, hback, s, hs, hat,
    hjoins.reproduces_spanToHost hs hat ha hb hab⟩

/-- A character beyond the basic plane at the start of the second of two blocks. -/
theorem block_ranges_keep_text_second_block :
    let source : Text := "<style>é{}</style><style>😀{}</style>".toList
    let file := Snapshot.ofText {} "file:///a" "sfc" 1 source
    let e := Embedded.ofLanguage file "css"
    "css" ∈ file.blockLanguages ∧ IsBoundary e.text 4 ∧ IsBoundary e.text 8 ∧
      ∃ m n, e.rangeToHost? (rangeOf e.text 4 8) = some (rangeOf source m n) ∧
        slice m n source = ['😀'] := by
  intro source file e
  have hlanguage : "css" ∈ file.blockLanguages := by decide +kernel
  have htext : e.text = "é{}😀{}".toList := by decide +kernel
  have ha : IsBoundary e.text 4 := htext ▸ ⟨"é{}".toList, "😀{}".toList, by decide, by decide⟩
  have hb : IsBoundary e.text 8 := htext ▸ ⟨"é{}😀".toList, "{}".toList, by decide, by decide⟩
  have hat : e.segmentAt? 4 = some ⟨.block "css" 26 32, 4⟩ := by decide +kernel
  obtain ⟨-, hranges⟩ := block_ranges_keep_text {} "file:///a" "sfc" 1 source "css" hlanguage
  obtain ⟨m, n, hrange, -, -, -, -, -, s, -, hat', hsame⟩ := hranges 4 8 ha hb (by decide)
  obtain rfl := Option.some.inj (hat.symm.trans hat')
  refine ⟨hlanguage, ha, hb, m, n, hrange, (hsame (by decide)).text.trans ?_⟩
  rw [htext]
  decide +kernel

end Mosaic
