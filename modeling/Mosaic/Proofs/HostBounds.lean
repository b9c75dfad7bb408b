import Mosaic.Proofs.Formatting
import Mosaic.Proofs.InlinePlaces

/-!
# Far positions on their way to the host

An adapter may answer with any position, also one far behind the end of its text.  Through byte
offsets every position is taken for a place of the text, and so what it becomes in the host is in
one of the regions.  By shifting the character nothing holds the position back: it goes as far to
the right as it says, behind the value and even beyond what can be sent.

* `Embedded.Inside` — where positions of the host should be that come from an adapter.
* `Embedded.Confines`, `Embedded.Overflows` — the local positions that get there, and those that get
  nowhere.
* `host_positions_inside` — a position gets into a region exactly if it is confined, and nowhere
  exactly if it overflows; and so do both ends of a range.
-/

namespace Mosaic

open Text

namespace Embedded

/-- The host position is in one of the regions that the document is made of. -/
def Inside (e : Embedded) (q : Position) : Prop :=
  ∃ s ∈ e.segments, s.region.contains (e.host.offsetAt q)

instance (e : Embedded) (q : Position) : Decidable (e.Inside q) :=
  inferInstanceAs (Decidable (∃ s ∈ e.segments, s.region.contains (e.host.offsetAt q)))

/-- If it is the character that is shifted, the local position is no further to the right than the
text is wide. -/
def Confines (e : Embedded) (p : Position) : Prop :=
  e.mode = .inline → p.character ≤ units e.text

/-- The character of the local position, counted from that of the region, needs too many bits. -/
def Overflows (e : Embedded) (p : Position) : Prop :=
  e.mode = .inline ∧
    ∃ s ∈ e.segments, wordLimit ≤ (e.host.positionAt s.region.start).character + p.character

variable {e : Embedded} {rs : List Region} {r : Region} {p q : Position} {l range : Range}

lemma not_overflows_of_offset (hmode : e.mode = .offset) (p : Position) : ¬ e.Overflows p :=
  fun h => nomatch hmode.symm.trans h.1

lemma confines_of_offset (hmode : e.mode = .offset) (p : Position) : e.Confines p :=
  fun h => nomatch hmode.symm.trans h

/-! ## Through byte offsets -/

/-- Every local position goes into a region. -/
lemma Joins.exists_inside (h : e.Joins rs) (hmode : e.mode = .offset) (hne : e.segments ≠ [])
    (p : Position) : ∃ q, e.toHost? p = some q ∧ e.Inside q := by
  have hn : IsBoundary e.text (offsetAt e.text p) := isBoundary_offsetAt ..
  obtain ⟨s, hs, hle, hge, hat⟩ := h.segmentAt?_spec hne hn.le
  have hhost := h.isBoundary_toHost hs hle hge hn
  have hlies := h.liesIn_segment hs
  refine ⟨e.host.positionAt (s.toHost (offsetAt e.text p)), ?_, s, hs, ?_⟩
  · simp only [toHost?, hmode, offsetToHost, hat]
  · rw [Snapshot.offsetAt, Snapshot.positionAt, offsetAt_positionAt_of_boundary hhost]
    exact contains_toHost hlies.start_le_stop _

/-- And so do both ends of every local range. -/
lemma Joins.exists_inside_range (h : e.Joins rs) (hmode : e.mode = .offset)
    (hne : e.segments ≠ []) (l : Range) :
    ∃ range, e.rangeToHost? l = some range ∧ e.Inside range.start ∧ e.Inside range.stop := by
  obtain ⟨range, hrange, first, hfirst, last, hlast, -, hstart, hstop, -⟩ :=
    h.rangeToHost?_spec hmode hne l
  exact ⟨range, hrange, ⟨first, hfirst, hstart⟩, ⟨last, hlast, hstop⟩⟩

/-! ## By shifting the character -/

/-- What is to the right of the start of a value is in it up to its width. -/
lemma Joins.inside_shift_iff (h : e.Joins [r]) (hattr : r.inAttribute) (k : Nat) :
    e.Inside ((positionAt e.host.text r.start).shift k) ↔ k ≤ units e.text := by
  have hlies := h.liesIn r (by simp)
  have hsegments : e.segments = [⟨r, 0⟩] := h.segments
  have hregion : e.Inside ((positionAt e.host.text r.start).shift k)
      ↔ r.contains (offsetAt e.host.text ((positionAt e.host.text r.start).shift k)) := by
    simp [Inside, hsegments, Snapshot.offsetAt]
  rw [hregion, hlies.contains_offsetAt_iff hattr, h.text_single]
  constructor
  · rintro ⟨k', hk', hshift⟩
    simp only [Position.shift, Position.mk.injEq, true_and] at hshift
    omega
  · exact fun hk => ⟨k, hk, rfl⟩

lemma Joins.overflows_inline_iff (h : e.Joins [r]) (hmode : e.mode = .inline) (p : Position) :
    e.Overflows p ↔ wordLimit ≤ (positionAt e.host.text r.start).character + p.character := by
  have hsegments : e.segments = [⟨r, 0⟩] := h.segments
  simp [Overflows, hmode, hsegments, Snapshot.positionAt]

lemma Joins.toHost?_eq_none_iff_inline (h : e.Joins [r]) (hmode : e.mode = .inline) :
    e.toHost? p = none ↔ e.Overflows p := by
  rw [h.toHost?_inline hmode, h.overflows_inline_iff hmode]
  split_ifs with hfits
  · exact iff_of_false nofun (Nat.not_le.2 hfits)
  · exact iff_of_true rfl (Nat.not_lt.1 hfits)

lemma Joins.inside_iff_inline (h : e.Joins [r]) (hmode : e.mode = .inline) (hattr : r.inAttribute)
    (hq : e.toHost? p = some q) : e.Inside q ↔ e.Confines p := by
  rw [h.toHost?_inline hmode, Option.ite_none_right_eq_some, Option.some.injEq] at hq
  rw [← hq.2, h.inside_shift_iff hattr]
  exact ⟨fun hle _ => hle, fun hconfines => hconfines hmode⟩

/-- The ends of a range go to the host each by itself. -/
lemma rangeToHost?_inline (hmode : e.mode = .inline) (l : Range) :
    e.rangeToHost? l
      = (e.toHost? l.start).bind fun start => (e.toHost? l.stop).map fun stop => ⟨start, stop⟩ := by
  simp only [rangeToHost?, hmode]
  cases e.toHost? l.start <;> cases e.toHost? l.stop <;> rfl

/-! ## In any document -/

variable {options : ScanOptions} {uri language : String} {version : Int} {source : Text}

/-- A local position gets nowhere exactly if it overflows, and else into a region exactly if it is
confined. -/
theorem Of.toHost?_spec (he : e.Of (.ofText options uri language version source))
    (hne : e.segments ≠ []) :
    (e.toHost? p = none ↔ e.Overflows p) ∧
      ∀ q, e.toHost? p = some q → (e.Inside q ↔ e.Confines p) := by
  obtain ⟨-, rs, hjoins, hinline⟩ := he.joins
  cases hmode : e.mode with
  | offset =>
    obtain ⟨q, hq, hin⟩ := hjoins.exists_inside hmode hne p
    rw [hq]
    refine ⟨iff_of_false nofun (not_overflows_of_offset hmode p), fun q' hq' => ?_⟩
    obtain rfl := Option.some.inj hq'
    exact iff_of_true hin (confines_of_offset hmode p)
  | inline =>
    obtain ⟨r, rfl, hattr⟩ := hinline hmode
    exact ⟨hjoins.toHost?_eq_none_iff_inline hmode,
      fun q hq => hjoins.inside_iff_inline hmode hattr hq⟩

/-- A range gets nowhere exactly if one of its ends does, and else each end into a region exactly if
it is confined. -/
theorem Of.rangeToHost?_spec (he : e.Of (.ofText options uri language version source))
    (hne : e.segments ≠ []) :
    (e.rangeToHost? l = none ↔ e.Overflows l.start ∨ e.Overflows l.stop) ∧
      ∀ range, e.rangeToHost? l = some range →
        (e.Inside range.start ↔ e.Confines l.start) ∧
        (e.Inside range.stop ↔ e.Confines l.stop) := by
  obtain ⟨hnone, hsome⟩ := he.toHost?_spec (p := l.start) hne
  obtain ⟨hnone', hsome'⟩ := he.toHost?_spec (p := l.stop) hne
  cases hmode : e.mode with
  | offset =>
    obtain ⟨-, rs, hjoins, -⟩ := he.joins
    obtain ⟨range, hrange, hstart, hstop⟩ := hjoins.exists_inside_range hmode hne l
    rw [hrange]
    refine ⟨iff_of_false nofun ?_, fun range' hrange' => ?_⟩
    · exact not_or.2 ⟨not_overflows_of_offset hmode _, not_overflows_of_offset hmode _⟩
    · obtain rfl := Option.some.inj hrange'
      exact ⟨iff_of_true hstart (confines_of_offset hmode _),
        iff_of_true hstop (confines_of_offset hmode _)⟩
  | inline =>
    rw [rangeToHost?_inline hmode, ← hnone, ← hnone']
    cases hstart : e.toHost? l.start with
    | none => simp
    | some start =>
      cases hstop : e.toHost? l.stop with
      | none => simp
      | some stop =>
        refine ⟨by simp, fun range hrange => ?_⟩
        obtain rfl : ⟨start, stop⟩ = range := by simpa using hrange
        exact ⟨hsome start hstart, hsome' stop hstop⟩

/-- In a file that is not too large, what is confined does not overflow. -/
lemma Of.not_overflows_of_confines (he : e.Of (.ofText options uri language version source))
    (hsize : bytes source < wordLimit) (h : e.Confines p) : ¬ e.Overflows p := by
  obtain ⟨hhost, rs, hjoins, hinline⟩ := he.joins
  cases hmode : e.mode with
  | offset => exact not_overflows_of_offset hmode p
  | inline =>
    obtain ⟨r, rfl, -⟩ := hinline hmode
    rw [hjoins.overflows_inline_iff hmode, Nat.not_le]
    exact hjoins.fits (hhost ▸ hsize) (h hmode)

end Embedded

/-- **Where the positions of an adapter go.**  Through byte offsets every position and both ends of
every range go into one of the regions, however far they are.  By shifting the character the
positions up to the width of the value go into it, and no others do; one that is too far to the
right to be sent goes nowhere.  The positions of the regions themselves can be sent in a file of
less than 4 GiB; larger files are out of scope. -/
theorem host_positions_inside (options : ScanOptions) (uri language : String) (version : Int)
    (source : Text) (e : Embedded) (he : e.Of (.ofText options uri language version source))
    (hne : e.segments ≠ []) :
    (e.mode = .offset →
      (∀ p, ∃ q, e.toHost? p = some q ∧ e.Inside q) ∧
      ∀ l, ∃ range, e.rangeToHost? l = some range ∧
        e.Inside range.start ∧ e.Inside range.stop) ∧
    (∀ p, (e.toHost? p = none ↔ e.Overflows p) ∧
      ∀ q, e.toHost? p = some q → (e.Inside q ↔ e.Confines p)) ∧
    (∀ l, (e.rangeToHost? l = none ↔ e.Overflows l.start ∨ e.Overflows l.stop) ∧
      ∀ range, e.rangeToHost? l = some range →
        (e.Inside range.start ↔ e.Confines l.start) ∧
        (e.Inside range.stop ↔ e.Confines l.stop)) ∧
    (bytes source < wordLimit → ∀ p, e.Confines p → ¬ e.Overflows p) := by
  obtain ⟨-, rs, hjoins, -⟩ := he.joins
  refine ⟨fun hmode => ⟨hjoins.exists_inside hmode hne, hjoins.exists_inside_range hmode hne⟩,
    fun p => he.toHost?_spec hne, fun l => he.rangeToHost?_spec hne,
    fun hsize p => he.not_overflows_of_confines hsize⟩

/-- A position at the end of the value of an attribute, and one far behind the text of two
blocks. -/
theorem host_positions_inside_far :
    let source : Text := "<p style='é'/><style>a</style><style>b</style>".toList
    let file := Snapshot.ofText {} "file:///a" "sfc" 1 source
    let value := Embedded.ofRegion file (.ofAttribute "css" 10 12)
    let blocks := Embedded.ofLanguage file "css"
    value.segments ≠ [] ∧ value.Inside ⟨0, 11⟩ ∧
      blocks.segments ≠ [] ∧ ∃ q, blocks.toHost? ⟨7, wordLimit⟩ = some q ∧ blocks.Inside q := by
  intro source file value blocks
  have hvalue : value.segments ≠ [] := by decide +kernel
  have hblocks : blocks.segments ≠ [] := by decide +kernel
  have hto : value.toHost? ⟨0, 1⟩ = some ⟨0, 11⟩ := by decide +kernel
  have hregion : Region.ofAttribute "css" 10 12 ∈ file.regions := by decide +kernel
  obtain ⟨-, hat, -⟩ := host_positions_inside {} "file:///a" "sfc" 1 source value
    (Or.inr ⟨_, hregion, rfl⟩) hvalue
  obtain ⟨hthrough, -⟩ := host_positions_inside {} "file:///a" "sfc" 1 source blocks
    (Or.inl ⟨"css", rfl⟩) hblocks
  refine ⟨hvalue, ((hat _).2 _ hto).2 fun _ => ?_, hblocks, (hthrough rfl).1 _⟩
  decide +kernel

/-- Positions behind the end of the value of an attribute.  One goes to the quote behind the value,
and one nowhere. -/
theorem host_position_leaves_value :
    let source : Text := "<p style='a:b'/>".toList
    let file := Snapshot.ofText {} "file:///a" "sfc" 1 source
    let e := Embedded.forRequest file (.ofAttribute "css" 10 13)
    Region.ofAttribute "css" 10 13 ∈ file.regions ∧ e.segments ≠ [] ∧
      (∃ p q, e.toHost? p = some q ∧ ¬ e.Inside q) ∧
      (∃ p, p.character < wordLimit ∧ e.toHost? p = none) ∧
      ∃ l range, e.rangeToHost? l = some range ∧ e.Inside range.start ∧ ¬ e.Inside range.stop := by
  refine ⟨?_, ?_, ⟨⟨0, 4⟩, ⟨0, 14⟩, ?_, ?_⟩, ⟨⟨0, wordLimit - 1⟩, ?_, ?_⟩,
    ⟨⟨⟨0, 0⟩, ⟨0, 4⟩⟩, ⟨⟨0, 10⟩, ⟨0, 14⟩⟩, ?_, ?_, ?_⟩⟩
  · decide +kernel
  · decide +kernel
  · decide +kernel
  · decide +kernel
  · decide +kernel
  · decide +kernel
  · decide +kernel
  · decide +kernel
  · decide +kernel

end Mosaic
