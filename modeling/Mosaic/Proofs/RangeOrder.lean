import Mosaic.Proofs.CursorInBlock
import Mosaic.Proofs.PositionOrder

/-!
# Ranges in their order, in the blocks and in the file

What an adapter reports may be nested: a range lies in another one, or ends before another one
starts.  In the file it is still so, although the end of a range is brought back in another way
than its start: at the joint of two blocks a start belongs to the second one, and an end to the one
in which its range starts.

* `Embedded.Joins.offsetToHost_lt` — of two places in the blocks the later one is later in the file.
* `Embedded.Joins.spanToHost_stop_le` — a span within another one ends in it in the file, too.
* `Embedded.Joins.within_rangeToHost?`, `Embedded.Joins.clears_rangeToHost?` — the same for ranges.
-/

namespace Mosaic

open Text

namespace Range

/-- A range does not end before it starts, and is within another one. -/
def Within (r outer : Range) : Prop :=
  outer.start.upTo r.start ∧ r.start.upTo r.stop ∧ r.stop.upTo outer.stop

instance (r outer : Range) : Decidable (r.Within outer) :=
  inferInstanceAs (Decidable (_ ∧ _ ∧ _))

/-- A range ends before another one starts, or where it does. -/
def Clears (r next : Range) : Prop :=
  r.stop.upTo next.start

instance (r next : Range) : Decidable (r.Clears next) :=
  inferInstanceAs (Decidable (_ = true))

/-- Where a range of a text ends, which is not before it starts. -/
def lastIn (t : Text) (r : Range) : Nat :=
  max (offsetAt t r.start) (offsetAt t r.stop)

/-- A range of a text is within another one: it starts with that one, or before that one ends. -/
structure WithinIn (t : Text) (r outer : Range) : Prop where
  start_le : offsetAt t outer.start ≤ offsetAt t r.start
  last_le : r.lastIn t ≤ outer.lastIn t
  starts : offsetAt t r.start = offsetAt t outer.start ∨ offsetAt t r.start < outer.lastIn t

/-- A range of a text ends before another one starts, or where it does. -/
def ClearsIn (t : Text) (r next : Range) : Prop :=
  r.lastIn t ≤ offsetAt t next.start

end Range

namespace Embedded

variable {e : Embedded} {rs : List Region} {s : Segment} {r r' next next' outer outer' : Range}
  {m n lo hi : Nat}

/-! ## Offsets -/

/-- All of a segment is in the file before a segment whose region is behind its region. -/
lemma toHost_lt_of_before {s' : Segment} (hlies : s.region.start ≤ s.region.stop)
    (hbefore : s.region.Before s'.region) (m n : Nat) : s.toHost m < s'.toHost n := by
  simp only [Segment.toHost, Region.toHost, Region.Before, Region.size] at hbefore ⊢
  omega

/-- **Of two places in the blocks the later one is later in the file.** -/
theorem Joins.offsetToHost_lt (h : e.Joins rs) (hmn : m < n) (hn : n ≤ bytes e.text) :
    e.offsetToHost m < e.offsetToHost n := by
  have hne := h.segments_ne_nil (by omega)
  obtain ⟨s, hs, hm1, hm2, hm⟩ := h.segmentAt?_spec hne (n := m) (by omega)
  obtain ⟨s', hs', hn1, hn2, hat⟩ := h.segmentAt?_spec hne hn
  simp only [offsetToHost, hm, hat]
  simp only [Segment.localStop] at hm2 hn2
  rcases h.later_of_segmentAt? hat hs (by omega) with rfl | ⟨-, hbefore⟩
  · simp only [Segment.toHost, Region.toHost]
    omega
  · exact toHost_lt_of_before (h.liesIn_segment hs).start_le_stop hbefore m n

lemma Joins.offsetToHost_le (h : e.Joins rs) (hmn : m ≤ n) (hn : n ≤ bytes e.text) :
    e.offsetToHost m ≤ e.offsetToHost n := by
  rcases hmn.lt_or_eq with hlt | rfl
  · exact (h.offsetToHost_lt hlt hn).le
  · exact le_rfl

/-! ## Spans -/

lemma spanToHost_fst (e : Embedded) (m n : Nat) : (e.spanToHost m n).1 = e.offsetToHost m := by
  unfold spanToHost offsetToHost
  cases e.segmentAt? m <;> rfl

/-- An offset is no further ahead in the file in an earlier segment than in its own. -/
lemma Joins.toHost_le (h : e.Joins rs) (hs : s ∈ e.segments) (hle : s.localStart ≤ n)
    (hn : n ≤ bytes e.text) : s.toHost n ≤ e.offsetToHost n := by
  obtain ⟨s', hs', -, -, hat⟩ := h.segmentAt?_spec (List.ne_nil_of_mem hs) hn
  simp only [offsetToHost, hat]
  rcases h.later_of_segmentAt? hat hs hle with rfl | ⟨-, hbefore⟩
  · exact le_rfl
  · exact (toHost_lt_of_before (h.liesIn_segment hs).start_le_stop hbefore n n).le

/-- An empty span. -/
lemma spanToHost_snd_self (e : Embedded) (n : Nat) : (e.spanToHost n n).2 = e.offsetToHost n := by
  unfold spanToHost offsetToHost
  cases e.segmentAt? n with
  | none => rfl
  | some s => exact ite_self _

/-- A span ends no further ahead than a start at the same place would be. -/
lemma Joins.spanToHost_snd_le (h : e.Joins rs) (hmn : m ≤ n) (hn : n ≤ bytes e.text) :
    (e.spanToHost m n).2 ≤ e.offsetToHost n := by
  unfold spanToHost
  cases hat : e.segmentAt? m with
  | none => exact h.offsetToHost_le hmn hn
  | some s =>
    obtain ⟨hs, hle⟩ := h.mem_of_segmentAt? (hmn.trans hn) hat
    dsimp only
    split
    · exact h.toHost_le hs (hle.trans hmn) hn
    · exact le_rfl

/-- Of two spans with the same start the longer one ends further ahead. -/
lemma Joins.spanToHost_snd_mono (h : e.Joins rs) (hmn : m ≤ n) (hle : n ≤ hi)
    (hhi : hi ≤ bytes e.text) : (e.spanToHost m n).2 ≤ (e.spanToHost m hi).2 := by
  have hn := h.spanToHost_snd_le hmn (hle.trans hhi)
  have hup := h.offsetToHost_le hle hhi
  unfold spanToHost at hn ⊢
  cases hat : e.segmentAt? m with
  | none => exact le_rfl
  | some s =>
    simp only [hat] at hn ⊢
    by_cases hend : hi ≤ s.localStop
    · rw [if_pos hend, if_pos (hle.trans hend)]
      exact toHost_mono s hle
    · rw [if_neg hend]
      exact hn.trans hup

/-- **A span within another one ends in it in the file, too.** -/
theorem Joins.spanToHost_stop_le (h : e.Joins rs) (hlo : lo ≤ m) (hmn : m ≤ n) (hle : n ≤ hi)
    (hhi : hi ≤ bytes e.text) (hstart : m = lo ∨ m < hi) :
    (e.spanToHost m n).2 ≤ (e.spanToHost lo hi).2 := by
  rcases hstart with rfl | hlt
  · exact h.spanToHost_snd_mono hmn hle hhi
  refine (h.spanToHost_snd_mono hmn hle hhi).trans ?_
  have hm := h.spanToHost_snd_le hlt.le hhi
  have hne := h.segments_ne_nil (by omega)
  obtain ⟨s, hs, hlo1, -, hat⟩ := h.segmentAt?_spec hne (n := lo) (by omega)
  obtain ⟨s', hs', hm1, -, hat'⟩ := h.segmentAt?_spec hne (n := m) (by omega)
  unfold spanToHost at hm ⊢
  simp only [hat, hat'] at hm ⊢
  by_cases hend : hi ≤ s.localStop
  · -- the inner span starts before the segment of the outer one ends, so it is in that segment
    obtain rfl : s = s' := by
      rcases h.later_of_segmentAt? hat' hs (hlo1.trans hlo) with he | ⟨hlater, -⟩
      · exact he
      · omega
    rw [if_pos hend]
  · rw [if_neg hend]
    exact hm

/-! ## Ranges -/

lemma rangeToHost?_offset (hmode : e.mode = .offset) (r : Range) :
    e.rangeToHost? r = some (rangeOf e.host.text
      (e.spanToHost (offsetAt e.text r.start) (r.lastIn e.text)).1
      (e.spanToHost (offsetAt e.text r.start) (r.lastIn e.text)).2) := by
  simp only [rangeToHost?, hmode, Range.lastIn, Text.rangeOf, Snapshot.positionAt]

lemma lastIn_le (t : Text) (r : Range) : r.lastIn t ≤ bytes t :=
  max_le (isBoundary_offsetAt t r.start).le (isBoundary_offsetAt t r.stop).le

lemma le_lastIn (t : Text) (r : Range) : offsetAt t r.start ≤ r.lastIn t :=
  le_max_left _ _

/-- A range of the file does not end before it starts. -/
lemma Joins.start_upTo_stop (h : e.Joins rs) (hmode : e.mode = .offset)
    (hr : e.rangeToHost? r = some r') : r'.start.upTo r'.stop := by
  rw [rangeToHost?_offset hmode, Option.some.injEq] at hr
  subst hr
  refine positionAt_upTo _ ?_
  rw [spanToHost_fst, ← spanToHost_snd_self]
  exact h.spanToHost_snd_mono le_rfl (le_lastIn ..) (lastIn_le ..)

/-- **A range within another one is within it in the file.** -/
theorem Joins.within_rangeToHost? (h : e.Joins rs) (hmode : e.mode = .offset)
    (hwithin : r.WithinIn e.text outer) (hr : e.rangeToHost? r = some r')
    (houter : e.rangeToHost? outer = some outer') : r'.Within outer' := by
  have hordered := h.start_upTo_stop hmode hr
  rw [rangeToHost?_offset hmode, Option.some.injEq] at hr houter
  subst hr houter
  refine ⟨positionAt_upTo _ ?_, hordered, positionAt_upTo _ ?_⟩
  · rw [spanToHost_fst, spanToHost_fst]
    exact h.offsetToHost_le hwithin.start_le (isBoundary_offsetAt ..).le
  · exact h.spanToHost_stop_le hwithin.start_le (le_lastIn ..) hwithin.last_le (lastIn_le ..)
      hwithin.starts

/-- **A range that ends before another one starts does so in the file.** -/
theorem Joins.clears_rangeToHost? (h : e.Joins rs) (hmode : e.mode = .offset)
    (hclears : r.ClearsIn e.text next) (hr : e.rangeToHost? r = some r')
    (hnext : e.rangeToHost? next = some next') : r'.Clears next' := by
  rw [rangeToHost?_offset hmode, Option.some.injEq] at hr hnext
  subst hr hnext
  refine positionAt_upTo _ ?_
  rw [spanToHost_fst]
  have hstart : offsetAt e.text next.start ≤ bytes e.text := (isBoundary_offsetAt ..).le
  exact (h.spanToHost_snd_le (le_lastIn ..) (lastIn_le ..)).trans
    (h.offsetToHost_le hclears hstart)

end Embedded

end Mosaic
