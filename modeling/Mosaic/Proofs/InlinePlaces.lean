import Mosaic.Proofs.Embedding
import Mosaic.Proofs.PositionOrder

/-!
# Places in the value of an attribute

The value of an attribute is on one line and between two quotes.  So a place in it is found by its
distance from the start of the value alone (`Position.shift`), and it makes no difference whether
places are translated that way or through byte offsets.

* `Region.LiesIn.exists_quotes` — a value in its source, between its quotes.
* `Region.LiesIn.contains_offsetAt_iff` — a position is in the value exactly if it is on the line of
  the value and no further to the right than the value is wide.
* `Embedded.Joins.toLocal?_inline_iff`, `Embedded.Joins.toHost?_inline` — what shifting the
  character does.
* `Embedded.Carries` — the places of a single region in its text and in the host, whichever way they
  are translated (`Embedded.Joins.carries_inline`, `Embedded.Joins.carries_offset`).
* `shifting_agrees_with_offsets` — the two ways agree on every attribute value of a file.
-/

namespace Mosaic

open Text

/-- The position some characters further to the right. -/
def Position.shift (p : Position) (k : Nat) : Position :=
  ⟨p.line, p.character + k⟩

namespace Region

variable {source : Text} {r : Region} {p : Position} {k n : Nat}

/-- A region cuts its source into what is before it, its text, and what is behind it. -/
lemma LiesIn.exists_parts (h : r.LiesIn source) :
    ∃ before inner after, source = before ++ (inner ++ after) ∧ r.textIn source = inner ∧
      bytes before = r.start ∧ bytes before + bytes inner = r.stop ∧
      (r.inAttribute → Quoted before inner after) := by
  obtain ⟨before, inner, after, rfl, hstart, hstop, hquoted⟩ := h
  refine ⟨before, inner, after, rfl, ?_, hstart, hstop, hquoted⟩
  rw [textIn, ← hstart, ← hstop, slice_parts]

lemma LiesIn.contains_iff_sub_le (h : r.LiesIn source) (hn : r.start ≤ n) :
    r.contains n ↔ n - r.start ≤ bytes (r.textIn source) := by
  have hsize := Embedded.bytes_textIn h
  have hle := h.start_le_stop
  rw [contains_iff, hsize, size]
  omega

/-- A boundary of the source in a region is one of the text of the region. -/
lemma LiesIn.isBoundary_sub (h : r.LiesIn source) (hn : IsBoundary source n) (hc : r.contains n) :
    IsBoundary (r.textIn source) (n - r.start) := by
  have hle := (h.contains_iff_sub_le (Region.contains_iff.1 hc).1).1 hc
  obtain ⟨before, inner, after, rfl, hinner, hstart, -, -⟩ := h.exists_parts
  rw [hinner] at hle ⊢
  refine IsBoundary.of_shift (a := before) (c := after) ?_ hle
  rwa [hstart, Nat.add_sub_of_le (Region.contains_iff.1 hc).1]

/-! ## Positions in a value -/

/-- A place of a value is to the right of its start, in the source as in the text of the value. -/
lemma LiesIn.exists_shift (h : r.LiesIn source) (hattr : r.inAttribute)
    (hk : IsBoundary (r.textIn source) k) :
    ∃ u ≤ units (r.textIn source), positionAt (r.textIn source) k = ⟨0, u⟩ ∧
      positionAt source (r.start + k) = (positionAt source r.start).shift u := by
  obtain ⟨before, inner, after, rfl, hinner, hstart, -, hquoted⟩ := h.exists_parts
  rw [hinner] at hk ⊢
  have hparts := positionAt_parts before after hk
  obtain ⟨x, y, rfl, rfl⟩ := hk
  have hbreak : '\n' ∉ x := fun hx => (hquoted hattr).noLineFeed (by simp [hx])
  have hlocal : positionAt (x ++ y) (bytes x) = ⟨0, units x⟩ := by
    rw [positionAt, takeBytes_bytes_append, endPosition_of_no_break hbreak, Nat.zero_add]
  refine ⟨units x, by simp, hlocal, ?_⟩
  rw [← hstart, hparts, hlocal]
  rfl

/-- A position that is no further to the right than the value is wide is in the value, as far from
its start as the same position of the text of the value. -/
theorem LiesIn.offsetAt_shift (h : r.LiesIn source) (hattr : r.inAttribute)
    (hk : k ≤ units (r.textIn source)) :
    offsetAt source ((positionAt source r.start).shift k)
      = r.start + offsetAt (r.textIn source) ⟨0, k⟩ := by
  obtain ⟨before, inner, after, rfl, hinner, hstart, -, hquoted⟩ := h.exists_parts
  rw [hinner] at hk ⊢
  have hanchor : positionAt (before ++ (inner ++ after)) r.start = endPosition ⟨0, 0⟩ before := by
    rw [← hstart, positionAt, takeBytes_bytes_append]
  have hshift : (endPosition ⟨0, 0⟩ before).shift k = (endPosition ⟨0, 0⟩ before).plus ⟨0, k⟩ := rfl
  have hend : (⟨0, k⟩ : Position).upTo (endPosition ⟨0, 0⟩ inner) := by
    rw [endPosition_of_no_break (hquoted hattr).noLineFeed, Position.upTo_iff]
    exact Or.inr ⟨rfl, by simpa using hk⟩
  rw [hanchor, hshift, offsetAt_plus, offsetAt_append after hend, hstart]

/-- Reading on within the line goes to the right. -/
lemma endPosition_append_shift (a : Text) {x : Text} (hx : '\n' ∉ x) :
    endPosition ⟨0, 0⟩ (a ++ x) = (endPosition ⟨0, 0⟩ a).shift (units x) := by
  rw [endPosition_append_eq, ← endPosition_eq_plus, endPosition_of_no_break hx]
  rfl

/-- The value of an attribute is between two equal quotes that it does not hold. -/
lemma LiesIn.exists_quotes (h : r.LiesIn source) (hattr : r.inAttribute) :
    ∃ before after q, (q = '"' ∨ q = '\'') ∧
      source = before ++ (q :: (r.textIn source ++ q :: after)) ∧ bytes before + 1 = r.start ∧
      r.start + bytes (r.textIn source) = r.stop ∧ r.textIn source ≠ [] ∧
      '\n' ∉ r.textIn source ∧ '\r' ∉ r.textIn source ∧ q ∉ r.textIn source := by
  obtain ⟨before, inner, after, hsource, hinner, hstart, hstop, hquoted⟩ := h.exists_parts
  obtain ⟨hne, hlf, hcr, q, hq, hno, ⟨front, rfl⟩, ⟨back, rfl⟩⟩ := hquoted hattr
  have hbytes : bytes [q] = 1 := by rcases hq with rfl | rfl <;> rfl
  rw [bytes_append, hbytes] at hstart
  rw [hinner]
  refine ⟨front, back, q, hq, by simp [hsource], hstart, ?_, hne, hlf, hcr, hno⟩
  rw [← hstop, ← hstart, bytes_append, hbytes]

/-- **A position is in the value of an attribute** exactly if it is on its line and no further to
the right than the value is wide: before and behind it there is a quote on the same line. -/
theorem LiesIn.contains_offsetAt_iff (h : r.LiesIn source) (hattr : r.inAttribute) :
    r.contains (offsetAt source p) ↔
      ∃ k ≤ units (r.textIn source), p = (positionAt source r.start).shift k := by
  constructor
  · intro hcontains
    obtain ⟨hlow, hhigh⟩ := Region.contains_iff.1 hcontains
    obtain ⟨front, back, q, hq, hsource, hstart, hstop, -, hbreak, -⟩ := h.exists_quotes hattr
    obtain ⟨hqbreak, hqunits, hqbytes⟩ : '\n' ∉ [q] ∧ units [q] = 1 ∧ bytes [q] = 1 := by
      rcases hq with rfl | rfl <;> exact ⟨by decide, rfl, rfl⟩
    generalize r.textIn source = inner at *
    have hopen : source = (front ++ [q]) ++ (inner ++ q :: back) := by simp [hsource]
    have hclose : source = (front ++ ([q] ++ (inner ++ [q]))) ++ back := by simp [hsource]
    have hanchor : positionAt source r.start = (endPosition ⟨0, 0⟩ front).shift 1 := by
      have hbytes : r.start = bytes (front ++ [q]) := by rw [← hstart, bytes_append, hqbytes]
      rw [hbytes, hopen, positionAt, takeBytes_bytes_append, endPosition_append_shift front hqbreak,
        hqunits]
    -- the position is not before the quote in front of the value
    have hfront : ¬ p.upTo (endPosition ⟨0, 0⟩ front) := by
      intro hle
      have hoffset := offsetAt_le (q :: (inner ++ q :: back)) hle
      rw [← hsource] at hoffset
      omega
    -- and not behind the quote that ends it
    have hback : ¬ ((endPosition ⟨0, 0⟩ front).shift (1 + (units inner + 1))).upTo p := by
      intro hle
      have hline : '\n' ∉ [q] ++ (inner ++ [q]) := by
        simp only [List.mem_append, not_or]
        exact ⟨hqbreak, hbreak, hqbreak⟩
      have hend := endPosition_append_shift front hline
      rw [units_append, units_append, hqunits] at hend
      have hoffset := le_offsetAt back (hend ▸ hle)
      rw [← hclose] at hoffset
      simp only [bytes_append, hqbytes] at hoffset
      omega
    obtain ⟨line, character⟩ := p
    simp only [Position.upTo_iff, Position.shift] at hfront hback
    refine ⟨character - ((endPosition ⟨0, 0⟩ front).character + 1), by omega, ?_⟩
    rw [hanchor]
    simp only [Position.shift, Position.mk.injEq]
    omega
  · rintro ⟨k, hk, rfl⟩
    have hle := (isBoundary_offsetAt (r.textIn source) ⟨0, k⟩).le
    rw [h.offsetAt_shift hattr hk, h.contains_iff_sub_le (Nat.le_add_right ..),
      Nat.add_sub_cancel_left]
    exact hle

end Region

namespace Embedded

variable {e : Embedded} {r : Region} {p q : Position} {k n : Nat}

/-! ## A single region -/

lemma Joins.text_single (h : e.Joins [r]) : e.text = r.textIn e.host.text := by
  rw [h.text, List.flatMap_singleton]

lemma Joins.bytes_single (h : e.Joins [r]) : bytes e.text = r.size := by
  rw [h.text_single, bytes_textIn (h.liesIn r (by simp))]

/-- A place of the text is as far behind the start of the region in the host. -/
lemma Joins.toHost_single (h : e.Joins [r]) {k : Nat} (hk : IsBoundary e.text k) :
    (⟨r, 0⟩ : Segment).toHost k = r.start + k := by
  have hle : k ≤ r.size := h.bytes_single ▸ hk.le
  rw [Segment.toHost, Region.toHost, Nat.sub_zero, Nat.min_eq_left hle]

lemma Joins.anchor?_eq (h : e.Joins [r]) : e.anchor? = some (positionAt e.host.text r.start) := by
  rw [anchor?, h.segments]
  rfl

/-- A host position is translated by its distance from the start of the value, if it is in it. -/
theorem Joins.toLocal?_inline_iff (h : e.Joins [r]) (hmode : e.mode = .inline) :
    e.toLocal? p = some q ↔
      ∃ k ≤ units e.text, p = (positionAt e.host.text r.start).shift k ∧ q = ⟨0, k⟩ := by
  simp only [toLocal?, hmode, h.anchor?_eq, Option.bind_eq_bind, Option.bind_some,
    Option.ite_none_right_eq_some, Option.some.injEq]
  constructor
  · rintro ⟨⟨hline, hle, hwidth⟩, rfl⟩
    refine ⟨_, hwidth, ?_, rfl⟩
    rw [Position.shift, ← hline, Nat.add_sub_cancel' hle]
  · rintro ⟨k, hk, rfl, rfl⟩
    simp only [Position.shift, Nat.le_add_right, Nat.add_sub_cancel_left, hk, and_self]

/-- A local position goes as far to the right from the start of the value as its character, as long
as that can be sent. -/
lemma Joins.toHost?_inline (h : e.Joins [r]) (hmode : e.mode = .inline) (p : Position) :
    e.toHost? p = if (positionAt e.host.text r.start).character + p.character < wordLimit
      then some ((positionAt e.host.text r.start).shift p.character) else none := by
  simp only [toHost?, hmode, h.anchor?_eq]
  rfl

/-- The places between characters of a single region, in its text and in the host. -/
structure Carries (e : Embedded) (r : Region) : Prop where
  /-- A host place goes to its distance from the start of the region, if it is in the region. -/
  toLocal : ∀ n, IsBoundary e.host.text n → e.toLocal? (positionAt e.host.text n)
    = if r.contains n then some (positionAt e.text (n - r.start)) else none
  /-- A local place goes as far behind the start of the region. -/
  toHost : ∀ k, IsBoundary e.text k →
    e.toHost? (positionAt e.text k) = some (positionAt e.host.text (r.start + k))
  /-- And so do both ends of a range. -/
  rangeToHost : ∀ k l, k ≤ l → IsBoundary e.text k → IsBoundary e.text l →
    e.rangeToHost? (rangeOf e.text k l) = some (rangeOf e.host.text (r.start + k) (r.start + l))

/-- **By shifting the character** the places of an attribute value are carried over. -/
theorem Joins.carries_inline (h : e.Joins [r]) (hmode : e.mode = .inline) (hattr : r.inAttribute)
    (hsize : bytes e.host.text < wordLimit) : e.Carries r := by
  have hlies := h.liesIn r (by simp)
  have htext := h.text_single
  have htoHost (k : Nat) (hk : IsBoundary e.text k) :
      e.toHost? (positionAt e.text k) = some (positionAt e.host.text (r.start + k)) := by
    obtain ⟨u, hu, hlocal, hhost⟩ := hlies.exists_shift hattr (htext ▸ hk)
    have hfits := h.fits hsize (htext ▸ hu)
    rw [h.toHost?_inline hmode, hhost, htext, hlocal, if_pos hfits]
  refine ⟨fun n hn => ?_, htoHost, fun k l _ hk hl => ?_⟩
  · split_ifs with hc
    · obtain ⟨u, hu, hlocal, hhost⟩ := hlies.exists_shift hattr (hlies.isBoundary_sub hn hc)
      rw [Nat.add_sub_cancel' (Region.contains_iff.1 hc).1] at hhost
      exact (h.toLocal?_inline_iff hmode).2 ⟨u, htext ▸ hu, hhost, htext ▸ hlocal⟩
    · rw [Option.eq_none_iff_forall_ne_some]
      intro q hq
      obtain ⟨u, hu, hshift, -⟩ := (h.toLocal?_inline_iff hmode).1 hq
      have hin := (hlies.contains_offsetAt_iff hattr).2 ⟨u, htext ▸ hu, hshift⟩
      rw [offsetAt_positionAt_of_boundary hn] at hin
      exact hc hin
  · simp only [rangeToHost?, hmode, rangeOf, htoHost k hk, htoHost l hl, Option.bind_eq_bind,
      Option.bind_some]

/-- **Through byte offsets** the places of a single region are carried over. -/
theorem Joins.carries_offset (h : e.Joins [r]) (hmode : e.mode = .offset) : e.Carries r := by
  have hsegments : e.segments = [⟨r, 0⟩] := h.segments
  have hsize := h.bytes_single
  have hat (k : Nat) : e.segmentAt? k = some ⟨r, 0⟩ := by
    simp [segmentAt?, hsegments]
  refine ⟨fun n hn => ?_, fun k hk => ?_, fun k l hkl hk hl => ?_⟩
  · simp only [toLocal?, hmode, Snapshot.offsetAt, offsetAt_positionAt_of_boundary hn,
      offsetToLocal?, hsegments, List.findSome?_cons, List.findSome?_nil, Region.toLocal?]
    split_ifs <;> simp
  · simp only [toHost?, hmode, Snapshot.positionAt, offsetAt_positionAt_of_boundary hk,
      offsetToHost, hat, h.toHost_single hk]
  · have hend : l ≤ (⟨r, 0⟩ : Segment).localStop := by
      have hle := hl.le
      simp only [Segment.localStop]
      omega
    simp only [rangeToHost?, hmode, Snapshot.positionAt, rangeOf,
      offsetAt_positionAt_of_boundary hk, offsetAt_positionAt_of_boundary hl, max_eq_right hkl,
      spanToHost, hat, if_pos hend, h.toHost_single hk, h.toHost_single hl]

/-- The same document, with its places translated through byte offsets. -/
def throughOffsets (e : Embedded) : Embedded :=
  { e with mode := .offset }

/-- What is carried over two ways comes out the same. -/
lemma Carries.rangeToLocal? {e' : Embedded} (h : e.Carries r) (h' : e'.Carries r)
    (htext : e'.text = e.text) (hhost : e'.host = e.host) {m n : Nat}
    (hm : IsBoundary e.host.text m) (hn : IsBoundary e.host.text n) :
    e.rangeToLocal? (rangeOf e.host.text m n) = e'.rangeToLocal? (rangeOf e.host.text m n) := by
  have htoLocal (n : Nat) (hn : IsBoundary e.host.text n) :
      e'.toLocal? (positionAt e.host.text n) = e.toLocal? (positionAt e.host.text n) := by
    rw [h.toLocal n hn, ← htext, ← hhost, h'.toLocal n (hhost ▸ hn)]
  simp only [Embedded.rangeToLocal?, rangeOf, htoLocal m hm, htoLocal n hn]

end Embedded

/-- **Shifting the character agrees with going through byte offsets.**  The value of an attribute is
not empty, holds no line break, and stands between two equal quotes that it does not hold.  So every
place between characters of the host or of the value, and every range of such places, goes the same
way by either translation. -/
theorem shifting_agrees_with_offsets (options : ScanOptions) (uri language : String) (version : Int)
    (source : Text) (hsize : bytes source < wordLimit) (r : Region) (hr : r ∈ scan options source)
    (hattr : r.inAttribute) :
    let file := Snapshot.ofText options uri language version source
    let e := Embedded.ofRegion file r
    let e' := e.throughOffsets
    Embedded.forRequest file r = e ∧ e.mode = .inline ∧
    (∃ before after q, (q = '"' ∨ q = '\'') ∧ source = before ++ (q :: (e.text ++ q :: after)) ∧
      bytes before + 1 = r.start ∧ r.start + bytes e.text = r.stop ∧
      e.text ≠ [] ∧ '\n' ∉ e.text ∧ '\r' ∉ e.text ∧ q ∉ e.text) ∧
    e.Carries r ∧
    (∀ n, IsBoundary source n →
      e.toLocal? (positionAt source n) = e'.toLocal? (positionAt source n)) ∧
    (∀ m n, IsBoundary source m → IsBoundary source n →
      e.rangeToLocal? (rangeOf source m n) = e'.rangeToLocal? (rangeOf source m n)) ∧
    (∀ k, IsBoundary e.text k →
      e.toHost? (positionAt e.text k) = e'.toHost? (positionAt e.text k)) ∧
    ∀ k l, k ≤ l → IsBoundary e.text k → IsBoundary e.text l →
      e.rangeToHost? (rangeOf e.text k l) = e'.rangeToHost? (rangeOf e.text k l) := by
  intro file e e'
  have hlies := scan_liesIn hr
  have hmode : e.mode = .inline := if_pos hattr
  have hjoins : e.Joins [r] :=
    ⟨by simp [e, Embedded.ofRegion], rfl, List.forall_mem_singleton.2 hlies,
      List.pairwise_singleton ..⟩
  have hjoins' : e'.Joins [r] := ⟨hjoins.text, hjoins.segments, hjoins.liesIn, hjoins.pairwise⟩
  have hcarries : e.Carries r := hjoins.carries_inline hmode hattr hsize
  have hcarries' : e'.Carries r := hjoins'.carries_offset rfl
  refine ⟨if_pos hattr, hmode, hlies.exists_quotes hattr, hcarries, fun n hn => ?_,
    fun m n hm hn => ?_, fun k hk => ?_, fun k l hkl hk hl => ?_⟩
  · exact (hcarries.toLocal n hn).trans (hcarries'.toLocal n hn).symm
  · exact hcarries.rangeToLocal? hcarries' rfl rfl hm hn
  · exact (hcarries.toHost k hk).trans (hcarries'.toHost k hk).symm
  · exact (hcarries.rangeToHost k l hkl hk hl).trans (hcarries'.rangeToHost k l hkl hk hl).symm

/-- A value that starts with a letter beyond the basic plane, with others before it on the line. -/
theorem shifting_agrees_with_offsets_astral :
    let source : Text := "<p>é😀</p><p style='😀:x'/>".toList
    let r : Region := .ofAttribute "css" 23 29
    let e := Embedded.ofRegion (.ofText {} "file:///a" "sfc" 1 source) r
    bytes source < wordLimit ∧ r ∈ scan {} source ∧ r.inAttribute ∧
      e.toHost? ⟨0, 2⟩ = some ⟨0, 22⟩ ∧ e.throughOffsets.toHost? ⟨0, 2⟩ = some ⟨0, 22⟩ := by
  intro source r e
  have hsize : bytes source < wordLimit := by decide +kernel
  have hr : r ∈ scan {} source := by decide +kernel
  have hplace : positionAt e.text 4 = ⟨0, 2⟩ := by decide +kernel
  have hk : IsBoundary e.text 4 := ⟨['😀'], [':', 'x'], by decide +kernel, by decide +kernel⟩
  obtain ⟨-, -, -, hcarries, -, -, hsame, -⟩ := shifting_agrees_with_offsets {} "file:///a" "sfc" 1
    source hsize r hr rfl
  have hhost : positionAt source 27 = ⟨0, 22⟩ := by decide +kernel
  have hto : e.toHost? ⟨0, 2⟩ = some ⟨0, 22⟩ := by rw [← hplace, hcarries.toHost 4 hk, ← hhost]; rfl
  refine ⟨hsize, hr, rfl, hto, ?_⟩
  rw [← hto, ← hplace]
  exact (hsame 4 hk).symm

end Mosaic
