import Mosaic.Proofs.LinePosition
import Mosaic.Proofs.RegionSpacing

/-!
# Embedded texts and their host

An embedded document joins the texts of some regions (`Embedded.Joins`), so each segment is a part
of the embedded text and a part of the host text at once.  A place of the embedded text is a place
of the segment that `Embedded.segmentAt?` finds for it, whichever of two segments that meet there it
is.

* `Embedded.Joins.segmentAt?_spec` — every offset of the embedded text has a segment around it.
* `Embedded.Joins.isBoundary_toHost` — a boundary of the embedded text goes to one of the host text.
* `place_round_trip` — a place between characters of the embedded text goes to the host and back.
-/

namespace Mosaic

open Text

/-! ## Parts of a text -/

namespace Text

/-- A boundary of the whole text that stands in a part of it is a boundary of the part. -/
lemma IsBoundary.of_shift {a b c : Text} {n : Nat} (h : IsBoundary (a ++ (b ++ c)) (bytes a + n))
    (hn : n ≤ bytes b) : IsBoundary b n := by
  have ha : IsBoundary (a ++ (b ++ c)) (bytes a) := ⟨a, b ++ c, rfl, rfl⟩
  have hb : IsBoundary (a ++ (b ++ c)) (bytes a + bytes b) := ⟨a ++ b, c, by simp, bytes_append a b⟩
  obtain ⟨a', x, y, he, ha', hx⟩ := ha.parts h (Nat.le_add_right ..)
  have hfront : a' = a := by
    rw [← takeBytes_bytes_append a' (x ++ y), ← he, ha', takeBytes_bytes_append]
  subst hfront
  have hxy := List.append_cancel_left he
  rcases List.append_eq_append_iff.1 hxy with ⟨z, rfl, rfl⟩ | ⟨z, rfl, rfl⟩
  · -- the boundary stands at the end of the part
    have hz : z = [] := eq_nil_of_bytes (by rw [bytes_append] at hx; omega)
    subst hz
    exact ⟨b, [], by simp, by simp at hx; omega⟩
  · exact ⟨x, z, rfl, by omega⟩

/-- A character takes two units only beyond the basic plane, where it takes four bytes. -/
lemma charUnits_le_utf8Size (c : Char) : charUnits c ≤ c.utf8Size := by
  have hpos := c.utf8Size_pos
  unfold charUnits
  split
  · exact hpos
  next h =>
    have hn : c.toNat = c.val.toNat := rfl
    unfold Char.utf8Size
    simp only [UInt32.le_iff_toNat_le, UInt32.toNat_ofNatLT]
    split_ifs <;> omega

lemma units_le_bytes (t : Text) : units t ≤ bytes t := by
  induction t with
  | nil => exact Nat.le_refl 0
  | cons c r ih =>
    have hc := charUnits_le_utf8Size c
    rw [units_cons, bytes_cons]
    omega

lemma character_endPosition_le (p : Position) (t : Text) :
    (endPosition p t).character ≤ p.character + units t := by
  induction t generalizing p with
  | nil => exact Nat.le_refl _
  | cons c r ih =>
    have hc : (p.advance c).character ≤ p.character + charUnits c := by
      unfold Position.advance
      split
      · exact Nat.zero_le _
      · exact Nat.le_refl _
    have := ih (p.advance c)
    rw [endPosition_cons, units_cons]
    omega

/-- No character is counted beyond the bytes before the offset. -/
lemma character_positionAt_le {t : Text} {n : Nat} (h : IsBoundary t n) :
    (positionAt t n).character ≤ n := by
  have h1 : _ ≤ 0 + units (takeBytes n t) := character_endPosition_le ⟨0, 0⟩ (takeBytes n t)
  have h2 := units_le_bytes (takeBytes n t)
  have h3 := isBoundary_iff.1 h
  unfold positionAt
  omega

end Text

/-! ## Joined regions -/

namespace Embedded

/-- The embedded text is that of the regions, one after the other, which are parts of the host in
ascending order. -/
structure Joins (e : Embedded) (rs : List Region) : Prop where
  text : e.text = rs.flatMap (·.textIn e.host.text)
  segments : e.segments = segmentsFrom e.host.text 0 rs
  liesIn : ∀ r ∈ rs, r.LiesIn e.host.text
  pairwise : rs.Pairwise Region.Before

/-- The embedded document of a language joins the blocks of the language. -/
lemma joins_ofLanguage (options : ScanOptions) (uri id : String) (version : Int) (source : Text)
    (language : String) :
    (ofLanguage (.ofText options uri id version source) language).Joins
      (blocksOf (.ofText options uri id version source) language) :=
  ⟨rfl, rfl, fun _ hr => scan_liesIn (List.mem_filter.1 hr).1,
    (scan_pairwise options source).filter _⟩

/-- Embedded documents of a file join regions of it. -/
theorem Of.joins {options : ScanOptions} {uri language : String} {version : Int} {source : Text}
    {e : Embedded} (he : e.Of (.ofText options uri language version source)) :
    e.host.text = source ∧ ∃ rs, e.Joins rs ∧
      (e.mode = .inline → ∃ r, rs = [r] ∧ r.inAttribute) := by
  rcases he with ⟨l, rfl⟩ | ⟨r, hr, rfl⟩
  · exact ⟨rfl, _, joins_ofLanguage options uri language version source l, nofun⟩
  · refine ⟨rfl, [r], ⟨by simp [ofRegion], rfl, ?_, List.pairwise_singleton ..⟩, fun hm => ?_⟩
    · intro r' hr'
      rw [List.mem_singleton.1 hr']
      exact scan_liesIn hr
    · refine ⟨r, rfl, ?_⟩
      by_contra hb
      simp [ofRegion, hb] at hm

variable {e : Embedded} {rs : List Region} {s : Segment} {n : Nat}

/-- The text of a region that lies in a source is as long as the region. -/
lemma bytes_textIn {source : Text} {r : Region} (h : r.LiesIn source) :
    bytes (r.textIn source) = r.size :=
  bytes_slice h.isBoundary_start h.isBoundary_stop h.start_le_stop

lemma contains_toHost (h : s.region.start ≤ s.region.stop) (n : Nat) :
    s.region.contains (s.toHost n) := by
  simp only [Region.contains_iff, Segment.toHost, Region.toHost, Region.size]
  omega

lemma toHost_of_le (h : n ≤ s.localStop) : s.toHost n = s.region.start + (n - s.localStart) := by
  simp only [Segment.localStop] at h
  rw [Segment.toHost, Region.toHost, Nat.min_eq_left (by omega)]

lemma toHost_mono {m : Nat} (s : Segment) (hmn : m ≤ n) : s.toHost m ≤ s.toHost n := by
  simp only [Segment.toHost, Region.toHost]
  omega

/-- Each segment starts where the text of its region starts. -/
lemma mem_segmentsFrom {host : Text} {k : Nat} (h : s ∈ segmentsFrom host k rs) :
    s.region ∈ rs ∧ ∃ a b, rs.flatMap (·.textIn host) = a ++ (s.region.textIn host ++ b) ∧
      s.localStart = k + bytes a := by
  induction rs generalizing k with
  | nil => exact absurd h (by simp [segmentsFrom])
  | cons r rs ih =>
    rcases List.mem_cons.1 h with rfl | h
    · exact ⟨by simp, [], rs.flatMap (·.textIn host), by simp, rfl⟩
    · obtain ⟨hr, a, b, he, hk⟩ := ih h
      refine ⟨by simp [hr], r.textIn host ++ a, b, ?_, by rw [hk, bytes_append, Nat.add_assoc]⟩
      rw [List.flatMap_cons, he, List.append_assoc]

/-- Of consecutive segments the last one that starts at an offset or before has it between its two
ends. -/
lemma exists_segmentAt {host : Text} {k : Nat} (hne : rs ≠ [])
    (hlies : ∀ r ∈ rs, r.LiesIn host) (hk : k ≤ n)
    (hn : n ≤ k + bytes (rs.flatMap (·.textIn host))) :
    ∃ s ∈ segmentsFrom host k rs, s.localStart ≤ n ∧ n ≤ s.localStop ∧
      ((segmentsFrom host k rs).takeWhile (·.localStart ≤ n)).getLast? = some s := by
  induction rs generalizing k with
  | nil => exact absurd rfl hne
  | cons r rs ih =>
    have hsize := bytes_textIn (hlies r (by simp))
    rw [List.flatMap_cons, bytes_append] at hn
    rw [segmentsFrom, List.takeWhile_cons, if_pos (by simpa using hk), List.getLast?_cons]
    by_cases hlater : rs ≠ [] ∧ k + bytes (r.textIn host) ≤ n
    · obtain ⟨s, hs, h1, h2, hlast⟩ := ih hlater.1 (fun r hr => hlies r (by simp [hr])) hlater.2
        (by omega)
      exact ⟨s, List.mem_cons_of_mem _ hs, h1, h2, by rw [hlast]; rfl⟩
    · -- no later segment starts at the offset or before
      have hnone : (segmentsFrom host (k + bytes (r.textIn host)) rs).takeWhile
          (·.localStart ≤ n) = [] := by
        cases rs with
        | nil => rfl
        | cons r' rs =>
          have : ¬ k + bytes (r.textIn host) ≤ n := fun h => hlater ⟨by simp, h⟩
          simp [segmentsFrom, this]
      refine ⟨⟨r, k⟩, by simp, hk, ?_, by rw [hnone]; rfl⟩
      show n ≤ k + r.size
      rw [← hsize]
      by_cases hrs : rs = []
      · subst hrs
        simpa using hn
      · have : ¬ k + bytes (r.textIn host) ≤ n := fun h => hlater ⟨hrs, h⟩
        omega

/-- The region of a segment lies in the host. -/
lemma Joins.liesIn_segment (h : e.Joins rs) (hs : s ∈ e.segments) :
    s.region.LiesIn e.host.text :=
  h.liesIn _ (mem_segmentsFrom (h.segments ▸ hs)).1

/-- The text of a segment is a part of the embedded text. -/
lemma Joins.text_segment (h : e.Joins rs) (hs : s ∈ e.segments) :
    ∃ a b, e.text = a ++ (s.region.textIn e.host.text ++ b) ∧ bytes a = s.localStart := by
  obtain ⟨-, a, b, htext, hstart⟩ := mem_segmentsFrom (h.segments ▸ hs)
  exact ⟨a, b, by rw [h.text, htext], by rw [hstart, Nat.zero_add]⟩

/-- The segments of joined regions with any text. -/
lemma Joins.segments_ne_nil (h : e.Joins rs) (hpos : 0 < bytes e.text) : e.segments ≠ [] := by
  intro hnil
  have hrs : rs = [] := by
    cases rs with
    | nil => rfl
    | cons r rs => simp [h.segments, segmentsFrom] at hnil
  simp [h.text, hrs] at hpos

/-- **Every offset of the embedded text has a segment around it**, and it is the one found. -/
theorem Joins.segmentAt?_spec (h : e.Joins rs) (hne : e.segments ≠ []) (hn : n ≤ bytes e.text) :
    ∃ s ∈ e.segments, s.localStart ≤ n ∧ n ≤ s.localStop ∧ e.segmentAt? n = some s := by
  have hrs : rs ≠ [] := by
    rintro rfl
    exact hne h.segments
  unfold segmentAt?
  rw [h.segments]
  exact exists_segmentAt hrs h.liesIn (Nat.zero_le n) (by rw [← h.text]; omega)

/-- The text around an offset of a segment, in the embedded text and in the host. -/
lemma Joins.isBoundary_toHost (h : e.Joins rs) (hs : s ∈ e.segments) (hle : s.localStart ≤ n)
    (hge : n ≤ s.localStop) (hn : IsBoundary e.text n) :
    IsBoundary e.host.text (s.toHost n) := by
  obtain ⟨a, b, htext, hstart⟩ := h.text_segment hs
  have hlies := h.liesIn_segment hs
  have hsize := bytes_textIn hlies
  have hsplit : n = bytes a + (n - s.localStart) := by omega
  rw [htext, hsplit] at hn
  have hlocal : n - s.localStart ≤ s.region.size := by
    unfold Segment.localStop at hge
    omega
  have hpart := hn.of_shift (by omega)
  rw [toHost_of_le hge]
  exact IsBoundary.of_slice hlies.isBoundary_start hlies.isBoundary_stop hlies.start_le_stop hpart

/-- A host offset in the region of a segment goes as far behind the start of the segment. -/
lemma Joins.offsetToLocal?_eq (h : e.Joins rs) (hs : s ∈ e.segments) (hc : s.region.contains n) :
    e.offsetToLocal? n = some (s.localStart + (n - s.region.start)) := by
  have hpair : (e.segments.map (·.region)).Pairwise Region.Before := by
    rw [h.segments, map_region_segmentsFrom]
    exact h.pairwise
  exact (findSome?_toLocal?_eq_some_iff hpair).2 ⟨s, hs, hc, rfl⟩

/-- The host offset of an offset of a segment is found again in that segment. -/
lemma Joins.offsetToLocal?_toHost (h : e.Joins rs) (hs : s ∈ e.segments) (hle : s.localStart ≤ n)
    (hge : n ≤ s.localStop) : e.offsetToLocal? (s.toHost n) = some n := by
  have hlies := (h.liesIn_segment hs).start_le_stop
  have hback : s.localStart + (s.toHost n - s.region.start) = n := by
    rw [toHost_of_le hge]
    omega
  rw [h.offsetToLocal?_eq hs (contains_toHost hlies n), hback]

/-! ## Places -/

/-- Through byte offsets, a place between characters goes to the host and back. -/
lemma Joins.toLocal?_toHost?_offset (h : e.Joins rs) (hmode : e.mode = .offset)
    (hne : e.segments ≠ []) (hn : IsBoundary e.text n) :
    (e.toHost? (positionAt e.text n)).bind e.toLocal? = some (positionAt e.text n) := by
  obtain ⟨s, hs, hle, hge, hat⟩ := h.segmentAt?_spec hne hn.le
  have hhost := h.isBoundary_toHost hs hle hge hn
  have hto : e.offsetToHost n = s.toHost n := by rw [offsetToHost, hat]
  simp only [toHost?, toLocal?, hmode, Option.bind_some, Snapshot.positionAt, Snapshot.offsetAt]
  rw [offsetAt_positionAt_of_boundary hn, hto, offsetAt_positionAt_of_boundary hhost,
    h.offsetToLocal?_toHost hs hle hge, Option.map_some]

/-- No character of a single region stands so far to the right that it cannot be sent. -/
lemma Joins.fits {r : Region} (h : e.Joins [r]) (hsize : bytes e.host.text < wordLimit)
    (hn : n ≤ units e.text) : (positionAt e.host.text r.start).character + n < wordLimit := by
  have hlies := h.liesIn r (by simp)
  have hbytes : bytes e.text = r.stop - r.start := by
    rw [h.text, List.flatMap_singleton, bytes_textIn hlies]
    rfl
  have h1 := character_positionAt_le hlies.isBoundary_start
  have h2 := units_le_bytes e.text
  have h3 := hlies.isBoundary_stop.le
  have h4 := hlies.start_le_stop
  omega

/-- The value of an attribute stays on its line, so that shifting the character goes to the host and
back. -/
lemma Joins.toLocal?_toHost?_inline {r : Region} (h : e.Joins [r]) (hmode : e.mode = .inline)
    (hr : r.inAttribute) (hsize : bytes e.host.text < wordLimit) (hn : IsBoundary e.text n) :
    (e.toHost? (positionAt e.text n)).bind e.toLocal? = some (positionAt e.text n) := by
  obtain ⟨before, inner, after, hsource, hstart, hstop, hquoted⟩ := h.liesIn r (by simp)
  have hslice : e.text = inner := by
    rw [h.text, List.flatMap_singleton, Region.textIn, hsource, ← hstart, ← hstop, slice_parts]
  obtain ⟨x, y, hxy, rfl⟩ := hn
  rw [hslice] at hxy
  have hnobreak : '\n' ∉ x := fun hx => (hquoted hr).noLineFeed (by simp [hxy, hx])
  have hlocal : positionAt e.text (bytes x) = ⟨0, units x⟩ := by
    rw [hslice, hxy, positionAt, takeBytes_bytes_append, endPosition_of_no_break hnobreak,
      Nat.zero_add]
  have hanchor : e.anchor? = some (positionAt e.host.text r.start) := by
    rw [anchor?, h.segments]
    rfl
  have hunits : units x ≤ units e.text := by simp [hslice, hxy]
  have hfits := h.fits hsize hunits
  simp only [hlocal, toHost?, toLocal?, hmode, hanchor, if_pos hfits, Option.bind_some,
    Option.bind_eq_bind, Nat.le_add_right, Nat.add_sub_cancel_left, hunits, and_self, if_true]

end Embedded

/-- **To the host and back**: in every embedded document of a file, whether it joins the blocks of a
language or is a single region, a place between two characters of its text goes to a place of the
host that comes back as itself. -/
theorem place_round_trip (options : ScanOptions) (uri language : String) (version : Int)
    (source : Text) (hsize : bytes source < wordLimit) (e : Embedded)
    (he : e.Of (.ofText options uri language version source)) (hne : e.segments ≠ [])
    (n : Nat) (hn : IsBoundary e.text n) :
    (e.toHost? (positionAt e.text n)).bind e.toLocal? = some (positionAt e.text n) := by
  obtain ⟨hhost, rs, hjoins, hinline⟩ := he.joins
  cases hmode : e.mode with
  | offset => exact hjoins.toLocal?_toHost?_offset hmode hne hn
  | inline =>
    obtain ⟨r, rfl, hr⟩ := hinline hmode
    exact hjoins.toLocal?_toHost?_inline hmode hr (hhost ▸ hsize) hn

/-- A place in the second of two blocks. -/
theorem place_round_trip_second_block :
    let source : Text := "<style>a{}</style><style>é{}</style>".toList
    let e := Embedded.ofLanguage (.ofText {} "file:///a" "mosaic" 1 source) "css"
    bytes source < wordLimit ∧ e.segments ≠ [] ∧
      (e.toHost? (positionAt e.text 5)).bind e.toLocal? = some ⟨0, 4⟩ := by
  have hsize : bytes "<style>a{}</style><style>é{}</style>".toList < wordLimit := by
    decide +kernel
  have hne : (Embedded.ofLanguage (.ofText {} "file:///a" "mosaic" 1
      "<style>a{}</style><style>é{}</style>".toList) "css").segments ≠ [] := by decide +kernel
  have htext : (Embedded.ofLanguage (.ofText {} "file:///a" "mosaic" 1
      "<style>a{}</style><style>é{}</style>".toList) "css").text = "a{}é{}".toList := by
    decide +kernel
  have hn : IsBoundary "a{}é{}".toList 5 := ⟨"a{}é".toList, "{}".toList, by decide, by decide⟩
  have h := place_round_trip {} "file:///a" "mosaic" 1 _ hsize _ (Or.inl ⟨"css", rfl⟩) hne 5
    (by rw [htext]; exact hn)
  refine ⟨hsize, hne, h.trans ?_⟩
  rw [htext]
  decide +kernel

end Mosaic
