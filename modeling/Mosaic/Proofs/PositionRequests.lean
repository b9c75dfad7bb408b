import Mosaic.Proofs.ActionRoundTrip
import Mosaic.Proofs.InlinePlaces

/-!
# Requests at any position

A request may be about a position that is no place of the file: behind the end of a line, behind the
last line, or inside a character.  The region of the request is the one around the offset that such
a position is taken for, and the local position is made from that offset too, or in the value of an
attribute from the position as it is.  Both ways the adapter is asked about the same place.

* `Embedded.SamePlace` — an offset of the host and one of the embedded text between the same two
  texts of a region.
* `Embedded.Of.exists_toLocal` — every position that is taken for an offset of a segment has a local
  position at the same place.
* `position_requests_arrive` — once a position has a region with an adapter, every request at it is
  a call about the same place of the document of the request.
-/

namespace Mosaic

open Text

/-- The region under a position is the one that contains the offset which it is taken for. -/
lemma Snapshot.regionUnder?_ofText_iff {options : ScanOptions} {uri language : String}
    {version : Int} {source : Text} {p : Position} {region : Region} :
    (ofText options uri language version source).regionUnder? p = some region ↔
      region ∈ scan options source ∧ region.contains (Text.offsetAt source p) :=
  find?_contains_eq_some_iff (scan_pairwise options source)

namespace Embedded

/-- An offset of the host and one of the embedded text are the same place of a segment: as far from
its start, and between the same two texts of its region. -/
structure SamePlace (e : Embedded) (s : Segment) (n k : Nat) : Prop where
  mem : s ∈ e.segments
  contains : s.region.contains n
  offset : k = s.localStart + (n - s.region.start)
  before : slice s.localStart k e.text = slice s.region.start n e.host.text
  behind : slice k s.localStop e.text = slice n s.region.stop e.host.text

variable {e : Embedded} {rs : List Region} {s : Segment} {n : Nat} {p : Position}

/-- What stands between two places of a segment is the same in the embedded text and in the host. -/
lemma Joins.slice_segment {m n : Nat} (h : e.Joins rs) (hs : s ∈ e.segments)
    (hm : IsBoundary (s.region.textIn e.host.text) m)
    (hn : IsBoundary (s.region.textIn e.host.text) n) (hmn : m ≤ n) :
    slice (s.localStart + m) (s.localStart + n) e.text
      = slice (s.region.start + m) (s.region.start + n) e.host.text := by
  obtain ⟨a, b, htext, hlocal⟩ := h.text_segment hs
  obtain ⟨before, inner, after, hhost, hinner, hstart, -⟩ := (h.liesIn_segment hs).exists_parts
  rw [hinner] at hm hn htext
  calc slice (s.localStart + m) (s.localStart + n) e.text
      = slice m n inner := by rw [← hlocal, htext, slice_inside a b hm hn hmn]
    _ = slice (s.region.start + m) (s.region.start + n) e.host.text := by
        rw [← hstart, hhost, slice_inside before after hm hn hmn]

/-- A boundary in the region of a segment is the same place as the one as far behind the start of
the segment. -/
lemma Joins.samePlace (h : e.Joins rs) (hs : s ∈ e.segments) (hc : s.region.contains n)
    (hn : IsBoundary e.host.text n) : e.SamePlace s n (s.localStart + (n - s.region.start)) := by
  have hlies := h.liesIn_segment hs
  have hcut := hlies.isBoundary_sub hn hc
  have hfull := IsBoundary.full (s.region.textIn e.host.text)
  have hplace : s.region.start + (n - s.region.start) = n :=
    Nat.add_sub_of_le (Region.contains_iff.1 hc).1
  have hstop : s.region.start + bytes (s.region.textIn e.host.text) = s.region.stop := by
    rw [bytes_textIn hlies, Region.size, Nat.add_sub_of_le hlies.start_le_stop]
  have hlocalStop : s.localStart + bytes (s.region.textIn e.host.text) = s.localStop := by
    rw [bytes_textIn hlies, Segment.localStop]
  refine ⟨hs, hc, rfl, ?_, ?_⟩
  · have hbefore := h.slice_segment hs (.zero _) hcut (Nat.zero_le _)
    rwa [hplace, Nat.add_zero, Nat.add_zero] at hbefore
  · have hbehind := h.slice_segment hs hcut hfull hcut.le
    rwa [hplace, hstop, hlocalStop] at hbehind

/-- Through byte offsets: the position is made local as the offset that it is taken for. -/
lemma Joins.exists_toLocal_offset (h : e.Joins rs) (hmode : e.mode = .offset)
    (hs : s ∈ e.segments) (hc : s.region.contains (e.host.offsetAt p)) :
    ∃ q, e.toLocal? p = some q ∧ e.SamePlace s (e.host.offsetAt p) (offsetAt e.text q) := by
  have hn : IsBoundary e.host.text (e.host.offsetAt p) := isBoundary_offsetAt ..
  have hto := h.offsetToLocal?_eq hs hc
  refine ⟨positionAt e.text (s.localStart + (e.host.offsetAt p - s.region.start)), ?_, ?_⟩
  · simp only [toLocal?, hmode, hto, Option.map_some]
  · rw [offsetAt_positionAt_of_boundary (h.isBoundary_toLocal hs hc hn)]
    exact h.samePlace hs hc hn

/-- By shifting the character: the position is made local as it is, and then taken for the same
offset. -/
lemma Joins.exists_toLocal_inline {r : Region} (h : e.Joins [r]) (hmode : e.mode = .inline)
    (hattr : r.inAttribute) (hs : s ∈ e.segments) (hc : s.region.contains (e.host.offsetAt p)) :
    ∃ q, e.toLocal? p = some q ∧ e.SamePlace s (e.host.offsetAt p) (offsetAt e.text q) := by
  have hlies := h.liesIn r (by simp)
  have hn : IsBoundary e.host.text (e.host.offsetAt p) := isBoundary_offsetAt ..
  obtain rfl : s = ⟨r, 0⟩ := by simpa [h.segments, segmentsFrom] using hs
  obtain ⟨k, hk, rfl⟩ := (hlies.contains_offsetAt_iff hattr).1 hc
  have hoffset := hlies.offsetAt_shift hattr hk
  rw [← h.text_single] at hk hoffset
  refine ⟨⟨0, k⟩, (h.toLocal?_inline_iff hmode).2 ⟨k, hk, rfl, rfl⟩, ?_⟩
  have hplace := h.samePlace hs hc hn
  have hlocal : 0 + (e.host.offsetAt ((positionAt e.host.text r.start).shift k) - r.start)
      = offsetAt e.text ⟨0, k⟩ := by
    rw [Snapshot.offsetAt, hoffset, Nat.zero_add, Nat.add_sub_cancel_left]
  rwa [hlocal] at hplace

/-- **Every position that is taken for an offset of a segment has a local position**, and it is at
the same place. -/
theorem Of.exists_toLocal {options : ScanOptions} {uri language : String} {version : Int}
    {source : Text} (he : e.Of (.ofText options uri language version source))
    (hs : s ∈ e.segments) (hc : s.region.contains (e.host.offsetAt p)) :
    ∃ q, e.toLocal? p = some q ∧ e.SamePlace s (e.host.offsetAt p) (offsetAt e.text q) := by
  obtain ⟨-, rs, hjoins, hinline⟩ := he.joins
  cases hmode : e.mode with
  | offset => exact hjoins.exists_toLocal_offset hmode hs hc
  | inline =>
    obtain ⟨r, rfl, hattr⟩ := hinline hmode
    exact hjoins.exists_toLocal_inline hmode hattr hs hc

lemma host_forRequest (file : Snapshot) (region : Region) :
    (forRequest file region).host = file := by
  by_cases hattr : region.inAttribute <;> simp [forRequest, hattr, ofRegion, ofLanguage]

/-- A region of the file has a segment in the document of a request in it. -/
lemma exists_segment_forRequest {file : Snapshot} {region : Region} (h : region ∈ file.regions) :
    ∃ s ∈ (forRequest file region).segments, s.region = region := by
  by_cases hattr : region.inAttribute
  · exact ⟨⟨region, 0⟩, by simp [forRequest, hattr, ofRegion], rfl⟩
  · rw [forRequest, if_neg hattr, ← List.mem_map, ofLanguage, map_region_segmentsFrom]
    exact List.mem_filter.2 ⟨h, by simp [hattr]⟩

end Embedded

namespace Router

/-- Every request at a position is a single call to the adapter, about one local position. -/
structure AsksAt (r : Router) (key : String) (p : Position) (a : Adapter) (e : Embedded)
    (q : Position) : Prop where
  completion : (r.completion key p).calls = [⟨a.id, e, .complete q⟩]
  hover : (r.hover key p).calls = [⟨a.id, e, .hover q⟩]
  signatureHelp : (r.signatureHelp key p).calls = [⟨a.id, e, .signatureHelp q⟩]
  definition : (r.definition key p).calls = [⟨a.id, e, .definition q⟩]
  references : (r.references key p).calls = [⟨a.id, e, .references q⟩]
  highlights : (r.highlights key p).calls = [⟨a.id, e, .highlights q⟩]

variable {r : Router} {key : String} {file : Snapshot} {region : Region} {a : Adapter}
  {p q : Position}

/-- A request asks the adapter once if what it is about can be made local. -/
lemma calls_askAt {ι α β : Type} {nothing : β} {locate : Embedded → Option ι}
    {request : ι → Request} {ask : Adapter → Embedded → ι → Answer α}
    {toHost : Region → Embedded → α → Option β} {place : ι}
    (hopen : r.store.get? key = some file) (hregion : file.regionUnder? p = some region)
    (hadapter : r.adapters.get? region.language = some a)
    (hplace : locate (.forRequest file region) = some place) :
    (r.askAt key p nothing locate request ask toHost).calls
      = [⟨a.id, .forRequest file region, request place⟩] := by
  simp only [askAt, on, require_eq_ok hopen, hregion, serviceFor?, hadapter, hplace,
    Option.map_some, Service.call]

lemma asksAt (hopen : r.store.get? key = some file) (hregion : file.regionUnder? p = some region)
    (hadapter : r.adapters.get? region.language = some a)
    (hlocal : (Embedded.forRequest file region).toLocal? p = some q) :
    r.AsksAt key p a (.forRequest file region) q where
  completion := by
    simp only [completion, on, require_eq_ok hopen, hregion]
    exact calls_askAt hopen hregion hadapter hlocal
  hover := calls_askAt hopen hregion hadapter hlocal
  signatureHelp := calls_askAt hopen hregion hadapter hlocal
  definition := calls_askAt hopen hregion hadapter hlocal
  references := calls_askAt hopen hregion hadapter hlocal
  highlights := calls_askAt hopen hregion hadapter hlocal

end Router

/-- **Every request at a position arrives at the right place.**  Wherever the position is, if there
is a region under it, then it has a local position in the document of the request, at the same place
of the same region.  So the only reason for asking no adapter is that the language has none. -/
theorem position_requests_arrive (options : ScanOptions) (uri language : String) (version : Int)
    (source : Text) (p : Position) (region : Region)
    (hregion : (Snapshot.ofText options uri language version source).regionUnder? p
      = some region) :
    let file := Snapshot.ofText options uri language version source
    let e := Embedded.forRequest file region
    e.host = file ∧
    ∃ q, e.toLocal? p = some q ∧
      (∃ s, s.region = region ∧ e.SamePlace s (file.offsetAt p) (offsetAt e.text q)) ∧
      ∀ (r : Router) (key : String) (a : Adapter), r.store.get? key = some file →
        r.adapters.get? region.language = some a →
        r.activeRegion key p = .ok (some region) ∧ r.AsksAt key p a e q := by
  intro file e
  obtain ⟨hmem, hc⟩ : region ∈ file.regions ∧ region.contains (file.offsetAt p) :=
    Snapshot.regionUnder?_ofText_iff.1 hregion
  have hhost : e.host = file := Embedded.host_forRequest file region
  obtain ⟨s, hs, rfl⟩ := Embedded.exists_segment_forRequest hmem
  rw [← hhost] at hc
  obtain ⟨q, hq, hplace⟩ := (Embedded.of_forRequest hmem).exists_toLocal hs hc
  rw [hhost] at hplace
  refine ⟨hhost, q, hq, ⟨s, rfl, hplace⟩, fun r key a hopen hadapter => ⟨?_, ?_⟩⟩
  · rw [Router.activeRegion, Router.require_eq_ok hopen, ← hregion]
    rfl
  · exact Router.asksAt hopen hregion hadapter hq

/-- A position between the two halves of a letter beyond the basic plane, which is all the value of
an attribute. -/
theorem position_requests_arrive_surrogate :
    let source : Text := "<p style='😀'/>".toList
    let file := Snapshot.ofText {} "file:///a" "sfc" 1 source
    let region := Region.ofAttribute "css" 10 14
    let e := Embedded.forRequest file region
    let r : Router := ⟨({} : Store).put file, ({} : Registry).register { id := "css" }⟩
    file.regionUnder? ⟨0, 11⟩ = some region ∧ file.offsetAt ⟨0, 11⟩ = 14 ∧
      e.toLocal? ⟨0, 11⟩ = some ⟨0, 1⟩ ∧ offsetAt e.text ⟨0, 1⟩ = 4 ∧
      (r.hover "file:///a" ⟨0, 11⟩).calls = [⟨"css", e, .hover ⟨0, 1⟩⟩] := by
  intro source file region e r
  have hregion : file.regionUnder? ⟨0, 11⟩ = some region := by decide +kernel
  have hlocal : e.toLocal? ⟨0, 11⟩ = some ⟨0, 1⟩ := by decide +kernel
  have hoffset : file.offsetAt ⟨0, 11⟩ = 14 := by decide +kernel
  obtain ⟨-, q, hq, ⟨s, hs, hplace⟩, hasks⟩ :=
    position_requests_arrive {} "file:///a" "sfc" 1 source ⟨0, 11⟩ region hregion
  obtain rfl : q = ⟨0, 1⟩ := Option.some.inj (hq.symm.trans hlocal)
  obtain ⟨-, hr⟩ := hasks r "file:///a" { id := "css" } Std.TreeMap.getElem?_insert_self
    Std.TreeMap.getElem?_insert_self
  refine ⟨hregion, hoffset, hlocal, ?_, hr.hover⟩
  decide +kernel

end Mosaic
