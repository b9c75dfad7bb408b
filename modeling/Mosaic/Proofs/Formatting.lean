import Mosaic.Proofs.Embedding
import Mosaic.Proofs.FanIn

/-!
# Where the edits of a formatted file end up

A formatter sees all blocks of its language as one text, and its edits may go from one block into
the next.  In the host file such an edit also replaces what stands between the blocks.

* `Embedded.Joins.rangeToHost?_spec` — a local range goes to a host range from the block of its
  start to that block, if it ends in its segment, or to a later one.
* `formatting_edits_blocks` — formatting an open file always answers, each edit goes from one block
  of the language to that block or a later one, and it stays in a single region of the file exactly
  if it ends in the segment in which it starts.
-/

namespace Mosaic

open Text

/-- Both ends of a range of the host are in the region. -/
def Region.Covers (host : Text) (r : Region) (range : Range) : Prop :=
  r.contains (offsetAt host range.start) ∧ r.contains (offsetAt host range.stop)

instance (host : Text) (r : Region) (range : Range) : Decidable (r.Covers host range) :=
  inferInstanceAs (Decidable (_ ∧ _))

/-- A range is in a single region exactly if the regions of its two ends are one. -/
lemma exists_covers_iff {host : Text} {regions : List Region} {first last : Region} {range : Range}
    (hpair : regions.Pairwise Region.Before) (hfirst : first ∈ regions) (hlast : last ∈ regions)
    (hstart : first.contains (offsetAt host range.start))
    (hstop : last.contains (offsetAt host range.stop)) :
    (∃ region ∈ regions, region.Covers host range) ↔ first = last := by
  constructor
  · rintro ⟨region, hmem, h1, h2⟩
    rw [← eq_of_contains hpair hmem hfirst h1 hstart, eq_of_contains hpair hmem hlast h2 hstop]
  · rintro rfl
    exact ⟨first, hfirst, hstart, hstop⟩

namespace Embedded

variable {e : Embedded} {rs : List Region} {s : Segment} {n : Nat}

/-- Segments follow each other in both texts. -/
lemma pairwise_segmentsFrom {host : Text} (hlies : ∀ r ∈ rs, r.LiesIn host)
    (hpair : rs.Pairwise Region.Before) (k : Nat) :
    (segmentsFrom host k rs).Pairwise fun s s' =>
      s.localStop ≤ s'.localStart ∧ s.region.Before s'.region := by
  induction rs generalizing k with
  | nil => exact List.Pairwise.nil
  | cons r rs ih =>
    obtain ⟨hfirst, hrest⟩ := List.pairwise_cons.1 hpair
    refine List.Pairwise.cons (fun s' hs' => ?_) (ih (fun r hr => hlies r (by simp [hr])) hrest _)
    obtain ⟨hr', a, b, -, hstart⟩ := mem_segmentsFrom hs'
    refine ⟨?_, hfirst _ hr'⟩
    show k + r.size ≤ s'.localStart
    rw [hstart, bytes_textIn (hlies r (by simp))]
    exact Nat.le_add_right ..

lemma Joins.pairwise_segments (h : e.Joins rs) : e.segments.Pairwise fun s s' =>
    s.localStop ≤ s'.localStart ∧ s.region.Before s'.region := by
  rw [h.segments]
  exact pairwise_segmentsFrom h.liesIn h.pairwise 0

/-- Of two segments the one that ends earlier has its region before that of the other. -/
lemma Joins.before_of_localStop_lt (h : e.Joins rs) {s s' : Segment} (hs : s ∈ e.segments)
    (hs' : s' ∈ e.segments) (hlt : s.localStop < s'.localStop) : s.region.Before s'.region := by
  have hpair := h.pairwise_segments
  have h1 := hpair.imp fun {a b} hab (_ : a.localStop < b.localStop) => hab.2
  have h2 := hpair.imp fun {a b} hab (hba : b.localStop < a.localStop) =>
    (show b.region.Before a.region from
      absurd (hab.1.trans (Nat.le_add_right ..)) (Nat.not_le.2 hba))
  exact List.Pairwise.forall_of_forall_of_flip (fun _ _ hlt => absurd hlt (Nat.lt_irrefl _)) h1 h2
    hs hs' hlt

/-- **A local range goes from the block of its start to that block or a later one**, and to a later
one exactly if it ends behind the segment of its start. -/
theorem Joins.rangeToHost?_spec (h : e.Joins rs) (hmode : e.mode = .offset)
    (hne : e.segments ≠ []) (l : Range) :
    ∃ range, e.rangeToHost? l = some range ∧ ∃ first ∈ e.segments, ∃ last ∈ e.segments,
      e.segmentAt? (offsetAt e.text l.start) = some first ∧
      first.region.contains (offsetAt e.host.text range.start) ∧
      last.region.contains (offsetAt e.host.text range.stop) ∧
      (first = last ∧ max (offsetAt e.text l.start) (offsetAt e.text l.stop) ≤ first.localStop ∨
        first.region.Before last.region ∧
          first.localStop < max (offsetAt e.text l.start) (offsetAt e.text l.stop)) := by
  have hstart : IsBoundary e.text (offsetAt e.text l.start) := isBoundary_offsetAt ..
  have hstop := hstart.max (isBoundary_offsetAt e.text l.stop)
  simp only [rangeToHost?, hmode, Snapshot.positionAt]
  generalize offsetAt e.text l.start = start at hstart hstop ⊢
  have hle : start ≤ max start (offsetAt e.text l.stop) := le_max_left ..
  generalize max start (offsetAt e.text l.stop) = stop at hstop hle ⊢
  obtain ⟨first, hfirst, h1, h2, hat⟩ := h.segmentAt?_spec hne hstart.le
  obtain ⟨other, hother, h3, h4, hat'⟩ := h.segmentAt?_spec hne hstop.le
  have hlies (s : Segment) (hs : s ∈ e.segments) : s.region.start ≤ s.region.stop :=
    (h.liesIn_segment hs).start_le_stop
  have hbegin := offsetAt_positionAt_of_boundary (h.isBoundary_toHost hfirst h1 h2 hstart)
  by_cases hend : stop ≤ first.localStop
  · -- both ends are in the segment of the start
    have hspan : e.spanToHost start stop = (first.toHost start, first.toHost stop) := by
      simp only [spanToHost, hat, if_pos hend]
    have hfinish := offsetAt_positionAt_of_boundary
      (h.isBoundary_toHost hfirst (h1.trans hle) hend hstop)
    refine ⟨_, rfl, first, hfirst, first, hfirst, hat, ?_, ?_, Or.inl ⟨rfl, hend⟩⟩
    · simp only [hspan, hbegin, contains_toHost (hlies first hfirst)]
    · simp only [hspan, hfinish, contains_toHost (hlies first hfirst)]
  · have hspan : e.spanToHost start stop = (first.toHost start, other.toHost stop) := by
      simp only [spanToHost, hat, if_neg hend, offsetToHost, hat']
    have hfinish := offsetAt_positionAt_of_boundary (h.isBoundary_toHost hother h3 h4 hstop)
    have hbefore := h.before_of_localStop_lt hfirst hother (by omega)
    refine ⟨_, rfl, first, hfirst, other, hother, hat, ?_, ?_, Or.inr ⟨hbefore, by omega⟩⟩
    · simp only [hspan, hbegin, contains_toHost (hlies first hfirst)]
    · simp only [hspan, hfinish, contains_toHost (hlies other hother)]

end Embedded

/-! ## Formatting a file -/

/-- **Formatting an open file always answers, and each edit goes from one block of its language to
that block or a later one.**  It stays in a single region of the file exactly if it ends in the
segment in which it starts.  Files of 4 GiB or more, whose positions cannot all be sent, are out of
scope. -/
theorem formatting_edits_blocks (r : Router) (options : ScanOptions) (key uri id : String)
    (version : Int) (source : Text) (settings : Json) (cancelled : Bool)
    (hopen : r.store.get? key = some (.ofText options uri id version source)) :
    let file := Snapshot.ofText options uri id version source
    ∃ edits, (r.formatting key settings cancelled).result = .ok edits ∧
      ∀ edit ∈ edits, ∃ service ∈ r.blockServices file, ∃ answer,
        (service.adapter.format service.document settings).answer = .ok answer ∧
        ∃ sent ∈ answer, edit.newText = sent.newText ∧
        let e := service.document
        let stop := max (offsetAt e.text sent.range.start) (offsetAt e.text sent.range.stop)
        ∃ first ∈ e.segments, ∃ last ∈ e.segments,
          e.segmentAt? (offsetAt e.text sent.range.start) = some first ∧
          first.region ∈ Embedded.blocksOf file e.language ∧
          last.region ∈ Embedded.blocksOf file e.language ∧
          (first = last ∨ first.region.Before last.region) ∧
          first.region.contains (offsetAt file.text edit.range.start) ∧
          last.region.contains (offsetAt file.text edit.range.stop) ∧
          ((∃ region ∈ file.regions, region.Covers file.text edit.range) ↔
            stop ≤ first.localStop) := by
  intro file
  have hblocks : ∀ service ∈ r.blockServices file, ∃ language,
      service.document = .ofLanguage file language ∧ service.document.segments ≠ [] := by
    intro service hs
    obtain ⟨language, -, hdoc, hne⟩ := Router.mem_blockServices hs
    exact ⟨language, hdoc, hne⟩
  have hjoins : ∀ language, (Embedded.ofLanguage file language).Joins
      (Embedded.blocksOf file language) := Embedded.joins_ofLanguage options uri id version source
  -- every edit goes to the host, and so there is an answer
  obtain ⟨edits, hedits, horigin⟩ := Router.askAll_ok hopen cancelled r.blockServices
    (.format settings) (fun a e => a.format e settings)
    (fun e => TextEdit.translate e.rangeToHost?) (by
      intro service hs edit
      obtain ⟨language, hdoc, hne⟩ := hblocks service hs
      rw [hdoc] at hne ⊢
      obtain ⟨range, hrange, -⟩ := (hjoins language).rangeToHost?_spec rfl hne edit.range
      exact ⟨{ edit with range }, by simp [TextEdit.translate, hrange]⟩)
  refine ⟨edits, hedits, fun edit hedit => ?_⟩
  obtain ⟨service, hs, answer, ha, sent, hsent, htrans⟩ := horigin edit hedit
  obtain ⟨language, hdoc, hne⟩ := hblocks service hs
  refine ⟨service, hs, answer, ha, sent, hsent, ?_⟩
  rw [hdoc] at hne htrans ⊢
  obtain ⟨range, hrange, first, hfirst, last, hlast, hat, hbegin, hend, hcase⟩ :=
    (hjoins language).rangeToHost?_spec rfl hne sent.range
  obtain rfl : { sent with range } = edit := by
    simpa [TextEdit.translate, hrange] using htrans
  have hblock (s : Segment) (h : s ∈ (Embedded.ofLanguage file language).segments) :
      s.region ∈ Embedded.blocksOf file language := (Embedded.mem_segmentsFrom h).1
  have hregion (s : Segment) (h : s ∈ (Embedded.ofLanguage file language).segments) :
      s.region ∈ file.regions := (List.mem_filter.1 (hblock s h)).1
  refine ⟨rfl, first, hfirst, last, hlast, hat, hblock first hfirst, hblock last hlast, ?_, hbegin,
    hend, ?_⟩
  · exact hcase.imp And.left And.left
  · have hpair : file.regions.Pairwise Region.Before :=
      (scan_spaced options source).choose_spec.pairwise
    have hone := exists_covers_iff hpair (hregion first hfirst) (hregion last hlast) hbegin hend
    refine hone.trans ?_
    rcases hcase with ⟨rfl, hle⟩ | ⟨hbefore, hlt⟩
    · exact iff_of_true rfl hle
    · refine iff_of_false (fun he => ?_) (Nat.not_le.2 hlt)
      exact absurd (he ▸ hbegin) (hbefore.not_contains hbegin)

/-- Two blocks with markup between them, and two edits: one in the text of the second block, and one
from the first block into the second. -/
theorem formatting_edits_blocks_two :
    let source : Text := "<style>a{}</style><p/><style>b{}</style>".toList
    let file := Snapshot.ofText {} "file:///a" "sfc" 1 source
    let formatter : Adapter :=
      { id := "css"
        format := fun _ _ =>
          ⟨.ok [⟨⟨⟨0, 3⟩, ⟨0, 6⟩⟩, "x"⟩, ⟨⟨⟨0, 1⟩, ⟨0, 4⟩⟩, "y"⟩], false⟩ }
    let r : Router := ⟨({} : Store).put file, ({} : Registry).register formatter⟩
    let edits : List TextEdit := [⟨⟨⟨0, 29⟩, ⟨0, 32⟩⟩, "x"⟩, ⟨⟨⟨0, 8⟩, ⟨0, 30⟩⟩, "y"⟩]
    r.store.get? "file:///a" = some file ∧
      (r.formatting "file:///a" .null false).result = .ok edits ∧
      ∀ edit ∈ edits, ∃ first ∈ file.regions, ∃ last ∈ file.regions,
        (first = last ∨ first.Before last) ∧
        first.contains (offsetAt file.text edit.range.start) ∧
        last.contains (offsetAt file.text edit.range.stop) := by
  intro source file formatter r edits
  have hopen : r.store.get? "file:///a" = some file := Std.TreeMap.getElem?_insert_self
  have hresult : (r.formatting "file:///a" .null false).result = .ok edits := by decide +kernel
  obtain ⟨answered, hanswered, hall⟩ := formatting_edits_blocks r {} "file:///a" "file:///a" "sfc" 1
    source .null false hopen
  obtain rfl : edits = answered := Except.ok.inj (hresult.symm.trans hanswered)
  refine ⟨hopen, hresult, fun edit hedit => ?_⟩
  obtain ⟨_, _, _, _, _, _, _, first, _, last, _, _, hf, hl, horder, hstart, hstop, _⟩ :=
    hall edit hedit
  exact ⟨first.region, (List.mem_filter.1 hf).1, last.region, (List.mem_filter.1 hl).1,
    horder.imp_left (congrArg Segment.region), hstart, hstop⟩

/-- A formatter that replaces all of its text where the file has two blocks.  The edit lies within
the embedded text, and in the file it goes over the tags between the blocks. -/
theorem formatting_edit_joins_blocks :
    let file := Snapshot.ofText {} "file:///a" "sfc" 1 "<style>a{}</style><style>b{}</style>".toList
    let formatter : Adapter :=
      { id := "css", format := fun _ _ => ⟨.ok [⟨⟨⟨0, 0⟩, ⟨0, 6⟩⟩, "x"⟩], false⟩ }
    let r : Router := ⟨({} : Store).put file, ({} : Registry).register formatter⟩
    (Embedded.ofLanguage file "css").text = "a{}b{}".toList ∧
      (r.formatting "file:///a" .null false).result = .ok [⟨⟨⟨0, 7⟩, ⟨0, 28⟩⟩, "x"⟩] ∧
      ¬ ∃ region ∈ file.regions, region.Covers file.text ⟨⟨0, 7⟩, ⟨0, 28⟩⟩ := by
  refine ⟨?_, ?_, ?_⟩
  · decide +kernel
  · decide +kernel
  · decide +kernel

end Mosaic
