import Mosaic.Proofs.Formatting
import Mosaic.Routing.AtPosition

/-!
# A cursor in a region, seen by an adapter and back

A request at a cursor goes to an adapter with the local place of the cursor, and what the adapter
anchors there is brought back to the file.  The end of a block belongs to the block, but the local
place of that end is also where the text of the next block of the language starts, and going back
takes it as that.

* `Embedded.Joins.later_of_segmentAt?` — the segment of a local offset is the last one that starts
  there or before.
* `Embedded.Joins.returnsTo_cursor` — in joined blocks a cursor returns to the segment found for its
  local place.
* `cursor_returns` — a cursor in a region returns to itself, unless it is at the end of a block
  which other blocks of the language follow; then it goes to the start of such a block.
-/

namespace Mosaic

open Text

namespace Embedded

/-- A local place, and the empty range there, are a certain place in the host. -/
structure ReturnsTo (e : Embedded) (p q : Position) : Prop where
  position : e.toHost? p = some q
  range : e.rangeToHost? ⟨p, p⟩ = some ⟨q, q⟩

/-- The host offset is the end of a region behind which the embedded text goes on. -/
def AtJoint (e : Embedded) (r : Region) (n : Nat) : Prop :=
  n = r.stop ∧ ∃ s ∈ e.segments, r.Before s.region

/-- The last of the segments whose text starts at a local offset. -/
structure LastFrom (e : Embedded) (k : Nat) (s : Segment) : Prop where
  mem : s ∈ e.segments
  starts : s.localStart = k
  last : ∀ s' ∈ e.segments, s'.localStart ≤ k → s' = s ∨ s'.region.Before s.region

variable {e : Embedded} {rs : List Region} {s s' : Segment} {k n : Nat}

/-! ## The segment of a local offset -/

section Last

variable {α : Type} {R : α → α → Prop} {p : α → Bool} {l : List α} {a b : α}

lemma mem_takeWhile_of_pairwise (h : l.Pairwise R) (hp : ∀ a b, R a b → p b → p a) (ha : a ∈ l)
    (hpa : p a) : a ∈ l.takeWhile p := by
  induction h with
  | nil => exact absurd ha (by simp)
  | @cons x l hx _ ih =>
    have hpx : p x := by
      rcases List.mem_cons.1 ha with rfl | ha
      · exact hpa
      · exact hp x a (hx a ha) hpa
    rw [List.takeWhile_cons_of_pos hpx]
    rcases List.mem_cons.1 ha with rfl | ha
    · exact List.mem_cons_self
    · exact List.mem_cons_of_mem _ (ih ha)

lemma eq_or_rel_of_getLast? (h : l.Pairwise R) (hb : l.getLast? = some b) (ha : a ∈ l) :
    a = b ∨ R a b := by
  obtain ⟨front, rfl⟩ := List.getLast?_eq_some_iff.1 hb
  rcases List.mem_append.1 ha with ha | ha
  · exact Or.inr ((List.pairwise_append.1 h).2.2 a ha b (by simp))
  · exact Or.inl (List.mem_singleton.1 ha)

end Last

/-- The segment of a local offset is one of the document that starts there or before. -/
lemma Joins.mem_of_segmentAt? (h : e.Joins rs) (hn : n ≤ bytes e.text)
    (hat : e.segmentAt? n = some s) : s ∈ e.segments ∧ s.localStart ≤ n := by
  have hne : e.segments ≠ [] := by
    intro hnil
    simp [segmentAt?, hnil] at hat
  obtain ⟨s', hs', hle, -, hat'⟩ := h.segmentAt?_spec hne hn
  obtain rfl : s = s' := Option.some.inj (hat.symm.trans hat')
  exact ⟨hs', hle⟩

/-- **The segment of a local offset is the last one** that starts there or before. -/
theorem Joins.later_of_segmentAt? (h : e.Joins rs) (hat : e.segmentAt? k = some s')
    (hs : s ∈ e.segments) (hle : s.localStart ≤ k) :
    s = s' ∨ s.localStop ≤ s'.localStart ∧ s.region.Before s'.region := by
  have hpair := h.pairwise_segments
  rw [segmentAt?] at hat
  have hmem : s ∈ e.segments.takeWhile (·.localStart ≤ k) := by
    refine mem_takeWhile_of_pairwise hpair (fun a b hab hb => ?_) hs (by simpa using hle)
    have : a.localStart ≤ a.localStop := Nat.le_add_right ..
    have := hab.1
    simp only [decide_eq_true_eq] at hb ⊢
    omega
  exact eq_or_rel_of_getLast? (hpair.sublist (List.takeWhile_sublist _)) hat hmem

/-- If any block follows, then the text of one starts where that of this one stops. -/
lemma exists_next {host : Text} {m : Nat} (hlies : ∀ r ∈ rs, r.LiesIn host)
    (hpair : rs.Pairwise Region.Before) (hs : s ∈ segmentsFrom host m rs)
    (hs' : s' ∈ segmentsFrom host m rs) (hbefore : s.region.Before s'.region) :
    ∃ next ∈ segmentsFrom host m rs, next.localStart = s.localStop ∧
      s.region.Before next.region := by
  induction rs generalizing m with
  | nil => exact absurd hs (by simp [segmentsFrom])
  | cons r rs ih =>
    have hsorted := pairwise_segmentsFrom hlies hpair m
    have hself (t : Segment) (ht : t.region ∈ r :: rs) : ¬ t.region.Before t.region :=
      Nat.not_lt.2 (hlies _ ht).start_le_stop
    rcases List.mem_cons.1 hs with rfl | hs
    · cases rs with
      | nil =>
        obtain rfl : s' = ⟨r, m⟩ := by simpa [segmentsFrom] using hs'
        exact absurd hbefore (hself ⟨r, m⟩ (by simp))
      | cons r' rs =>
        refine ⟨⟨r', m + bytes (r.textIn host)⟩, by simp [segmentsFrom], ?_, ?_⟩
        · show m + bytes (r.textIn host) = m + r.size
          rw [bytes_textIn (hlies r (by simp))]
        · exact List.rel_of_pairwise_cons hpair (by simp)
    · rcases List.mem_cons.1 hs' with rfl | hs'
      · -- the first segment is no later one
        have hfirst := (List.rel_of_pairwise_cons hsorted hs).2
        have := (hlies _ (mem_segmentsFrom hs |>.1 |> List.mem_cons_of_mem r)).start_le_stop
        have := (hlies r (by simp)).start_le_stop
        simp only [Region.Before] at hbefore hfirst
        omega
      · obtain ⟨next, hnext, hstart, hb⟩ := ih (fun r hr => hlies r (by simp [hr]))
          hpair.of_cons hs hs'
        exact ⟨next, List.mem_cons_of_mem _ hnext, hstart, hb⟩

/-! ## Through byte offsets -/

/-- The local place of a boundary in a region is a boundary of the embedded text. -/
lemma Joins.isBoundary_toLocal (h : e.Joins rs) (hs : s ∈ e.segments) (hc : s.region.contains n)
    (hn : IsBoundary e.host.text n) :
    IsBoundary e.text (s.localStart + (n - s.region.start)) := by
  obtain ⟨a, b, htext, hstart⟩ := h.text_segment hs
  obtain ⟨before, inner, after, hhost, hb, he, -⟩ := h.liesIn_segment hs
  obtain ⟨h1, h2⟩ := Region.contains_iff.1 hc
  have hinner : s.region.textIn e.host.text = inner := by
    rw [Region.textIn, hhost, ← hb, ← he, slice_parts]
  have hlocal : IsBoundary inner (n - s.region.start) := by
    refine IsBoundary.of_shift (a := before) (c := after) ?_ (by omega)
    rwa [← hhost, hb, Nat.add_sub_of_le h1]
  rw [htext, hinner, ← hstart]
  exact hlocal.shift a b

/-- The text of the region of a segment ends where the segment does. -/
lemma Joins.localStop_eq (h : e.Joins rs) (hs : s ∈ e.segments) :
    s.localStart + bytes (s.region.textIn e.host.text) = s.localStop := by
  rw [bytes_textIn (h.liesIn_segment hs), Segment.localStop]

/-- A boundary of the embedded text in a segment is one of the text of the segment. -/
lemma Joins.isBoundary_sub (h : e.Joins rs) (hs : s ∈ e.segments) (hn : IsBoundary e.text n)
    (hle : s.localStart ≤ n) (hge : n ≤ s.localStop) :
    IsBoundary (s.region.textIn e.host.text) (n - s.localStart) := by
  have hstop := h.localStop_eq hs
  obtain ⟨a, b, htext, hstart⟩ := h.text_segment hs
  refine IsBoundary.of_shift (a := a) (c := b) ?_ (by omega)
  have hsplit : bytes a + (n - s.localStart) = n := by omega
  rwa [← htext, hsplit]

/-- The segment found for the local place of an offset in a region is that of the region, and at a
joint a later one. -/
theorem Joins.segmentAt?_cases (h : e.Joins rs) (hs : s ∈ e.segments) (hs' : s' ∈ e.segments)
    (hc : s.region.contains n) (hk : k = s.localStart + (n - s.region.start))
    (hle : s'.localStart ≤ k) (hat : e.segmentAt? k = some s') :
    s'.toHost k = n ∧ ¬ e.AtJoint s.region n ∨
      s'.toHost k = s'.region.start ∧ e.AtJoint s.region n ∧ s.region.Before s'.region ∧
        e.LastFrom k s' := by
  obtain ⟨h1, h2⟩ := Region.contains_iff.1 hc
  have hstop : s.localStop = s.localStart + (s.region.stop - s.region.start) := rfl
  rcases h.later_of_segmentAt? hat hs (by omega) with rfl | ⟨hlater, hbefore⟩
  · refine Or.inl ⟨?_, ?_⟩
    · simp only [Segment.toHost, Region.toHost, Region.size]
      omega
    · -- at a joint the text of another segment starts, which would have been found
      rintro ⟨rfl, later, hmem, hb⟩
      obtain ⟨next, hnext, hstart, hb'⟩ := exists_next h.liesIn h.pairwise (h.segments ▸ hs)
        (h.segments ▸ hmem) hb
      rcases h.later_of_segmentAt? hat (h.segments ▸ hnext) (by omega) with rfl | ⟨-, hb''⟩
      · simp only [Region.Before] at hb'
        omega
      · have := (h.liesIn _ (mem_segmentsFrom hnext).1).start_le_stop
        simp only [Region.Before] at hb' hb''
        omega
  · refine Or.inr ⟨?_, ⟨by omega, s', hs', hbefore⟩, hbefore, hs', by omega, ?_⟩
    · simp only [Segment.toHost, Region.toHost]
      omega
    · intro t ht hle'
      exact (h.later_of_segmentAt? hat ht hle').imp id And.right

/-- **A cursor in one of several joined regions** returns to itself, and at a joint to the start of
the last region whose text starts there. -/
theorem Joins.returnsTo_cursor (h : e.Joins rs) (hmode : e.mode = .offset) (hs : s ∈ e.segments)
    (hc : s.region.contains n) (hn : IsBoundary e.host.text n) :
    ∃ p back, e.toLocal? (e.host.positionAt n) = some p ∧ e.ReturnsTo p back ∧
      (back = e.host.positionAt n ↔ ¬ e.AtJoint s.region n) ∧
      (e.AtJoint s.region n → ∃ later, e.LastFrom (offsetAt e.text p) later ∧
        s.region.Before later.region ∧ back = e.host.positionAt later.region.start) := by
  have hlocal := h.isBoundary_toLocal hs hc hn
  have hoffset := offsetAt_positionAt_of_boundary hlocal
  have hto := h.offsetToLocal?_eq hs hc
  obtain ⟨s', hs', hle, hge, hat⟩ := h.segmentAt?_spec (List.ne_nil_of_mem hs) hlocal.le
  refine ⟨positionAt e.text (s.localStart + (n - s.region.start)),
    e.host.positionAt (s'.toHost (s.localStart + (n - s.region.start))), ?_, ⟨?_, ?_⟩, ?_⟩
  · simp only [toLocal?, hmode, Snapshot.offsetAt, Snapshot.positionAt]
    rw [offsetAt_positionAt_of_boundary hn, hto, Option.map_some]
  · simp only [toHost?, hmode, hoffset, offsetToHost, hat]
  · simp only [rangeToHost?, hmode, hoffset, max_self, spanToHost, hat, if_pos hge]
  · rw [hoffset]
    rcases h.segmentAt?_cases hs hs' hc rfl hle hat with ⟨hhost, hj⟩ | ⟨hhost, hj, hbefore, hlast⟩
    · rw [hhost]
      exact ⟨iff_of_true rfl hj, fun hj' => absurd hj' hj⟩
    · rw [hhost]
      refine ⟨iff_of_false (fun hback => ?_) (fun hj' => hj' hj),
        fun _ => ⟨s', hlast, hbefore, rfl⟩⟩
      -- different boundaries have different positions
      have hstart := (h.liesIn_segment hs').isBoundary_start
      have heq := congrArg (offsetAt e.host.text) hback
      simp only [Snapshot.positionAt, offsetAt_positionAt_of_boundary hstart,
        offsetAt_positionAt_of_boundary hn] at heq
      have := hj.1
      simp only [Region.Before] at hbefore
      omega

/-! ## By shifting the character -/

/-- A cursor in the value of an attribute returns to itself. -/
lemma Joins.returnsTo_cursor_inline {r : Region} (h : e.Joins [r]) (hmode : e.mode = .inline)
    (hr : r.inAttribute) (hsize : bytes e.host.text < wordLimit) (hc : r.contains n)
    (hn : IsBoundary e.host.text n) :
    ∃ p, e.toLocal? (e.host.positionAt n) = some p ∧ e.ReturnsTo p (e.host.positionAt n) := by
  have hlies := h.liesIn r (by simp)
  obtain ⟨h1, h2⟩ := Region.contains_iff.1 hc
  obtain ⟨before, inner, after, hsource, hstart, hstop, hquoted⟩ := hlies
  have htext : e.text = inner := by
    rw [h.text, List.flatMap_singleton, Region.textIn, hsource, ← hstart, ← hstop, slice_parts]
  -- the value up to the cursor, and behind it
  have hcut : IsBoundary inner (n - r.start) := by
    refine IsBoundary.of_shift (a := before) (c := after) ?_ (by omega)
    rwa [← hsource, hstart, Nat.add_sub_of_le h1]
  obtain ⟨x, y, hxy, hx⟩ := hcut
  have hnobreak : '\n' ∉ x := fun hmem => (hquoted hr).noLineFeed (by simp [hxy, hmem])
  have hcursor : e.host.positionAt n
      = ⟨(e.host.positionAt r.start).line, (e.host.positionAt r.start).character + units x⟩ := by
    have hline := positionAt_same_line before x (y ++ after) hnobreak
    have hn' : n = bytes before + bytes x := by omega
    simp only [Snapshot.positionAt]
    rw [← hstart, hn', hsource, hxy, List.append_assoc]
    exact hline
  have hanchor : e.anchor? = some (e.host.positionAt r.start) := by
    rw [anchor?, h.segments]
    rfl
  have hunits : units x ≤ units e.text := by simp [htext, hxy]
  have hfits : (e.host.positionAt r.start).character + units x < wordLimit := h.fits hsize hunits
  refine ⟨⟨0, units x⟩, ?_, ?_, ?_⟩
  · simp only [toLocal?, hmode, hanchor, hcursor, Option.bind_eq_bind, Option.bind_some,
      Nat.le_add_right, Nat.add_sub_cancel_left, hunits, and_self, if_true]
  · simp only [toHost?, hmode, hanchor, if_pos hfits, hcursor]
  · simp only [rangeToHost?, toHost?, hmode, hanchor, if_pos hfits, hcursor, Option.bind_eq_bind,
      Option.bind_some]

/-! ## In the document of a request -/

section Request

variable (options : ScanOptions) (uri language : String) (version : Int) {source : Text}
  {region : Region}

/-- A cursor in the value of an attribute returns to itself: no text is joined to that of the
value. -/
lemma returnsTo_cursor_attribute (hsize : bytes source < wordLimit)
    (hmem : region ∈ scan options source) (hattr : region.inAttribute) (hc : region.contains n)
    (hn : IsBoundary source n) :
    let e := forRequest (.ofText options uri language version source) region
    ∃ p, e.toLocal? (positionAt source n) = some p ∧ e.ReturnsTo p (positionAt source n) ∧
      ¬ e.AtJoint region n := by
  intro e
  have he : e = .ofRegion (.ofText options uri language version source) region := if_pos hattr
  have hmode : e.mode = .inline := by
    rw [he]
    exact if_pos hattr
  obtain ⟨-, rs, hjoins, hinline⟩ := Of.joins (Or.inr ⟨region, hmem, he⟩)
  obtain ⟨other, rfl, hother⟩ := hinline hmode
  obtain rfl : region = other := by
    have hsegments := hjoins.segments
    rw [he] at hsegments
    simpa [ofRegion, segmentsFrom] using hsegments
  obtain ⟨p, hp, hback⟩ := hjoins.returnsTo_cursor_inline hmode hattr
    (by rw [he]; exact hsize) hc (by rw [he]; exact hn)
  have hhost : e.host = .ofText options uri language version source := by rw [he]; rfl
  rw [hhost] at hp hback
  refine ⟨p, hp, hback, ?_⟩
  rintro ⟨-, s, hs, hbefore⟩
  obtain rfl : s = ⟨region, 0⟩ := by simpa [he, ofRegion] using hs
  exact absurd hbefore (Nat.not_lt.2 (scan_liesIn hmem).start_le_stop)

/-- A cursor in a block is one in its segment of the document of the language. -/
lemma returnsTo_cursor_block (hmem : region ∈ scan options source) (hblock : ¬ region.inAttribute)
    (hc : region.contains n) (hn : IsBoundary source n) :
    let e := forRequest (.ofText options uri language version source) region
    ∃ p back, e.toLocal? (positionAt source n) = some p ∧ e.ReturnsTo p back ∧
      (back = positionAt source n ↔ ¬ e.AtJoint region n) ∧
      (e.AtJoint region n → ∃ later, e.LastFrom (offsetAt e.text p) later ∧
        region.Before later.region ∧ back = positionAt source later.region.start) := by
  intro e
  have he : e = .ofLanguage (.ofText options uri language version source) region.language :=
    if_neg hblock
  have hjoins : e.Joins (blocksOf (.ofText options uri language version source)
      region.language) := by
    rw [he]
    exact joins_ofLanguage options uri language version source region.language
  have hmem' : region ∈ blocksOf (.ofText options uri language version source) region.language :=
    List.mem_filter.2 ⟨hmem, by simp [hblock]⟩
  obtain ⟨s, hs, rfl⟩ : ∃ s ∈ e.segments, s.region = region := by
    rw [← List.mem_map, hjoins.segments, map_region_segmentsFrom]
    exact hmem'
  have hhost : e.host = .ofText options uri language version source := by rw [he]; rfl
  have hcursor := hjoins.returnsTo_cursor (by rw [he]; rfl) hs hc (by rw [hhost]; exact hn)
  rwa [hhost] at hcursor

end Request

end Embedded

/-! ## What an adapter anchors at the cursor -/

/-- The completion that puts a text at a place. -/
def CompletionItem.inserting (p : Position) (sent : CompletionItem × String) : CompletionItem :=
  { sent.1 with textEdit := some (.edit ⟨⟨p, p⟩, sent.2⟩), additionalEdits := none }

lemma translate_inserting {f : Range → Option Range} {p q : Position} (hf : f ⟨p, p⟩ = some ⟨q, q⟩)
    (sent : CompletionItem × String) :
    (CompletionItem.inserting p sent).translate f = some (.inserting q sent) := by
  simp [CompletionItem.translate, CompletionItem.inserting, CompletionEdit.translate,
    TextEdit.translate, hf]

lemma mapM_inserting {f : Range → Option Range} {p q : Position} (hf : f ⟨p, p⟩ = some ⟨q, q⟩)
    (sent : List (CompletionItem × String)) :
    (sent.map (CompletionItem.inserting p)).mapM (CompletionItem.translate f)
      = some (sent.map (.inserting q)) := by
  induction sent with
  | nil => rfl
  | cons i rest ih => simp [translate_inserting hf, ih]

namespace Router

variable {r : Router} {key : String} {file : Snapshot} {region : Region} {a : Adapter}
  {h p q : Position}

lemma require_eq_ok (hopen : r.store.get? key = some file) : r.store.require key = .ok file := by
  rw [Store.require, hopen]

/-- A hover at the cursor comes back where the cursor returns to. -/
lemma hover_returns (hopen : r.store.get? key = some file)
    (hregion : file.regionUnder? h = some region)
    (hadapter : r.adapters.get? region.language = some a)
    (hlocal : (Embedded.forRequest file region).toLocal? h = some p)
    (hback : (Embedded.forRequest file region).ReturnsTo p q) {contents : Json}
    (hanswer : a.hover (.forRequest file region) p = .ok (some ⟨contents, some ⟨p, p⟩⟩)) :
    r.hover key h = { result := .ok (some ⟨contents, some ⟨q, q⟩⟩)
                      calls := [⟨a.id, .forRequest file region, .hover p⟩] } := by
  simp [hover, askAt, on, require_eq_ok hopen, hregion, serviceFor?, hadapter, hlocal, hanswer,
    Hover.translate, hback.range, sendable, Service.call]

/-- Completions at the cursor come back where the cursor returns to. -/
lemma completion_returns (hopen : r.store.get? key = some file)
    (hregion : file.regionUnder? h = some region)
    (hadapter : r.adapters.get? region.language = some a)
    (hlocal : (Embedded.forRequest file region).toLocal? h = some p)
    (hback : (Embedded.forRequest file region).ReturnsTo p q) {incomplete : Bool}
    {sent : List (CompletionItem × String)}
    (hanswer : a.complete (.forRequest file region) p
      = .ok (some ⟨incomplete, sent.map (.inserting p)⟩)) :
    r.completion key h = { result := .ok (some ⟨incomplete, sent.map (.inserting q)⟩)
                           calls := [⟨a.id, .forRequest file region, .complete p⟩] } := by
  simp [completion, askAt, on, require_eq_ok hopen, hregion, serviceFor?, hadapter, hlocal, hanswer,
    CompletionList.translate, mapM_inserting hback.range, sendable, Service.call]

end Router

/-! ## Any cursor in a region -/

/-- **A cursor in a region returns to itself**, unless it is at the end of a block which other
blocks of the language follow; from there it goes to the start of the last of these whose text
starts at the same local offset.  What an adapter anchors at the cursor goes with it. -/
theorem cursor_returns (options : ScanOptions) (uri language : String) (version : Int)
    (source : Text) (hsize : bytes source < wordLimit) (n : Nat) (hn : IsBoundary source n)
    (region : Region)
    (hregion : (Snapshot.ofText options uri language version source).regionUnder?
      (positionAt source n) = some region) :
    let file := Snapshot.ofText options uri language version source
    let cursor := positionAt source n
    let e := Embedded.forRequest file region
    ∃ p back, e.toLocal? cursor = some p ∧ e.ReturnsTo p back ∧
      (back = cursor ↔ ¬ e.AtJoint region n) ∧
      (e.AtJoint region n → ∃ later, e.LastFrom (offsetAt e.text p) later ∧
        region.Before later.region ∧ back = positionAt source later.region.start) ∧
      ∀ (r : Router) (key : String) (a : Adapter), r.store.get? key = some file →
        r.adapters.get? region.language = some a →
        (∀ contents, a.hover e p = .ok (some ⟨contents, some ⟨p, p⟩⟩) →
          r.hover key cursor = { result := .ok (some ⟨contents, some ⟨back, back⟩⟩)
                                 calls := [⟨a.id, e, .hover p⟩] }) ∧
        ∀ (incomplete : Bool) (sent : List (CompletionItem × String)),
          a.complete e p = .ok (some ⟨incomplete, sent.map (.inserting p)⟩) →
          r.completion key cursor
            = { result := .ok (some ⟨incomplete, sent.map (.inserting back)⟩)
                calls := [⟨a.id, e, .complete p⟩] } := by
  intro file cursor e
  have hpair : file.regions.Pairwise Region.Before :=
    (scan_spaced options source).choose_spec.pairwise
  have hoffset : file.offsetAt cursor = n := offsetAt_positionAt_of_boundary hn
  obtain ⟨hmem, hc⟩ : region ∈ file.regions ∧ region.contains n := by
    rw [← hoffset]
    exact (find?_contains_eq_some_iff hpair).1 hregion
  obtain ⟨p, back, hp, hback, hsame, hlater⟩ : ∃ p back, e.toLocal? cursor = some p ∧
      e.ReturnsTo p back ∧ (back = cursor ↔ ¬ e.AtJoint region n) ∧
      (e.AtJoint region n → ∃ later, e.LastFrom (offsetAt e.text p) later ∧
        region.Before later.region ∧ back = positionAt source later.region.start) := by
    by_cases hattr : region.inAttribute
    · obtain ⟨p, hp, hback, hnot⟩ :=
        Embedded.returnsTo_cursor_attribute options uri language version hsize hmem hattr hc hn
      exact ⟨p, cursor, hp, hback, iff_of_true rfl hnot, fun hj => absurd hj hnot⟩
    · exact Embedded.returnsTo_cursor_block options uri language version hmem hattr hc hn
  refine ⟨p, back, hp, hback, hsame, hlater, fun r key a hopen ha => ⟨fun contents hh => ?_,
    fun incomplete sent hh => ?_⟩⟩
  · exact Router.hover_returns hopen hregion ha hp hback hh
  · exact Router.completion_returns hopen hregion ha hp hback hh

/-- A cursor behind the first character of the first of two blocks. -/
theorem cursor_returns_first_block :
    let source : Text := "<style>é{}</style><style>b{}</style>".toList
    let file := Snapshot.ofText {} "file:///a" "sfc" 1 source
    let region := Region.block "css" 7 11
    bytes source < wordLimit ∧ IsBoundary source 9 ∧
      file.regionUnder? (positionAt source 9) = some region ∧
      ∃ p, (Embedded.forRequest file region).toLocal? (positionAt source 9) = some p ∧
        (Embedded.forRequest file region).ReturnsTo p (positionAt source 9) := by
  intro source file region
  have hsize : bytes source < wordLimit := by decide +kernel
  have hn : IsBoundary source 9 := ⟨"<style>é".toList, "{}</style><style>b{}</style>".toList,
    by decide +kernel, by decide +kernel⟩
  have hregion : file.regionUnder? (positionAt source 9) = some region := by decide +kernel
  obtain ⟨p, back, hp, hback, hsame, -⟩ := cursor_returns {} "file:///a" "sfc" 1 source hsize 9 hn
    region hregion
  obtain rfl : back = positionAt source 9 := hsame.2 fun hj => absurd hj.1 (by decide)
  exact ⟨hsize, hn, hregion, p, hp, hback⟩

/-- A cursor behind the last character of the first of two blocks.  What is anchored there comes
back at the start of the second block. -/
theorem cursor_leaves_block :
    let source : Text := "<style>a{}</style><style>b{}</style>".toList
    let file := Snapshot.ofText {} "file:///a" "sfc" 1 source
    let region := Region.block "css" 7 10
    let e := Embedded.forRequest file region
    bytes source < wordLimit ∧ IsBoundary source 10 ∧ positionAt source 10 = ⟨0, 10⟩ ∧
      file.regionUnder? ⟨0, 10⟩ = some region ∧
      e.toLocal? ⟨0, 10⟩ = some ⟨0, 3⟩ ∧
      e.toHost? ⟨0, 3⟩ = some ⟨0, 25⟩ ∧
      e.rangeToHost? ⟨⟨0, 3⟩, ⟨0, 3⟩⟩ = some ⟨⟨0, 25⟩, ⟨0, 25⟩⟩ := by
  refine ⟨?_, ⟨"<style>a{}".toList, "</style><style>b{}</style>".toList, ?_, ?_⟩, ?_, ?_, ?_, ?_,
    ?_⟩
  · decide +kernel
  · decide +kernel
  · decide +kernel
  · decide +kernel
  · decide +kernel
  · decide +kernel
  · decide +kernel
  · decide +kernel

end Mosaic
