import Mosaic.Proofs.FanOut
import Mosaic.Proofs.MergedTokens
import Mosaic.Proofs.MetadataKeys
import Mosaic.Proofs.PositionRequests
import Mosaic.Proofs.SendableDiagnostics
import Mosaic.Proofs.SheetReading

/-!
# Highlighted names

The adapters of the library highlight the names of properties and of keys.  A token goes to the file
with its start, and its length stays as it is.  So it covers the name in the file if the name ends
in the block in which it starts.  The blocks of a language are read as one text without anything
between them, and a name may start at the end of one and go on in the next; its token then also
covers what stands behind the first block.

* `Span.OnLine` — a part of one line, and its token (`Span.OnLine.ofSpan?_eq`).
* `Registry.tokens_builtinWith` — each token of an adapter is that of a name.
* `Embedded.Joins.toHost?_place` — where the start of a token goes.
* `Embedded.Joins.covers_name_iff` — when the token covers the name in the file.
* `tokens_mark_names`, `token_leaves_block` — the tokens of a file.
-/

namespace Mosaic

open Text

/-- The stretch of a line that a token covers. -/
def SemanticToken.range (t : SemanticToken) : Range :=
  ⟨t.position, ⟨t.line, t.start + t.length⟩⟩

/-! ## Names and their tokens -/

/-- A span is a part of one line of a text, and not empty. -/
structure Span.OnLine (t : Text) (s : Span) : Prop where
  occurs : ∃ a b, t = a ++ (s.textIn t ++ b) ∧ bytes a = s.start
  stop_eq : s.start + bytes (s.textIn t) = s.stop
  nonempty : s.textIn t ≠ []
  noLineFeed : '\n' ∉ s.textIn t

namespace Span

variable {t : Text} {s : Span}

lemma onLine_ofText (a b : Text) {w : Text} (hne : w ≠ []) (hline : '\n' ∉ w) :
    (ofText (bytes a) w).OnLine (a ++ (w ++ b)) := by
  have htext : (ofText (bytes a) w).textIn (a ++ (w ++ b)) = w := slice_parts a w b
  exact ⟨⟨a, b, by rw [htext], rfl⟩, by rw [htext, ofText], by rwa [htext], by rwa [htext]⟩

lemma OnLine.isBoundary_start (h : s.OnLine t) : IsBoundary t s.start := by
  obtain ⟨a, b, ht, ha⟩ := h.occurs
  exact ⟨a, _, ht, ha⟩

lemma OnLine.isBoundary_stop (h : s.OnLine t) : IsBoundary t s.stop := by
  obtain ⟨a, b, ht, ha⟩ := h.occurs
  exact ⟨a ++ s.textIn t, b, by rw [List.append_assoc, ← ht], by rw [bytes_append, ha, h.stop_eq]⟩

/-- The token of a name starts where the name does, and is as long. -/
lemma OnLine.ofSpan?_eq (h : s.OnLine t) (kind modifiers : Nat) :
    SemanticToken.ofSpan? t s.start s.stop kind modifiers
      = some ⟨(positionAt t s.start).line, (positionAt t s.start).character,
          units (s.textIn t), kind, modifiers⟩ := by
  obtain ⟨a, b, ht, ha⟩ := h.occurs
  have hstop := positionAt_same_line a (s.textIn t) b h.noLineFeed
  rw [← ht, ha, h.stop_eq] at hstop
  have hlt : s.start < s.stop := by
    have := bytes_pos h.nonempty
    have := h.stop_eq
    omega
  simp [SemanticToken.ofSpan?, hstop, hlt]

end Span

/-- A name that an adapter of the library highlights: that of a property in a style sheet, or a key
in metadata. -/
def Adapter.Highlights (a : Adapter) (t : Text) (span : Span) : Prop :=
  (∃ style, a = Style.adapter style ∧
      ∃ d ∈ (Style.Sheet.ofText t).declarations, d.property = span) ∨
    (∃ yaml, a = Metadata.adapter yaml) ∧ ∃ k ∈ Metadata.keys t, k.span = span

/-- Highlighted names are parts of one line. -/
lemma Adapter.Highlights.onLine {a : Adapter} {t : Text} {span : Span}
    (h : a.Highlights t span) : span.OnLine t := by
  rcases h with ⟨style, -, d, hd, rfl⟩ | ⟨-, k, hk, rfl⟩
  · obtain ⟨before, w, after, rfl, hname, hspan⟩ := Style.named_of_mem_declarations hd
    obtain ⟨hne, hchars⟩ := Style.chars_of_isPropertyName hname
    rw [hspan]
    exact Span.onLine_ofText before after hne fun hmem => absurd (hchars '\n' hmem) (by decide)
  · obtain ⟨⟨before, after, rest, rfl, hspan, -⟩, hne, hline⟩ := Metadata.standsIn_of_mem_keys hk
    rw [hspan]
    exact Span.onLine_ofText before (after ++ rest) hne hline

/-- **Each token of an adapter is that of a name.** -/
theorem Registry.tokens_builtinWith {yaml : Metadata.Reader} {language : String} {a : Adapter}
    (h : (builtinWith yaml).get? language = some a) (e : Embedded) :
    ∃ tokens, a.tokens e = ⟨.ok tokens, false⟩ ∧ ∀ token ∈ tokens, ∃ span,
      a.Highlights e.text span ∧ token.position = positionAt e.text span.start ∧
        token.length = units (span.textIn e.text) := by
  have hname {token : SemanticToken} {span : Span} {kind modifiers : Nat}
      (hspan : a.Highlights e.text span)
      (ht : SemanticToken.ofSpan? e.text span.start span.stop kind modifiers = some token) :
      token.position = positionAt e.text span.start ∧
        token.length = units (span.textIn e.text) := by
    rw [hspan.onLine.ofSpan?_eq] at ht
    obtain rfl := Option.some.inj ht
    exact ⟨rfl, rfl⟩
  rcases get?_builtinWith h with ⟨style, rfl⟩ | rfl
  · refine ⟨_, rfl, fun token hmem => ?_⟩
    obtain ⟨d, hd, ht⟩ := List.mem_filterMap.1 hmem
    have hspan : (Style.adapter style).Highlights e.text d.property := .inl ⟨style, rfl, d, hd, rfl⟩
    exact ⟨d.property, hspan, hname hspan ht⟩
  · refine ⟨_, rfl, fun token hmem => ?_⟩
    obtain ⟨k, hk, ht⟩ := List.mem_filterMap.1 hmem
    have hspan : (Metadata.adapter yaml).Highlights e.text k.span :=
      .inr ⟨⟨yaml, rfl⟩, k, hk, rfl⟩
    exact ⟨k.span, hspan, hname hspan ht⟩

/-! ## Names in the file -/

namespace Embedded

variable {e : Embedded} {rs : List Region} {s : Segment} {n : Nat} {span : Span}
  {token : SemanticToken}

/-- **A place of the embedded text goes to the place in its region**, if it can be sent. -/
theorem Joins.toHost?_place (h : e.Joins rs)
    (hinline : e.mode = .inline → ∃ r, rs = [r] ∧ r.inAttribute) (hn : IsBoundary e.text n)
    (hat : e.segmentAt? n = some s) :
    (∀ q, e.toHost? (positionAt e.text n) = some q → q = positionAt e.host.text (s.toHost n)) ∧
      (bytes e.host.text < wordLimit → (e.toHost? (positionAt e.text n)).isSome) := by
  cases hmode : e.mode with
  | offset =>
    have hto : e.offsetToHost n = s.toHost n := by rw [offsetToHost, hat]
    have hplace : e.toHost? (positionAt e.text n) = some (positionAt e.host.text (s.toHost n)) := by
      simp only [toHost?, hmode, offsetAt_positionAt_of_boundary hn, hto, Snapshot.positionAt]
    rw [hplace]
    exact ⟨fun q hq => (Option.some.inj hq).symm, fun _ => rfl⟩
  | inline =>
    obtain ⟨r, rfl, hattr⟩ := hinline hmode
    have hlies := h.liesIn r (by simp)
    have htext := h.text_single
    obtain rfl : s = ⟨r, 0⟩ := by
      have hmem := (h.mem_of_segmentAt? hn.le hat).1
      simpa [h.segments, segmentsFrom] using hmem
    obtain ⟨u, hu, hlocal, hhost⟩ := hlies.exists_shift hattr (htext ▸ hn)
    rw [h.toHost?_inline hmode, h.toHost_single hn, hhost, htext, hlocal]
    refine ⟨fun q hq => ?_, fun hsize => ?_⟩
    · split at hq
      · exact (Option.some.inj hq).symm
      · contradiction
    · rw [if_pos (h.fits hsize (htext ▸ hu))]
      rfl

/-- A segment that is the only one ends where the text does. -/
lemma Joins.localStop_single (h : e.Joins rs) (hone : e.segments = [s]) :
    s.localStop = bytes e.text := by
  have hsegments := h.segments.symm.trans hone
  rcases rs with _ | ⟨r, _ | ⟨r', rs⟩⟩
  · simp [segmentsFrom] at hsegments
  · obtain rfl : ⟨r, 0⟩ = s := by simpa [segmentsFrom] using hsegments
    rw [h.bytes_single, Segment.localStop, Nat.zero_add]
  · simp [segmentsFrom] at hsegments

/-- The text between two places of a segment is the same in the file. -/
lemma Joins.slice_toHost {m : Nat} (h : e.Joins rs) (hs : s ∈ e.segments)
    (hm : IsBoundary e.text m) (hn : IsBoundary e.text n) (hle : s.localStart ≤ m) (hmn : m ≤ n)
    (hge : n ≤ s.localStop) :
    slice (s.toHost m) (s.toHost n) e.host.text = slice m n e.text := by
  have htext := h.slice_segment hs (h.isBoundary_sub hs hm hle (hmn.trans hge))
    (h.isBoundary_sub hs hn (hle.trans hmn) hge) (Nat.sub_le_sub_right hmn _)
  rw [Nat.add_sub_cancel' hle, Nat.add_sub_cancel' (hle.trans hmn)] at htext
  rw [htext, toHost_of_le (hmn.trans hge), toHost_of_le hge]

section Token

variable (h : e.Joins rs) (hs : s ∈ e.segments) (hspan : span.OnLine e.text)
  (hle : s.localStart ≤ span.start)
  (hposition : token.position = positionAt e.host.text (s.toHost span.start))
  (hlength : token.length = units (span.textIn e.text))

include h hs hspan hle hposition in
/-- A token starts in the file where its name does. -/
lemma Joins.offsetAt_token_start (hge : span.start ≤ s.localStop) :
    offsetAt e.host.text token.range.start = s.toHost span.start := by
  rw [SemanticToken.range, hposition,
    offsetAt_positionAt_of_boundary (h.isBoundary_toHost hs hle hge hspan.isBoundary_start)]

include h hs hspan hle hposition hlength in
/-- And it ends there where its name does, if that ends in the segment in which it starts. -/
lemma Joins.offsetAt_token_stop (hend : span.stop ≤ s.localStop) :
    offsetAt e.host.text token.range.stop = s.toHost span.stop := by
  have hmn : span.start ≤ span.stop := hspan.stop_eq ▸ Nat.le_add_right ..
  have hfirst := h.isBoundary_toHost hs hle (hmn.trans hend) hspan.isBoundary_start
  have hlast := h.isBoundary_toHost hs (hle.trans hmn) hend hspan.isBoundary_stop
  have htext := h.slice_toHost hs hspan.isBoundary_start hspan.isBoundary_stop hle hmn hend
  have hto : s.toHost span.start ≤ s.toHost span.stop := toHost_mono s hmn
  -- in the file, too, the name is on one line
  obtain ⟨a, name, b, hhost, ha, hb⟩ := hfirst.parts hlast hto
  have hname : span.textIn e.text = name := by
    rw [Span.textIn, ← htext, hhost, ← ha, ← hb, slice_parts]
  have hline := positionAt_same_line a name b (hname ▸ hspan.noLineFeed)
  rw [← hhost, hb, ha, ← hposition, ← hname, ← hlength] at hline
  rw [← offsetAt_positionAt_of_boundary hlast, hline]
  rfl

include h hs hspan hle hposition hlength in
/-- **A token covers its name in the file exactly if the name ends in the segment in which it
starts.**  Else it is not in a single region. -/
theorem Joins.covers_name_iff {regions : List Region} (hregions : regions.Pairwise Region.Before)
    (hregion : s.region ∈ regions) (hge : span.start ≤ s.localStop) :
    (∃ region ∈ regions, region.Covers e.host.text token.range ∧
        slice (offsetAt e.host.text token.range.start) (offsetAt e.host.text token.range.stop)
          e.host.text = span.textIn e.text) ↔ span.stop ≤ s.localStop := by
  have hlies := (h.liesIn_segment hs).start_le_stop
  have hfirst := h.offsetAt_token_start hs hspan hle hposition hge
  have hcontains := contains_toHost hlies span.start
  rw [hfirst]
  constructor
  · rintro ⟨region, hmem, ⟨hc, hc'⟩, htext⟩
    rw [hfirst] at hc
    obtain rfl := eq_of_contains hregions hmem hregion hc hcontains
    have hend := (Region.contains_iff.1 hc').2
    -- the text between two places is not longer than they are apart
    by_cases hlt : s.toHost span.start ≤ offsetAt e.host.text token.range.stop
    · have hapart := bytes_slice (h.isBoundary_toHost hs hle hge hspan.isBoundary_start)
        (isBoundary_offsetAt e.host.text token.range.stop) hlt
      have hstop := hspan.stop_eq
      rw [htext, toHost_of_le hge] at hapart
      simp only [Segment.localStop, Region.size] at hge ⊢
      omega
    · rw [slice, Nat.sub_eq_zero_of_le (Nat.le_of_not_le hlt), takeBytes] at htext
      exact absurd htext.symm hspan.nonempty
  · intro hend
    have hmn : span.start ≤ span.stop := hspan.stop_eq ▸ Nat.le_add_right ..
    have hlast := h.offsetAt_token_stop hs hspan hle hposition hlength hend
    refine ⟨s.region, hregion, ⟨?_, ?_⟩, ?_⟩
    · rwa [hfirst]
    · rw [hlast]
      exact contains_toHost hlies _
    · rw [hlast]
      exact h.slice_toHost hs hspan.isBoundary_start hspan.isBoundary_stop hle hmn hend

end Token

end Embedded

/-! ## The tokens of a file -/

/-- A token of a file marks a name in the text of a service: it starts where the name does, in the
region of the segment in which the name starts, and is as long as the name. -/
structure Marks (source : Text) (service : Service) (token : SemanticToken) (span : Span)
    (s : Segment) : Prop where
  highlights : service.adapter.Highlights service.document.text span
  mem : s ∈ service.document.segments
  starts : service.document.segmentAt? span.start = some s
  position : token.position = positionAt source (s.toHost span.start)
  length : token.length = units (span.textIn service.document.text)
  inside : s.region.contains (offsetAt source token.position)

/-- What is known of a service for a file and of a name in its text. -/
lemma Router.exists_segment {r : Router} {options : ScanOptions} {uri id : String} {version : Int}
    {source : Text} {service : Service} {span : Span}
    (hs : service ∈ r.services (.ofText options uri id version source))
    (hspan : span.OnLine service.document.text) :
    service.document.host.text = source ∧ ∃ rs, service.document.Joins rs ∧
      (service.document.mode = .inline → ∃ r, rs = [r] ∧ r.inAttribute) ∧
      (∀ s ∈ service.document.segments, s.region ∈ scan options source) ∧
      ∃ s ∈ service.document.segments, s.localStart ≤ span.start ∧ span.start ≤ s.localStop ∧
        service.document.segmentAt? span.start = some s := by
  have he := Router.of_mem_services hs
  obtain ⟨hhost, rs, hjoins, hinline⟩ := he.joins
  have hpos : 0 < bytes service.document.text := by
    have := hspan.isBoundary_stop.le
    have := bytes_pos hspan.nonempty
    have := hspan.stop_eq
    omega
  refine ⟨hhost, rs, hjoins, hinline, ?_,
    hjoins.segmentAt?_spec (hjoins.segments_ne_nil hpos) hspan.isBoundary_start.le⟩
  rcases he with ⟨language, hdoc⟩ | ⟨region, hregion, hdoc⟩
  · rw [hdoc]
    exact fun s h => (List.mem_filter.1 (Embedded.mem_segmentsFrom h).1).1
  · rw [hdoc]
    intro s h
    obtain rfl := List.mem_singleton.1 h
    exact hregion

/-- A token covers its name in a single region of the file. -/
def CoversName (file : Snapshot) (token : SemanticToken) (name : Text) : Prop :=
  ∃ region ∈ file.regions, region.Covers file.text token.range ∧
    slice (offsetAt file.text token.range.start) (offsetAt file.text token.range.stop) file.text
      = name

/-- The token of a name, brought to the file, marks the name there. -/
theorem Router.exists_marks {r : Router} {options : ScanOptions} {uri id : String} {version : Int}
    {source : Text} {service : Service} {reported token : SemanticToken} {span : Span}
    (hs : service ∈ r.services (.ofText options uri id version source))
    (hspan : service.adapter.Highlights service.document.text span)
    (hposition : reported.position = positionAt service.document.text span.start)
    (hlength : reported.length = units (span.textIn service.document.text))
    (htoken : (service.document.toHost? reported.position).map reported.moveTo = some token) :
    ∃ s, Marks source service token span s ∧
      (CoversName (.ofText options uri id version source) token
          (span.textIn service.document.text) ↔ span.stop ≤ s.localStop) ∧
      (service.document.segments = [s] → span.stop ≤ s.localStop) := by
  have honLine := hspan.onLine
  obtain ⟨rfl, rs, hjoins, hinline, hregions, s, hseg, hle, hge, hat⟩ :=
    Router.exists_segment hs honLine
  have hstart := hjoins.isBoundary_toHost hseg hle hge honLine.isBoundary_start
  obtain ⟨q, hq, rfl⟩ := Option.map_eq_some_iff.1 htoken
  rw [hposition] at hq
  obtain rfl := (hjoins.toHost?_place hinline honLine.isBoundary_start hat).1 q hq
  have hmoved : (reported.moveTo (positionAt service.document.host.text
      (s.toHost span.start))).position
        = positionAt service.document.host.text (s.toHost span.start) := rfl
  refine ⟨s, ⟨hspan, hseg, hat, rfl, hlength, ?_⟩, ?_, fun hone => ?_⟩
  · rw [hmoved, offsetAt_positionAt_of_boundary hstart]
    exact Embedded.contains_toHost (hjoins.liesIn_segment hseg).start_le_stop _
  · exact hjoins.covers_name_iff hseg honLine hle hmoved hlength (scan_pairwise ..)
      (hregions s hseg) hge
  · rw [hjoins.localStop_single hone]
    exact honLine.isBoundary_stop.le

/-- **The tokens of a file mark the names that the adapters highlight**, if the file is served by
the adapters of the library.  A token covers its name, in a single region, exactly if the name ends
in the segment in which it starts; so it always does in the value of an attribute and in a language
with one block.  Tokens of a file of less than 4 GiB can all be sent; larger files are out of
scope. -/
theorem tokens_mark_names (r : Router) (options : ScanOptions) (key uri id : String) (version : Int)
    (source : Text) (cancelled : Bool)
    (hopen : r.store.get? key = some (.ofText options uri id version source))
    (yaml : Metadata.Reader) (hbuiltin : r.adapters = .builtinWith yaml) :
    let file := Snapshot.ofText options uri id version source
    (bytes source < wordLimit → ∃ ds, (r.semanticTokens key cancelled).result = .ok ds) ∧
    ∀ ds, (r.semanticTokens key cancelled).result = .ok ds →
      ∀ token ∈ SemanticToken.ofDeltas ds, ∃ service ∈ r.services file, ∃ span s,
        Marks source service token span s ∧
        (CoversName file token (span.textIn service.document.text) ↔ span.stop ≤ s.localStop) ∧
        (service.document.segments = [s] → span.stop ≤ s.localStop) := by
  intro file
  have hfans : FansOut .tokens key (fun r => r.semanticTokens key) :=
    fansOut_of_serves (fun _ _ => rfl) (Or.inr rfl) fun e he t => by
      simp [FileRequest.tokens, Embedded.toHost?, he]
  have hresult := hfans.result_eq hopen cancelled
  have hmem (service : Service)
      (h : service ∈ if cancelled then [] else FileRequest.tokens.asked (r.services file)) :
      service ∈ r.services file := by
    split at h
    · exact absurd h (by simp)
    · exact FileRequest.mem_of_mem_asked h
  -- what a service answers are the tokens of names
  have hnames (service : Service) (h : service ∈ r.services file) {answer : List SemanticToken}
      (ha : (service.adapter.tokens service.document).answer = .ok answer) :
      ∀ token ∈ answer, ∃ span, service.adapter.Highlights service.document.text span ∧
        token.position = positionAt service.document.text span.start ∧
        token.length = units (span.textIn service.document.text) := by
    have hget := Router.adapter_of_language h
    rw [hbuiltin] at hget
    obtain ⟨tokens, htokens, hall⟩ := Registry.tokens_builtinWith hget service.document
    obtain rfl : tokens = answer :=
      Except.ok.inj ((congrArg Reply.answer htokens).symm.trans ha)
    exact hall
  refine ⟨fun hsize => ?_, fun ds hds token htoken => ?_⟩
  · rw [hresult]
    refine FileRequest.fanIn_ok_iff.2 fun service hs answer ha reported hreported => ?_
    obtain ⟨span, hspan, hposition, -⟩ := hnames service (hmem service hs) ha reported hreported
    obtain ⟨hhost, rs, hjoins, hinline, -, s, -, -, -, hat⟩ :=
      Router.exists_segment (hmem service hs) hspan.onLine
    have hsome := (hjoins.toHost?_place hinline hspan.onLine.isBoundary_start hat).2 (hhost ▸ hsize)
    rw [← hposition] at hsome
    exact (Option.isSome_map ..).trans hsome
  · rw [hresult] at hds
    obtain ⟨groups, hgroups, rfl⟩ := FileRequest.exists_of_fanIn hds
    have hmerged : token ∈ SemanticToken.merge groups.flatten :=
      (SemanticToken.ofDeltas_merge groups.flatten).2 ▸ htoken
    obtain ⟨group, hgroup, htoken⟩ := List.mem_flatten.1 (SemanticToken.mem_of_mem_merge hmerged)
    obtain ⟨service, hs, hc⟩ := mem_of_mapM hgroups hgroup
    obtain ⟨answer, ha, reported, hreported, hmoved⟩ := mem_contribution hc htoken
    obtain ⟨span, hspan, hposition, hlength⟩ :=
      hnames service (hmem service hs) ha reported hreported
    exact ⟨service, hmem service hs, span,
      Router.exists_marks (hmem service hs) hspan hposition hlength hmoved⟩

/-! ## Tokens of two files -/

/-- A server has an adapter for style sheets. -/
lemma Registry.get?_builtinWith_css (yaml : Metadata.Reader) :
    (builtinWith yaml).get? "css" = some (Style.adapter "css") := by
  have hid (language : String) : (Style.adapter language).id = language := rfl
  simp [builtinWith, get?_register, plainStyleLanguage, stylePreprocessors, hid, Metadata.adapter,
    metadataLanguage]

/-- The tokens of a style sheet are those of the properties that are declared in it. -/
lemma Style.tokens_of_declarations {language : String} {e : Embedded} {tokens : List SemanticToken}
    (ds : List Style.Declaration)
    (hds : ((maskComments e.text).foldl SheetState.step {}).declare.sheet.declarations = ds)
    (htokens : ds.filterMap (·.token? e.text) = tokens) :
    (Style.adapter language).tokens e = ⟨.ok tokens, false⟩ := by
  have hdeclared : (Sheet.ofText e.text).declarations = ds := by
    rw [Sheet.ofText, SheetState.declarations_finish, hds]
  rw [← htokens, ← hdeclared]
  rfl

/-- A property behind a comment in a block, and one in the value of an attribute.  Each has its
token. -/
theorem tokens_mark_names_value :
    let source : Text := "<style>/*😀*/a{color:red}</style><p style=\"top:0\"/>".toList
    let file := Snapshot.ofText {} "file:///a" "sfc" 1 source
    let r : Router := ⟨({} : Store).put file, .builtinWith fun _ => .ok .mapping⟩
    let tokens : List SemanticToken :=
      [⟨0, 15, 5, SemanticToken.propertyKind, 0⟩, ⟨0, 43, 3, SemanticToken.propertyKind, 0⟩]
    r.store.get? "file:///a" = some file ∧
      ∃ ds, (r.semanticTokens "file:///a" false).result = .ok ds ∧
        SemanticToken.ofDeltas ds = tokens ∧
        ∀ token ∈ tokens, ∃ service ∈ r.services file, ∃ span s,
          Marks source service token span s := by
  intro source file r tokens
  have hopen : r.store.get? "file:///a" = some file := Std.TreeMap.getElem?_insert_self
  have hlanguages : file.blockLanguages = ["css"] := by decide +kernel
  have hvalues : file.regions.filter (·.inAttribute) = [.ofAttribute "css" 45 50] := by
    decide +kernel
  have hservices : r.services file = [⟨Style.adapter "css", .ofLanguage file "css"⟩,
      ⟨Style.adapter "css", .ofRegion file (.ofAttribute "css" 45 50)⟩] := by
    simp [Router.services, Router.blockServices, Router.fragmentServices, hlanguages, hvalues, r,
      Registry.get?_builtinWith_css, Region.ofAttribute]
  have hblock : (Style.adapter "css").tokens (.ofLanguage file "css")
      = ⟨.ok [⟨0, 8, 5, SemanticToken.propertyKind, 0⟩], false⟩ :=
    Style.tokens_of_declarations [⟨⟨10, 15⟩, ⟨16, 19⟩⟩] (by decide +kernel) (by decide +kernel)
  have hvalue : (Style.adapter "css").tokens (.ofRegion file (.ofAttribute "css" 45 50))
      = ⟨.ok [⟨0, 0, 3, SemanticToken.propertyKind, 0⟩], false⟩ :=
    Style.tokens_of_declarations [⟨⟨0, 3⟩, ⟨4, 5⟩⟩] (by decide +kernel) (by decide +kernel)
  have hmoved : (Embedded.ofLanguage file "css").toHost? ⟨0, 8⟩ = some ⟨0, 15⟩ := by decide +kernel
  have hmoved' : (Embedded.ofRegion file (.ofAttribute "css" 45 50)).toHost? ⟨0, 0⟩
      = some ⟨0, 43⟩ := by
    decide +kernel
  have hresult : (r.semanticTokens "file:///a" false).result
      = .ok (SemanticToken.deltas (SemanticToken.merge tokens)) := by
    rw [Router.semanticTokens, Routed.map, Router.askAll_result hopen, hservices]
    simp [reached, hblock, hvalue, contribution, SemanticToken.position, hmoved, hmoved', sendable,
      Except.map, SemanticToken.moveTo, tokens]
  have hmerged : SemanticToken.merge tokens = tokens := by
    rw [SemanticToken.merge, List.mergeSort_of_pairwise (by decide)]
    decide
  have hdecoded : SemanticToken.ofDeltas (SemanticToken.deltas (SemanticToken.merge tokens))
      = tokens := (SemanticToken.ofDeltas_merge tokens).2.trans hmerged
  refine ⟨hopen, _, hresult, hdecoded, fun token htoken => ?_⟩
  obtain ⟨-, hmarks⟩ :=
    tokens_mark_names r {} "file:///a" "file:///a" "sfc" 1 source false hopen _ rfl
  obtain ⟨service, hs, span, s, hmark, -⟩ := hmarks _ hresult token (hdecoded.symm ▸ htoken)
  exact ⟨service, hs, span, s, hmark⟩

/-- A property whose name starts at the end of one block and goes on in the next one.  Its token
covers the end tag behind the first block. -/
theorem token_leaves_block :
    let source : Text := "<style>a{col</style><style>or:red}</style>".toList
    let file := Snapshot.ofText {} "file:///a" "sfc" 1 source
    let r : Router := ⟨({} : Store).put file, .builtinWith fun _ => .ok .mapping⟩
    let token : SemanticToken := ⟨0, 9, 5, SemanticToken.propertyKind, 0⟩
    r.store.get? "file:///a" = some file ∧
      (∃ ds, (r.semanticTokens "file:///a" false).result = .ok ds ∧
        token ∈ SemanticToken.ofDeltas ds) ∧
      slice (offsetAt source token.range.start) (offsetAt source token.range.stop) source
        = "col</".toList ∧
      ¬ ∃ region ∈ file.regions, region.Covers source token.range := by
  intro source file r token
  have hopen : r.store.get? "file:///a" = some file := Std.TreeMap.getElem?_insert_self
  have hlanguages : file.blockLanguages = ["css"] := by decide +kernel
  have hvalues : file.regions.filter (·.inAttribute) = [] := by decide +kernel
  have hservices : r.services file = [⟨Style.adapter "css", .ofLanguage file "css"⟩] := by
    simp [Router.services, Router.blockServices, Router.fragmentServices, hlanguages, hvalues, r,
      Registry.get?_builtinWith_css]
  have hreported : (Style.adapter "css").tokens (.ofLanguage file "css")
      = ⟨.ok [⟨0, 2, 5, SemanticToken.propertyKind, 0⟩], false⟩ :=
    Style.tokens_of_declarations [⟨⟨2, 7⟩, ⟨8, 11⟩⟩] (by decide +kernel) (by decide +kernel)
  have hmoved : (Embedded.ofLanguage file "css").toHost? ⟨0, 2⟩ = some ⟨0, 9⟩ := by decide +kernel
  refine ⟨hopen, ⟨[⟨0, 9, 5, SemanticToken.propertyKind, 0⟩], ?_, by decide +kernel⟩,
    by decide +kernel, by decide +kernel⟩
  rw [Router.semanticTokens, Routed.map, Router.askAll_result hopen, hservices]
  simp [reached, hreported, contribution, SemanticToken.position, hmoved, sendable, Except.map,
    SemanticToken.moveTo, SemanticToken.merge, SemanticToken.dropRepeats, SemanticToken.deltas,
    SemanticToken.deltasFrom, SemanticToken.deltaFrom]

end Mosaic
