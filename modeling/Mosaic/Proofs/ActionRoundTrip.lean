import Mosaic.Proofs.CursorInBlock
import Mosaic.Proofs.FanOut

/-!
# Code actions that come back

A code action is shown to the client in places of the file, with its origin in the place of its
data.  When it comes back to be finished, it has to reach the adapter that made it as it was made.

* `Embedded.Of.range_round_trip` — a range of the embedded text goes to the host and back, also one
  that ends at a joint of two blocks or goes on into a later block.
* `ActionOrigin.ofJson?_toJson` — an origin can be read off the data of an action.
* `Router.resolves_received` — what an action with an origin leads to.
* `code_action_round_trip` — the adapter gets back the action it made, and what it makes of it comes
  to the client so that it can be finished once more.
* `far_fix_is_lost` — an action that is finished with a place that cannot be sent.
-/

namespace Mosaic

open Text

namespace Embedded

variable {e : Embedded} {rs : List Region} {s : Segment} {m n : Nat} {range : Range}

/-! ## Ranges to the host and back -/

/-- The range of a part of the embedded text. -/
def Selects (e : Embedded) (range : Range) : Prop :=
  ∃ m n, m ≤ n ∧ IsBoundary e.text m ∧ IsBoundary e.text n ∧ range = rangeOf e.text m n

/-- A place of a segment is found again from the host. -/
lemma Joins.toLocal?_positionAt (h : e.Joins rs) (hmode : e.mode = .offset) (hs : s ∈ e.segments)
    (hle : s.localStart ≤ n) (hge : n ≤ s.localStop) (hn : IsBoundary e.text n) :
    e.toLocal? (e.host.positionAt (s.toHost n)) = some (positionAt e.text n) := by
  have hhost := h.isBoundary_toHost hs hle hge hn
  simp only [toLocal?, hmode, Snapshot.positionAt, Snapshot.offsetAt]
  rw [offsetAt_positionAt_of_boundary hhost, h.offsetToLocal?_toHost hs hle hge, Option.map_some]

/-- Through byte offsets, a part of the embedded text goes to the host and back. -/
lemma Joins.range_round_trip_offset (h : e.Joins rs) (hmode : e.mode = .offset)
    (hne : e.segments ≠ []) (hmn : m ≤ n) (hm : IsBoundary e.text m) (hn : IsBoundary e.text n) :
    (e.rangeToHost? (rangeOf e.text m n)).bind e.rangeToLocal? = some (rangeOf e.text m n) := by
  obtain ⟨s, hs, h1, h2, hat⟩ := h.segmentAt?_spec hne hm.le
  obtain ⟨s', hs', h3, h4, hat'⟩ := h.segmentAt?_spec hne hn.le
  have hstart := h.toLocal?_positionAt hmode hs h1 h2 hm
  have hspan : e.rangeToHost? (rangeOf e.text m n)
      = some ⟨e.host.positionAt (e.spanToHost m n).1, e.host.positionAt (e.spanToHost m n).2⟩ := by
    simp only [rangeToHost?, hmode, rangeOf, offsetAt_positionAt_of_boundary hm,
      offsetAt_positionAt_of_boundary hn, max_eq_right hmn]
  rw [hspan, Option.bind_some]
  by_cases hend : n ≤ s.localStop
  · have hstop := h.toLocal?_positionAt hmode hs (h1.trans hmn) hend hn
    simp only [spanToHost, hat, if_pos hend, rangeToLocal?, hstart, hstop, Option.bind_eq_bind,
      Option.bind_some, rangeOf]
  · -- the range goes on into a later segment
    have hstop := h.toLocal?_positionAt hmode hs' h3 h4 hn
    simp only [spanToHost, hat, if_neg hend, offsetToHost, hat', rangeToLocal?, hstart, hstop,
      Option.bind_eq_bind, Option.bind_some, rangeOf]

/-- By shifting the character, a part of the value of an attribute goes to the host and back. -/
lemma Joins.range_round_trip_inline {r : Region} (h : e.Joins [r]) (hmode : e.mode = .inline)
    (hr : r.inAttribute) (hsize : bytes e.host.text < wordLimit) (hm : IsBoundary e.text m)
    (hn : IsBoundary e.text n) :
    (e.rangeToHost? (rangeOf e.text m n)).bind e.rangeToLocal? = some (rangeOf e.text m n) := by
  obtain ⟨start, h1, h2⟩ := Option.bind_eq_some_iff.1 (h.toLocal?_toHost?_inline hmode hr hsize hm)
  obtain ⟨stop, h3, h4⟩ := Option.bind_eq_some_iff.1 (h.toLocal?_toHost?_inline hmode hr hsize hn)
  simp only [rangeToHost?, hmode, rangeToLocal?, rangeOf, h1, h2, h3, h4, Option.bind_eq_bind,
    Option.bind_some]

/-- **A range of the embedded text goes to the host and back.** -/
theorem Of.range_round_trip {options : ScanOptions} {uri language : String} {version : Int}
    {source : Text} (he : e.Of (.ofText options uri language version source))
    (hsize : bytes source < wordLimit) (hne : e.segments ≠ []) (hrange : e.Selects range) :
    (e.rangeToHost? range).bind e.rangeToLocal? = some range := by
  obtain ⟨m, n, hmn, hm, hn, rfl⟩ := hrange
  obtain ⟨hhost, rs, hjoins, hinline⟩ := he.joins
  cases hmode : e.mode with
  | offset => exact hjoins.range_round_trip_offset hmode hne hmn hm hn
  | inline =>
    obtain ⟨r, rfl, hr⟩ := hinline hmode
    exact hjoins.range_round_trip_inline hmode hr (hhost ▸ hsize) hm hn

/-- The document of a request in a region of the file is one of its embedded documents. -/
lemma of_forRequest {file : Snapshot} {region : Region} (h : region ∈ file.regions) :
    (forRequest file region).Of file := by
  by_cases hattr : region.inAttribute
  · exact Or.inr ⟨region, h, if_pos hattr⟩
  · exact Or.inl ⟨region.language, if_neg hattr⟩

/-- The document of a request in a region of the file has a segment at least. -/
lemma segments_forRequest {file : Snapshot} {region : Region} (h : region ∈ file.regions) :
    (forRequest file region).segments ≠ [] := by
  by_cases hattr : region.inAttribute
  · simp [forRequest, hattr, ofRegion]
  · have hmem : region ∈ blocksOf file region.language := List.mem_filter.2 ⟨h, by simp [hattr]⟩
    cases hb : blocksOf file region.language with
    | nil => simp [hb] at hmem
    | cons b bs => simp [forRequest, hattr, ofLanguage, segmentsFrom, hb]

lemma uri_forRequest (file : Snapshot) (region : Region) :
    (forRequest file region).uri = file.uri := by
  by_cases hattr : region.inAttribute <;> simp [forRequest, hattr, ofRegion, ofLanguage, uri]

end Embedded

/-! ## The origin of an action -/

/-- An origin can be read off its JSON form. -/
lemma ActionOrigin.ofJson?_toJson (o : ActionOrigin) (h : Uri.isAbsolute o.uri) :
    ofJson? o.toJson = some o := by
  simp [ofJson?, toJson, Json.read?, Json.get?, Json.members, Json.str?, Json.nat, Json.nat?,
    Json.int?, Decimal.int?, uri?, Option.filter, h]

/-- The region in which an action was offered is found by where it starts. -/
lemma Router.originRegion?_eq {file : Snapshot} {region : Region} {o : ActionOrigin}
    (hpair : file.regions.Pairwise Region.Before) (hlies : ∀ r ∈ file.regions, r.start ≤ r.stop)
    (hmem : region ∈ file.regions) (hlanguage : o.language = region.language)
    (hstart : o.regionStart = region.start) : originRegion? file o = some region := by
  have hsome : (originRegion? file o).isSome :=
    List.find?_isSome.2 ⟨region, hmem, by simp [hlanguage, hstart]⟩
  obtain ⟨found, hfound⟩ := Option.isSome_iff_exists.1 hsome
  have hin := List.mem_of_find?_eq_some hfound
  have hsame : found.start = region.start := by
    have := List.find?_some hfound
    simp only [Bool.and_eq_true, beq_iff_eq] at this
    rw [this.2, hstart]
  have hf : found.contains region.start :=
    Region.contains_iff.2 ⟨hsame.le, hsame ▸ hlies found hin⟩
  have hr : region.contains region.start := Region.contains_iff.2 ⟨le_refl _, hlies region hmem⟩
  rw [hfound, eq_of_contains hpair hin hmem hf hr]

namespace CodeAction

/-- The action with its data as an adapter gets them back: absent data have become `null`. -/
def unwrapped (a : CodeAction) : CodeAction :=
  { a with data := some (a.data.getD .null) }

/-- The data of an action have no part in its translation. -/
lemma translate_data (uri : String) (f : Range → Option Range) (a : CodeAction)
    (data : Option Json) :
    translate uri f { a with data } = (translate uri f a).map ({ · with data }) := by
  simp only [translate, Option.bind_eq_bind]
  cases a.diagnostics.mapM (·.mapM (Diagnostic.translate uri f)) with
  | none => rfl
  | some diagnostics => cases a.edit.mapM (WorkspaceEdit.translate uri f) <;> rfl

lemma data_translate {uri : String} {f : Range → Option Range} {a b : CodeAction}
    (h : translate uri f a = some b) : b.data = a.data := by
  simp only [translate, Option.bind_eq_bind, Option.bind_eq_some_iff, Option.some.injEq] at h
  obtain ⟨_, -, _, -, rfl⟩ := h
  rfl

end CodeAction

namespace Router

/-- To resolve the received action, the service gets the action `made`.  If it fails, the received
action is what the client gets, and else what has become of it, in places of the file and with the
data that were received. -/
structure ResolvesTo (r : Router) (service : Service) (received made : CodeAction) : Prop where
  calls : (r.resolveCodeAction received).calls = [service.call (.resolve made)]
  failed : ∀ failure, service.adapter.resolve service.document made = .error failure →
    (r.resolveCodeAction received).result = .ok received
  finished : ∀ resolved, service.adapter.resolve service.document made = .ok resolved →
    (r.resolveCodeAction received).result = sendable
      ((resolved.translate service.document.uri service.document.rangeToHost?).map
        ({ · with data := received.data }))

variable {r : Router} {file : Snapshot} {region : Region} {adapter : Adapter} {data : Json}
  {received made : CodeAction}

/-- **An action with an origin leads to its adapter if all its ranges can be made local**, and else
comes back as it was received. -/
theorem resolves_received (habs : Uri.isAbsolute file.uri)
    (hopen : r.store.get? file.uri = some file)
    (hadapter : r.adapters.get? region.language = some adapter)
    (hregion : originRegion? file ⟨region.language, file.uri, region.start, data⟩ = some region)
    (hdata : received.data
      = some (ActionOrigin.toJson ⟨region.language, file.uri, region.start, data⟩)) :
    let e := Embedded.forRequest file region
    ((∃ l ∈ received.rangesIn file.uri, e.rangeToLocal? l = none) →
      r.resolveCodeAction received = .pure received) ∧
    ∀ made, received.translate file.uri e.rangeToLocal? = some made →
      r.ResolvesTo ⟨adapter, e⟩ received { made with data := some data } := by
  intro e
  have horigin : received.data.bind ActionOrigin.ofJson?
      = some ⟨region.language, file.uri, region.start, data⟩ := by
    rw [hdata, Option.bind_some]
    exact ActionOrigin.ofJson?_toJson _ habs
  have horiginOf : r.originOf? file ⟨region.language, file.uri, region.start, data⟩ received
      = (received.translate file.uri e.rangeToLocal?).map
        fun made => (⟨adapter, e⟩, { made with data := some data }) := by
    simp only [originOf?, hadapter, hregion, Option.bind_eq_bind, Option.bind_some,
      Embedded.uri_forRequest, CodeAction.translate_data]
    cases received.translate file.uri e.rangeToLocal? <;> rfl
  constructor
  · intro hnone
    simp only [resolveCodeAction, horigin, on, require_eq_ok hopen, horiginOf,
      (CodeAction.translates file.uri).eq_none_iff.2 hnone, Option.map_none]
  · intro made hmade
    refine ⟨?_, fun failure hf => ?_, fun resolved hok => ?_⟩
    · simp only [resolveCodeAction, horigin, on, require_eq_ok hopen, horiginOf, hmade,
        Option.map_some]
    · simp only at hf
      simp only [resolveCodeAction, horigin, on, require_eq_ok hopen, horiginOf, hmade,
        Option.map_some, hf]
    · simp only at hok
      simp only [resolveCodeAction, horigin, on, require_eq_ok hopen, horiginOf, hmade,
        Option.map_some, hok]

/-- The answer to a request for code actions, if the adapter is asked and gives one. -/
lemma codeActions_result {uri : String} {range place : Range} {context : CodeActionContext}
    {answer : List CodeAction} (hopen : r.store.get? uri = some file)
    (hregion : file.regionUnder? range.start = some region)
    (hadapter : r.adapters.get? region.language = some adapter)
    (hplace : (Embedded.forRequest file region).rangeToLocal? range = some place)
    (hanswer : adapter.codeActions (.forRequest file region) place
      (context.toLocal (.forRequest file region)) = .ok answer) :
    (r.codeActions uri range context).result
      = sendable (answer.mapM (CodeAction.toHost region (.forRequest file region))) := by
  simp only [codeActions, askAt, on, require_eq_ok hopen, hregion, serviceFor?, hadapter, hplace,
    hanswer, Option.map_some]

/-- The origin that goes with an action that was offered in a region. -/
def originIn (file : Snapshot) (region : Region) (data : Json) : Json :=
  ActionOrigin.toJson ⟨region.language, file.uri, region.start, data⟩

/-- An action whose ranges go to the host and back goes to the client, and comes back as it was. -/
lemma exists_offered (region : Region) {action : CodeAction} {e : Embedded}
    (huri : e.uri = file.uri)
    (hback : ∀ l ∈ action.rangesIn file.uri, (e.rangeToHost? l).bind e.rangeToLocal? = some l) :
    ∃ routed, action.toHost region e = some routed ∧
      routed.data = some (originIn file region (action.data.getD .null)) ∧
      routed.translate file.uri e.rangeToLocal? = some { action with data := routed.data } := by
  obtain ⟨host, hhost, ha⟩ := (CodeAction.translates file.uri).exists_back hback
  refine ⟨{ host with data := some (originIn file region (action.data.getD .null)) }, ?_, rfl, ?_⟩
  · simp only [CodeAction.toHost, huri, hhost, Option.bind_eq_bind, Option.bind_some,
      CodeAction.data_translate hhost, originIn]
  · rw [CodeAction.translate_data, ha, Option.map_some]

/-- An action that was finished is lost, for it has a range in the value of an attribute that cannot
be sent. -/
structure Loses (r : Router) (service : Service) (received resolved : CodeAction) : Prop where
  inValue : service.document.mode = .inline
  far : ∃ l ∈ resolved.rangesIn service.document.uri, service.document.rangeToHost? l = none
  result : (r.resolveCodeAction received).result = .error .unsendable

/-- An action that was finished goes to the client with the data of the action that came back, and
its ranges in places of the file. -/
structure Finishes (r : Router) (service : Service) (received resolved back : CodeAction) :
    Prop where
  result : (r.resolveCodeAction received).result = .ok back
  data : back.data = received.data
  ranges : List.Forall₂ (fun l host => service.document.rangeToHost? l = some host)
    (resolved.rangesIn service.document.uri) (back.rangesIn service.document.uri)

/-- **An action that was finished goes to the client, or it is lost.** -/
theorem ResolvesTo.loses_or_finishes {service : Service} {resolved : CodeAction}
    (h : r.ResolvesTo service received made)
    (hok : service.adapter.resolve service.document made = .ok resolved) :
    r.Loses service received resolved ∨ ∃ back, r.Finishes service received resolved back ∧
      ((∀ l ∈ resolved.rangesIn service.document.uri,
          (service.document.rangeToHost? l).bind service.document.rangeToLocal? = some l) →
        back.translate service.document.uri service.document.rangeToLocal?
          = some { resolved with data := received.data }) := by
  have htranslates := CodeAction.translates service.document.uri
  cases hhost : resolved.translate service.document.uri service.document.rangeToHost? with
  | none =>
    obtain ⟨l, hl, hnone⟩ := htranslates.eq_none_iff.1 hhost
    refine .inl ⟨?_, ⟨l, hl, hnone⟩, ?_⟩
    · -- a range in the text of blocks goes to the host
      cases hmode : service.document.mode with
      | inline => rfl
      | offset =>
        have hsome := Embedded.isSome_rangeToHost? hmode l
        simp [hnone] at hsome
    · rw [h.finished resolved hok, hhost]
      rfl
  | some host =>
    refine .inr ⟨{ host with data := received.data },
      ⟨?_, rfl, htranslates.each _ _ host hhost⟩, fun hback => ?_⟩
    · rw [h.finished resolved hok, hhost, Option.map_some, sendable]
    · rw [CodeAction.translate_data, htranslates.back _ _ _ _ hhost hback, Option.map_some]

end Router

/-- **An adapter that is to finish a code action gets the action that it made**, over the document
for which it made it.  What it makes of the action comes to the client in places of the file and
with the same origin, so that it can be finished once more; it is lost exactly if it has a range in
the value of an attribute that cannot be sent.  An action that reaches outside the blocks of its
language, or with which the adapter fails, comes back as it was received. -/
theorem code_action_round_trip (options : ScanOptions) (uri id : String) (version : Int)
    (source : Text) (hsize : bytes source < wordLimit) (huri : Uri.isAbsolute uri)
    (file : Snapshot) (hfile : file = .ofText options uri id version source)
    (r : Router) (hopen : r.store.get? uri = some file)
    (range place : Range) (context : CodeActionContext) (region : Region) (adapter : Adapter)
    (answer : List CodeAction) (hregion : file.regionUnder? range.start = some region)
    (hadapter : r.adapters.get? region.language = some adapter)
    (hplace : (Embedded.forRequest file region).rangeToLocal? range = some place)
    (hanswer : adapter.codeActions (.forRequest file region) place
      (context.toLocal (.forRequest file region)) = .ok answer) :
    let e := Embedded.forRequest file region
    let service : Service := ⟨adapter, e⟩
    e.uri = uri ∧
    (∀ sent, (r.codeActions uri range context).result = .ok sent →
      List.Forall₂ (fun action routed => action.toHost region e = some routed) answer sent) ∧
    ((∀ action ∈ answer, ∀ l ∈ action.rangesIn uri, e.Selects l) →
      ∃ sent, (r.codeActions uri range context).result = .ok sent) ∧
    (∀ action ∈ answer, (∀ l ∈ action.rangesIn uri, e.Selects l) →
      ∃ routed, action.toHost region e = some routed ∧
        r.ResolvesTo service routed action.unwrapped ∧
        ∀ resolved, adapter.resolve e action.unwrapped = .ok resolved →
          r.Loses service routed resolved ∨
          ∃ back, r.Finishes service routed resolved back ∧
            ((∀ l ∈ resolved.rangesIn uri, e.Selects l) →
              r.ResolvesTo service back { resolved with data := action.unwrapped.data })) ∧
    ∀ received data,
      received.data = some (ActionOrigin.toJson ⟨region.language, uri, region.start, data⟩) →
      (∃ l ∈ received.rangesIn uri, e.rangeToLocal? l = none) ∧
          r.resolveCodeAction received = .pure received ∨
        ∃ made, received.translate uri e.rangeToLocal? = some made ∧
          r.ResolvesTo service received { made with data := some data } := by
  intro e service
  have hregions : file.regions = scan options source := by rw [hfile]; rfl
  have hpair : file.regions.Pairwise Region.Before :=
    hregions ▸ (scan_spaced options source).choose_spec.pairwise
  have hlies (s : Region) (hs : s ∈ file.regions) : s.start ≤ s.stop :=
    (scan_liesIn (hregions ▸ hs)).start_le_stop
  have hmem : region ∈ file.regions := ((find?_contains_eq_some_iff hpair).1 hregion).1
  have hof : e.Of (.ofText options uri id version source) := by
    rw [← hfile]
    exact Embedded.of_forRequest hmem
  have hback (l : Range) (hl : e.Selects l) : (e.rangeToHost? l).bind e.rangeToLocal? = some l :=
    hof.range_round_trip hsize (Embedded.segments_forRequest hmem) hl
  obtain rfl : uri = file.uri := by rw [hfile]; rfl
  have huriE : service.document.uri = file.uri := Embedded.uri_forRequest file region
  have hresult := Router.codeActions_result hopen hregion hadapter hplace hanswer
  have hreceived (received : CodeAction) (data : Json)
      (hd : received.data
        = some (ActionOrigin.toJson ⟨region.language, file.uri, region.start, data⟩)) :=
    Router.resolves_received huri hopen hadapter
      (Router.originRegion?_eq hpair hlies hmem rfl rfl) hd
  have hoffered (action : CodeAction) (hvalid : ∀ l ∈ action.rangesIn file.uri, e.Selects l) :=
    Router.exists_offered region huriE fun l hl => hback l (hvalid l hl)
  refine ⟨huriE, fun sent hsent => ?_, fun hall => ?_, fun action _ hvalid => ?_,
    fun received data hd => ?_⟩
  · exact mapM_eq_some_iff.1 (sendable_eq_ok_iff.1 (hresult.symm.trans hsent))
  · obtain ⟨sent, hsent⟩ := exists_mapM_eq_some fun action ha =>
      (hoffered action (hall action ha)).imp fun _ h => h.1
    exact ⟨sent, hresult.trans (sendable_eq_ok_iff.2 hsent)⟩
  · obtain ⟨routed, hto, hdata, hlocal⟩ := hoffered action hvalid
    have hresolves : r.ResolvesTo service routed action.unwrapped :=
      (hreceived routed _ hdata).2 { action with data := routed.data } hlocal
    refine ⟨routed, hto, hresolves, fun resolved hok => ?_⟩
    refine (hresolves.loses_or_finishes hok).imp_right ?_
    rintro ⟨back, hfinishes, hagain⟩
    refine ⟨back, hfinishes, fun hselects => ?_⟩
    rw [huriE] at hagain
    exact (hreceived back _ (hfinishes.data.trans hdata)).2 { resolved with data := routed.data }
      (hagain fun l hl => hback l (hselects l hl))
  · cases hmade : received.translate file.uri e.rangeToLocal? with
    | none =>
      have hnone := (CodeAction.translates file.uri).eq_none_iff.1 hmade
      exact Or.inl ⟨hnone, (hreceived received data hd).1 hnone⟩
    | some made => exact Or.inr ⟨made, rfl, (hreceived received data hd).2 made hmade⟩

/-- A fix that goes on from the first of two blocks into the second. -/
theorem code_action_round_trip_across_blocks :
    let source : Text := "<style>a{}</style><style>b{}</style>".toList
    let file := Snapshot.ofText {} "file:///a" "sfc" 1 source
    let region := Region.block "css" 7 10
    let e := Embedded.forRequest file region
    let edit : TextEdit := ⟨⟨⟨0, 2⟩, ⟨0, 4⟩⟩, ""⟩
    let fix : CodeAction :=
      { title := "join", edit := some { changes := some [("file:///a", [edit])] } }
    let adapter : Adapter := { id := "css", codeActions := fun _ _ _ => .ok [fix] }
    let r : Router := ⟨Store.put file {}, Registry.register {} adapter⟩
    let cursor : Range := ⟨⟨0, 7⟩, ⟨0, 7⟩⟩
    bytes source < wordLimit ∧ Uri.isAbsolute "file:///a" ∧ r.store.get? "file:///a" = some file ∧
      file.regionUnder? cursor.start = some region ∧
      r.adapters.get? region.language = some adapter ∧
      e.rangeToLocal? cursor = some ⟨⟨0, 0⟩, ⟨0, 0⟩⟩ ∧ e.Selects edit.range ∧
      ∃ routed, fix.toHost region e = some routed ∧ r.ResolvesTo ⟨adapter, e⟩ routed fix.unwrapped ∧
        ∃ back, (r.resolveCodeAction routed).result = .ok back ∧ back.data = routed.data ∧
          back.rangesIn "file:///a" = [⟨⟨0, 9⟩, ⟨0, 26⟩⟩] := by
  intro source file region e edit fix adapter r cursor
  have hsize : bytes source < wordLimit := by decide +kernel
  have huri : Uri.isAbsolute "file:///a" := by decide +kernel
  have hopen : r.store.get? "file:///a" = some file :=
    (Store.get?_put file {} _).trans (if_pos rfl)
  have hregion : file.regionUnder? cursor.start = some region := by decide +kernel
  have hadapter : r.adapters.get? region.language = some adapter := by
    simp only [r, region, adapter, Region.block, Registry.get?, Registry.register,
      Std.TreeMap.getElem?_insert_self]
  have hplace : e.rangeToLocal? cursor = some ⟨⟨0, 0⟩, ⟨0, 0⟩⟩ := by decide +kernel
  have htext : e.text = "a{}b{}".toList := by decide +kernel
  have hselects : e.Selects edit.range := by
    refine ⟨2, 4, by decide, ?_, ?_, ?_⟩ <;> rw [htext]
    · exact ⟨"a\x7b".toList, "\x7db{}".toList, by decide, by decide⟩
    · exact ⟨"a{}b".toList, "{}".toList, by decide, by decide⟩
    · decide +kernel
  have hhost : e.rangeToHost? edit.range = some ⟨⟨0, 9⟩, ⟨0, 26⟩⟩ := by decide +kernel
  have hranges (l : Range) (hl : l ∈ fix.rangesIn "file:///a") : l = edit.range :=
    List.mem_singleton.1 hl
  obtain ⟨-, -, -, hactions, -⟩ := code_action_round_trip {} "file:///a" "sfc" 1 source hsize huri
    file rfl r hopen cursor ⟨⟨0, 0⟩, ⟨0, 0⟩⟩ ⟨[], []⟩ region adapter [fix] hregion hadapter hplace
    rfl
  obtain ⟨routed, hto, hresolves, hfinished⟩ := hactions fix (List.mem_singleton_self fix)
    fun l hl => hranges l hl ▸ hselects
  refine ⟨hsize, huri, hopen, hregion, hadapter, hplace, hselects, routed, hto, hresolves, ?_⟩
  rcases hfinished fix.unwrapped rfl with hloses | ⟨back, hfinishes, -⟩
  · exact absurd hloses.inValue (by decide +kernel)
  · have hplaces : List.Forall₂ (fun l host => e.rangeToHost? l = some host) [edit.range]
        (back.rangesIn "file:///a") := hfinishes.ranges
    obtain ⟨host, rest, hrange, hrest, heq⟩ := List.forall₂_cons_left_iff.1 hplaces
    refine ⟨back, hfinishes.result, hfinishes.data, ?_⟩
    rw [heq, List.forall₂_nil_left_iff.1 hrest, Option.some.inj (hrange.symm.trans hhost)]

/-- A fix in the value of an attribute that is finished with a place far behind its end.  The action
comes back from the client as it was made, and yet the client gets nothing. -/
theorem far_fix_is_lost :
    let source : Text := "<p style=\"a:b\"/>".toList
    let file := Snapshot.ofText {} "file:///a" "sfc" 1 source
    let region := Region.ofAttribute "css" 10 13
    let edit (stop : Position) : WorkspaceEdit :=
      { changes := some [("file:///a", [⟨⟨⟨0, 0⟩, stop⟩, "c"⟩])] }
    let fix : CodeAction := { title := "fix", edit := some (edit ⟨0, 1⟩) }
    let adapter : Adapter :=
      { id := "css"
        codeActions := fun _ _ _ => .ok [fix]
        resolve := fun _ action => .ok { action with edit := some (edit ⟨0, wordLimit - 1⟩) } }
    let r : Router := ⟨Store.put file {}, Registry.register {} adapter⟩
    let cursor : Range := ⟨⟨0, 10⟩, ⟨0, 10⟩⟩
    r.store.get? "file:///a" = some file ∧ file.regionUnder? cursor.start = some region ∧
      (∀ l ∈ fix.rangesIn "file:///a", (Embedded.forRequest file region).Selects l) ∧
      ∃ routed, (r.codeActions "file:///a" cursor ⟨[], []⟩).result = .ok [routed] ∧
        (r.resolveCodeAction routed).calls
          = [Service.call ⟨adapter, .forRequest file region⟩ (.resolve fix.unwrapped)] ∧
        (r.resolveCodeAction routed).result = .error .unsendable := by
  intro source file region edit fix adapter r cursor
  let e := Embedded.forRequest file region
  have hopen : r.store.get? "file:///a" = some file :=
    (Store.get?_put file {} _).trans (if_pos rfl)
  have hregion : file.regionUnder? cursor.start = some region := by decide +kernel
  have hadapter : r.adapters.get? region.language = some adapter :=
    (Registry.get?_register {} adapter "css").trans (if_pos rfl)
  have hplace : e.rangeToLocal? cursor = some ⟨⟨0, 0⟩, ⟨0, 0⟩⟩ := by decide +kernel
  have horigin : Router.originRegion? file ⟨"css", "file:///a", 10, .null⟩ = some region := by
    decide +kernel
  have huriE : e.uri = file.uri := Embedded.uri_forRequest file region
  have htext : e.text = "a:b".toList := by decide +kernel
  have hranges (l : Range) (hl : l ∈ fix.rangesIn "file:///a") : l = ⟨⟨0, 0⟩, ⟨0, 1⟩⟩ :=
    List.mem_singleton.1 hl
  have hselects (l : Range) (hl : l ∈ fix.rangesIn "file:///a") : e.Selects l := by
    rw [hranges l hl]
    refine ⟨0, 1, by decide, IsBoundary.zero _, ?_, ?_⟩ <;> rw [htext]
    · exact ⟨"a".toList, ":b".toList, by decide, by decide⟩
    · decide +kernel
  have hback (l : Range) (hl : l ∈ fix.rangesIn "file:///a") :
      (e.rangeToHost? l).bind e.rangeToLocal? = some l := by
    rw [hranges l hl]
    decide +kernel
  obtain ⟨routed, hto, hdata, hlocal⟩ := Router.exists_offered region huriE hback
  have hoffered : (r.codeActions "file:///a" cursor ⟨[], []⟩).result = .ok [routed] := by
    have hsent : [fix].mapM (CodeAction.toHost region e) = some [routed] := by simp [hto]
    exact (Router.codeActions_result hopen hregion hadapter hplace rfl).trans
      (sendable_eq_ok_iff.2 hsent)
  have hresolves : r.ResolvesTo ⟨adapter, e⟩ routed fix.unwrapped :=
    (Router.resolves_received (by decide +kernel) hopen hadapter horigin hdata).2
      { fix with data := routed.data } hlocal
  have hfar : e.rangeToHost? ⟨⟨0, 0⟩, ⟨0, wordLimit - 1⟩⟩ = none := by decide +kernel
  refine ⟨hopen, hregion, hselects, routed, hoffered, hresolves.calls, ?_⟩
  rcases hresolves.loses_or_finishes rfl with hloses | ⟨back, hfinishes, -⟩
  · exact hloses.result
  · obtain ⟨host, rest, hrange, -⟩ := List.forall₂_cons_left_iff.1 hfinishes.ranges
    exact absurd (hfar.symm.trans hrange) nofun

end Mosaic
