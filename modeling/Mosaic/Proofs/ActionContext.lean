import Mosaic.Proofs.PositionRequests

/-!
# Diagnostics that come back in a request for code actions

A client that asks for code actions sends along the diagnostics which it was shown, in places of the
file.  The adapter gets each of them with its own range made local again.  The ranges of the related
information are left as they were sent, and so they are what the adapter had in mind only where a
place of its text and of the file are the same.

* `RelatedInformation.translate_eq_self_iff`, `Diagnostic.related_eq_self_iff` — what is left as it
  is by a translation.
* `Router.mem_diagnostics` — a diagnostic of a service is shown as its translation.
* `CodeActionContext.toLocal_sent` — what becomes of a diagnostic that was sent along.
* `context_diagnostics_return` — a diagnostic is shown, comes back with a request in the same
  document, and is again the one that the adapter made, up to related information in the file.
-/

namespace Mosaic

open Text

/-! ## Related information -/

lemma RelatedInformation.translate_eq_self_iff {uri : String} {f : Range → Option Range}
    {i : RelatedInformation} : i.translate uri f = some i ↔ ∀ l ∈ i.rangesIn uri, f l = some l := by
  obtain ⟨⟨uri', range⟩, message⟩ := i
  by_cases huri : uri' = uri
  · simp [translate, Location.translateIn, rangesIn, huri]
  · simp [translate, Location.translateIn, rangesIn, huri]

namespace Diagnostic

/-- The ranges of the related information of a diagnostic that are in the file. -/
def relatedIn (uri : String) (d : Diagnostic) : List Range :=
  d.related.elim [] (·.flatMap (RelatedInformation.rangesIn uri))

/-- The related information with its ranges translated. -/
def translateRelated (uri : String) (f : Range → Option Range) (d : Diagnostic) :
    Option (Option (List RelatedInformation)) :=
  d.related.mapM (·.mapM (RelatedInformation.translate uri f))

variable {uri : String} {f : Range → Option Range} {d sent : Diagnostic}

lemma translate_eq_some_iff : d.translate uri f = some sent ↔
    f d.range = some sent.range ∧ d.translateRelated uri f = some sent.related ∧
      sent = { d with range := sent.range, related := sent.related } := by
  simp only [translate, translateRelated, Option.bind_eq_bind, Option.bind_eq_some_iff,
    Option.some.injEq]
  constructor
  · rintro ⟨range, hrange, related, hrelated, rfl⟩
    exact ⟨hrange, hrelated, rfl⟩
  · rintro ⟨hrange, hrelated, hsent⟩
    exact ⟨_, hrange, _, hrelated, hsent.symm⟩

/-- The related information is left as it is exactly if its ranges in the file are. -/
lemma related_eq_self_iff :
    d.translateRelated uri f = some d.related ↔ ∀ l ∈ d.relatedIn uri, f l = some l := by
  obtain ⟨range, message, severity, source, related, others⟩ := d
  cases related with
  | none => simp [translateRelated, relatedIn]
  | some related =>
    have hlist : related.mapM (RelatedInformation.translate uri f) = some related
        ↔ ∀ i ∈ related, ∀ l ∈ i.rangesIn uri, f l = some l := by
      rw [mapM_eq_some_iff, List.forall₂_same]
      exact forall₂_congr fun i _ => RelatedInformation.translate_eq_self_iff
    rw [relatedIn, Option.elim_some, List.forall_mem_flatMap, ← hlist]
    simp [translateRelated]

/-- The diagnostic with the related information of another one. -/
def withRelated (d sent : Diagnostic) : Diagnostic :=
  { d with related := sent.related }

/-- Each range of the related information that is taken over was translated by itself. -/
lemma forall₂_relatedIn (h : d.translate uri f = some sent) :
    List.Forall₂ (fun l l' => f l = some l') (d.relatedIn uri)
      ((d.withRelated sent).relatedIn uri) :=
  (RelatedInformation.translates uri).list.option.each f d.related sent.related
    (translate_eq_some_iff.1 h).2.1

/-- To take over the related information of a translated diagnostic changes nothing exactly if the
ranges in it are translated to themselves. -/
lemma withRelated_eq_self_iff (h : d.translate uri f = some sent) :
    d.withRelated sent = d ↔ ∀ l ∈ d.relatedIn uri, f l = some l := by
  have hrelated : d.withRelated sent = d ↔ sent.related = d.related := by
    constructor
    · intro hsame
      show (d.withRelated sent).related = d.related
      rw [hsame]
    · intro hsame
      rw [withRelated, hsame]
  rw [hrelated, ← related_eq_self_iff, (translate_eq_some_iff.1 h).2.1, Option.some.injEq]

end Diagnostic

/-! ## Shown and sent back -/

/-- **A diagnostic that was sent along** is received in its place among the others.  Its own range
is made local, and its related information is the one that was sent. -/
lemma CodeActionContext.toLocal_sent {e : Embedded} {uri : String} {d sent : Diagnostic}
    (hsent : d.translate uri e.rangeToHost? = some sent)
    (hback : (e.rangeToHost? d.range).bind e.rangeToLocal? = some d.range)
    (front back : List Diagnostic) (others : List (String × Json)) :
    toLocal e ⟨front ++ sent :: back, others⟩
      = ⟨(toLocal e ⟨front, others⟩).diagnostics ++
          d.withRelated sent :: (toLocal e ⟨back, others⟩).diagnostics, others⟩ := by
  obtain ⟨hrange, -, hsame⟩ := Diagnostic.translate_eq_some_iff.1 hsent
  rw [hrange, Option.bind_some] at hback
  have hreceived : ({ sent with range := d.range } : Diagnostic) = d.withRelated sent := by
    rw [hsame]
    rfl
  simp only [toLocal, List.filterMap_append, List.filterMap_cons, hback, Option.map_some, hreceived]

namespace Router

variable {r : Router} {file : Snapshot} {region : Region} {adapter : Adapter} {s : Service}

/-- A request for code actions in a range that can be made local asks the adapter once. -/
lemma calls_codeActions {uri : String} {range place : Range} (hopen : r.store.get? uri = some file)
    (hregion : file.regionUnder? range.start = some region)
    (hadapter : r.adapters.get? region.language = some adapter)
    (hplace : (Embedded.forRequest file region).rangeToLocal? range = some place)
    (context : CodeActionContext) :
    (r.codeActions uri range context).calls = [⟨adapter.id, .forRequest file region,
      .codeActions place (context.toLocal (.forRequest file region))⟩] := by
  simp only [codeActions, askAt, on, require_eq_ok hopen, hregion, serviceFor?, hadapter, hplace,
    Option.map_some, Service.call]

/-- The document of a request in a region is served in requests on the whole file too. -/
lemma mem_services_forRequest (h : region ∈ file.regions)
    (hadapter : r.adapters.get? region.language = some adapter) :
    ⟨adapter, .forRequest file region⟩ ∈ r.services file := by
  by_cases hattr : region.inAttribute
  · refine List.mem_append_right _ (List.mem_filterMap.2 ⟨region, ?_, ?_⟩)
    · exact List.mem_filter.2 ⟨h, hattr⟩
    · rw [hadapter, Embedded.forRequest, if_pos hattr, Option.map_some]
  · have hblock : region ∈ Embedded.blocksOf file region.language :=
      List.mem_filter.2 ⟨h, by simp [hattr]⟩
    refine List.mem_append_left _ (List.mem_filterMap.2 ⟨region.language, ?_, ?_⟩)
    · exact mem_blockLanguages.2 (List.ne_nil_of_mem hblock)
    · rw [hadapter, Embedded.forRequest, if_neg hattr, Option.map_some]

/-- Each diagnostic of a service is shown as its translation, if no service calls the validation
off. -/
lemma mem_diagnostics {uri : String} {answer shown : List Diagnostic} {d sent : Diagnostic}
    (hopen : r.store.get? uri = some file) (hs : s ∈ r.services file)
    (hgoes : ∀ s ∈ r.services file, (s.adapter.validate s.document).cancels = false)
    (hanswer : (s.adapter.validate s.document).answer = .ok answer) (hd : d ∈ answer)
    (hsent : d.translate s.document.uri s.document.rangeToHost? = some sent)
    (hshown : (r.diagnostics uri false).result = .ok shown) : sent ∈ shown := by
  rw [diagnostics, askAll_result hopen, sendable_eq_ok_iff, if_neg Bool.false_ne_true,
    mapM_reached_of_goesOn hgoes, Option.map_eq_some_iff] at hshown
  obtain ⟨parts, hparts, rfl⟩ := hshown
  obtain ⟨part, hpart, hcontribution⟩ := exists_mem_of_mapM hparts hs
  have htranslated : answer.mapM (Diagnostic.translate s.document.uri s.document.rangeToHost?)
      = some part := by
    rw [← hcontribution]
    cases hreply : s.adapter.validate s.document with
    | mk reply cancels =>
      obtain rfl : reply = .ok answer := by rw [← hanswer, hreply]
      rfl
  obtain ⟨other, hother, he⟩ := exists_mem_of_mapM htranslated hd
  obtain rfl : sent = other := Option.some.inj (hsent.symm.trans he)
  exact List.mem_flatten.2 ⟨part, hpart, hother⟩

end Router

/-- **What an adapter gets to see of its diagnostics again.**  A diagnostic whose ranges in the file
are parts of the embedded text is shown to the client.  When it comes back with a request for code
actions in the same document, the adapter gets it in its place among the others, with its own range
as it was and with its related information as it was shown.  So it is the diagnostic that the
adapter made exactly if the related ranges in the file are the same in the file and in the embedded
text. -/
theorem context_diagnostics_return (options : ScanOptions) (uri id : String) (version : Int)
    (source : Text) (hsize : bytes source < wordLimit) (file : Snapshot)
    (hfile : file = .ofText options uri id version source)
    (r : Router) (hopen : r.store.get? uri = some file)
    (range place : Range) (region : Region) (adapter : Adapter)
    (hregion : file.regionUnder? range.start = some region)
    (hadapter : r.adapters.get? region.language = some adapter)
    (hplace : (Embedded.forRequest file region).rangeToLocal? range = some place) :
    let e := Embedded.forRequest file region
    (∀ context, (r.codeActions uri range context).calls
      = [⟨adapter.id, e, .codeActions place (context.toLocal e)⟩]) ∧
    ∀ d : Diagnostic, (∀ l ∈ d.rangesIn uri, e.Selects l) →
      ∃ sent, d.translate uri e.rangeToHost? = some sent ∧
        (∀ answer shown, (∀ s ∈ r.services file, (s.adapter.validate s.document).cancels = false) →
          (adapter.validate e).answer = .ok answer → d ∈ answer →
          (r.diagnostics uri false).result = .ok shown → sent ∈ shown) ∧
        (∀ front back others, CodeActionContext.toLocal e ⟨front ++ sent :: back, others⟩
          = ⟨(CodeActionContext.toLocal e ⟨front, others⟩).diagnostics ++
              d.withRelated sent :: (CodeActionContext.toLocal e ⟨back, others⟩).diagnostics,
            others⟩) ∧
        List.Forall₂ (fun l host => e.rangeToHost? l = some host) (d.relatedIn uri)
          ((d.withRelated sent).relatedIn uri) ∧
        (d.withRelated sent = d ↔ ∀ l ∈ d.relatedIn uri, e.rangeToHost? l = some l) := by
  intro e
  subst hfile
  have hmem := (Snapshot.regionUnder?_ofText_iff.1 hregion).1
  have hof : e.Of (.ofText options uri id version source) := Embedded.of_forRequest hmem
  have huri : e.uri = uri := Embedded.uri_forRequest _ region
  refine ⟨fun context => ?_, fun d hselects => ?_⟩
  · exact Router.calls_codeActions hopen hregion hadapter hplace context
  have hback (l : Range) (hl : l ∈ d.rangesIn uri) :
      (e.rangeToHost? l).bind e.rangeToLocal? = some l :=
    hof.range_round_trip hsize (Embedded.segments_forRequest hmem) (hselects l hl)
  obtain ⟨sent, hsent, -⟩ := (Diagnostic.translates uri).exists_back hback
  have hown : d.range ∈ d.rangesIn uri := by simp [Diagnostic.rangesIn]
  refine ⟨sent, hsent, fun answer shown hgoes hanswer hd hshown => ?_,
    CodeActionContext.toLocal_sent hsent (hback d.range hown),
    Diagnostic.forall₂_relatedIn hsent, Diagnostic.withRelated_eq_self_iff hsent⟩
  rw [← huri] at hsent
  exact Router.mem_diagnostics hopen (Router.mem_services_forRequest hmem hadapter) hgoes hanswer
    hd hsent hshown

/-- Related information on a later line of a block that starts on the first line: there a place is
the same in the file and in the embedded text. -/
theorem context_diagnostics_return_later_line :
    let source : Text := "<style>\na{}</style>".toList
    let file := Snapshot.ofText {} "file:///a" "sfc" 1 source
    let region := Region.block "css" 7 11
    let e := Embedded.forRequest file region
    let adapter : Adapter := { id := "css" }
    let r : Router := ⟨Store.put file {}, Registry.register {} adapter⟩
    let cursor : Range := ⟨⟨1, 0⟩, ⟨1, 0⟩⟩
    let related : Range := ⟨⟨1, 1⟩, ⟨1, 3⟩⟩
    let d : Diagnostic :=
      { range := ⟨⟨1, 0⟩, ⟨1, 1⟩⟩, message := "unused",
        related := some [⟨⟨"file:///a", related⟩, "here"⟩] }
    bytes source < wordLimit ∧ r.store.get? "file:///a" = some file ∧
      file.regionUnder? cursor.start = some region ∧
      r.adapters.get? region.language = some adapter ∧ e.rangeToLocal? cursor = some cursor ∧
      e.Selects d.range ∧ e.Selects related ∧
      ∃ sent, d.translate "file:///a" e.rangeToHost? = some sent ∧
        (r.codeActions "file:///a" cursor ⟨[sent], []⟩).calls
          = [⟨"css", e, .codeActions cursor ⟨[d], []⟩⟩] := by
  intro source file region e adapter r cursor related d
  have hsize : bytes source < wordLimit := by decide +kernel
  have hopen : r.store.get? "file:///a" = some file :=
    (Store.get?_put file {} _).trans (if_pos rfl)
  have hregion : file.regionUnder? cursor.start = some region := by decide +kernel
  have hadapter : r.adapters.get? region.language = some adapter :=
    Std.TreeMap.getElem?_insert_self
  have hplace : e.rangeToLocal? cursor = some cursor := by decide +kernel
  have htext : e.text = "\na{}".toList := by decide +kernel
  have hstart : IsBoundary e.text 1 := ⟨"\n".toList, "a{}".toList, htext, by decide⟩
  have hmiddle : IsBoundary e.text 2 := ⟨"\na".toList, "{}".toList, htext, by decide⟩
  have hstop : IsBoundary e.text 4 :=
    ⟨"\na{}".toList, [], by rw [htext, List.append_nil], by decide⟩
  have hown : e.Selects d.range := ⟨1, 2, by decide, hstart, hmiddle, by decide +kernel⟩
  have hrelated : e.Selects related := ⟨2, 4, by decide, hmiddle, hstop, by decide +kernel⟩
  have hranges : d.rangesIn "file:///a" = [d.range, related] := by decide +kernel
  obtain ⟨hcalls, hall⟩ := context_diagnostics_return {} "file:///a" "sfc" 1 source hsize file rfl r
    hopen cursor cursor region adapter hregion hadapter hplace
  obtain ⟨sent, hsent, -, hreceived, -, hsame⟩ := hall d fun l hl => by
    rw [hranges] at hl
    obtain rfl | rfl : l = d.range ∨ l = related := by simpa using hl
    · exact hown
    · exact hrelated
  have hfixed : d.withRelated sent = d := hsame.2 fun l hl => by
    obtain rfl : l = related := List.mem_singleton.1 hl
    decide +kernel
  refine ⟨hsize, hopen, hregion, hadapter, hplace, hown, hrelated, sent, hsent, ?_⟩
  have hcontext := hreceived [] [] []
  rw [hfixed] at hcontext
  exact (hcalls _).trans (by rw [← List.nil_append [sent], hcontext]; rfl)

/-- Related information on the first line of a block.  The client sends it back where it is in the
file, and the adapter gets it there. -/
theorem context_diagnostic_misplaced :
    let source : Text := "<style>a{}</style>".toList
    let file := Snapshot.ofText {} "file:///a" "sfc" 1 source
    let region := Region.block "css" 7 10
    let e := Embedded.forRequest file region
    let r : Router := ⟨Store.put file {}, Registry.register {} { id := "css" }⟩
    let cursor : Range := ⟨⟨0, 7⟩, ⟨0, 7⟩⟩
    let d : Diagnostic :=
      { range := ⟨⟨0, 0⟩, ⟨0, 1⟩⟩, message := "unused",
        related := some [⟨⟨"file:///a", ⟨⟨0, 1⟩, ⟨0, 3⟩⟩⟩, "here"⟩] }
    let sent : Diagnostic :=
      { range := ⟨⟨0, 7⟩, ⟨0, 8⟩⟩, message := "unused",
        related := some [⟨⟨"file:///a", ⟨⟨0, 8⟩, ⟨0, 10⟩⟩⟩, "here"⟩] }
    (∀ l ∈ d.rangesIn "file:///a", e.Selects l) ∧
      d.translate "file:///a" e.rangeToHost? = some sent ∧
      ∃ received, (r.codeActions "file:///a" cursor ⟨[sent], []⟩).calls
          = [⟨"css", e, .codeActions ⟨⟨0, 0⟩, ⟨0, 0⟩⟩ ⟨[received], []⟩⟩] ∧
        received.range = d.range ∧ received.relatedIn "file:///a" = [⟨⟨0, 8⟩, ⟨0, 10⟩⟩] ∧
        received ≠ d := by
  intro source file region e r cursor d sent
  have htext : e.text = "a{}".toList := by decide +kernel
  have hmiddle : IsBoundary e.text 1 := ⟨"a".toList, "{}".toList, htext, by decide⟩
  have hown : e.Selects d.range := ⟨0, 1, by decide, .zero _, hmiddle, by decide +kernel⟩
  have hrelated : e.Selects ⟨⟨0, 1⟩, ⟨0, 3⟩⟩ :=
    ⟨1, 3, by decide, hmiddle, ⟨_, [], (List.append_nil _).symm, by rw [htext]; decide⟩,
      by decide +kernel⟩
  have hranges : d.rangesIn "file:///a" = [d.range, ⟨⟨0, 1⟩, ⟨0, 3⟩⟩] := by decide +kernel
  have hsent : d.translate "file:///a" e.rangeToHost? = some sent :=
    Diagnostic.translate_eq_some_iff.2 ⟨by decide +kernel, by decide +kernel, rfl⟩
  have hback : (e.rangeToHost? d.range).bind e.rangeToLocal? = some d.range := by decide +kernel
  refine ⟨fun l hl => ?_, hsent, d.withRelated sent, ?_, rfl, by decide +kernel, fun hsame => ?_⟩
  · rw [hranges] at hl
    obtain rfl | rfl : l = d.range ∨ l = ⟨⟨0, 1⟩, ⟨0, 3⟩⟩ := by simpa using hl
    · exact hown
    · exact hrelated
  · have hregion : file.regionUnder? cursor.start = some region := by decide +kernel
    have hplace : e.rangeToLocal? cursor = some ⟨⟨0, 0⟩, ⟨0, 0⟩⟩ := by decide +kernel
    have hopen : r.store.get? "file:///a" = some file :=
      (Store.get?_put file {} _).trans (if_pos rfl)
    have hreceived : CodeActionContext.toLocal e ⟨[sent], []⟩ = ⟨[d.withRelated sent], []⟩ :=
      CodeActionContext.toLocal_sent hsent hback [] [] []
    rw [← hreceived]
    exact Router.calls_codeActions hopen hregion Std.TreeMap.getElem?_insert_self hplace _
  · have hplaces : (d.withRelated sent).relatedIn "file:///a" = d.relatedIn "file:///a" := by
      rw [hsame]
    exact absurd hplaces (by decide +kernel)

end Mosaic
