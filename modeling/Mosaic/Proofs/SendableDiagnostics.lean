import Mosaic.Proofs.Embedding
import Mosaic.Proofs.ValidationRun

/-!
# Diagnostics that can be sent

The diagnostics of a file are lost if one of them cannot be sent, because a character of its ranges
needs more than 32 bits.  This happens to attribute values only, and never to an adapter that marks
places of its text in a file of less than 4 GiB.

* `Router.diagnosticsOf_eq_none_iff` — when the diagnostics of a file are lost.
* `Embedded.Of.exists_rangeToHost` — a range of the embedded text goes to the host.
* `Router.exists_diagnostics` — if all adapters stay in their texts, an open file has diagnostics.
-/

namespace Mosaic

open Text

/-- The range is no further to the right than the text is long, as all places of the text are. -/
def Embedded.Admits (e : Embedded) (range : Range) : Prop :=
  range.start.character ≤ units e.text ∧ range.stop.character ≤ units e.text

/-- The ranges of the diagnostic that are translated are in the embedded text. -/
def Diagnostic.StaysIn (e : Embedded) (d : Diagnostic) : Prop :=
  e.Admits d.range ∧
    ∀ related, d.related = some related → ∀ i ∈ related, i.location.uri = e.uri →
      e.Admits i.location.range

/-- All adapters that validate stay in the texts they are given. -/
def Registry.StaysIn (a : Registry) : Prop :=
  ∀ language adapter, a.get? language = some adapter → ∀ e answer,
    (adapter.validate e).answer = .ok answer → ∀ d ∈ answer, d.StaysIn e

/-! ## Diagnostics that are lost -/

/-- A service for an attribute value finds something at a place that cannot be sent. -/
def Service.MarksFar (s : Service) : Prop :=
  s.document.mode = .inline ∧ ∃ answer, (s.adapter.validate s.document).answer = .ok answer ∧
    ∃ d ∈ answer, d.translate s.document.uri s.document.rangeToHost? = none

lemma Service.found_eq_none_iff {s : Service} : s.found = none ↔ s.MarksFar := by
  have hfound : (∃ ds, s.found = some ds) ↔ _ :=
    FileRequest.exists_contributed_iff (w := .diagnostics) (s := s)
  rw [← Option.not_isSome_iff_eq_none, Option.isSome_iff_exists, hfound]
  push Not
  constructor
  · rintro ⟨answer, hanswer, d, hd, hfar⟩
    have hfar : d.translate s.document.uri s.document.rangeToHost? = none :=
      Option.not_isSome_iff_eq_none.1 hfar
    refine ⟨?_, answer, hanswer, d, hd, hfar⟩
    -- a range in the text of blocks goes to the host
    cases hmode : s.document.mode with
    | inline => rfl
    | offset =>
      have hsome := (Diagnostic.translates s.document.uri).defined s.document.rangeToHost? d
        fun range _ => Embedded.isSome_rangeToHost? hmode range
      simp [hfar] at hsome
  · rintro ⟨-, answer, hanswer, d, hd, hfar⟩
    exact ⟨answer, hanswer, d, hd, by simp [FileRequest.diagnostics, hfar]⟩

/-- **The diagnostics of a file are lost** exactly if a service for one of its attribute values
finds something at a place that cannot be sent. -/
theorem Router.diagnosticsOf_eq_none_iff {r : Router} {file : Snapshot} :
    r.diagnosticsOf file = none ↔ ∃ s ∈ r.services file, s.MarksFar := by
  have hall : (∃ dss, (r.services file).mapM Service.found = some dss) ↔
      ∀ s ∈ r.services file, ∃ ds, s.found = some ds := exists_mapM_iff
  rw [diagnosticsOf, Option.map_eq_none_iff, ← Option.not_isSome_iff_eq_none,
    Option.isSome_iff_exists, hall]
  push Not
  simp only [← Service.found_eq_none_iff, Option.eq_none_iff_forall_ne_some]

/-- A request for the diagnostics of an open file has an answer unless they are lost. -/
lemma Router.exists_diagnostics_iff {r : Router} {uri : String} {file : Snapshot}
    (hp : r.adapters.Patient) (hfile : r.store.get? uri = some file) :
    (∃ ds, (r.diagnostics uri false).result = .ok ds) ↔ ∀ s ∈ r.services file, ¬ s.MarksFar := by
  simp only [diagnostics_eq_ok_iff hp hfile, ← Option.isSome_iff_exists,
    Option.isSome_iff_ne_none, ne_eq, diagnosticsOf_eq_none_iff]
  push Not
  rfl

/-! ## Adapters that stay in their texts -/

namespace Embedded

variable {e : Embedded} {range : Range} {p : Position} {options : ScanOptions}
  {uri id : String} {version : Int} {source : Text}

/-- A position of the embedded text goes to the host. -/
lemma Of.exists_toHost (he : e.Of (.ofText options uri id version source))
    (hsize : bytes source < wordLimit) (hp : p.character ≤ units e.text) :
    ∃ q, e.toHost? p = some q := by
  obtain ⟨hhost, rs, hjoins, hinline⟩ := he.joins
  cases hmode : e.mode with
  | offset =>
    simp only [toHost?, hmode]
    exact ⟨_, rfl⟩
  | inline =>
    obtain ⟨r, rfl, -⟩ := hinline hmode
    have hanchor : e.anchor? = some (positionAt e.host.text r.start) := by
      rw [anchor?, hjoins.segments]
      rfl
    have hfits := hjoins.fits (hhost ▸ hsize) hp
    simp only [toHost?, hmode, hanchor, if_pos hfits]
    exact ⟨_, rfl⟩

/-- A range of the embedded text goes to the host. -/
lemma Of.exists_rangeToHost (he : e.Of (.ofText options uri id version source))
    (hsize : bytes source < wordLimit) (h : e.Admits range) :
    ∃ host, e.rangeToHost? range = some host := by
  cases hmode : e.mode with
  | offset =>
    simp only [rangeToHost?, hmode]
    exact ⟨_, rfl⟩
  | inline =>
    obtain ⟨start, hstart⟩ := he.exists_toHost hsize h.1
    obtain ⟨stop, hstop⟩ := he.exists_toHost hsize h.2
    exact ⟨⟨start, stop⟩, by simp [rangeToHost?, hmode, hstart, hstop]⟩

/-- A diagnostic that stays in the embedded text goes to the host. -/
lemma Of.exists_translate {d : Diagnostic} (he : e.Of (.ofText options uri id version source))
    (hsize : bytes source < wordLimit) (h : d.StaysIn e) :
    ∃ host, d.translate e.uri e.rangeToHost? = some host := by
  obtain ⟨range, hrange⟩ := he.exists_rangeToHost hsize h.1
  cases hrelated : d.related with
  | none =>
    simp only [Diagnostic.translate, hrange, hrelated]
    exact ⟨_, rfl⟩
  | some related =>
    obtain ⟨infos, hinfos⟩ : ∃ infos,
        related.mapM (RelatedInformation.translate e.uri e.rangeToHost?) = some infos := by
      refine exists_mapM_eq_some fun i hi => ?_
      by_cases hu : i.location.uri = e.uri
      · obtain ⟨other, hother⟩ := he.exists_rangeToHost hsize (h.2 related hrelated i hi hu)
        simp only [RelatedInformation.translate, Location.translateIn, hu, if_true, hother]
        exact ⟨_, rfl⟩
      · exact ⟨i, by simp [RelatedInformation.translate, Location.translateIn, hu]⟩
    simp only [Diagnostic.translate, hrange, hrelated, Option.mapM_some, hinfos]
    exact ⟨_, rfl⟩

end Embedded

namespace Router

variable {r : Router} {file : Snapshot} {s : Service}

/-- Each service for a file is for an embedded document of it. -/
lemma of_mem_services (h : s ∈ r.services file) : s.document.Of file := by
  rcases List.mem_append.1 h with h | h
  · obtain ⟨language, -, hdoc, -⟩ := mem_blockServices h
    exact Or.inl ⟨language, hdoc⟩
  · obtain ⟨region, hregion, hs⟩ := List.mem_filterMap.1 h
    obtain ⟨adapter, -, rfl⟩ := Option.map_eq_some_iff.1 hs
    exact Or.inr ⟨region, (List.mem_filter.1 hregion).1, rfl⟩

/-- **If all adapters stay in their texts, a file has diagnostics.** -/
theorem exists_diagnostics {options : ScanOptions} {uri id : String} {version : Int} {source : Text}
    (ha : r.adapters.StaysIn) (hsize : bytes source < wordLimit) :
    ∃ ds, r.diagnosticsOf (.ofText options uri id version source) = some ds := by
  obtain ⟨dss, hdss⟩ : ∃ dss,
      (r.services (.ofText options uri id version source)).mapM Service.found = some dss := by
    refine exists_mapM_eq_some fun s hs => ?_
    obtain ⟨language, hadapter⟩ := adapter_of_mem_services hs
    cases hreply : s.adapter.validate s.document with
    | mk answer cancels =>
      rw [Service.found, hreply]
      cases answer with
      | error failure => exact ⟨[], rfl⟩
      | ok answer =>
        refine exists_mapM_eq_some fun d hd => ?_
        have hstays := ha language s.adapter hadapter s.document answer (by rw [hreply]) d hd
        exact (of_mem_services hs).exists_translate hsize hstays
  exact ⟨dss.flatten, by rw [diagnosticsOf, hdss]; rfl⟩

end Router

end Mosaic
