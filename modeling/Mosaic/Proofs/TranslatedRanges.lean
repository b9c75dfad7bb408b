import Mosaic.Proofs.FanIn
import Mosaic.Routing.Action

/-!
# The ranges that a translation goes through

What an adapter sends holds ranges at several depths: a code action has diagnostics and an edit, a
diagnostic has related information, an edit has document edits, and these have edits again.  Each of
these types has a list of the ranges that are in a given file (`CodeAction.rangesIn` and its like),
and its translation goes through exactly these (`Translates`).

* `Translates` — everything is translated if each range is, nothing but the ranges changes, and what
  takes each range back takes the whole back.
* `Translates.list`, `Translates.part`, `Translates.parts`, `Translates.only` — how translations are
  put together.
* `CodeAction.translates` — the translation of a code action.
-/

namespace Mosaic

/-- The translation of a type goes through the listed ranges, and leaves all else as it is. -/
structure Translates {α : Type} (ranges : α → List Range)
    (translate : (Range → Option Range) → α → Option α) : Prop where
  /-- If each range can be translated, so can the whole. -/
  defined : ∀ f a, (∀ r ∈ ranges a, (f r).isSome) → (translate f a).isSome
  /-- Each range is translated. -/
  each : ∀ f a b, translate f a = some b →
    List.Forall₂ (fun r r' => f r = some r') (ranges a) (ranges b)
  /-- What takes each range back takes the whole back. -/
  back : ∀ f g a b, translate f a = some b → (∀ r ∈ ranges a, (f r).bind g = some r) →
    translate g b = some a

namespace Translates

variable {α β γ : Type} {ranges : α → List Range} {ranges' : β → List Range}
  {translate : (Range → Option Range) → α → Option α}
  {translate' : (Range → Option Range) → β → Option β}

/-! ## What follows for a translation -/

/-- A translation fails exactly if a range cannot be translated. -/
lemma eq_none_iff (h : Translates ranges translate) {f : Range → Option Range} {a : α} :
    translate f a = none ↔ ∃ r ∈ ranges a, f r = none := by
  constructor
  · intro hnone
    by_contra hall
    push Not at hall
    have hsome := h.defined f a fun r hr => Option.isSome_iff_ne_none.2 (hall r hr)
    rw [hnone] at hsome
    contradiction
  · rintro ⟨r, hr, hnone⟩
    by_contra hsome
    obtain ⟨b, hb⟩ := Option.ne_none_iff_exists'.1 hsome
    obtain ⟨i, hi, rfl⟩ := List.mem_iff_getElem.1 hr
    have heach := (List.forall₂_iff_get.1 (h.each f a b hb)).2 i hi
      (by rwa [← (h.each f a b hb).length_eq])
    rw [List.get_eq_getElem, hnone] at heach
    contradiction

/-- What goes there and back range by range goes there and back as a whole. -/
lemma exists_back (h : Translates ranges translate) {f g : Range → Option Range} {a : α}
    (hback : ∀ r ∈ ranges a, (f r).bind g = some r) :
    ∃ b, translate f a = some b ∧ translate g b = some a := by
  have hsome := h.defined f a fun r hr =>
    Option.isSome_of_isSome_bind (Option.isSome_of_eq_some (hback r hr))
  obtain ⟨b, hb⟩ := Option.isSome_iff_exists.1 hsome
  exact ⟨b, hb, h.back f g a b hb hback⟩

/-! ## Translations put together -/

/-- A range is the only range of itself. -/
lemma range : Translates (fun r => [r]) fun f r => f r where
  defined := fun f r h => h r (by simp)
  each := fun f r r' h => .cons h .nil
  back := fun f g r r' h hback => by simpa [h] using hback r (by simp)

/-- What may be absent. -/
lemma option (h : Translates ranges translate) :
    Translates (fun o : Option α => o.elim [] ranges) fun f => Option.mapM (translate f) where
  defined := by
    rintro f (- | a) ha
    · rfl
    · have hsome := h.defined f a ha
      obtain ⟨b, hb⟩ := Option.isSome_iff_exists.1 hsome
      simp [hb]
  each := by
    rintro f (- | a) b hb
    · obtain rfl : none = b := by simpa using hb
      exact .nil
    · obtain ⟨c, hc, rfl⟩ : ∃ c, translate f a = some c ∧ some c = b := by simpa using hb
      exact h.each f a c hc
  back := by
    rintro f g (- | a) b hb hback
    · obtain rfl : none = b := by simpa using hb
      rfl
    · obtain ⟨c, hc, rfl⟩ : ∃ c, translate f a = some c ∧ some c = b := by simpa using hb
      simp [h.back f g a c hc hback]

/-- One after the other. -/
lemma list (h : Translates ranges translate) :
    Translates (fun as : List α => as.flatMap ranges) fun f => List.mapM (translate f) where
  defined := by
    intro f as has
    refine Option.isSome_iff_exists.2 (exists_mapM_eq_some fun a ha => ?_)
    exact Option.isSome_iff_exists.1 (h.defined f a fun r hr =>
      has r (List.mem_flatMap.2 ⟨a, ha, hr⟩))
  each := by
    intro f as bs hbs
    have hall := mapM_eq_some_iff.1 hbs
    clear hbs
    induction hall with
    | nil => exact .nil
    | cons hab _ ih => exact List.rel_append (h.each f _ _ hab) ih
  back := by
    intro f g as bs hbs hback
    have hall := mapM_eq_some_iff.1 hbs
    clear hbs
    rw [mapM_eq_some_iff]
    induction hall with
    | nil => exact .nil
    | cons hab _ ih =>
      rw [List.flatMap_cons, List.forall_mem_append] at hback
      exact .cons (h.back f g _ _ hab hback.1) (ih hback.2)

/-- A part of something. -/
lemma part (h : Translates ranges translate) (get : γ → α) (set : γ → α → γ)
    (get_set : ∀ c a, get (set c a) = a) (set_get : ∀ c a, set (set c a) (get c) = c) :
    Translates (fun c => ranges (get c)) fun f c => (translate f (get c)).map (set c) where
  defined := by
    intro f c hc
    rw [Option.isSome_map]
    exact h.defined f (get c) hc
  each := by
    intro f c d hd
    obtain ⟨a, ha, rfl⟩ := Option.map_eq_some_iff.1 hd
    rw [get_set]
    exact h.each f (get c) a ha
  back := by
    intro f g c d hd hback
    obtain ⟨a, ha, rfl⟩ := Option.map_eq_some_iff.1 hd
    rw [get_set, h.back f g (get c) a ha hback, Option.map_some, set_get]

/-- Two parts of something. -/
lemma parts (h : Translates ranges translate) (h' : Translates ranges' translate')
    (get : γ → α) (get' : γ → β) (set : γ → α → β → γ)
    (get_set : ∀ c a b, get (set c a b) = a) (get_set' : ∀ c a b, get' (set c a b) = b)
    (set_get : ∀ c a b, set (set c a b) (get c) (get' c) = c) :
    Translates (fun c => ranges (get c) ++ ranges' (get' c)) fun f c => do
      let a ← translate f (get c)
      let b ← translate' f (get' c)
      some (set c a b) where
  defined := by
    intro f c hc
    rw [List.forall_mem_append] at hc
    obtain ⟨a, ha⟩ := Option.isSome_iff_exists.1 (h.defined f (get c) hc.1)
    obtain ⟨b, hb⟩ := Option.isSome_iff_exists.1 (h'.defined f (get' c) hc.2)
    simp [ha, hb]
  each := by
    intro f c d hd
    simp only [Option.bind_eq_bind, Option.bind_eq_some_iff, Option.some.injEq] at hd
    obtain ⟨a, ha, b, hb, rfl⟩ := hd
    rw [get_set, get_set']
    exact List.rel_append (h.each f _ a ha) (h'.each f _ b hb)
  back := by
    intro f g c d hd hback
    simp only [Option.bind_eq_bind, Option.bind_eq_some_iff, Option.some.injEq] at hd
    obtain ⟨a, ha, b, hb, rfl⟩ := hd
    rw [List.forall_mem_append] at hback
    simp only [get_set, get_set', h.back f g _ a ha hback.1, h'.back f g _ b hb hback.2,
      Option.bind_eq_bind, Option.bind_some, set_get]

/-- What is translated only if it is in a certain file. -/
lemma only (h : Translates ranges translate) (p : α → Prop) [DecidablePred p]
    (kept : ∀ f a b, translate f a = some b → (p b ↔ p a)) :
    Translates (fun a => if p a then ranges a else []) fun f a =>
      if p a then translate f a else some a where
  defined := by
    intro f a ha
    by_cases hp : p a
    · simp only [if_pos hp] at ha ⊢
      exact h.defined f a ha
    · simp [hp]
  each := by
    intro f a b hb
    by_cases hp : p a
    · simp only [if_pos hp] at hb
      simp only [if_pos hp, if_pos ((kept f a b hb).2 hp)]
      exact h.each f a b hb
    · simp only [if_neg hp, Option.some.injEq] at hb
      subst hb
      simp [hp]
  back := by
    intro f g a b hb hback
    by_cases hp : p a
    · simp only [if_pos hp] at hb hback
      simp only [if_pos ((kept f a b hb).2 hp)]
      exact h.back f g a b hb hback
    · simp only [if_neg hp, Option.some.injEq] at hb
      subst hb
      simp [hp]

end Translates

/-! ## What an adapter sends -/

lemma TextEdit.translates : Translates (fun e : TextEdit => [e.range]) TextEdit.translate :=
  Translates.range.part TextEdit.range (fun e range => { e with range })
    (fun _ _ => rfl) fun _ _ => rfl

lemma DocumentTextEdit.translates :
    Translates (fun e : DocumentTextEdit => [e.edit.range]) DocumentTextEdit.translate :=
  TextEdit.translates.part DocumentTextEdit.edit (fun e edit => { e with edit })
    (fun _ _ => rfl) fun _ _ => rfl

/-- The range of related information, if it is in the file. -/
def RelatedInformation.rangesIn (uri : String) (i : RelatedInformation) : List Range :=
  if i.location.uri = uri then [i.location.range] else []

lemma Location.translates (uri : String) :
    Translates (fun l : Location => if l.uri = uri then [l.range] else [])
      (Location.translateIn uri) := by
  refine (Translates.range.part Location.range (fun l range => { l with range })
    (fun _ _ => rfl) fun _ _ => rfl).only (fun l => l.uri = uri) ?_
  intro f l l' h
  obtain ⟨range, -, rfl⟩ := Option.map_eq_some_iff.1 h
  exact Iff.rfl

lemma RelatedInformation.translates (uri : String) :
    Translates (RelatedInformation.rangesIn uri) (RelatedInformation.translate uri) :=
  (Location.translates uri).part RelatedInformation.location
    (fun i location => { i with location }) (fun _ _ => rfl) fun _ _ => rfl

/-- The range of a diagnostic, and those of its related information that are in the file. -/
def Diagnostic.rangesIn (uri : String) (d : Diagnostic) : List Range :=
  [d.range] ++ d.related.elim [] (·.flatMap (RelatedInformation.rangesIn uri))

lemma Diagnostic.translates (uri : String) :
    Translates (Diagnostic.rangesIn uri) (Diagnostic.translate uri) :=
  Translates.range.parts (RelatedInformation.translates uri).list.option
    Diagnostic.range Diagnostic.related
    (fun d range related => { d with range, related })
    (fun _ _ _ => rfl) (fun _ _ _ => rfl) fun _ _ _ => rfl

/-- The ranges of a document edit, if it is of the file. -/
def DocumentEdit.rangesIn (uri : String) (e : DocumentEdit) : List Range :=
  if e.uri = uri then e.edits.flatMap fun edit => [edit.edit.range] else []

lemma DocumentEdit.translates (uri : String) :
    Translates (DocumentEdit.rangesIn uri) (DocumentEdit.translate uri) := by
  refine (DocumentTextEdit.translates.list.part DocumentEdit.edits
    (fun e edits => { e with edits }) (fun _ _ => rfl) fun _ _ => rfl).only
    (fun e => e.uri = uri) ?_
  intro f e e' h
  obtain ⟨edits, -, rfl⟩ := Option.map_eq_some_iff.1 h
  exact Iff.rfl

/-- The ranges of one step of a workspace edit that are in the file. -/
def DocumentChange.rangesIn (uri : String) : DocumentChange → List Range
  | .edit e => e.rangesIn uri
  | .operation _ => []

lemma DocumentChange.translates (uri : String) :
    Translates (DocumentChange.rangesIn uri) (DocumentChange.translate uri) where
  defined := by
    rintro f (e | j) h
    · simpa [translate] using (DocumentEdit.translates uri).defined f e h
    · rfl
  each := by
    rintro f (e | j) c h
    · obtain ⟨e', he, rfl⟩ := Option.map_eq_some_iff.1 h
      exact (DocumentEdit.translates uri).each f e e' he
    · obtain rfl : DocumentChange.operation j = c := by simpa [translate] using h
      exact .nil
  back := by
    rintro f g (e | j) c h hback
    · obtain ⟨e', he, rfl⟩ := Option.map_eq_some_iff.1 h
      simp [translate, (DocumentEdit.translates uri).back f g e e' he hback]
    · obtain rfl : DocumentChange.operation j = c := by simpa [translate] using h
      rfl

/-- The ranges of the edits of a file that a workspace edit lists by file. -/
def WorkspaceEdit.fileRangesIn (uri : String) (edits : String × List TextEdit) : List Range :=
  if edits.1 = uri then edits.2.flatMap fun edit => [edit.range] else []

/-- The ranges of a workspace edit that are in the file. -/
def WorkspaceEdit.rangesIn (uri : String) (e : WorkspaceEdit) : List Range :=
  e.changes.elim [] (·.flatMap (fileRangesIn uri)) ++
    e.documentChanges.elim [] (·.flatMap (DocumentChange.rangesIn uri))

lemma WorkspaceEdit.translates_changes (uri : String) :
    Translates (fun changes : List (String × List TextEdit) => changes.flatMap (fileRangesIn uri))
      (WorkspaceEdit.translateChanges uri) := by
  refine ((TextEdit.translates.list.part (fun c : String × List TextEdit => c.2)
    (fun c edits => (c.1, edits)) (fun _ _ => rfl) fun _ _ => rfl).only
    (fun c => c.1 = uri) ?_).list
  intro f c c' h
  obtain ⟨edits, -, rfl⟩ := Option.map_eq_some_iff.1 h
  exact Iff.rfl

lemma WorkspaceEdit.translates (uri : String) :
    Translates (WorkspaceEdit.rangesIn uri) (WorkspaceEdit.translate uri) :=
  (translates_changes uri).option.parts (DocumentChange.translates uri).list.option
    WorkspaceEdit.changes WorkspaceEdit.documentChanges
    (fun e changes documentChanges => { e with changes, documentChanges })
    (fun _ _ _ => rfl) (fun _ _ _ => rfl) fun _ _ _ => rfl

/-- The ranges of a code action that are in the file: those of its diagnostics, with their related
information, and those of its edit. -/
def CodeAction.rangesIn (uri : String) (a : CodeAction) : List Range :=
  a.diagnostics.elim [] (·.flatMap (Diagnostic.rangesIn uri)) ++
    a.edit.elim [] (WorkspaceEdit.rangesIn uri)

/-- **The translation of a code action goes through its ranges in the file.** -/
theorem CodeAction.translates (uri : String) :
    Translates (CodeAction.rangesIn uri) (CodeAction.translate uri) :=
  (Diagnostic.translates uri).list.option.parts (WorkspaceEdit.translates uri).option
    CodeAction.diagnostics CodeAction.edit (fun a diagnostics edit => { a with diagnostics, edit })
    (fun _ _ _ => rfl) (fun _ _ _ => rfl) fun _ _ _ => rfl

end Mosaic
