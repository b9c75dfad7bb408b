import Mathlib
import Mosaic.Routing.WholeFile

/-!
# What comes of a request on a whole file

The answer to a request on a whole file is put together from the replies of services that were asked
one after the other.  Here is where each part of it comes from, and when there is an answer at all.

* `mapM_eq_some_iff` — all answers can be brought back exactly if each can.
* `prefix_reached` — the services that are asked are the first ones, with the replies they give.
* `mapM_reached_of_goesOn` — if no service calls the request off, all have to contribute.
* `Router.askAll_result` — the answer for an open file.
* `Router.mem_blockServices` — the services for blocks are each for the blocks of one language.
-/

namespace Mosaic

/-! ## Answers that may not be sendable -/

section MapM

variable {α β : Type} {f : α → Option β} {xs : List α} {ys : List β}

lemma mapM_eq_some_iff : xs.mapM f = some ys ↔ List.Forall₂ (fun x y => f x = some y) xs ys := by
  induction xs generalizing ys with
  | nil => simp [eq_comm]
  | cons x xs ih =>
    rw [List.mapM_cons, List.forall₂_cons_left_iff]
    simp only [Option.bind_eq_bind, Option.bind_eq_some_iff, Option.pure_def, Option.some.injEq]
    constructor
    · rintro ⟨y, hy, ys, hys, rfl⟩
      exact ⟨y, ys, hy, ih.1 hys, rfl⟩
    · rintro ⟨y, ys, hy, hys, rfl⟩
      exact ⟨y, hy, ys, ih.2 hys, rfl⟩

lemma exists_mapM_eq_some (h : ∀ x ∈ xs, ∃ y, f x = some y) : ∃ ys, xs.mapM f = some ys := by
  induction xs with
  | nil => exact ⟨[], rfl⟩
  | cons x xs ih =>
    obtain ⟨y, hy⟩ := h x (by simp)
    obtain ⟨ys, hys⟩ := ih fun a ha => h a (by simp [ha])
    exact ⟨y :: ys, by simp [List.mapM_cons, hy, hys]⟩

lemma exists_mapM_iff : (∃ ys, xs.mapM f = some ys) ↔ ∀ x ∈ xs, ∃ y, f x = some y := by
  refine ⟨fun ⟨ys, h⟩ x hx => ?_, exists_mapM_eq_some⟩
  obtain ⟨i, hi, rfl⟩ := List.mem_iff_getElem.1 hx
  have hall := mapM_eq_some_iff.1 h
  exact ⟨_, (List.forall₂_iff_get.1 hall).2 i hi (hall.length_eq ▸ hi)⟩

lemma mapM_flatten_cons {f : α → Option (List β)} (x : α) :
    ((x :: xs).mapM f).map List.flatten
      = (f x).bind fun ys => ((xs.mapM f).map List.flatten).map (ys ++ ·) := by
  rw [List.mapM_cons]
  cases f x with
  | none => rfl
  | some ys => cases xs.mapM f <;> rfl

lemma mem_of_mapM {y : β} (h : xs.mapM f = some ys) (hy : y ∈ ys) : ∃ x ∈ xs, f x = some y := by
  have hall := mapM_eq_some_iff.1 h
  clear h
  induction hall with
  | nil => exact absurd hy (by simp)
  | @cons a b xs ys hab _ ih =>
    rcases List.mem_cons.1 hy with rfl | hy
    · exact ⟨a, by simp, hab⟩
    · obtain ⟨x, hx, he⟩ := ih hy
      exact ⟨x, by simp [hx], he⟩

lemma exists_mem_of_mapM {x : α} (h : xs.mapM f = some ys) (hx : x ∈ xs) :
    ∃ y ∈ ys, f x = some y := by
  have hall := mapM_eq_some_iff.1 h
  clear h
  induction hall with
  | nil => exact absurd hx (by simp)
  | @cons a b xs ys hab _ ih =>
    rcases List.mem_cons.1 hx with rfl | hx
    · exact ⟨b, by simp, hab⟩
    · obtain ⟨y, hy, he⟩ := ih hx
      exact ⟨y, by simp [hy], he⟩

lemma sendable_eq_ok_iff {x : Option α} {a : α} : sendable x = .ok a ↔ x = some a := by
  cases x <;> simp [sendable]

lemma sendable_map (f : α → β) (x : Option α) : sendable (x.map f) = (sendable x).map f := by
  cases x <;> rfl

end MapM

/-! ## Asking services -/

section Reached

variable {α β : Type} {ask : Adapter → Embedded → Reply (List α)} {toHost : Embedded → α → Option β}
  {services : List Service}

/-- The services that are asked are the first ones, each with the reply it gives. -/
lemma prefix_reached (services : List Service) :
    reached ask toHost services <+: services.map fun s => (s, ask s.adapter s.document) := by
  induction services with
  | nil => exact List.prefix_rfl
  | cons s rest ih =>
    rw [reached, List.map_cons, List.prefix_cons_inj]
    split
    · exact List.nil_prefix
    · exact ih

/-- A service that was asked is one of those to be asked, with the reply it gave. -/
lemma mem_reached {p : Service × Reply (List α)} (h : p ∈ reached ask toHost services) :
    p.1 ∈ services ∧ p.2 = ask p.1.adapter p.1.document := by
  obtain ⟨s, hs, rfl⟩ := List.mem_map.1 ((prefix_reached services).subset h)
  exact ⟨hs, rfl⟩

/-- If no service calls the request off, all contribute, or the answer of one cannot be sent. -/
lemma mapM_reached_of_goesOn (h : ∀ s ∈ services, (ask s.adapter s.document).cancels = false) :
    (reached ask toHost services).mapM (contribution toHost)
      = services.mapM fun s => contribution toHost (s, ask s.adapter s.document) := by
  induction services with
  | nil => rfl
  | cons s rest ih =>
    rw [reached, h s (by simp), List.mapM_cons, List.mapM_cons]
    cases hs : contribution toHost (s, ask s.adapter s.document) with
    | none => rfl
    | some ys =>
      rw [← ih fun s' hs' => h s' (by simp [hs'])]
      rfl

end Reached

section Contribution

variable {α β : Type} {toHost : Embedded → α → Option β} {s : Service}

/-- Each part of a contribution is a part of the answer that was brought back. -/
lemma mem_contribution {reply : Reply (List α)} {ys : List β} {y : β}
    (h : contribution toHost (s, reply) = some ys) (hy : y ∈ ys) :
    ∃ answer, reply.answer = .ok answer ∧ ∃ x ∈ answer, toHost s.document x = some y := by
  obtain ⟨answer | answer, cancels⟩ := reply
  · obtain rfl : [] = ys := Option.some.inj h
    exact absurd hy (by simp)
  · exact ⟨answer, rfl, mem_of_mapM h hy⟩

lemma exists_contribution (reply : Reply (List α)) (h : ∀ x, ∃ y, toHost s.document x = some y) :
    ∃ ys, contribution toHost (s, reply) = some ys := by
  obtain ⟨answer | answer, cancels⟩ := reply
  · exact ⟨[], rfl⟩
  · exact exists_mapM_eq_some fun x _ => h x

end Contribution

namespace Router

variable {r : Router} {uri : String} {file : Snapshot}

/-- The answer for an open file. -/
lemma askAll_result {α β : Type} (h : r.store.get? uri = some file) (cancelled : Bool)
    (services : Snapshot → List Service) (request : Request)
    (ask : Adapter → Embedded → Reply (List α)) (toHost : Embedded → α → Option β) :
    (r.askAll uri cancelled services request ask toHost).result = sendable
      (((if cancelled then [] else reached ask toHost (services file)).mapM
        (contribution toHost)).map List.flatten) := by
  simp only [askAll, on, Store.require, h]

/-- **If every answer can be brought back, an open file is answered**, and each part of the answer
is one that a service gave. -/
theorem askAll_ok {α β : Type} (h : r.store.get? uri = some file) (cancelled : Bool)
    (services : Snapshot → List Service) (request : Request)
    (ask : Adapter → Embedded → Reply (List α)) (toHost : Embedded → α → Option β)
    (total : ∀ s ∈ services file, ∀ x, ∃ y, toHost s.document x = some y) :
    ∃ ys, (r.askAll uri cancelled services request ask toHost).result = .ok ys ∧
      ∀ y ∈ ys, ∃ s ∈ services file, ∃ answer,
        (ask s.adapter s.document).answer = .ok answer ∧
        ∃ x ∈ answer, toHost s.document x = some y := by
  rw [askAll_result h]
  have hasked : ∀ p ∈ (if cancelled then [] else reached ask toHost (services file)),
      p.1 ∈ services file ∧ p.2 = ask p.1.adapter p.1.document := by
    intro p hp
    split at hp
    · exact absurd hp (by simp)
    · exact mem_reached hp
  obtain ⟨yss, hyss⟩ := exists_mapM_eq_some fun p hp =>
    exists_contribution p.2 (total p.1 (hasked p hp).1)
  refine ⟨yss.flatten, by rw [hyss]; rfl, fun y hy => ?_⟩
  obtain ⟨ys, hys, hmem⟩ := List.mem_flatten.1 hy
  obtain ⟨p, hp, hc⟩ := mem_of_mapM hyss hys
  obtain ⟨hs, hreply⟩ := hasked p hp
  obtain ⟨answer, ha, x, hx, hxy⟩ := mem_contribution hc hmem
  exact ⟨p.1, hs, answer, by rw [← hreply, ha], x, hx, hxy⟩

/-- Languages are listed that were listed before, or that come now. -/
lemma mem_foldl_languages {l : String} (ls seen : List String) :
    l ∈ ls.foldl (fun seen l => if seen.contains l then seen else seen ++ [l]) seen ↔
      l ∈ seen ∨ l ∈ ls := by
  induction ls generalizing seen with
  | nil => simp
  | cons a ls ih =>
    rw [List.foldl_cons, ih]
    by_cases ha : a ∈ seen
    · simp only [List.contains_iff_mem, ha, if_true, List.mem_cons]
      constructor
      · rintro (h | h)
        · exact Or.inl h
        · exact Or.inr (Or.inr h)
      · rintro (h | rfl | h)
        · exact Or.inl h
        · exact Or.inl ha
        · exact Or.inr h
    · simp only [List.contains_iff_mem, ha, if_false, List.mem_append, List.mem_cons,
        List.not_mem_nil, or_false, or_assoc]

/-- The block languages of a file are those of its blocks. -/
lemma mem_blockLanguages {l : String} :
    l ∈ file.blockLanguages ↔ Embedded.blocksOf file l ≠ [] := by
  unfold Snapshot.blockLanguages
  rw [mem_foldl_languages, ← List.length_pos_iff, List.length_pos_iff_exists_mem]
  simp [Embedded.blocksOf, and_assoc]

lemma segments_ofLanguage_ne_nil {l : String} (h : l ∈ file.blockLanguages) :
    (Embedded.ofLanguage file l).segments ≠ [] := by
  intro hnil
  cases hb : Embedded.blocksOf file l with
  | nil => exact mem_blockLanguages.1 h hb
  | cons b bs => simp [Embedded.ofLanguage, Embedded.segmentsFrom, hb] at hnil

/-- A service for blocks is for all blocks of one language, of which there is one at least. -/
theorem mem_blockServices {s : Service} (h : s ∈ r.blockServices file) :
    ∃ language, r.adapters.get? language = some s.adapter ∧
      s.document = .ofLanguage file language ∧ s.document.segments ≠ [] := by
  obtain ⟨language, hl, hs⟩ := List.mem_filterMap.1 h
  obtain ⟨adapter, ha, rfl⟩ := Option.map_eq_some_iff.1 hs
  exact ⟨language, ha, rfl, segments_ofLanguage_ne_nil hl⟩

end Router

end Mosaic
