import Mosaic.Proofs.ServedRegions
import Mosaic.Proofs.TranslatedRanges
import Mosaic.Proofs.OpenFiles

/-!
# Requests on a whole file

Diagnostics, outlines, semantic tokens, colours and formatting are served alike: the request is put
to the services for the file one after the other, and what they answer is put together
(`FileRequest`).

* `Router.services_replace` — a router with another adapter for a language.
* `FileRequest.asked_of_goesOn`, `FileRequest.asked_of_not_goesOn` — which services are asked.
* `FileRequest.fanIn_ok_iff` — when what they answer can be sent.
* `FansOut` — how such a request is served, and `file_requests_fan_out` for all five of them.
-/

namespace Mosaic

/-! ## Another adapter for a language -/

namespace Registry

/-- Every adapter is kept under the language it serves. -/
def Keyed (a : Registry) : Prop :=
  ∀ language adapter, a.get? language = some adapter → adapter.id = language

lemma get?_register (a : Registry) (adapter : Adapter) (language : String) :
    (a.register adapter).get? language
      = if adapter.id = language then some adapter else a.get? language := by
  simp only [get?, register, Std.TreeMap.getElem?_insert, compare_eq_iff_eq]

lemma keyed_empty : Keyed {} := by
  intro language adapter h
  simp [get?] at h

lemma Keyed.register {a : Registry} (h : a.Keyed) (adapter : Adapter) :
    (a.register adapter).Keyed := by
  intro language other hget
  rw [get?_register] at hget
  split at hget
  next hid => rwa [← Option.some.inj hget]
  next => exact h language other hget

/-- Only adapters that were registered are in a registry. -/
lemma mem_of_get?_foldl {adapters : List Adapter} {language : String} {a : Adapter}
    (h : (adapters.foldl register {}).get? language = some a) : a ∈ adapters := by
  revert language a
  refine List.foldlRecOn (motive := fun registry : Registry =>
    ∀ {language a}, registry.get? language = some a → a ∈ adapters) _ _ ?_ ?_
  · intro language a h
    simp [get?] at h
  · intro registry ih adapter hadapter language a h
    rw [get?_register] at h
    split at h
    · exact Option.some.inj h ▸ hadapter
    · exact ih h

/-- The adapters of the library are those for style sheets and the one for metadata. -/
lemma get?_builtinWith {yaml : Metadata.Reader} {language : String} {a : Adapter}
    (h : (builtinWith yaml).get? language = some a) :
    (∃ style, a = Style.adapter style) ∨ a = Metadata.adapter yaml := by
  rcases List.mem_append.1 (mem_of_get?_foldl h) with hstyle | hmetadata
  · obtain ⟨style, -, rfl⟩ := List.mem_map.1 hstyle
    exact .inl ⟨style, rfl⟩
  · exact .inr (List.mem_singleton.1 hmetadata)

end Registry

/-- The service, by another adapter if that one is for its language. -/
def Service.replace (adapter : Adapter) (s : Service) : Service :=
  if s.document.language = adapter.id then ⟨adapter, s.document⟩ else s

@[simp] lemma Service.document_replace (adapter : Adapter) (s : Service) :
    (s.replace adapter).document = s.document := by
  unfold replace
  split <;> rfl

namespace Router

variable {r : Router} {file : Snapshot} {old adapter : Adapter}

/-- The router with one more adapter, which takes the place of one for the same language. -/
def register (r : Router) (adapter : Adapter) : Router :=
  { r with adapters := r.adapters.register adapter }

/-- Services made one for each of some things, by the adapters for their languages. -/
lemma filterMap_replace {α : Type} (language : α → String) (document : α → Embedded)
    (hdocument : ∀ a, (document a).language = language a)
    (hold : r.adapters.get? adapter.id = some old) (as : List α) :
    (as.filterMap fun a =>
        ((r.register adapter).adapters.get? (language a)).map (⟨·, document a⟩))
      = (as.filterMap fun a => (r.adapters.get? (language a)).map (⟨·, document a⟩)).map
        (Service.replace adapter) := by
  rw [List.map_filterMap]
  refine List.filterMap_congr fun a _ => ?_
  simp only [register, Registry.get?_register, Option.map_map]
  by_cases h : adapter.id = language a
  · simp [← h, hold, Service.replace, hdocument]
  · have hne : language a ≠ adapter.id := fun he => h he.symm
    simp [h, Function.comp_def, Service.replace, hdocument, hne]

lemma blockServices_replace (hold : r.adapters.get? adapter.id = some old) :
    (r.register adapter).blockServices file
      = (r.blockServices file).map (Service.replace adapter) :=
  filterMap_replace id _ (fun _ => rfl) hold _

/-- Another adapter for a language serves where the old one did. -/
lemma services_replace (hold : r.adapters.get? adapter.id = some old) :
    (r.register adapter).services file = (r.services file).map (Service.replace adapter) := by
  rw [services, services, List.map_append, blockServices_replace hold]
  exact congrArg _ (filterMap_replace Region.language _ (fun _ => rfl) hold _)

end Router

/-! ## Requests on a whole file -/

/-- What makes up a request on a whole file: to which services it is put, what these are asked, how
a part of an answer goes to the host, and what is made of all of them. -/
structure FileRequest (α β γ : Type) where
  services : Router → Snapshot → List Service
  request : Request
  ask : Adapter → Embedded → Reply (List α)
  toHost : Embedded → α → Option β
  gather : List β → γ

namespace FileRequest

/-- The request for diagnostics. -/
def diagnostics : FileRequest Diagnostic Diagnostic (List Diagnostic) where
  services := Router.services
  request := .validate
  ask := (·.validate)
  toHost e := Diagnostic.translate e.uri e.rangeToHost?
  gather := id

/-- The request for an outline, in the order of where the symbols start. -/
def symbols : FileRequest DocumentSymbol DocumentSymbol (List DocumentSymbol) where
  services := Router.blockServices
  request := .symbols
  ask := (·.symbols)
  toHost e := DocumentSymbol.translate e.rangeToHost?
  gather := (·.mergeSort fun a b => a.info.range.start.upTo b.info.range.start)

/-- The request for semantic tokens, which are merged. -/
def tokens : FileRequest SemanticToken SemanticToken (List TokenDelta) where
  services := Router.services
  request := .tokens
  ask := (·.tokens)
  toHost e t := (e.toHost? t.position).map t.moveTo
  gather ts := SemanticToken.deltas (SemanticToken.merge ts)

/-- The request for colours. -/
def colors : FileRequest ColorInformation ColorInformation (List ColorInformation) where
  services := Router.services
  request := .colors
  ask := (·.colors)
  toHost e := ColorInformation.translate e.rangeToHost?
  gather := id

/-- The request for edits that format the blocks, with the options of the editor. -/
def format (settings : Json) : FileRequest TextEdit TextEdit (List TextEdit) where
  services := Router.blockServices
  request := .format settings
  ask a e := a.format e settings
  toHost e := TextEdit.translate e.rangeToHost?
  gather := id

variable {α β γ : Type} {w : FileRequest α β γ} {ss : List Service} {s : Service}
  {failing : Adapter}

/-- The services that are asked. -/
def asked (w : FileRequest α β γ) (services : List Service) : List Service :=
  (reached w.ask w.toHost services).map Prod.fst

/-- The answer of a service, brought to the host, or nothing if it failed. -/
def contributed (w : FileRequest α β γ) (s : Service) : Option (List β) :=
  contribution w.toHost (s, w.ask s.adapter s.document)

/-- A service lets the request go on to the next one: it does not call it off, and what it answers
can be sent. -/
def GoesOn (w : FileRequest α β γ) (s : Service) : Prop :=
  (w.ask s.adapter s.document).cancels = false ∧ (w.contributed s).isSome

/-- What is made of the answers of some services, if all of them can be sent. -/
def fanIn (w : FileRequest α β γ) (services : List Service) : Except Error γ :=
  sendable (((services.mapM w.contributed).map List.flatten).map w.gather)

/-! ### The services that are asked -/

lemma asked_cons (s : Service) (rest : List Service) :
    w.asked (s :: rest)
      = s :: if (w.ask s.adapter s.document).cancels || (w.contributed s).isNone then []
          else w.asked rest := by
  rw [asked, reached, List.map_cons]
  exact congrArg (s :: ·) (apply_ite (List.map Prod.fst) _ _ _)

lemma asked_cons_of_goesOn (h : w.GoesOn s) (rest : List Service) :
    w.asked (s :: rest) = s :: w.asked rest := by
  obtain ⟨ys, hys⟩ := Option.isSome_iff_exists.1 h.2
  simp [asked_cons, h.1, hys]

lemma asked_cons_of_not_goesOn (h : ¬ w.GoesOn s) (rest : List Service) :
    w.asked (s :: rest) = [s] := by
  have hstops : (w.ask s.adapter s.document).cancels || (w.contributed s).isNone := by
    simpa [GoesOn, Option.isSome_iff_ne_none, or_iff_not_imp_left] using h
  rw [asked_cons, if_pos hstops]

/-- Services that let the request go on are all asked. -/
lemma asked_of_goesOn (h : ∀ s ∈ ss, w.GoesOn s) : w.asked ss = ss := by
  induction ss with
  | nil => rfl
  | cons s rest ih =>
    rw [asked_cons_of_goesOn (h s (by simp)), ih fun t ht => h t (by simp [ht])]

/-- The first service that does not let the request go on is the last one to be asked. -/
lemma asked_of_not_goesOn {k : Nat} (hk : ss[k]? = some s)
    (hbefore : ∀ t ∈ ss.take k, w.GoesOn t) (hs : ¬ w.GoesOn s) :
    w.asked ss = ss.take (k + 1) := by
  induction ss generalizing k with
  | nil => simp at hk
  | cons t rest ih =>
    cases k with
    | zero =>
      obtain rfl : t = s := by simpa using hk
      rw [asked_cons_of_not_goesOn hs]
      rfl
    | succ k =>
      rw [asked_cons_of_goesOn (hbefore t (by simp)), List.take_succ_cons,
        ih (by simpa using hk) fun u hu => hbefore u (by simp [hu])]

lemma mem_of_mem_asked (h : s ∈ w.asked ss) : s ∈ ss := by
  obtain ⟨p, hp, rfl⟩ := List.mem_map.1 h
  exact (mem_reached hp).1

lemma reached_eq (ss : List Service) :
    reached w.ask w.toHost ss = (w.asked ss).map fun s => (s, w.ask s.adapter s.document) := by
  rw [asked, List.map_map]
  refine ((List.map_id _).symm.trans (List.map_congr_left fun p hp => ?_))
  exact Prod.ext rfl (mem_reached hp).2

/-! ### What they answer -/

/-- A service that answers contributes its answer, brought to the host. -/
lemma contributed_of_answer {xs : List α} (h : (w.ask s.adapter s.document).answer = .ok xs) :
    w.contributed s = xs.mapM (w.toHost s.document) := by
  rw [contributed]
  cases hreply : w.ask s.adapter s.document with
  | mk answer cancels =>
    obtain rfl : answer = .ok xs := by rw [← h, hreply]
    rfl

lemma exists_contributed_iff : (∃ ys, w.contributed s = some ys) ↔
    ∀ answer, (w.ask s.adapter s.document).answer = .ok answer →
      ∀ x ∈ answer, (w.toHost s.document x).isSome := by
  rw [contributed]
  obtain ⟨failure | answer, cancels⟩ := w.ask s.adapter s.document
  · exact iff_of_true ⟨[], rfl⟩ (by simp)
  · simp [contribution, exists_mapM_iff, Option.isSome_iff_exists]

/-- All can be sent exactly if each part of each answer can be brought to the host. -/
lemma fanIn_ok_iff : (∃ all, w.fanIn ss = .ok all) ↔ ∀ s ∈ ss, ∀ answer,
    (w.ask s.adapter s.document).answer = .ok answer →
      ∀ x ∈ answer, (w.toHost s.document x).isSome := by
  simp only [← exists_contributed_iff, ← exists_mapM_iff, fanIn]
  cases ss.mapM w.contributed <;> simp [sendable]

lemma exists_of_fanIn {all : γ} (h : w.fanIn ss = .ok all) :
    ∃ groups, ss.mapM w.contributed = some groups ∧ w.gather groups.flatten = all := by
  simpa [fanIn, sendable_eq_ok_iff] using h

/-! ### An adapter that fails -/

/-- An adapter that fails contributes nothing. -/
lemma contributed_of_error {failure : Failure}
    (h : (w.ask s.adapter s.document).answer = .error failure) : w.contributed s = some [] := by
  rw [contributed]
  cases hreply : w.ask s.adapter s.document with
  | mk answer cancels =>
    obtain rfl : answer = .error failure := by rw [← h, hreply]
    rfl

/-- Services that contribute nothing may be left out. -/
lemma fanIn_filter (p : Service → Bool) (h : ∀ s ∈ ss, ¬ p s → w.contributed s = some []) :
    w.fanIn ss = w.fanIn (ss.filter p) := by
  refine congrArg (fun x => sendable (Option.map w.gather x)) ?_
  induction ss with
  | nil => rfl
  | cons s rest ih =>
    rw [mapM_flatten_cons, ih fun t ht => h t (by simp [ht])]
    by_cases hp : p s
    · rw [List.filter_cons_of_pos hp, mapM_flatten_cons]
    · rw [List.filter_cons_of_neg hp, h s (by simp) hp]
      exact Option.map_id'

/-- The other adapter fails, and calls the request off where that of the service does. -/
def FailsAlike (w : FileRequest α β γ) (failing : Adapter) (s : Service) : Prop :=
  ∃ failure, w.ask failing s.document = ⟨.error failure, (w.ask s.adapter s.document).cancels⟩

lemma contributed_replace (h : s.document.language = failing.id → w.FailsAlike failing s) :
    w.contributed (s.replace failing)
      = if s.document.language = failing.id then some [] else w.contributed s := by
  by_cases hl : s.document.language = failing.id
  · obtain ⟨failure, hf⟩ := h hl
    rw [if_pos hl]
    have herror : (w.ask (s.replace failing).adapter (s.replace failing).document).answer
        = .error failure := by
      rw [Service.replace, if_pos hl, hf]
    exact contributed_of_error herror
  · rw [if_neg hl, Service.replace, if_neg hl]

/-- A request that went on with a service goes on with the adapter that fails. -/
lemma GoesOn.replace (hs : w.GoesOn s)
    (h : s.document.language = failing.id → w.FailsAlike failing s) :
    w.GoesOn (s.replace failing) := by
  refine ⟨?_, ?_⟩
  · unfold Service.replace
    split
    next hl =>
      obtain ⟨failure, hf⟩ := h hl
      rw [hf]
      exact hs.1
    next => exact hs.1
  · rw [contributed_replace h]
    split
    · rfl
    · exact hs.2

/-- The services that were asked are asked with the adapter that fails, if not some more. -/
lemma prefix_asked_map_replace
    (h : ∀ s ∈ ss, s.document.language = failing.id → w.FailsAlike failing s) :
    (w.asked ss).map (Service.replace failing) <+: w.asked (ss.map (Service.replace failing)) := by
  induction ss with
  | nil => exact List.prefix_rfl
  | cons s rest ih =>
    by_cases hs : w.GoesOn s
    · rw [List.map_cons, asked_cons_of_goesOn hs, asked_cons_of_goesOn (hs.replace (h s (by simp))),
        List.map_cons, List.prefix_cons_inj]
      exact ih fun t ht => h t (by simp [ht])
    · rw [List.map_cons, asked_cons_of_not_goesOn hs, asked_cons, List.map_cons,
        List.prefix_cons_inj]
      exact List.nil_prefix

/-- If what the old adapter answers can be sent, the same services are asked. -/
lemma asked_map_replace
    (h : ∀ s ∈ ss, s.document.language = failing.id → w.FailsAlike failing s)
    (hsent : ∀ s ∈ w.asked ss, s.document.language = failing.id → (w.contributed s).isSome) :
    w.asked (ss.map (Service.replace failing)) = (w.asked ss).map (Service.replace failing) := by
  induction ss with
  | nil => rfl
  | cons s rest ih =>
    by_cases hs : w.GoesOn s
    · rw [asked_cons_of_goesOn hs] at hsent
      rw [List.map_cons, asked_cons_of_goesOn hs, asked_cons_of_goesOn (hs.replace (h s (by simp))),
        List.map_cons, ih (fun t ht => h t (by simp [ht])) fun t ht => hsent t (by simp [ht])]
    · have hs' : ¬ w.GoesOn (s.replace failing) := by
        by_cases hl : s.document.language = failing.id
        · -- its answer can be sent, and so it has called the request off
          rw [asked_cons_of_not_goesOn hs] at hsent
          obtain ⟨failure, hf⟩ := h s (by simp) hl
          refine fun hgoes => hs ⟨?_, hsent s (by simp) hl⟩
          have hcancels := hgoes.1
          rwa [Service.replace, if_pos hl, hf] at hcancels
        · rwa [Service.replace, if_neg hl]
      rw [List.map_cons, asked_cons_of_not_goesOn hs, asked_cons_of_not_goesOn hs', List.map_cons,
        List.map_nil]

end FileRequest

/-- How a request on a whole file is served. -/
structure FansOut {α β γ : Type} (w : FileRequest α β γ) (uri : String)
    (serve : Router → Bool → Routed γ) : Prop where
  /-- A file that is not open has no answer. -/
  notOpen : ∀ r cancelled, r.store.get? uri = none →
    serve r cancelled = { result := .error (.documentNotFound uri) }
  /-- Of an open file the services are asked, and what they answer is put together. -/
  asks : ∀ r file, r.store.get? uri = some file →
    (serve r false).calls = (w.asked (w.services r file)).map (·.call w.request) ∧
      (serve r false).result = w.fanIn (w.asked (w.services r file))
  /-- A request that was called off before asks nobody. -/
  calledOff : ∀ r file, r.store.get? uri = some file →
    (serve r true).calls = [] ∧ (serve r true).result = .ok (w.gather [])
  /-- All are asked if each of them lets the request go on. -/
  complete : ∀ services, (∀ s ∈ services, w.GoesOn s) → w.asked services = services
  /-- If the `k`-th call is the first in which the request is called off, or the answer cannot be
  sent, it is the last one. -/
  stopped : ∀ services k s, services[k]? = some s → (∀ t ∈ services.take k, w.GoesOn t) →
    ¬ w.GoesOn s → w.asked services = services.take (k + 1)
  /-- There is an answer exactly if all that was answered can be brought to the host. -/
  answers : ∀ services, (∃ all, w.fanIn services = .ok all) ↔ ∀ s ∈ services, ∀ answer,
    (w.ask s.adapter s.document).answer = .ok answer → ∀ x ∈ answer, (w.toHost s.document x).isSome
  /-- Only what is answered for an attribute value may not be. -/
  blocks : ∀ e : Embedded, e.mode = .offset → ∀ x, (w.toHost e x).isSome
  /-- An adapter that fails, in the place of one whose answers can be sent, takes its answers away,
  and nothing else changes. -/
  isolated : ∀ r file failing old, r.store.get? uri = some file → r.adapters.Keyed →
    r.adapters.get? failing.id = some old →
    (∀ e, ∃ failure, w.ask failing e = ⟨.error failure, (w.ask old e).cancels⟩) →
    (∀ s ∈ w.asked (w.services r file), s.document.language = failing.id →
      (w.contributed s).isSome) →
    (serve (r.register failing) false).calls = (serve r false).calls ∧
      (serve (r.register failing) false).result = w.fanIn
        ((w.asked (w.services r file)).filter fun s => s.document.language ≠ failing.id)
  /-- In the place of any adapter, an adapter that fails leaves the calls that there were, and only
  what the others answer is put together. -/
  outlasts : ∀ r file failing old, r.store.get? uri = some file → r.adapters.Keyed →
    r.adapters.get? failing.id = some old →
    (∀ e, ∃ failure, w.ask failing e = ⟨.error failure, (w.ask old e).cancels⟩) →
    (serve r false).calls <+: (serve (r.register failing) false).calls ∧
      (serve (r.register failing) false).result = w.fanIn
        ((w.asked (w.services (r.register failing) file)).filter
          fun s => s.document.language ≠ failing.id)

/-! ### How one is served -/

section Serving

variable {α β γ : Type} {w : FileRequest α β γ} {uri : String} {serve : Router → Bool → Routed γ}

/-- The services for a request on a whole file are those for its blocks, or those for all of it. -/
lemma FileRequest.services_register {r : Router} {file : Snapshot} {failing old : Adapter}
    (hservices : w.services = Router.blockServices ∨ w.services = Router.services)
    (hold : r.adapters.get? failing.id = some old) :
    w.services (r.register failing) file
      = (w.services r file).map (Service.replace failing) := by
  rcases hservices with h | h
  · rw [h, Router.blockServices_replace hold]
  · rw [h, Router.services_replace hold]

lemma FileRequest.mem_services {r : Router} {file : Snapshot} {s : Service}
    (hservices : w.services = Router.blockServices ∨ w.services = Router.services)
    (h : s ∈ w.services r file) : s ∈ r.services file := by
  rcases hservices with he | he
  · exact List.mem_append_left _ (he ▸ h)
  · exact he ▸ h

/-- The adapter for a language serves all documents in it. -/
lemma FileRequest.adapter_eq {r : Router} {file : Snapshot} {s : Service} {language : String}
    {old : Adapter} (hservices : w.services = Router.blockServices ∨ w.services = Router.services)
    (hold : r.adapters.get? language = some old) (h : s ∈ w.services r file)
    (hl : s.document.language = language) : s.adapter = old := by
  have hadapter := Router.adapter_of_language (FileRequest.mem_services hservices h)
  rw [hl, hold] at hadapter
  exact (Option.some.inj hadapter).symm

/-- Calls are to languages, and so it does not matter which adapter serves one. -/
lemma FileRequest.map_call_replace {ss : List Service} {failing : Adapter}
    (h : ∀ s ∈ ss, s.document.language = failing.id → s.adapter.id = failing.id) :
    (ss.map (Service.replace failing)).map (·.call w.request) = ss.map (·.call w.request) := by
  rw [List.map_map]
  refine List.map_congr_left fun s hs => ?_
  by_cases hl : s.document.language = failing.id
  · simp [Service.replace, hl, Service.call, h s hs hl]
  · simp [Service.replace, hl]

/-- What is left without an adapter is the same, whichever adapter serves its language. -/
lemma FileRequest.filter_map_replace (failing : Adapter) (ss : List Service) :
    (ss.map (Service.replace failing)).filter (fun s => s.document.language ≠ failing.id)
      = ss.filter fun s => s.document.language ≠ failing.id := by
  induction ss with
  | nil => rfl
  | cons s rest ih =>
    by_cases hl : s.document.language = failing.id
    · rw [List.map_cons, List.filter_cons_of_neg (by simpa using hl),
        List.filter_cons_of_neg (by simpa using hl), ih]
    · have hsame : s.replace failing = s := if_neg hl
      rw [List.map_cons, hsame, List.filter_cons_of_pos (by simpa using hl),
        List.filter_cons_of_pos (by simpa using hl), ih]

/-- **A request that is put to the services for a file, one after the other, fans out.** -/
theorem fansOut_of_serves
    (hserve : ∀ r cancelled, serve r cancelled
      = (r.askAll uri cancelled (w.services r) w.request w.ask w.toHost).map w.gather)
    (hservices : w.services = Router.blockServices ∨ w.services = Router.services)
    (hblocks : ∀ e : Embedded, e.mode = .offset → ∀ x, (w.toHost e x).isSome) :
    FansOut w uri serve := by
  have hasks (r : Router) (file : Snapshot) (hopen : r.store.get? uri = some file) :
      (serve r false).calls = (w.asked (w.services r file)).map (·.call w.request) ∧
        (serve r false).result = w.fanIn (w.asked (w.services r file)) := by
    simp only [hserve, Routed.map, Router.askAll, Router.on, Store.require, hopen,
      if_neg Bool.false_ne_true, FileRequest.reached_eq, List.map_map, List.mapM_map,
      FileRequest.fanIn, sendable_map]
    exact ⟨rfl, rfl⟩
  -- the adapter that fails serves the same documents
  have hreplaced {r : Router} {file : Snapshot} {failing old : Adapter}
      (hold : r.adapters.get? failing.id = some old) :
      w.services (r.register failing) file = (w.services r file).map (Service.replace failing) :=
    FileRequest.services_register hservices hold
  have halike {r : Router} {file : Snapshot} {failing old : Adapter}
      (hold : r.adapters.get? failing.id = some old)
      (hfails : ∀ e, ∃ failure, w.ask failing e = ⟨.error failure, (w.ask old e).cancels⟩) :
      ∀ s ∈ w.services r file, s.document.language = failing.id → w.FailsAlike failing s := by
    intro s hs hl
    rw [FileRequest.FailsAlike, FileRequest.adapter_eq hservices hold hs hl]
    exact hfails s.document
  have hcalls {r : Router} {file : Snapshot} {failing old : Adapter} (hkeyed : r.adapters.Keyed)
      (hold : r.adapters.get? failing.id = some old) :
      ((w.asked (w.services r file)).map (Service.replace failing)).map (·.call w.request)
        = (w.asked (w.services r file)).map (·.call w.request) := by
    refine FileRequest.map_call_replace fun s hs hl => ?_
    rw [FileRequest.adapter_eq hservices hold (FileRequest.mem_of_mem_asked hs) hl]
    exact hkeyed _ _ hold
  have hresult {r : Router} {file : Snapshot} {failing old : Adapter}
      (hopen : r.store.get? uri = some file) (hold : r.adapters.get? failing.id = some old)
      (hfails : ∀ e, ∃ failure, w.ask failing e = ⟨.error failure, (w.ask old e).cancels⟩) :
      (serve (r.register failing) false).result = w.fanIn
        ((w.asked (w.services (r.register failing) file)).filter
          fun s => s.document.language ≠ failing.id) := by
    rw [(hasks (r.register failing) file hopen).2]
    refine FileRequest.fanIn_filter _ fun s hs hl => ?_
    have hmem := FileRequest.mem_of_mem_asked hs
    rw [hreplaced hold] at hmem
    obtain ⟨t, ht, rfl⟩ := List.mem_map.1 hmem
    have hlanguage : t.document.language = failing.id := by simpa using hl
    rw [FileRequest.contributed_replace (halike hold hfails t ht), if_pos hlanguage]
  refine ⟨fun r cancelled hnone => ?_, hasks, fun r file hopen => ?_,
    fun _ => FileRequest.asked_of_goesOn, fun _ _ _ => FileRequest.asked_of_not_goesOn,
    fun _ => FileRequest.fanIn_ok_iff, hblocks,
    fun r file failing old hopen hkeyed hold hfails hsent => ?_,
    fun r file failing old hopen hkeyed hold hfails => ?_⟩
  · simp only [hserve, Routed.map, Router.askAll, Router.on, Store.require, hnone]
    rfl
  · simp only [hserve, Routed.map, Router.askAll, Router.on, Store.require, hopen, if_pos]
    exact ⟨rfl, rfl⟩
  · have hasked := FileRequest.asked_map_replace (halike hold hfails) hsent
    rw [← hreplaced hold] at hasked
    refine ⟨?_, ?_⟩
    · rw [(hasks (r.register failing) file hopen).1, (hasks r file hopen).1, hasked,
        hcalls hkeyed hold]
    · rw [hresult hopen hold hfails, hasked, FileRequest.filter_map_replace]
  · have hprefix := FileRequest.prefix_asked_map_replace (@halike r file failing old hold hfails)
    rw [← hreplaced hold] at hprefix
    refine ⟨?_, hresult hopen hold hfails⟩
    rw [(hasks (r.register failing) file hopen).1, (hasks r file hopen).1, ← hcalls hkeyed hold]
    exact hprefix.map _

end Serving

/-! ## The five requests -/

lemma SymbolInfo.isSome_translate {f : Range → Option Range} (hf : ∀ range, (f range).isSome)
    (info : SymbolInfo) : (info.translate f).isSome := by
  obtain ⟨range, hrange⟩ := Option.isSome_iff_exists.1 (hf info.range)
  obtain ⟨selection, hselection⟩ := Option.isSome_iff_exists.1 (hf info.selection)
  simp [translate, hrange, hselection]

mutual

/-- A symbol goes to the host if all ranges do. -/
theorem DocumentSymbol.isSome_translate {f : Range → Option Range}
    (hf : ∀ range, (f range).isSome) : ∀ s : DocumentSymbol, (s.translate f).isSome
  | .leaf info => by
    rw [translate, Option.isSome_map]
    exact info.isSome_translate hf
  | .node info children => by
    obtain ⟨info', hinfo⟩ := Option.isSome_iff_exists.1 (info.isSome_translate hf)
    obtain ⟨all, hall⟩ := Option.isSome_iff_exists.1 (isSome_translateAll hf children)
    simp [translate, hinfo, hall]

theorem DocumentSymbol.isSome_translateAll {f : Range → Option Range}
    (hf : ∀ range, (f range).isSome) :
    ∀ ss : List DocumentSymbol, (translate.translateAll f ss).isSome
  | [] => rfl
  | s :: ss => by
    obtain ⟨s', hs⟩ := Option.isSome_iff_exists.1 (s.isSome_translate hf)
    obtain ⟨all, hall⟩ := Option.isSome_iff_exists.1 (isSome_translateAll hf ss)
    simp [translate.translateAll, hs, hall]

end

/-- A range of the text of blocks goes to the host. -/
lemma Embedded.isSome_rangeToHost? {e : Embedded} (h : e.mode = .offset) (range : Range) :
    (e.rangeToHost? range).isSome := by
  simp [rangeToHost?, h]

lemma Router.mode_of_mem_blockServices {r : Router} {file : Snapshot} {s : Service}
    (h : s ∈ r.blockServices file) : s.document.mode = .offset := by
  obtain ⟨language, -, hdoc, -⟩ := mem_blockServices h
  rw [hdoc]
  rfl

lemma Routed.map_id {α : Type} (x : Routed α) : x.map id = x := by
  obtain ⟨_ | _, _, _⟩ := x <;> rfl

/-- The answer for an open file, called off before or not. -/
lemma FansOut.result_eq {α β γ : Type} {w : FileRequest α β γ} {uri : String}
    {serve : Router → Bool → Routed γ} (h : FansOut w uri serve) {r : Router} {file : Snapshot}
    (hopen : r.store.get? uri = some file) (cancelled : Bool) :
    (serve r cancelled).result
      = w.fanIn (if cancelled then [] else w.asked (w.services r file)) := by
  cases cancelled with
  | true => exact (h.calledOff r file hopen).2
  | false => exact (h.asks r file hopen).2

/-- A service for blocks lets the request go on unless it calls it off. -/
lemma FansOut.goesOn_of_offset {α β γ : Type} {w : FileRequest α β γ} {uri : String}
    {serve : Router → Bool → Routed γ} (h : FansOut w uri serve) {s : Service}
    (hmode : s.document.mode = .offset) (hs : (w.ask s.adapter s.document).cancels = false) :
    w.GoesOn s :=
  ⟨hs, Option.isSome_iff_exists.2
    (FileRequest.exists_contributed_iff.2 fun _ _ x _ => h.blocks s.document hmode x)⟩

/-- If a request is put to the services for blocks only, an open file has an answer. -/
lemma FansOut.exists_result {α β γ : Type} {w : FileRequest α β γ} {uri : String}
    {serve : Router → Bool → Routed γ} (h : FansOut w uri serve)
    (hservices : w.services = Router.blockServices) {r : Router} {file : Snapshot}
    (hopen : r.store.get? uri = some file) (cancelled : Bool) :
    ∃ all, (serve r cancelled).result = .ok all := by
  cases cancelled with
  | true => exact ⟨_, (h.calledOff r file hopen).2⟩
  | false =>
    rw [(h.asks r file hopen).2]
    refine (h.answers _).2 fun s hs _ _ x _ => h.blocks _ ?_ x
    have hmem := FileRequest.mem_of_mem_asked hs
    exact Router.mode_of_mem_blockServices (hservices ▸ hmem)

/-- **The requests on a whole file reach every adapter and outlast each failure.**  What is put
together are the answers of the services that were asked, and these are for all regions whose
language has an adapter.  What an adapter answers for an attribute value has to be a place that can
be sent, and else there is no answer at all. -/
theorem file_requests_fan_out (uri : String) (settings : Json) :
    FansOut .diagnostics uri (fun r => r.diagnostics uri) ∧
    FansOut .symbols uri (fun r => r.documentSymbols uri) ∧
    FansOut .tokens uri (fun r => r.semanticTokens uri) ∧
    FansOut .colors uri (fun r => r.documentColors uri) ∧
    FansOut (.format settings) uri (fun r => r.formatting uri settings) ∧
    (∀ (r : Router) (file : Snapshot) (cancelled : Bool), r.store.get? uri = some file →
      (∃ symbols, (r.documentSymbols uri cancelled).result = .ok symbols) ∧
      ∃ edits, (r.formatting uri settings cancelled).result = .ok edits) ∧
    ∀ (r : Router) (file : Snapshot), r.CoversFile file := by
  have hdiagnostics : FansOut .diagnostics uri (fun r => r.diagnostics uri) :=
    fansOut_of_serves (fun _ _ => (Routed.map_id _).symm) (Or.inr rfl) fun e he d =>
      (Diagnostic.translates e.uri).defined _ d fun range _ => Embedded.isSome_rangeToHost? he range
  have hsymbols : FansOut .symbols uri (fun r => r.documentSymbols uri) :=
    fansOut_of_serves (fun _ _ => rfl) (Or.inl rfl) fun e he =>
      DocumentSymbol.isSome_translate (Embedded.isSome_rangeToHost? he)
  have htokens : FansOut .tokens uri (fun r => r.semanticTokens uri) :=
    fansOut_of_serves (fun _ _ => rfl) (Or.inr rfl) fun e he t => by
      simp [FileRequest.tokens, Embedded.toHost?, he]
  have hcolors : FansOut .colors uri (fun r => r.documentColors uri) :=
    fansOut_of_serves (fun _ _ => (Routed.map_id _).symm) (Or.inr rfl) fun e he c => by
      simp [FileRequest.colors, ColorInformation.translate, Embedded.isSome_rangeToHost? he]
  have hformat : FansOut (.format settings) uri (fun r => r.formatting uri settings) :=
    fansOut_of_serves (fun _ _ => (Routed.map_id _).symm) (Or.inl rfl) fun e he edit => by
      simp [FileRequest.format, TextEdit.translate, Embedded.isSome_rangeToHost? he]
  exact ⟨hdiagnostics, hsymbols, htokens, hcolors, hformat, fun r file cancelled hopen =>
    ⟨hsymbols.exists_result rfl hopen cancelled, hformat.exists_result rfl hopen cancelled⟩,
    Router.covers⟩

/-- The colours of a file whose attribute value has one at a place that cannot be sent.  All colours
of the file are lost, also that of the script. -/
theorem far_color_loses_all :
    let source : Text := "<p style=\"a:b\"/><script>x</script>".toList
    let file := Snapshot.ofText {} "file:///a" "sfc" 1 source
    let color : Color := ⟨⟨0⟩, ⟨0⟩, ⟨0⟩, ⟨0⟩⟩
    let near : Range := ⟨⟨0, 0⟩, ⟨0, 1⟩⟩
    let script : Adapter := { id := "js", colors := fun _ => ⟨.ok [⟨near, color⟩], false⟩ }
    let far : Position := ⟨0, wordLimit - 1⟩
    let style : Adapter := { id := "css", colors := fun _ => ⟨.ok [⟨⟨far, far⟩, color⟩], false⟩ }
    let r : Router := ⟨Store.put file {}, (Registry.register {} script).register style⟩
    r.store.get? "file:///a" = some file ∧ r.adapters.Keyed ∧
      (r.documentColors "file:///a" false).calls.map (·.adapter) = ["js", "css"] ∧
      (r.documentColors "file:///a" false).result = .error .unsendable := by
  intro source file color near script far style r
  have hopen : r.store.get? "file:///a" = some file :=
    (Store.get?_put file {} _).trans (if_pos rfl)
  have hkeyed : r.adapters.Keyed := (Registry.keyed_empty.register script).register style
  have hlanguages : file.blockLanguages = ["js"] := by decide +kernel
  have hvalues : file.regions.filter (·.inAttribute) = [.ofAttribute "css" 10 13] := by
    decide +kernel
  have hservices : r.services file = [⟨script, .ofLanguage file "js"⟩,
      ⟨style, .ofRegion file (.ofAttribute "css" 10 13)⟩] := by
    simp [Router.services, Router.blockServices, Router.fragmentServices, hlanguages, hvalues, r,
      Registry.get?_register, script, style, Region.ofAttribute]
  have hfar : (Embedded.ofRegion file (.ofAttribute "css" 10 13)).rangeToHost? ⟨far, far⟩
      = none := by
    decide +kernel
  have hnear : (Embedded.ofLanguage file "js").rangeToHost? near = some ⟨⟨0, 24⟩, ⟨0, 25⟩⟩ := by
    decide +kernel
  refine ⟨hopen, hkeyed, ?_, ?_⟩
  · simp [Router.documentColors, Router.askAll, Router.on, Store.require, hopen, hservices, reached,
      contribution, ColorInformation.translate, hnear, script, style, Service.call]
    exact ite_self _
  · rw [Router.documentColors, Router.askAll_result hopen, if_neg Bool.false_ne_true,
      mapM_reached_of_goesOn (by simp [hservices, script, style]), hservices]
    simp [contribution, script, style, ColorInformation.translate, hfar, sendable]

end Mosaic
