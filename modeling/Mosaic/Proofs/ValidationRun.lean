import Mosaic.Proofs.FanOut
import Mosaic.Revalidation.Run

/-!
# What one run of validation finds

A run asks the services of a file one after the other, and other work may come in between.  What it
has found so far is right as long as the file is the one it set out with (`Router.Asked`); then in
the end it has found the diagnostics of the file (`Router.diagnosticsOf`).

* `Run.step_fire`, `Run.step_ask`, `Run.step_publish` — the steps of a live run, stage by stage.
* `Router.diagnostics_result` — a request for diagnostics answers with those of the file.
* `Router.Asked.next`, `Router.Asked.finish` — asking one more service, and having asked all.
-/

namespace Mosaic

/-- What a service finds, brought back to its file. -/
def Service.found (s : Service) : Option (List Diagnostic) :=
  contribution (fun e => Diagnostic.translate e.uri e.rangeToHost?)
    (s, s.adapter.validate s.document)

/-- No adapter calls a validation off. -/
def Registry.Patient (a : Registry) : Prop :=
  ∀ language adapter, a.get? language = some adapter →
    ∀ e, (adapter.validate e).cancels = false

lemma Registry.patient_empty : Registry.Patient {} := by
  intro language adapter h
  simp [get?] at h

lemma Registry.Patient.register {a : Registry} (h : a.Patient) {adapter : Adapter}
    (hadapter : ∀ e, (adapter.validate e).cancels = false) : (a.register adapter).Patient := by
  intro language other hget
  rw [get?_register] at hget
  split at hget
  · exact Option.some.inj hget ▸ hadapter
  · exact h language other hget

namespace Router

variable {r : Router} {file : Snapshot} {s : Service} {rest : List Service}
  {found ds : List Diagnostic}

/-- The diagnostics of a file, if all of them can be sent. -/
def diagnosticsOf (r : Router) (file : Snapshot) : Option (List Diagnostic) :=
  ((r.services file).mapM Service.found).map List.flatten

/-- A service for a file is by one of the adapters. -/
lemma adapter_of_mem_services (h : s ∈ r.services file) :
    ∃ language, r.adapters.get? language = some s.adapter := by
  rcases List.mem_append.1 h with h | h
  · obtain ⟨language, ha, -⟩ := mem_blockServices h
    exact ⟨language, ha⟩
  · obtain ⟨region, -, hs⟩ := List.mem_filterMap.1 h
    obtain ⟨adapter, ha, rfl⟩ := Option.map_eq_some_iff.1 hs
    exact ⟨region.language, ha⟩

lemma cancels_of_patient (hp : r.adapters.Patient) (h : s ∈ r.services file) :
    (s.adapter.validate s.document).cancels = false := by
  obtain ⟨language, ha⟩ := adapter_of_mem_services h
  exact hp language s.adapter ha s.document

/-- **A request for diagnostics answers with those of the file**, if nobody calls it off. -/
theorem diagnostics_result {uri : String} (hp : r.adapters.Patient)
    (h : r.store.get? uri = some file) :
    (r.diagnostics uri false).result = sendable (r.diagnosticsOf file) := by
  rw [diagnostics, askAll_result h, if_neg Bool.false_ne_true,
    mapM_reached_of_goesOn fun s hs => cancels_of_patient hp hs]
  rfl

lemma diagnostics_eq_ok_iff {uri : String} (hp : r.adapters.Patient)
    (h : r.store.get? uri = some file) :
    (r.diagnostics uri false).result = .ok ds ↔ r.diagnosticsOf file = some ds := by
  rw [diagnostics_result hp h]
  cases r.diagnosticsOf file <;> simp [sendable]

/-! ## Services that were asked -/

/-- Of the services of a file all but the rest were asked, and what they found can be sent. -/
def Asked (r : Router) (file : Snapshot) (rest : List Service) (found : List Diagnostic) : Prop :=
  ∃ asked, r.services file = asked ++ rest ∧
    (asked.mapM Service.found).map List.flatten = some found

lemma asked_start : r.Asked file (r.services file) [] := ⟨[], rfl, rfl⟩

lemma Asked.mem (h : r.Asked file (s :: rest) found) : s ∈ r.services file := by
  obtain ⟨asked, he, -⟩ := h
  rw [he]
  simp

/-- One more service has found something. -/
theorem Asked.next (h : r.Asked file (s :: rest) found) (hs : s.found = some ds) :
    r.Asked file rest (found ++ ds) := by
  obtain ⟨asked, he, hfound⟩ := h
  obtain ⟨dss, hdss, rfl⟩ := Option.map_eq_some_iff.1 hfound
  refine ⟨asked ++ [s], by simp [he], ?_⟩
  simp [List.mapM_append, hdss, hs]

/-- What one service found cannot be sent, and so the file has no diagnostics. -/
lemma Asked.eq_none (h : r.Asked file (s :: rest) found) (hs : s.found = none) :
    r.diagnosticsOf file = none := by
  obtain ⟨asked, he, hfound⟩ := h
  obtain ⟨dss, hdss, rfl⟩ := Option.map_eq_some_iff.1 hfound
  simp [diagnosticsOf, he, List.mapM_append, List.mapM_cons, hdss, hs]

/-- **All services were asked**, and the diagnostics of the file are found. -/
theorem Asked.finish (h : r.Asked file [] found) : r.diagnosticsOf file = some found := by
  obtain ⟨asked, he, hfound⟩ := h
  rw [diagnosticsOf, he, List.append_nil, hfound]

end Router

/-! ## Steps, stage by stage -/

namespace Run

variable {router : Router} {now n : Nat} {uri : String} {r : Run}

lemma step_cancelled (h : r.cancelled) : r.step router now = { run := none } := by
  simp [step, h]

lemma step_start (delay : Nat) : (Run.mk uri n (.spawned delay) false).step router now
    = { run := some ⟨uri, n, .waiting (now + delay), false⟩ } := rfl

lemma step_wait {due : Nat} (h : now < due) : (Run.mk uri n (.waiting due) false).step router now
    = { run := some ⟨uri, n, .waiting due, false⟩ } := by
  simp [step, h]

lemma step_fire {due : Nat} {file : Snapshot} (h : due ≤ now)
    (hfile : router.store.get? uri = some file) :
    (Run.mk uri n (.waiting due) false).step router now
      = { run := some ⟨uri, n, .asking file.version (router.services file) [], false⟩ } := by
  simp [step, fire, h, hfile]

lemma step_fire_closed {due : Nat} (h : due ≤ now) (hfile : router.store.get? uri = none) :
    (Run.mk uri n (.waiting due) false).step router now = { run := none } := by
  simp [step, fire, h, hfile]

lemma step_ask {version : Int} {s : Service} {rest : List Service} {found : List Diagnostic} :
    (Run.mk uri n (.asking version (s :: rest) found) false).step router now
      = ⟨s.found.map fun ds => ⟨uri, n, .asking version rest (found ++ ds),
          (s.adapter.validate s.document).cancels⟩, [s.call .validate], none, s.found.isNone⟩ := rfl

lemma step_publish {version : Int} {found : List Diagnostic} :
    (Run.mk uri n (.asking version [] found) false).step router now
      = { run := none, published := some ⟨now, uri, version, found⟩ } := rfl

/-- Only a live run that has asked all services publishes anything, and it ends then. -/
lemma published_eq_some {p : Publication} (h : (r.step router now).published = some p) :
    r.cancelled = false ∧ p.uri = r.uri ∧ r.stage = .asking p.version [] p.diagnostics ∧
      (r.step router now).run = none := by
  obtain ⟨uri, n, stage, cancelled⟩ := r
  cases cancelled with
  | true => simp [step] at h
  | false =>
    match stage with
    | .spawned delay => contradiction
    | .waiting due =>
      by_cases hdue : due ≤ now
      · simp [step, hdue] at h
      · simp [step, hdue] at h
    | .asking version (s :: rest) found => contradiction
    | .asking version [] found =>
      obtain rfl := Option.some.inj h
      exact ⟨rfl, rfl, rfl, rfl⟩

end Run

end Mosaic
