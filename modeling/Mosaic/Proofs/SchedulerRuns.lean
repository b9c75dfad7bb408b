import Mosaic.Proofs.RequestFates
import Mosaic.Proofs.SendableDiagnostics
import Mosaic.Server.News

/-!
# Over any operations

A scheduler works with runs, numbers and cancellations.  What it publishes over any list of
operations are nevertheless just the fates of the requests: the run that a file waits for is at
every moment that of the request that waits (`Scheduler.Tracks`).

* `Workspace.tracks_perform` — an operation keeps it so, and publishes what the request is due.
* `Workspace.performAll_fates` — and so does any list of operations.
* `each_request_once` — from the start each request leads to one publication, unless it is
  superseded or fails.
* `far_diagnostic_never_published` — a file whose request fails.
-/

namespace Mosaic

namespace Workspace

/-- The workspace before anything has happened. -/
def fresh (adapters : Registry) (delay : Nat) : Workspace :=
  { router := { adapters }, scheduler := { delay } }

/-- The workspace after an operation, and what is published. -/
def perform (w : Workspace) : Operation → Workspace × List Publication
  | .schedule uri => (w.withScheduler (·.schedule uri), [])
  | .validateNow uri => (w.withScheduler (·.validateNow uri), [])
  | .cancel uri => (w.withScheduler (·.cancel uri), [])
  | .cancelAll => (w.withScheduler (·.cancelAll), [])
  | .setDelay delay => (w.withScheduler (·.setDelay delay), [])
  | .advance duration =>
    let (scheduler, report) := w.scheduler.advance w.router duration
    ({ w with scheduler }, report.publications)
  | .store op => (w.withStore (w.router.store.perform op), [])

/-- The workspace after some operations, and what is published. -/
def performAll : List Operation → Workspace → Workspace × List Publication
  | [], w => (w, [])
  | op :: ops, w =>
    let (w, first) := w.perform op
    let (w, others) := performAll ops w
    (w, first ++ others)

end Workspace

/-! ## The run of the last request -/

/-- The run that a file waits for is that of its last request, and that request is pending. -/
inductive Scheduler.Tracks (s : Scheduler) (uri : String) : Standing → Prop
  | idle (awaits : s.Awaits uri none none) : s.Tracks uri .idle
  | failed {t : Ticket} (awaits : s.Awaits uri none (some t.number)) : s.Tracks uri (.failed t)
  | waits {r : Run} {t : Ticket} (awaits : s.Awaits uri (some r) (some t.number))
    (number : r.number = t.number) (timer : r.timer? s.now = some t.due) (due : s.now ≤ t.due) :
    s.Tracks uri (.waits t)

namespace Scheduler

variable {router : Router} {s s' : Scheduler} {uri u : String} {standing : Standing}

lemma Tracks.keep (h : s.Tracks u standing) (hnow : s'.now = s.now)
    (hawaits : ∀ o n, s.Awaits u o n → s'.Awaits u o n) : s'.Tracks u standing := by
  cases h with
  | idle awaits => exact .idle (hawaits _ _ awaits)
  | failed awaits => exact .failed (hawaits _ _ awaits)
  | waits awaits number timer due =>
    exact .waits (hawaits _ _ awaits) number (hnow ▸ timer) (hnow ▸ due)

lemma Tracks.awaits (h : s.Tracks u standing) : ∃ o, s.Awaits u o standing.number? := by
  cases h with
  | idle awaits => exact ⟨_, awaits⟩
  | failed awaits => exact ⟨_, awaits⟩
  | waits awaits => exact ⟨_, awaits⟩

/-- The pending run is that of the request. -/
lemma Tracks.pending (h : s.Tracks u standing) : s.pending[u]? = standing.number? :=
  h.awaits.choose_spec.pending

/-- A request for a file takes the place of the one before, and leaves those for others alone. -/
lemma Tracks.request (hs : s.Sound) (h : s.Tracks u standing) (uri : String) (delay : Nat) :
    (s.request uri delay).Tracks u
      (if uri = u then .waits ⟨s.issued, s.now + delay⟩ else standing) := by
  have hnow := now_request uri delay s
  by_cases he : uri = u
  · obtain ⟨o, ho⟩ := h.awaits
    have hnew := ho.request hs uri delay
    rw [if_pos he, if_pos he] at hnew
    rw [if_pos he]
    refine .waits hnew rfl ?_ ?_
    · rw [Run.timer?, hnow]
    · rw [hnow]
      exact Nat.le_add_right ..
  · rw [if_neg he]
    exact h.keep hnow fun o n ho => by simpa [he] using ho.request hs uri delay

lemma Tracks.cancel (hs : s.Sound) (h : s.Tracks u standing) (uri : String) :
    (s.cancel uri).Tracks u (if uri = u then .idle else standing) := by
  by_cases he : uri = u
  · obtain ⟨o, ho⟩ := h.awaits
    have hnew := ho.cancel hs uri
    rw [if_pos he, if_pos he] at hnew
    rw [if_pos he]
    exact .idle hnew
  · rw [if_neg he]
    exact h.keep (now_cancel uri s) fun o n ho => by simpa [he] using ho.cancel hs uri

@[simp] lemma issued_request (uri : String) (delay : Nat) (s : Scheduler) :
    (s.request uri delay).issued = s.issued + 1 := by
  simp [Scheduler.request]

lemma issued_settleAll (jobs : List (Nat × Nat)) (s : Scheduler) :
    (s.settleAll router jobs).1.issued = s.issued := by
  induction jobs generalizing s with
  | nil => rfl
  | cons j jobs ih =>
    have hfirst : (({ s with now := j.1 } : Scheduler).settle router j.2).1.issued = s.issued := by
      simp only [settle]
      split
      · rfl
      · exact (update_keeps _ _ _).2.2
    exact (ih _).trans hfirst

/-- **A request that waits is served when time reaches its due time**, or fails then; until then it
waits. -/
lemma Tracks.advance (hp : router.adapters.Patient) (hs : s.Sound) (h : s.Tracks u standing)
    (scene : Scene) (hrouter : scene.router = router) (hnow : scene.now = s.now) (duration : Nat) :
    (s.advance router duration).1.Tracks u (scene.next u (.advance duration) standing) ∧
      (s.advance router duration).2.publications.filter (·.uri = u)
        = (scene.fired u (.advance duration) standing).toList := by
  subst hrouter
  cases h with
  | idle awaits =>
    obtain ⟨hnone, hpub⟩ := awaits.advance_none scene.router hs duration
    rw [Scene.next_idle rfl]
    exact ⟨.idle hnone, hpub⟩
  | failed awaits =>
    obtain ⟨hnone, hpub⟩ := awaits.advance_none scene.router hs duration
    rw [Scene.next_failed _ rfl]
    exact ⟨.failed hnone, hpub⟩
  | @waits r t awaits number timer due =>
    obtain ⟨hleft, hpub⟩ := awaits.advance hp hs timer due duration
    rw [Scene.next_waits _ rfl, hpub]
    simp only [Scene.fired, Scene.reaches, hnow, decide_eq_true_eq]
    by_cases hdue : t.due ≤ s.now + duration
    · rw [if_pos hdue, if_pos hdue, if_pos hdue]
      refine ⟨?_, rfl⟩
      cases hfails : scene.router.failsOn u with
      | true =>
        rw [if_pos hdue, if_neg (by simp [hfails]), number] at hleft
        exact .failed hleft
      | false =>
        rw [if_pos hdue, if_pos ⟨hdue, hfails⟩] at hleft
        exact .idle hleft
    · rw [if_neg hdue, if_neg (fun h => hdue h.1), number] at hleft
      rw [if_neg hdue, if_neg hdue, if_neg hdue]
      exact ⟨.waits hleft rfl rfl (Nat.le_of_lt (Nat.not_le.1 hdue)), rfl⟩

end Scheduler

/-! ## Operations one after the other -/

namespace Workspace

variable {w : Workspace} {uri : String} {standing : Standing}

/-- What is known of a workspace without looking at runs. -/
def scene (w : Workspace) : Scene :=
  ⟨w.router, w.scheduler.now, w.scheduler.delay, w.scheduler.issued⟩

lemma scene_perform (w : Workspace) (op : Operation) :
    (w.perform op).1.scene = w.scene.after op := by
  have request (uri : String) (delay : Nat) :
      (w.withScheduler (·.request uri delay)).scene
        = { w.scene with issued := w.scene.issued + 1 } := by
    simp only [scene, withScheduler, Scheduler.now_request, Scheduler.delay_request,
      Scheduler.issued_request]
  cases op with
  | schedule uri => exact request uri w.scheduler.delay
  | validateNow uri => exact request uri 0
  | cancel uri =>
    simp only [perform, scene, withScheduler, Scene.after, Scheduler.now_cancel,
      Scheduler.delay_cancel, Scheduler.issued_cancel]
  | cancelAll =>
    simp only [perform, scene, withScheduler, Scene.after, Scheduler.cancelAll,
      Scheduler.cancelRuns_eq]
  | setDelay delay => rfl
  | advance duration =>
    simp only [perform, scene, Scene.after, Scheduler.advance, Scheduler.delay_settleAll,
      Scheduler.issued_settleAll]
  | store op => rfl

lemma sound_perform (h : w.scheduler.Sound) (op : Operation) :
    (w.perform op).1.scheduler.Sound := by
  cases op with
  | schedule uri => exact h.request uri _
  | validateNow uri => exact h.request uri 0
  | cancel uri => exact h.cancel uri
  | cancelAll => exact h.cancelAll
  | setDelay delay => exact ⟨h.nodup, h.issued, h.live, h.pending⟩
  | advance duration => exact h.advance duration
  | store op => exact h

/-- **The run that a file waits for is always that of the last request**, and nothing is published
of the file but when that request is due. -/
theorem tracks_perform (hp : w.router.adapters.Patient) (hs : w.scheduler.Sound)
    (h : w.scheduler.Tracks uri standing) (op : Operation) :
    (w.perform op).1.scheduler.Tracks uri (w.scene.next uri op standing) ∧
      (w.perform op).2.filter (·.uri = uri) = (w.scene.fired uri op standing).toList := by
  -- nothing but the passing of time publishes anything
  have hquiet (h : ∀ due, w.scene.reaches due op = false) :
      [] = (w.scene.fired uri op standing).toList := by rw [Scene.fired_eq_none standing h]; rfl
  cases op with
  | schedule u =>
    refine ⟨?_, hquiet fun _ => rfl⟩
    rw [Scene.next_request standing rfl rfl fun _ => rfl]
    exact h.request hs u w.scheduler.delay
  | validateNow u =>
    refine ⟨?_, hquiet fun _ => rfl⟩
    rw [Scene.next_request standing rfl rfl fun _ => rfl]
    exact h.request hs u 0
  | cancel u =>
    refine ⟨?_, hquiet fun _ => rfl⟩
    have hnext : w.scene.next uri (.cancel u) standing = if u = uri then .idle else standing := by
      by_cases hu : u = uri
      · simp [Scene.next, Operation.supersedes, Scene.ticket?, Operation.wait?, hu]
      · rw [if_neg hu, Scene.next_eq_self standing (by simp [Operation.supersedes, hu])
          fun _ => rfl]
    rw [hnext]
    exact h.cancel hs u
  | cancelAll => exact ⟨.idle (.cancelAll hs uri), hquiet fun _ => rfl⟩
  | setDelay delay =>
    refine ⟨?_, hquiet fun _ => rfl⟩
    rw [Scene.next_eq_self standing rfl fun _ => rfl]
    exact h.keep rfl fun o n ho => ⟨ho.live, ho.pending, ho.numbered⟩
  | advance duration => exact h.advance hp hs w.scene rfl rfl duration
  | store op =>
    refine ⟨?_, hquiet fun _ => rfl⟩
    rw [Scene.next_eq_self standing rfl fun _ => rfl]
    exact h

lemma adapters_perform (w : Workspace) (op : Operation) :
    (w.perform op).1.router.adapters = w.router.adapters := by
  cases op <;> rfl

lemma performAll_cons (w : Workspace) (op : Operation) (ops : List Operation) :
    w.performAll (op :: ops) = (((w.perform op).1.performAll ops).1,
      (w.perform op).2 ++ ((w.perform op).1.performAll ops).2) := rfl

/-- **Over any operations what is published of a file are the fates of the requests for it**, and
what is pending is the request that waits, or that has failed and was not taken back. -/
theorem performAll_fates (hp : w.router.adapters.Patient) (hs : w.scheduler.Sound)
    (h : w.scheduler.Tracks uri standing) (ops : List Operation) :
    (w.performAll ops).2.filter (·.uri = uri)
        = (w.scene.fatesFrom uri standing ops).filterMap (·.2.published?) ∧
      ∃ last, (w.performAll ops).1.scheduler.Tracks uri last ∧ ∀ x,
        ((x, .waiting) ∈ w.scene.fatesFrom uri standing ops ↔ last = .waits x) ∧
        ((x, .failed true) ∈ w.scene.fatesFrom uri standing ops ↔ last = .failed x) := by
  induction ops generalizing w standing with
  | nil =>
    refine ⟨?_, standing, h, fun x => ?_⟩
    · cases standing <;> rfl
    · cases standing <;> simp [Scene.fatesFrom, Scene.lastFate, Scene.fates, Scene.fate, eq_comm]
  | cons op ops ih =>
    obtain ⟨hnext, hpub⟩ := tracks_perform hp hs h op
    obtain ⟨hpubs, last, hlast, hpending⟩ :=
      ih (by rwa [adapters_perform]) (sound_perform hs op) hnext
    rw [scene_perform] at hpubs hpending
    rw [performAll_cons]
    refine ⟨?_, last, hlast, fun x => ?_⟩
    · rw [List.filter_append, hpub, hpubs, Scene.fatesFrom_cons, List.filterMap_append,
        Scene.published_ended]
    · rw [Scene.fatesFrom_cons, List.mem_append, List.mem_append, Option.mem_toList,
        Option.mem_toList, (hpending x).1.symm, (hpending x).2.symm]
      exact ⟨or_iff_right fun h => (Scene.ended_ne_pending standing h).1 rfl,
        or_iff_right fun h => (Scene.ended_ne_pending standing h).2 rfl⟩

/-! ## From the start -/

section Start

variable (adapters : Registry) (delay : Nat)

lemma filed_fresh : (fresh adapters delay).router.store.Filed := by
  intro uri file h
  simp [fresh, Store.get?] at h

lemma sound_fresh : (fresh adapters delay).scheduler.Sound := by
  refine ⟨List.nodup_nil, nofun, nofun, fun uri n h => ?_⟩
  simp [fresh] at h

lemma tracks_fresh (uri : String) : (fresh adapters delay).scheduler.Tracks uri .idle :=
  .idle ⟨fun r => ⟨fun h => absurd h.1 (by simp [fresh]), nofun⟩, by simp [fresh], nofun⟩

end Start

end Workspace

/-- **Each request leads to one publication, unless it is superseded.**  Whatever operations there
are,
* what is published of a file are the publications of the requests for it, in the order of the
  requests, each at the time when it was to be served, with what was open then;
* what is pending is the request that waits, or one that has failed and was not taken back;
* operations on other files have no part in it;
* an open file has something to be published, unless a service for one of its attribute values
  marks a place that cannot be sent: the request fails then.  None does if all adapters stay in
  their texts, and the file has less than 4 GiB. -/
theorem each_request_once (adapters : Registry) (delay : Nat) (ops : List Operation) (uri : String)
    (hpatient : adapters.Patient) :
    let start := Workspace.fresh adapters delay
    let fates := start.scene.fates uri ops
    let published := (start.performAll ops).2.filter (·.uri = uri)
    let router := (start.scene.afterAll ops).router
    published = fates.filterMap (·.2.published?) ∧
    (∀ n, (start.performAll ops).1.scheduler.pending[uri]? = some n ↔
      ∃ due, (⟨n, due⟩, .waiting) ∈ fates ∨ (⟨n, due⟩, .failed true) ∈ fates) ∧
    published = (start.performAll (ops.filter (·.concerns uri))).2.filter (·.uri = uri) ∧
    (∀ file, router.store.get? uri = some file →
      (∀ time, router.publication? uri time
        = (router.diagnosticsOf file).map (⟨time, uri, file.version, ·⟩)) ∧
      (router.failsOn uri ↔ ∃ s ∈ router.services file, s.MarksFar) ∧
      (adapters.StaysIn → Text.bytes file.text < wordLimit → ¬ router.failsOn uri)) := by
  intro start fates published router
  have hfiled : start.scene.router.store.Filed := Workspace.filed_fresh adapters delay
  have hfates (ops : List Operation) := Workspace.performAll_fates (w := start) hpatient
    (Workspace.sound_fresh adapters delay) (Workspace.tracks_fresh adapters delay uri) ops
  obtain ⟨hpublished, last, htracks, hlast⟩ := hfates ops
  refine ⟨hpublished, fun n => ?_, ?_, fun file hfile => ?_⟩
  · have hwaits (x : Ticket) : (x, .waiting) ∈ fates ↔ last = .waits x := (hlast x).1
    have hfailed (x : Ticket) : (x, .failed true) ∈ fates ↔ last = .failed x := (hlast x).2
    rw [htracks.pending]
    simp only [hwaits, hfailed]
    cases last with
    | idle => simp [Standing.number?]
    | waits t => exact ⟨fun h => ⟨t.due, .inl (by rw [← Option.some.inj h])⟩, by
        rintro ⟨due, h | h⟩ <;> cases h
        rfl⟩
    | failed t => exact ⟨fun h => ⟨t.due, .inr (by rw [← Option.some.inj h])⟩, by
        rintro ⟨due, h | h⟩ <;> cases h
        rfl⟩
  · have halike : start.scene.Alike uri start.scene := ⟨hfiled, hfiled, rfl, rfl, rfl, rfl, rfl⟩
    have hsame (fates : List (Ticket × Fate)) : fates.filterMap (·.2.published?)
        = (fates.map Prod.snd).filterMap Fate.published? := by
      rw [List.filterMap_map]
      rfl
    calc published
        = (fates.map Prod.snd).filterMap Fate.published? := hpublished.trans (hsame _)
      _ = ((start.scene.fates uri (ops.filter (·.concerns uri))).map Prod.snd).filterMap
            Fate.published? := by rw [halike.fates_filter ops]
      _ = _ := ((hfates _).1.trans (hsame _)).symm
  · have hadapters : router.adapters = adapters := Scene.adapters_afterAll start.scene ops
    have hpatient : router.adapters.Patient := hadapters.symm ▸ hpatient
    obtain ⟨options, language, version, text, rfl⟩ := Scene.filed_afterAll hfiled ops uri file hfile
    have hfails := Router.failsOn_open hpatient hfile
    refine ⟨fun time => Router.publication?_open time hpatient hfile, ?_, fun hstays hsize => ?_⟩
    · rw [hfails, Option.isNone_iff_eq_none, Router.diagnosticsOf_eq_none_iff]
    · obtain ⟨ds, hds⟩ : ∃ ds,
          router.diagnosticsOf (.ofText options uri language version text) = some ds :=
        Router.exists_diagnostics (hadapters.symm ▸ hstays) hsize
      rw [hfails, hds]
      exact Bool.false_ne_true

/-- A file that was asked for three times: before a change, after it, and just before it was
closed. -/
theorem each_request_once_three_requests :
    let marker : Adapter :=
      { id := "css"
        validate := fun e => ⟨.ok [⟨⟨⟨0, 0⟩, ⟨0, 1⟩⟩, String.ofList e.text, none, none, none, []⟩],
          false⟩ }
    let adapters := ({} : Registry).register marker
    let ops : List Operation :=
      [.store (.openFile "file:///a" "sfc" 1 "<style>a{}</style>".toList), .schedule "file:///a",
        .advance 100, .store (.change "file:///a" 2 [⟨none, "<style>b{}</style>".toList⟩]),
        .schedule "file:///a", .setDelay 50, .validateNow "file:///b", .advance 300,
        .schedule "file:///a", .store (.close "file:///a"), .advance 50]
    adapters.Patient ∧
      (((Workspace.fresh adapters 300).performAll ops).2.filter (·.uri = "file:///a")).map
          (fun p => (p.time, p.version, p.diagnostics.map (·.message)))
        = [(400, 2, ["b{}"])] := by
  intro marker adapters ops
  have hpatient : adapters.Patient := Registry.patient_empty.register fun _ => rfl
  refine ⟨hpatient, ?_⟩
  rw [(each_request_once adapters 300 ops "file:///a" hpatient).1]
  decide +kernel

/-- A style attribute, and a diagnostic far behind its end.  The file is open when its request is
due, and yet nothing is published; the request stays pending. -/
theorem far_diagnostic_never_published :
    let far : Adapter :=
      { id := "css"
        validate := fun _ =>
          ⟨.ok [⟨⟨⟨0, 0⟩, ⟨0, wordLimit - 1⟩⟩, "far", none, none, none, []⟩], false⟩ }
    let start := Workspace.fresh (({} : Registry).register far) 300
    let text := "<p style=\"a:b\"/>".toList
    let ops : List Operation :=
      [.store (.openFile "file:///a" "sfc" 1 text), .schedule "file:///a", .advance 300]
    start.router.adapters.Patient ∧
      start.scene.fates "file:///a" ops = [(⟨0, 300⟩, .failed true)] ∧
      ((start.performAll ops).1.router.store.get? "file:///a").map (·.text) = some text ∧
      (start.performAll ops).1.scheduler.pending["file:///a"]? = some 0 ∧
      (start.performAll ops).2.filter (·.uri = "file:///a") = [] := by
  intro far start text ops
  have hpatient : start.router.adapters.Patient := Registry.patient_empty.register fun _ => rfl
  have hfails : (start.scene.afterAll ops).router.failsOn "file:///a" := by decide +kernel
  have houtcome : (start.scene.afterAll ops).outcome "file:///a" 300 [] = .failed true :=
    if_pos hfails
  have hfates : start.scene.fates "file:///a" ops = [(⟨0, 300⟩, .failed true)] := by
    simp only [ops, Scene.fates, Scene.ticket?, Operation.wait?, if_pos, Option.map_some,
      Option.map_none, Option.toList_none, Option.toList_some, List.nil_append, List.append_nil]
    rw [Scene.fate, if_neg (by simp [Operation.supersedes]), if_pos (by decide)]
    exact congrArg (fun fate => [((⟨0, 300⟩ : Ticket), fate)]) houtcome
  obtain ⟨hpublished, last, htracks, hlast⟩ := Workspace.performAll_fates hpatient
    (Workspace.sound_fresh _ 300) (Workspace.tracks_fresh _ 300 "file:///a") ops
  have hfrom : start.scene.fatesFrom "file:///a" .idle ops = [(⟨0, 300⟩, .failed true)] := hfates
  refine ⟨hpatient, hfates, by decide +kernel, ?_, ?_⟩
  · rw [hfrom] at hlast
    rw [htracks.pending, (hlast ⟨0, 300⟩).2.1 (by simp)]
    rfl
  · rw [hpublished, hfrom]
    rfl

end Mosaic
