import Mosaic.Proofs.PassingTime
import Mosaic.Proofs.SendableDiagnostics

/-!
# The client is up to date

Whatever is told of files, and in whatever order time passes and runs take their steps, the client
never gets diagnostics of a text that is not the open one; and once the news have paused for the
delay, it has the diagnostics of all open files, and none of those that were closed.

* `Workspace.Serves` — what the client has then.
* `Workspace.Current.lastPublished_closed`, `Workspace.Current.lastPublished_open` — what was
  published last of a closed file, and of an open one when no run is left.
* `Workspace.client_up_to_date` — all of this, after any events.
* `Workspace.client_left_behind` — runs that are started late, and diagnostics that cannot be sent.
-/

namespace Mosaic

open Text

/-- Among the events the file is closed, and no later one opens it. -/
def ClosedIn (uri : String) (events : List Event) : Prop :=
  ∃ before after, events = before ++ .news (.closed uri) :: after ∧
    ∀ language version text, .news (.opened uri language version text) ∉ after

lemma ClosedIn.quiet {uri : String} {events after : List Event} (h : ClosedIn uri events)
    (hquiet : ∀ e ∈ after, e.IsQuiet) : ClosedIn uri (events ++ after) := by
  obtain ⟨first, rest, rfl, hopen⟩ := h
  refine ⟨first, rest ++ after, by simp, fun language version text hmem => ?_⟩
  rcases List.mem_append.1 hmem with hmem | hmem
  · exact hopen language version text hmem
  · exact hquiet _ hmem

/-- What was told of a file once is followed by something told of it last. -/
lemma lastPublished_ne_none {uri : String} {version : Option Int} {ds : List Diagnostic}
    {log : List Notification} (h : .publish uri version ds ∈ log) :
    lastPublished uri log ≠ none := by
  intro hnone
  rw [lastPublished, List.findSome?_eq_none_iff] at hnone
  simpa [Notification.of?] using hnone _ (List.mem_reverse.2 h)

namespace Workspace

variable {w v : Workspace} {uri : String} {last : String → Option (Option Int × List Diagnostic)}

/-- Of every open file the diagnostics of its text were published last, with its version, and of
every file that was closed in the events none. -/
structure Serves (v : Workspace) (events : List Event) (log : List Notification) : Prop where
  opened : ∀ uri file ds, v.router.store.get? uri = some file →
    (v.router.diagnostics uri false).result = .ok ds →
    lastPublished uri log = some (some file.version, ds)
  closed : ∀ uri, ClosedIn uri events → lastPublished uri log = some (none, [])

/-! ## Closed files -/

/-- Only the news that it was opened make a closed file an open one. -/
lemma Current.get?_take (h : Current w last) {event : Event}
    (hclosed : w.router.store.get? uri = none)
    (hevent : ∀ language version text, event ≠ .news (.opened uri language version text)) :
    (w.take event).1.router.store.get? uri = none := by
  match event with
  | .pass _ => exact hclosed
  | .step number =>
    simp only [Workspace.take, Workspace.stepRun]
    split <;> exact hclosed
  | .news (.opened other language version text) =>
    have hne : other ≠ uri := fun he => hevent language version text (he ▸ rfl)
    exact (Store.get?_put _ _ _).trans ((if_neg hne).trans hclosed)
  | .news (.closed other) =>
    refine (Store.get?_close _ other uri).trans ?_
    rw [hclosed, ite_self]
  | .news (.changed other version changes) =>
    simp only [Workspace.take, Workspace.hear]
    cases hchange : w.router.store.change other version changes with
    | error e => exact hclosed
    | ok store =>
      obtain ⟨file, hfile, rfl⟩ := Store.change_ok hchange
      have huri : file.uri = other := h.filed.uri_eq hfile
      have hne : file.uri ≠ uri := by
        rintro rfl
        rw [← huri, hclosed] at hfile
        contradiction
      exact (Store.get?_put _ _ _).trans ((if_neg hne).trans hclosed)
  | .news (.saved other) =>
    simp only [Workspace.take, Workspace.hear]
    cases hsave : w.router.store.save other with
    | error e => exact hclosed
    | ok store => exact (congrFun (Store.save_ok hsave) uri).trans hclosed
  | .news (.watched changes) =>
    obtain ⟨store, hstore, hget⟩ := hearAllOutside_fst changes w
    simp only [Workspace.take, Workspace.hear, hstore]
    exact (congrFun hget uri).trans hclosed

lemma Current.get?_play (h : Current w last) (hp : w.router.adapters.Patient) {events : List Event}
    (hclosed : w.router.store.get? uri = none)
    (hevents : ∀ language version text, .news (.opened uri language version text) ∉ events) :
    (w.play events).1.router.store.get? uri = none := by
  induction events generalizing w last with
  | nil => exact hclosed
  | cons event rest ih =>
    have hevent (language : String) (version : Int) (text : Text) :
        event ≠ .news (.opened uri language version text) :=
      fun he => hevents language version text (by simp [he])
    have hnext : (w.take event).1.router.adapters.Patient := by rwa [adapters_take]
    refine ih (h.take hp event) hnext (h.get?_take hclosed hevent) ?_
    exact fun language version text hmem => hevents language version text (by simp [hmem])

/-- **Of a closed file nothing is published** until it is opened again. -/
theorem Current.lastPublished_closed (h : Current w fun _ => none)
    (hp : w.router.adapters.Patient) {events : List Event} (hclosed : ClosedIn uri events) :
    lastPublished uri (w.play events).2 = some (none, []) := by
  obtain ⟨before, after, rfl, hopen⟩ := hclosed
  have hadapters := adapters_play w before
  have hclose := (h.play hp before).take (by rwa [hadapters]) (.news (.closed uri))
  have hnone := hclose.get?_play (by rwa [adapters_take, hadapters])
    ((Store.get?_close _ uri uri).trans (if_pos rfl)) hopen
  have htold : .publish uri none [] ∈ (w.play (before ++ .news (.closed uri) :: after)).2 := by
    simp [play_append, play_cons, Workspace.take, Workspace.hear]
  have hlast := (h.play hp (before ++ .news (.closed uri) :: after)).closed uri (by
    rw [play_append, play_cons]
    exact hnone)
  rw [publishedAfter_none] at hlast
  exact hlast.resolve_left (lastPublished_ne_none htold)

/-! ## Open files -/

lemma delay_take (w : Workspace) (event : Event) :
    (w.take event).1.scheduler.delay = w.scheduler.delay := by
  match event with
  | .pass _ => rfl
  | .step number =>
    simp only [take, stepRun]
    split
    · rfl
    next r hfind =>
      exact (Scheduler.update_keeps _ _ _).2.1
  | .news (.opened other language version text) => exact Scheduler.delay_request _ _ _
  | .news (.closed other) => exact Scheduler.delay_cancel _ _
  | .news (.changed other version changes) =>
    simp only [take, hear]
    split
    · exact Scheduler.delay_request _ _ _
    · rfl
  | .news (.saved other) =>
    simp only [take, hear]
    split <;> rfl
  | .news (.watched changes) =>
    obtain ⟨store, hstore, -⟩ := hearAllOutside_fst changes w
    simp only [take, hear, hstore]
    exact Scheduler.delay_schedules _ _

lemma delay_play (w : Workspace) (events : List Event) :
    (w.play events).1.scheduler.delay = w.scheduler.delay := by
  induction events generalizing w with
  | nil => rfl
  | cons event rest ih => rw [play_cons, ih, delay_take]

/-- **If no run is left, the client has the diagnostics of every open file.** -/
theorem Current.lastPublished_open (h : Current w last) (hp : w.router.adapters.Patient)
    (hruns : w.scheduler.runs = []) {file : Snapshot} {ds : List Diagnostic}
    (hfile : w.router.store.get? uri = some file)
    (hds : (w.router.diagnostics uri false).result = .ok ds) :
    last uri = some (some file.version, ds) := by
  rw [Router.diagnostics_eq_ok_iff hp hfile] at hds
  rcases h.covered uri file hfile with ⟨r, hr, -⟩ | hlast
  · rw [hruns] at hr
    contradiction
  · exact hlast ds hds

/-- If no run is left after a pause, the client has what it should have. -/
lemma serves_of_runs_eq_nil {adapters : Registry} {settings : Settings}
    (hp : adapters.Patient) {events after : List Event} (hquiet : ∀ e ∈ after, e.IsQuiet)
    {more : List Notification}
    (hplay : ((begun adapters settings).play events).1.play after = (v, more))
    (hruns : v.scheduler.runs = []) :
    v.Serves events (((begun adapters settings).play events).2 ++ more) := by
  have hbegun := current_begun adapters settings
  have hall : (begun adapters settings).play (events ++ after)
      = (v, ((begun adapters settings).play events).2 ++ more) := by
    rw [play_append, hplay]
  have hv := hbegun.play hp (events ++ after)
  have hadapters := adapters_play (begun adapters settings) (events ++ after)
  rw [hall] at hv hadapters
  refine ⟨fun uri file ds hfile hds => ?_, fun uri hclosed => ?_⟩
  · have hpv : v.router.adapters.Patient := hadapters.symm ▸ hp
    have hlast := hv.lastPublished_open hpv hruns hfile hds
    rwa [publishedAfter_none] at hlast
  · have hlast := hbegun.lastPublished_closed hp (hclosed.quiet hquiet)
    rwa [hall] at hlast

/-- **The client is never told of an old text, and it is up to date once the news have paused.**
Whatever has happened,
* what a run publishes is of the open snapshot of its file, with its version;
* after a pause that lasts for the delay since all live runs were started, when no run has anything
  left to do, the client has the diagnostics of all open files and none of those that were closed;
* and so it has when the server lets time pass for the delay or longer;
* an open file has diagnostics, unless a service for one of its attribute values marks a place that
  cannot be sent.  None does if all adapters stay in their texts, and the file has less than
  4 GiB. -/
theorem client_up_to_date (adapters : Registry) (settings : Settings) (events : List Event)
    (hpatient : adapters.Patient) :
    let w := ((begun adapters settings).play events).1
    let log := ((begun adapters settings).play events).2
    (∀ number p, (w.stepRun number).2 = some p → ∃ file,
      w.router.store.get? p.uri = some file ∧ file.version = p.version ∧
      (w.router.diagnostics p.uri false).result = .ok p.diagnostics) ∧
    (∀ after, (∀ e ∈ after, e.IsQuiet) →
      (∀ r ∈ w.scheduler.runs, r.cancelled = false → r.Started) →
      let v := (w.play after).1
      w.scheduler.now + settings.delay ≤ v.scheduler.now → v.Idle →
      v.Serves events (log ++ (w.play after).2)) ∧
    (∀ duration, settings.delay ≤ duration →
      (w.advance duration).1.Serves events (log ++ (w.advance duration).2.notifications)) ∧
    (∀ uri file, w.router.store.get? uri = some file →
      ((∃ ds, (w.router.diagnostics uri false).result = .ok ds) ↔
        ∀ s ∈ w.router.services file, ¬ s.MarksFar) ∧
      (adapters.StaysIn → bytes file.text < wordLimit →
        ∃ ds, (w.router.diagnostics uri false).result = .ok ds)) := by
  intro w log
  have hbegun := current_begun adapters settings
  have hadapters : w.router.adapters = adapters := adapters_play _ events
  have hp : w.router.adapters.Patient := hadapters ▸ hpatient
  have hdelay : w.scheduler.delay = settings.delay := delay_play _ events
  have hcurrent : Current w (publishedAfter log fun _ => none) := hbegun.play hpatient events
  refine ⟨fun number p hpub => ?_, ?_, fun duration hduration => ?_, fun uri file hfile => ?_⟩
  · obtain ⟨file, hfile, hversion, hds⟩ := hcurrent.published hpub
    exact ⟨file, hfile, hversion, (Router.diagnostics_eq_ok_iff hp hfile).2 hds⟩
  · intro after hquiet hstarted v htime hidle
    refine serves_of_runs_eq_nil hpatient hquiet rfl ?_
    have hplays : w.Plays v (w.play after).2 := ⟨after, hquiet, rfl⟩
    have hsound := (hplays.current hcurrent hp).sound
    have hfires := hplays.startedBy fun r hr hlive => hcurrent.startedBy hr (hstarted r hr hlive)
    rw [hdelay] at hfires
    exact runs_eq_nil (fun r hr hlive => (hfires r hr hlive).mono htime) (hidle.waits hsound)
  · obtain ⟨after, hquiet, hplay⟩ := plays_advance hcurrent hp duration
    have hruns := advance_ends hcurrent hp (hdelay.trans_le hduration)
    exact serves_of_runs_eq_nil hpatient hquiet hplay hruns
  · refine ⟨Router.exists_diagnostics_iff hp hfile, fun hstays hsize => ?_⟩
    obtain ⟨options, language, version, text, rfl⟩ := hcurrent.filed uri file hfile
    obtain ⟨ds, hds⟩ := Router.exists_diagnostics (r := w.router) (hadapters ▸ hstays) hsize
    exact ⟨ds, (Router.diagnostics_eq_ok_iff hp hfile).2 hds⟩

/-- A file that was changed after it had been opened, and another one that was closed. -/
theorem client_up_to_date_after_change :
    let marker : Adapter :=
      { id := "css"
        validate := fun e => ⟨.ok [⟨⟨⟨0, 0⟩, ⟨0, 1⟩⟩, String.ofList e.text, none, none, none, []⟩],
          false⟩ }
    let adapters := ({} : Registry).register marker
    let events : List Event :=
      [.news (.opened "file:///a" "sfc" 1 "<style>a{}</style>".toList),
        .news (.opened "file:///b" "sfc" 1 []), .news (.closed "file:///b"),
        .news (.changed "file:///a" 2 [⟨none, "<style>b{}</style>".toList⟩])]
    let w := ((begun adapters {}).play events).1
    let log := ((begun adapters {}).play events).2 ++ (w.advance 300).2.notifications
    adapters.Patient ∧ lastPublished "file:///b" log = some (none, []) ∧
      ∃ ds, lastPublished "file:///a" log = some (some 2, ds) ∧
        ds.map (fun d => (d.range, d.message)) = [(⟨⟨0, 7⟩, ⟨0, 8⟩⟩, "b{}")] := by
  intro marker adapters events
  have hpatient : adapters.Patient := Registry.patient_empty.register fun _ => rfl
  have hserves := (client_up_to_date adapters {} events hpatient).2.2.1 300 (by decide)
  have hclosed : ClosedIn "file:///b" events := ⟨[_, _], [_], rfl, by simp⟩
  have hfile : (((begun adapters {}).play events).1.advance 300).1.router.store.get? "file:///a"
      = some (.ofText {} "file:///a" "sfc" 2 "<style>b{}</style>".toList) := by decide +kernel
  have hanswer : ((((begun adapters {}).play events).1.advance 300).1.router.diagnostics "file:///a"
      false).result.toOption.map (·.map fun d => (d.range, d.message))
        = some [(⟨⟨0, 7⟩, ⟨0, 8⟩⟩, "b{}")] := by decide +kernel
  dsimp only
  generalize (((begun adapters {}).play events).1.advance 300).1 = v at hserves hfile hanswer ⊢
  have hlast (ds : List Diagnostic) := hserves.opened "file:///a" _ ds hfile
  cases hds : (v.router.diagnostics "file:///a" false).result with
  | error e =>
    rw [hds] at hanswer
    contradiction
  | ok ds =>
    rw [hds] at hanswer
    exact ⟨hpatient, hserves.closed "file:///b" hclosed, ds, hlast ds hds, Option.some.inj hanswer⟩

/-- A run that is started late sets its timer late: though the news have paused for the delay, the
client has the diagnostics of the text before.  And of a file whose diagnostics cannot be sent it
has none, though no run is left. -/
theorem client_left_behind :
    let marker : Adapter :=
      { id := "css"
        validate := fun e => ⟨.ok [⟨⟨⟨0, 0⟩, ⟨0, 1⟩⟩, String.ofList e.text, none, none, none, []⟩],
          false⟩ }
    let late : List Event :=
      [.news (.opened "file:///a" "sfc" 1 "<style>a{}</style>".toList),
        .step 0, .step 0, .step 0, .step 0,
        .news (.changed "file:///a" 2 [⟨none, "<style>b{}</style>".toList⟩]), .pass 300, .step 1]
    let far : Adapter :=
      { id := "css"
        validate := fun _ =>
          ⟨.ok [⟨⟨⟨0, 0⟩, ⟨0, wordLimit - 1⟩⟩, "far", none, none, none, []⟩], false⟩ }
    let opened : List Event :=
      [.news (.opened "file:///a" "sfc" 1 "<p style=\"a:b\"/>".toList),
        .step 0, .step 0, .step 0, .pass 300]
    (let adapters := ({} : Registry).register marker
      let w := ((begun adapters {}).play late).1
      let log := ((begun adapters {}).play late).2
      adapters.Patient ∧ w.scheduler.delay = 300 ∧ w.scheduler.now = 300 ∧
        w.scheduler.runs.map (fun r => (r.number, r.due?)) = [(1, some 600)] ∧
        (w.router.store.get? "file:///a").map (·.version) = some 2 ∧
        (lastPublished "file:///a" log).map (fun last => (last.1, last.2.map (·.message)))
          = some (some 1, ["a{}"])) ∧
    (let adapters := ({} : Registry).register far
      let w := ((begun adapters {}).play opened).1
      let log := ((begun adapters {}).play opened).2
      adapters.Patient ∧ w.scheduler.delay = 300 ∧ w.scheduler.now = 300 ∧
        w.scheduler.runs.map (·.number) = [] ∧
        (w.router.store.get? "file:///a").map (·.version) = some 1 ∧
        (lastPublished "file:///a" log).map (·.1) = none) :=
  ⟨⟨Registry.patient_empty.register fun _ => rfl, by decide +kernel⟩,
    Registry.patient_empty.register fun _ => rfl, by decide +kernel⟩

end Workspace

end Mosaic
