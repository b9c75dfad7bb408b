import Mosaic.Proofs.OpenFiles
import Mosaic.Proofs.PendingRuns
import Mosaic.Proofs.ValidationRun
import Mosaic.Server.Lifecycle

/-!
# News, time and validation in any order

Between two steps of a run of validation anything can happen: news of files, the passing of time,
steps of other runs.  An `Event` is one of these, `Workspace.play` takes a list of them in the order
given, and `lastPublished` is what the client then has of a file.

`Workspace.Current` is what holds in any order: each open file has a live run that will publish its
diagnostics, or the client has them; a run that has started to ask works on the open snapshot; and
of a file that is not open the client has no diagnostics.

* `Workspace.Current.take`, `Workspace.Current.play` — no event breaks this, and so no list of
  events.
* `Workspace.Current.published` — what a run publishes is of the open snapshot of its file.
* `Server.handleWith_news` — the events are what happens to the workspace of a running server.
-/

namespace Mosaic

/-! ## Events -/

/-- Something that happens to a workspace. -/
inductive Event where
  | news (n : News)
  /-- Time passes. -/
  | pass (duration : Nat)
  /-- The run with the given number takes its next step. -/
  | step (number : Nat)

namespace Workspace

/-- One step of the run with the given number, if there is one. -/
def stepRun (number : Nat) (w : Workspace) : Workspace × Option Publication :=
  match w.scheduler.runs.find? (·.number = number) with
  | none => (w, none)
  | some r =>
    let p := r.step w.router w.scheduler.now
    (w.withScheduler (·.update r p), p.published)

/-- What the client is told of some publications. -/
def told (published : List Publication) : List Notification :=
  published.map fun p => .publish p.uri (some p.version) p.diagnostics

/-- The workspace after an event, and what the client is told. -/
def take (w : Workspace) : Event → Workspace × List Notification
  | .news n => ((w.hear n).1, (w.hear n).2.notifications)
  | .pass duration => (w.withScheduler fun s => { s with now := s.now + duration }, [])
  | .step number => ((w.stepRun number).1, told (w.stepRun number).2.toList)

/-- The workspace after some events, and what the client is told. -/
def play : List Event → Workspace → Workspace × List Notification
  | [], w => (w, [])
  | event :: rest, w =>
    let (w, first) := w.take event
    let (w, others) := play rest w
    (w, first ++ others)

end Workspace

/-- What a notification says of the diagnostics of a file. -/
def Notification.of? (uri : String) : Notification → Option (Option Int × List Diagnostic)
  | .publish file version diagnostics => if file = uri then some (version, diagnostics) else none
  | .log _ => none

/-- The version and the diagnostics of a file that were published last. -/
def lastPublished (uri : String) (log : List Notification) :
    Option (Option Int × List Diagnostic) :=
  log.reverse.findSome? (·.of? uri)

/-- What was published last after some more notifications. -/
def publishedAfter (log : List Notification) (last : String → Option (Option Int × List Diagnostic))
    (uri : String) : Option (Option Int × List Diagnostic) :=
  (lastPublished uri log).or (last uri)

@[simp] lemma publishedAfter_nil (last : String → Option (Option Int × List Diagnostic)) :
    publishedAfter [] last = last := rfl

lemma publishedAfter_none (log : List Notification) (uri : String) :
    publishedAfter log (fun _ => none) uri = lastPublished uri log := Option.or_none

lemma publishedAfter_append (a b : List Notification)
    (last : String → Option (Option Int × List Diagnostic)) :
    publishedAfter (a ++ b) last = publishedAfter b (publishedAfter a last) := by
  funext uri
  simp [publishedAfter, lastPublished, Option.or_assoc]

lemma publishedAfter_publish (uri : String) (version : Option Int) (ds : List Diagnostic)
    (last : String → Option (Option Int × List Diagnostic)) (u : String) :
    publishedAfter [.publish uri version ds] last u
      = if uri = u then some (version, ds) else last u := by
  by_cases h : uri = u <;> simp [publishedAfter, lastPublished, Notification.of?, h]

/-! ## What holds in any order -/

/-- The run was started in time, and if it asks services it works on the open snapshot. -/
def Run.FiresBy (limit delay : Nat) (r : Run) : Prop :=
  match r.stage with
  | .spawned d => d ≤ delay
  | .waiting due => due ≤ limit
  | .asking _ _ _ => True

/-- The file of the run is open, and if the run asks services it is for the open snapshot. -/
def Run.Follows (router : Router) (r : Run) : Prop :=
  ∃ file, router.store.get? r.uri = some file ∧
    ∀ version rest found, r.stage = .asking version rest found →
      version = file.version ∧ router.Asked file rest found

namespace Workspace

/-- The client has the diagnostics of every open file or will have them, and none of other files. -/
structure Current (w : Workspace) (last : String → Option (Option Int × List Diagnostic)) :
    Prop where
  filed : w.router.store.Filed
  sound : w.scheduler.Sound
  timers : ∀ r ∈ w.scheduler.runs, r.FiresBy (w.scheduler.now + w.scheduler.delay) w.scheduler.delay
  follows : ∀ r ∈ w.scheduler.runs, r.cancelled = false → r.Follows w.router
  covered : ∀ uri file, w.router.store.get? uri = some file →
    (∃ r ∈ w.scheduler.runs, r.uri = uri ∧ r.cancelled = false) ∨
      ∀ ds, w.router.diagnosticsOf file = some ds → last uri = some (some file.version, ds)
  closed : ∀ uri, w.router.store.get? uri = none → last uri = none ∨ last uri = some (none, [])

variable {w : Workspace} {last : String → Option (Option Int × List Diagnostic)} {uri : String}

/-! ## News -/

/-- A new run for a file, which may have been put into the store just before. -/
theorem Current.request (h : Current w last) {store : Store} {file : Snapshot} {delay : Nat}
    (hget : ∀ u, store.get? u = if uri = u then some file else w.router.store.get? u)
    (hfiled : store.Filed) (hdelay : delay ≤ w.scheduler.delay) :
    Current ((w.withStore store).withScheduler (·.request uri delay)) last := by
  have hruns := h.sound.runs_request uri delay
  have hnew : ({ uri, number := w.scheduler.issued, stage := .spawned delay } : Run) ∈
      (w.scheduler.request uri delay).runs := by simp [hruns]
  -- a run of another file is as it was
  have hkept {r : Run} (hr : r ∈ w.scheduler.runs) (hu : r.uri ≠ uri) :
      r ∈ (w.scheduler.request uri delay).runs := by
    rw [hruns]
    exact List.mem_append_left _
      (List.mem_map.2 ⟨r, hr, Run.cancelFor_eq_self fun he => absurd he hu⟩)
  refine ⟨hfiled, h.sound.request uri delay, ?_, ?_, ?_, ?_⟩
  · simp only [withScheduler, withStore, Scheduler.now_request, Scheduler.delay_request, hruns,
      List.forall_mem_append, List.forall_mem_map, List.forall_mem_singleton]
    refine ⟨fun r hr => ?_, hdelay⟩
    simpa only [Run.FiresBy, Run.cancelFor_stage] using h.timers r hr
  · simp only [withScheduler, withStore, hruns, List.forall_mem_append, List.forall_mem_map,
      List.forall_mem_singleton]
    refine ⟨fun r hr hlive => ?_, fun _ => ⟨file, by rw [hget, if_pos rfl], nofun⟩⟩
    obtain ⟨hne, he⟩ := Run.cancelFor_live hlive
    rw [he] at hlive ⊢
    obtain ⟨other, hother, hasked⟩ := h.follows r hr hlive
    exact ⟨other, by rw [hget, if_neg (Ne.symm hne), hother], hasked⟩
  · intro u other hu
    by_cases he : uri = u
    · exact Or.inl ⟨_, hnew, he, rfl⟩
    · have hother : w.router.store.get? u = some other := by
        rw [← hu]
        exact (hget u).symm ▸ (if_neg he).symm
      rcases h.covered u other hother with ⟨r, hr, hru, hlive⟩ | hlast
      · exact Or.inl ⟨r, hkept hr (hru ▸ Ne.symm he), hru, hlive⟩
      · exact Or.inr hlast
  · intro u hu
    have hnone : store.get? u = none := hu
    rw [hget] at hnone
    split at hnone
    · contradiction
    · exact h.closed u hnone

/-- A store in which the same snapshots are open. -/
lemma Current.withStore (h : Current w last) {store : Store}
    (hget : store.get? = w.router.store.get?) : Current (w.withStore store) last := by
  refine ⟨h.filed.of_get? hget, h.sound, h.timers, fun r hr hlive => ?_, ?_, ?_⟩
  · obtain ⟨file, hfile, hasked⟩ := h.follows r hr hlive
    exact ⟨file, (congrFun hget r.uri).trans hfile, hasked⟩
  · exact fun u file hu => h.covered u file ((congrFun hget u).symm.trans hu)
  · exact fun u hu => h.closed u ((congrFun hget u).symm.trans hu)

/-- A run after the usual delay for each of some open files. -/
lemma Current.scheduleAll (h : Current w last) (uris : List String)
    (hopen : ∀ uri ∈ uris, ∃ file, w.router.store.get? uri = some file) :
    Current (w.withScheduler fun s => uris.foldl (fun s uri => s.schedule uri) s) last := by
  induction uris generalizing w with
  | nil => exact h
  | cons uri uris ih =>
    obtain ⟨file, hfile⟩ := hopen uri (by simp)
    have hget (u : String) : w.router.store.get? u
        = if uri = u then some file else w.router.store.get? u := by
      split
      next he => rw [← he, hfile]
      · rfl
    have hnext := h.request hget h.filed (Nat.le_refl w.scheduler.delay)
    exact ih hnext fun u hu => hopen u (by simp [hu])

/-- A file is closed: its runs are cancelled, and its diagnostics taken back. -/
lemma Current.close (h : Current w last) (uri : String) :
    Current ((w.withScheduler (·.cancel uri)).withStore (w.router.store.close uri).2)
      (publishedAfter [.publish uri none []] last) := by
  have hruns := h.sound.runs_cancel uri
  refine ⟨h.filed.close uri, h.sound.cancel uri, ?_, ?_, ?_, ?_⟩
  · simp only [withScheduler, Workspace.withStore, Scheduler.now_cancel, Scheduler.delay_cancel,
      hruns, List.forall_mem_map]
    intro r hr
    simpa only [Run.FiresBy, Run.cancelFor_stage] using h.timers r hr
  · simp only [withScheduler, Workspace.withStore, hruns, List.forall_mem_map]
    intro r hr hlive
    obtain ⟨hne, he⟩ := Run.cancelFor_live hlive
    rw [he] at hlive ⊢
    obtain ⟨file, hfile, hasked⟩ := h.follows r hr hlive
    exact ⟨file, by rw [Store.get?_close, if_neg (Ne.symm hne), hfile], hasked⟩
  · intro u file hu
    have hsome : (w.router.store.close uri).2.get? u = some file := hu
    rw [Store.get?_close] at hsome
    split at hsome
    · contradiction
    next hne =>
      rw [publishedAfter_publish, if_neg hne]
      rcases h.covered u file hsome with ⟨r, hr, hru, hlive⟩ | hlast
      · refine Or.inl ⟨r, ?_, hru, hlive⟩
        simp only [withScheduler, Workspace.withStore, hruns]
        exact List.mem_map.2 ⟨r, hr, Run.cancelFor_eq_self fun he => absurd (hru ▸ he.symm) hne⟩
      · exact Or.inr hlast
  · intro u hu
    have hnone : (w.router.store.close uri).2.get? u = none := hu
    rw [Store.get?_close] at hnone
    rw [publishedAfter_publish]
    split at hnone
    next he => exact Or.inr (if_pos he)
    next hne =>
      rw [if_neg hne]
      exact h.closed u hnone

/-- Changes of files outside leave the open files as they are. -/
lemma hearAllOutside_fst (changes : List (String × Int)) (w : Workspace) :
    ∃ store, (w.hearAllOutside changes).1 = w.withStore store ∧
      store.get? = w.router.store.get? := by
  induction changes generalizing w with
  | nil => exact ⟨w.router.store, rfl, rfl⟩
  | cons change rest ih =>
    obtain ⟨first, hfirst, hget⟩ : ∃ store, (w.hearOutside change).1 = w.withStore store ∧
        store.get? = w.router.store.get? := by
      unfold hearOutside
      split
      · exact ⟨w.router.store, rfl, rfl⟩
      · exact ⟨_, rfl, rfl⟩
    obtain ⟨store, hstore, hget'⟩ := ih (w.hearOutside change).1
    refine ⟨store, ?_, ?_⟩
    · have hrest : (w.hearAllOutside (change :: rest)).1
          = ((w.hearOutside change).1.hearAllOutside rest).1 := rfl
      rw [hrest, hstore, hfirst]
      rfl
    · rw [hget', hfirst]
      exact hget

/-- **News keep the client up to date.** -/
theorem Current.hear (h : Current w last) (n : News) :
    Current (w.hear n).1 (publishedAfter (w.hear n).2.notifications last) := by
  cases n with
  | opened uri language version text =>
    exact h.request (Store.get?_put _ _) (h.filed.put rfl) (Nat.zero_le _)
  | changed uri version changes =>
    cases hchange : w.router.store.change uri version changes with
    | error e => simpa only [Workspace.hear, hchange, publishedAfter_nil] using h
    | ok store =>
      obtain ⟨file, hfile, rfl⟩ := Store.change_ok hchange
      have huri := h.filed.uri_eq hfile
      have hget := Store.get?_put (file.edit w.router.store.scanOptions version changes)
        w.router.store
      rw [show (file.edit w.router.store.scanOptions version changes).uri = uri from huri] at hget
      simp only [Workspace.hear, hchange, publishedAfter_nil]
      exact h.request hget (h.filed.put rfl) (Nat.le_refl _)
  | saved uri =>
    cases hsave : w.router.store.save uri with
    | error e => simpa only [Workspace.hear, hsave, publishedAfter_nil] using h
    | ok store =>
      simp only [Workspace.hear, hsave, publishedAfter_nil]
      exact h.withStore (Store.save_ok hsave)
  | closed uri => exact h.close uri
  | watched changes =>
    obtain ⟨store, hstore, hget⟩ := hearAllOutside_fst changes w
    simp only [Workspace.hear, hstore, publishedAfter_nil]
    exact (h.withStore hget).scheduleAll _ fun u hu => Store.mem_uris.1 hu

/-! ## Time and runs -/

lemma Current.pass (h : Current w last) (duration : Nat) :
    Current (w.withScheduler fun s => { s with now := s.now + duration }) last := by
  refine ⟨h.filed, h.sound.withNow _, fun r hr => ?_, h.follows, h.covered, h.closed⟩
  have ht := h.timers r hr
  simp only [Run.FiresBy, withScheduler] at ht ⊢
  split at ht <;> omega

/-- A live run comes further. -/
lemma Current.becomes (h : Current w last) {r x : Run} {p : Progress} (hr : r ∈ w.scheduler.runs)
    (hlive : r.cancelled = false) (hp : p.run = some x) (hnumber : x.number = r.number)
    (huri : x.uri = r.uri) (hx : x.cancelled = false)
    (htimer : x.FiresBy (w.scheduler.now + w.scheduler.delay) w.scheduler.delay)
    (hfollows : x.Follows w.router) : Current (w.withScheduler (·.update r p)) last := by
  have hmem {y : Run} := Scheduler.mem_update_some h.sound hr hp (y := y)
  obtain ⟨hnow, hdelay, -⟩ := Scheduler.update_keeps w.scheduler r p
  refine ⟨h.filed, h.sound.update_some hr hp hnumber huri fun _ => hlive, fun y hy => ?_,
    fun y hy hc => ?_, fun u file hu => ?_, h.closed⟩
  · simp only [withScheduler, hnow, hdelay]
    rcases hmem.1 hy with rfl | ⟨hy, -⟩
    · exact htimer
    · exact h.timers y hy
  · rcases hmem.1 hy with rfl | ⟨hy, -⟩
    · exact hfollows
    · exact h.follows y hy hc
  · rcases h.covered u file hu with ⟨y, hy, hyu, hc⟩ | hlast
    · refine Or.inl ?_
      by_cases he : y = r
      · exact ⟨x, hmem.2 (Or.inl rfl), by rw [huri, ← he, hyu], hx⟩
      · exact ⟨y, hmem.2 (Or.inr ⟨hy, he⟩), hyu, hc⟩
    · exact Or.inr hlast

/-- A run ends.  If it was live, the client has the diagnostics of its file then. -/
lemma Current.ends (h : Current w last) {r : Run} {p : Progress} (hr : r ∈ w.scheduler.runs)
    (hp : p.run = none) {last' : String → Option (Option Int × List Diagnostic)}
    (hothers : ∀ u, u ≠ r.uri → last' u = last u)
    (hclosed : w.router.store.get? r.uri = none → last' r.uri = last r.uri)
    (hdone : ∀ file, w.router.store.get? r.uri = some file →
      (∀ ds, w.router.diagnosticsOf file = some ds →
        last' r.uri = some (some file.version, ds)) ∨
      r.cancelled = true ∧ last' r.uri = last r.uri) :
    Current (w.withScheduler (·.update r p)) last' := by
  have hmem {y : Run} := Scheduler.mem_update_none h.sound hr hp (y := y)
  obtain ⟨hnow, hdelay, -⟩ := Scheduler.update_keeps w.scheduler r p
  refine ⟨h.filed, h.sound.update_none hr hp, fun y hy => ?_,
    fun y hy hc => h.follows y (hmem.1 hy).1 hc, fun u file hu => ?_, fun u hu => ?_⟩
  · simp only [withScheduler, hnow, hdelay]
    exact h.timers y (hmem.1 hy).1
  · have hfile : w.router.store.get? u = some file := hu
    by_cases he : u = r.uri
    · subst he
      rcases hdone file hfile with hnow | ⟨hc, hsame⟩
      · exact Or.inr hnow
      · rw [hsame]
        rcases h.covered r.uri file hfile with ⟨y, hy, hyu, hlive⟩ | hlast
        · refine Or.inl ⟨y, hmem.2 ⟨hy, ?_⟩, hyu, hlive⟩
          rintro rfl
          simp [hlive] at hc
        · exact Or.inr hlast
    · rw [hothers u he]
      rcases h.covered u file hfile with ⟨y, hy, hyu, hlive⟩ | hlast
      · refine Or.inl ⟨y, hmem.2 ⟨hy, ?_⟩, hyu, hlive⟩
        rintro rfl
        exact he hyu.symm
      · exact Or.inr hlast
  · have hnone : w.router.store.get? u = none := hu
    have hsame : last' u = last u := by
      by_cases he : u = r.uri
      · subst he
        exact hclosed hnone
      · exact hothers u he
    rw [hsame]
    exact h.closed u hnone

/-- **A step of a run keeps the client up to date.** -/
theorem Current.stepRun (h : Current w last) (hp : w.router.adapters.Patient) (number : Nat) :
    Current (w.stepRun number).1 (publishedAfter (told (w.stepRun number).2.toList) last) := by
  unfold Workspace.stepRun
  split
  · exact h
  next r hfind =>
    have hr := List.mem_of_find?_eq_some hfind
    by_cases hc : r.cancelled
    · -- a cancelled run ends without a word
      rw [Run.step_cancelled hc]
      exact h.ends hr rfl (fun _ _ => rfl) (fun _ => rfl) fun _ _ => Or.inr ⟨hc, rfl⟩
    · have hlive : r.cancelled = false := by simpa using hc
      obtain ⟨file, hfile, hasked⟩ := h.follows r hr hlive
      have htimer := h.timers r hr
      obtain ⟨uri, n, stage, cancelled⟩ := r
      obtain rfl : cancelled = false := hlive
      match stage with
      | .spawned delay =>
        have hdue : w.scheduler.now + delay ≤ w.scheduler.now + w.scheduler.delay :=
          Nat.add_le_add_left htimer _
        exact h.becomes hr rfl rfl rfl rfl rfl hdue ⟨file, hfile, nofun⟩
      | .waiting due =>
        by_cases hdue : due ≤ w.scheduler.now
        · rw [Run.step_fire hdue hfile]
          refine h.becomes hr rfl rfl rfl rfl rfl trivial ⟨file, hfile, ?_⟩
          rintro version rest found ⟨⟩
          exact ⟨rfl, Router.asked_start⟩
        · rw [Run.step_wait (Nat.not_le.1 hdue)]
          exact h.becomes hr rfl rfl rfl rfl rfl htimer ⟨file, hfile, nofun⟩
      | .asking version (s :: rest) found =>
        obtain ⟨rfl, hfound⟩ := hasked version (s :: rest) found rfl
        rw [Run.step_ask]
        cases hs : s.found with
        | none =>
          -- the file has no diagnostics that can be sent
          refine h.ends hr rfl (fun _ _ => rfl) (fun _ => rfl) fun other hother =>
            Or.inl fun ds hds => ?_
          obtain rfl : file = other := Option.some.inj (hfile.symm.trans hother)
          rw [hfound.eq_none hs] at hds
          contradiction
        | some ds =>
          refine h.becomes hr rfl rfl rfl rfl (Router.cancels_of_patient hp hfound.mem) trivial
            ⟨file, hfile, ?_⟩
          rintro version rest found ⟨⟩
          exact ⟨rfl, hfound.next hs⟩
      | .asking version [] found =>
        obtain ⟨rfl, hfound⟩ := hasked version [] found rfl
        rw [Run.step_publish]
        -- all services were asked, and what they found is published
        have hlast := publishedAfter_publish uri (some file.version) found last
        refine h.ends hr rfl (fun u hu => ?_) (fun hnone => ?_) fun other hother =>
          Or.inl fun ds hds => ?_
        · exact (hlast u).trans (if_neg (Ne.symm hu))
        · exact absurd (hfile.symm.trans hnone) (by simp)
        · obtain rfl : file = other := Option.some.inj (hfile.symm.trans hother)
          obtain rfl : found = ds := Option.some.inj (hfound.finish.symm.trans hds)
          exact (hlast uri).trans (if_pos rfl)

/-! ## Events -/

/-- **No event breaks what holds in any order.** -/
theorem Current.take (h : Current w last) (hp : w.router.adapters.Patient) (event : Event) :
    Current (w.take event).1 (publishedAfter (w.take event).2 last) := by
  cases event with
  | news n => exact h.hear n
  | pass duration => exact h.pass duration
  | step number => exact h.stepRun hp number

/-- No event changes the adapters. -/
lemma adapters_take (w : Workspace) (event : Event) :
    (w.take event).1.router.adapters = w.router.adapters := by
  cases event with
  | news n =>
    cases n with
    | opened | closed => rfl
    | changed uri version changes =>
      simp only [Workspace.take, Workspace.hear]
      split <;> rfl
    | saved uri =>
      simp only [Workspace.take, Workspace.hear]
      split <;> rfl
    | watched changes =>
      obtain ⟨store, hstore, -⟩ := hearAllOutside_fst changes w
      simp only [Workspace.take, Workspace.hear, hstore]
      rfl
  | pass duration => rfl
  | step number =>
    simp only [Workspace.take, Workspace.stepRun]
    split <;> rfl

lemma play_cons (w : Workspace) (event : Event) (rest : List Event) :
    w.play (event :: rest) = (((w.take event).1.play rest).1,
      (w.take event).2 ++ ((w.take event).1.play rest).2) := rfl

lemma play_append (w : Workspace) (a b : List Event) :
    w.play (a ++ b) = (((w.play a).1.play b).1, (w.play a).2 ++ ((w.play a).1.play b).2) := by
  induction a generalizing w with
  | nil => rfl
  | cons event rest ih => simp only [List.cons_append, play_cons, ih, List.append_assoc]

lemma adapters_play (w : Workspace) (events : List Event) :
    (w.play events).1.router.adapters = w.router.adapters := by
  induction events generalizing w with
  | nil => rfl
  | cons event rest ih => rw [play_cons, ih, adapters_take]

/-- **No list of events breaks what holds in any order.** -/
theorem Current.play (h : Current w last) (hp : w.router.adapters.Patient) (events : List Event) :
    Current (w.play events).1 (publishedAfter (w.play events).2 last) := by
  induction events generalizing w last with
  | nil => exact h
  | cons event rest ih =>
    rw [play_cons, publishedAfter_append]
    exact ih (h.take hp event) (by rwa [adapters_take])

/-- **What a run publishes is of the open snapshot of its file.** -/
theorem Current.published (h : Current w last) {number : Nat} {p : Publication}
    (hpub : (w.stepRun number).2 = some p) :
    ∃ file, w.router.store.get? p.uri = some file ∧ file.version = p.version ∧
      w.router.diagnosticsOf file = some p.diagnostics := by
  unfold Workspace.stepRun at hpub
  split at hpub
  · contradiction
  next r hfind =>
    have hr := List.mem_of_find?_eq_some hfind
    obtain ⟨hlive, huri, hstage, -⟩ := Run.published_eq_some hpub
    obtain ⟨file, hfile, hasked⟩ := h.follows r hr hlive
    obtain ⟨hversion, hfound⟩ := hasked _ _ _ hstage
    exact ⟨file, by rw [huri, hfile], hversion.symm, hfound.finish⟩

/-! ## The start -/

/-- The workspace of a server that has just been set up. -/
def begun (adapters : Registry) (settings : Settings) : Workspace :=
  (Server.setUp settings { workspace := { router := { adapters } } }).workspace

lemma current_begun (adapters : Registry) (settings : Settings) :
    Current (begun adapters settings) fun _ => none where
  filed := by
    intro uri file h
    simp [begun, Server.setUp, withStore, withScheduler, Store.configure, Store.get?] at h
  sound := by
    refine ⟨List.nodup_nil, nofun, nofun, fun uri n h => ?_⟩
    simp [begun, Server.setUp, withStore, withScheduler, Scheduler.setDelay] at h
  timers := nofun
  follows := nofun
  covered := by
    intro uri file h
    simp [begun, Server.setUp, withStore, withScheduler, Store.configure, Store.get?] at h
  closed := fun _ _ => Or.inl rfl

end Workspace

/-! ## Messages -/

/-- A method for news is one for nothing else. -/
lemma Purpose.ofMethod?_news {method : String} {read? : Json → Option News}
    (h : News.reader? method = some read?) : ofMethod? method = some (.news read?) := by
  have hreader := h
  unfold News.reader? at h
  split at h
  · simp [ofMethod?, Query.reader?, hreader]
  · simp [ofMethod?, Query.reader?, hreader]
  · simp [ofMethod?, Query.reader?, hreader]
  · simp [ofMethod?, Query.reader?, hreader]
  · simp [ofMethod?, Query.reader?, hreader]
  · contradiction

/-- **A running server hears the news of a message** as its workspace does, and nothing else happens
to it. -/
theorem Server.handleWith_news (settingsFor : Json → Settings) {m : Message} {s : Server}
    {n : News} {read? : Json → Option News} (hphase : s.phase = .running) (hid : m.id = none)
    (hmethod : News.reader? m.method = some read?) (hread : read? m.params = some n) :
    s.handleWith settingsFor m
      = ({ s with workspace := (s.workspace.hear n).1 }, (s.workspace.hear n).2) := by
  simp [handleWith, Purpose.ofMethod?_news hmethod, hphase, serve, follow, hid, hread]

end Mosaic
