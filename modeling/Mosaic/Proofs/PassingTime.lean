import Mosaic.Proofs.Interleaving
import Mosaic.Proofs.Settling

/-!
# Time passes

When there is no news, a workspace only changes by the passing of time and by steps of runs
(`Workspace.Plays`).  Live runs that were started in time have ended once their delay has passed,
whatever the order of their steps; and `Workspace.advance` is one such order.

* `Workspace.Plays.startedBy` — without news no timer is set anew.
* `Workspace.runs_eq_nil` — if every run waits although all timers have fired, no run is left.
* `Workspace.plays_advance` — letting time pass is playing steps of runs in one such order.
* `Workspace.advance_ends` — after a time no shorter than the delay no run is left.
-/

namespace Mosaic

/-- Everything but news. -/
def Event.IsQuiet : Event → Prop
  | .news _ => False
  | .pass _ | .step _ => True

/-- The run was started, and its timer fires until the given time. -/
def Run.StartedBy (limit : Nat) (r : Run) : Prop :=
  match r.stage with
  | .spawned _ => False
  | .waiting due => due ≤ limit
  | .asking _ _ _ => True

/-- The run has taken its first step. -/
def Run.Started (r : Run) : Prop :=
  ∀ delay, r.stage ≠ .spawned delay

lemma Run.StartedBy.mono {limit limit' : Nat} {r : Run} (h : r.StartedBy limit)
    (hle : limit ≤ limit') : r.StartedBy limit' := by
  unfold StartedBy at h ⊢
  split at h
  · exact h
  · exact h.trans hle
  · trivial

lemma Run.StartedBy.step {router : Router} {now limit : Nat} {r x : Run} (h : r.StartedBy limit)
    (hx : (r.step router now).run = some x) : x.StartedBy limit := by
  obtain ⟨uri, n, stage, cancelled⟩ := r
  obtain rfl : cancelled = false := (Run.step_keeps hx).2.2
  match stage with
  | .spawned delay => exact absurd h id
  | .waiting due =>
    by_cases hdue : due ≤ now
    · cases hfile : router.store.get? uri with
      | none =>
        rw [Run.step_fire_closed hdue hfile] at hx
        contradiction
      | some file =>
        rw [Run.step_fire hdue hfile] at hx
        obtain rfl := Option.some.inj hx
        trivial
    · rw [Run.step_wait (Nat.not_le.1 hdue)] at hx
      obtain rfl := Option.some.inj hx
      exact h
  | .asking version (s :: rest) found =>
    rw [Run.step_ask] at hx
    obtain ⟨ds, -, rfl⟩ := Option.map_eq_some_iff.1 hx
    trivial
  | .asking version [] found => contradiction

namespace Scheduler

/-- A run that becomes another takes the place of itself only. -/
lemma mem_runs_update {s : Scheduler} {r y : Run} {p : Progress}
    (h : y ∈ (s.update r p).runs) : p.run = some y ∨ y ∈ s.runs := by
  cases hp : p.run with
  | none =>
    rw [runs_update_of_none hp] at h
    exact Or.inr (List.mem_filter.1 h).1
  | some x =>
    rw [update_of_some hp] at h
    obtain ⟨z, hz, rfl⟩ := List.mem_map.1 h
    split
    · exact Or.inl rfl
    · exact Or.inr hz

lemma update_self {s : Scheduler} {r : Run} {p : Progress} (h : s.Sound) (hr : r ∈ s.runs)
    (hp : p.run = some r) : s.update r p = s := by
  have hruns : s.runs.map (fun x => if x.number = r.number then r else x) = s.runs := by
    refine (List.map_congr_left fun x hx => ?_).trans (List.map_id' s.runs)
    split
    next hn => exact (h.eq_of_number hx hr hn).symm
    · rfl
  rw [update_of_some hp, hruns]

/-- Two changes of one run amount to the second. -/
lemma update_update {s : Scheduler} {r x : Run} {p q : Progress} (hp : p.run = some x)
    (hnumber : x.number = r.number) (huri : x.uri = r.uri) :
    (s.update r p).update x q = s.update r q := by
  rw [update_of_some hp]
  cases hq : q.run with
  | some y =>
    rw [update_of_some hq, update_of_some hq]
    simp only [List.map_map, hnumber]
    refine congrArg (fun runs => { s with runs }) (List.map_congr_left fun z _ => ?_)
    by_cases hz : z.number = r.number
    · simp [hz, hnumber]
    · simp [hz]
  | none =>
    have hruns : (s.runs.map fun z => if z.number = r.number then x else z).filter
        (·.number != r.number) = s.runs.filter (·.number != r.number) := by
      induction s.runs with
      | nil => rfl
      | cons z zs ih =>
        by_cases hz : z.number = r.number
        · simp [hz, hnumber, ih]
        · simp [hz, ih]
    simp only [update, hq, hnumber, huri, hruns]

/-- What comes of a run and its later steps is told from all of them together. -/
lemma update_andThen (s : Scheduler) (r : Run) {p q : Progress} (hp : p.broken = false) :
    s.update r (p.andThen q) = s.update r q := by
  simp only [update, Progress.andThen, hp, Bool.false_or]

end Scheduler

namespace Workspace

variable {w v u : Workspace} {log log' : List Notification}
  {last : String → Option (Option Int × List Diagnostic)}

/-- Without news the workspace becomes another one, and the client is told something. -/
def Plays (w v : Workspace) (log : List Notification) : Prop :=
  ∃ events : List Event, (∀ e ∈ events, e.IsQuiet) ∧ w.play events = (v, log)

lemma Plays.refl (w : Workspace) : w.Plays w [] := ⟨[], nofun, rfl⟩

lemma Plays.trans (h : w.Plays v log) (h' : v.Plays u log') : w.Plays u (log ++ log') := by
  obtain ⟨events, hquiet, hplay⟩ := h
  obtain ⟨events', hquiet', hplay'⟩ := h'
  refine ⟨events ++ events', fun e he => ?_, by rw [play_append, hplay, hplay']⟩
  exact (List.mem_append.1 he).elim (hquiet e) (hquiet' e)

lemma Plays.one {event : Event} (h : event.IsQuiet) :
    w.Plays (w.take event).1 (w.take event).2 :=
  ⟨[event], fun _ he => List.mem_singleton.1 he ▸ h, by simp [play]⟩

lemma plays_pass (w : Workspace) (duration : Nat) :
    w.Plays (w.withScheduler fun s => { s with now := w.scheduler.now + duration }) [] :=
  ⟨[.pass duration], fun _ he => List.mem_singleton.1 he ▸ trivial, rfl⟩

lemma Plays.current (h : w.Plays v log) (hw : Current w last) (hp : w.router.adapters.Patient) :
    Current v (publishedAfter log last) := by
  obtain ⟨events, -, hplay⟩ := h
  have := hw.play hp events
  rwa [hplay] at this

/-- **Without news no timer is set anew**, of any run that is live. -/
theorem Plays.startedBy {limit : Nat} (h : w.Plays v log)
    (hw : ∀ r ∈ w.scheduler.runs, r.cancelled = false → r.StartedBy limit) :
    ∀ r ∈ v.scheduler.runs, r.cancelled = false → r.StartedBy limit := by
  obtain ⟨events, hquiet, hplay⟩ := h
  induction events generalizing w log with
  | nil =>
    obtain rfl : w = v := congrArg Prod.fst hplay
    exact hw
  | cons event rest ih =>
    rw [play_cons] at hplay
    have hv : ((w.take event).1.play rest).1 = v := congrArg Prod.fst hplay
    refine ih ?_ (fun e he => hquiet e (by simp [he])) (Prod.ext hv rfl)
    cases event with
    | news n => exact absurd (hquiet (.news n) (by simp)) id
    | pass duration => exact hw
    | step number =>
      simp only [take, stepRun]
      split
      · exact hw
      next r hfind =>
        intro y hy hlive
        rcases Scheduler.mem_runs_update hy with hx | hy
        · -- what comes of a cancelled run is nothing
          have hr := hw r (List.mem_of_find?_eq_some hfind) (Run.step_keeps hx).2.2
          exact hr.step hx
        · exact hw y hy hlive

/-- Runs that were started fire by the end of the delay. -/
lemma Current.startedBy (h : Current w last) {r : Run} (hr : r ∈ w.scheduler.runs)
    (hstarted : r.Started) : r.StartedBy (w.scheduler.now + w.scheduler.delay) := by
  have hfires := h.timers r hr
  unfold Run.FiresBy at hfires
  unfold Run.StartedBy
  split
  next delay hstage => exact hstarted delay hstage
  next due hstage => simpa only [hstage] using hfires
  · trivial

/-- No run can take a step that changes anything. -/
def Idle (w : Workspace) : Prop :=
  ∀ number, (w.stepRun number).1 = w

/-- **If nothing can happen without the passing of time, all runs wait for their timers.** -/
theorem Idle.waits (h : w.Idle) (hs : w.scheduler.Sound) :
    ∀ r ∈ w.scheduler.runs, r.Waits w.scheduler.now := by
  intro r hr
  have hstep : w.scheduler.update r (r.step w.router w.scheduler.now) = w.scheduler := by
    have := congrArg scheduler (h r.number)
    simpa only [stepRun, Scheduler.find?_number hs hr, withScheduler] using this
  -- the run is still there, and so it has become itself
  have hmem : r ∈ (w.scheduler.update r (r.step w.router w.scheduler.now)).runs :=
    hstep.symm ▸ hr
  cases hrun : (r.step w.router w.scheduler.now).run with
  | none => exact absurd rfl ((Scheduler.mem_update_none hs hr hrun).1 hmem).2
  | some x =>
    rcases (Scheduler.mem_update_some hs hr hrun).1 hmem with rfl | ⟨-, hne⟩
    · exact Run.waits_of_step_eq hrun
    · exact absurd rfl hne

/-- **No run is left** if all that are left wait although their timers have fired. -/
lemma runs_eq_nil {limit : Nat}
    (hstarted : ∀ r ∈ w.scheduler.runs, r.cancelled = false → r.StartedBy limit)
    (hwaits : ∀ r ∈ w.scheduler.runs, r.Waits limit) : w.scheduler.runs = [] := by
  refine List.eq_nil_iff_forall_not_mem.2 fun r hr => ?_
  obtain ⟨hlive, due, hstage, hlt⟩ := hwaits r hr
  have hle := hstarted r hr hlive
  rw [Run.StartedBy, hstage] at hle
  exact Nat.not_le.2 hlt hle

/-! ## The order of the server -/

/-- Taking some steps of one run after the other. -/
lemma plays_steps (hs : w.scheduler.Sound) {r : Run} (hr : r ∈ w.scheduler.runs) (k : Nat) :
    w.Plays (w.withScheduler (·.update r (r.steps w.router w.scheduler.now k)))
      (told (r.steps w.router w.scheduler.now k).published.toList) := by
  induction k generalizing w r with
  | zero =>
    have hself : w.withScheduler (·.update r (r.steps w.router w.scheduler.now 0)) = w := by
      simp only [withScheduler, Scheduler.update_self hs hr (p := r.steps _ _ 0) rfl]
    rw [hself]
    exact .refl w
  | succ k ih =>
    have hstep : w.take (.step r.number)
        = (w.withScheduler (·.update r (r.step w.router w.scheduler.now)),
          told (r.step w.router w.scheduler.now).published.toList) := by
      simp only [take, stepRun, Scheduler.find?_number hs hr]
    have hone : w.Plays (w.take (.step r.number)).1 (w.take (.step r.number)).2 := .one trivial
    rw [hstep] at hone
    cases hrun : (r.step w.router w.scheduler.now).run with
    | none =>
      rw [Run.steps_succ_none hrun]
      exact hone
    | some x =>
      obtain ⟨hnumber, huri, hlive⟩ := Run.step_keeps hrun
      obtain ⟨hnone, hbroken⟩ := Run.quiet_of_run hrun
      rw [hnone] at hone
      have hnow := (Scheduler.update_keeps w.scheduler r (r.step w.router w.scheduler.now)).1
      have hrest := @ih (w.withScheduler (·.update r (r.step w.router w.scheduler.now)))
        (hs.update_some hr hrun hnumber huri fun _ => hlive) x
        ((Scheduler.mem_update_some hs hr hrun).2 (Or.inl rfl))
      simp only [withScheduler, hnow, Scheduler.update_update hrun hnumber huri] at hrest
      rw [Run.steps_succ_some hrun]
      simp only [withScheduler, Scheduler.update_andThen _ _ hbroken]
      have hpublished : ((r.step w.router w.scheduler.now).andThen
          (x.steps w.router w.scheduler.now k)).published
            = (x.steps w.router w.scheduler.now k).published := by
        rw [Progress.andThen, hnone]
        rfl
      rw [hpublished]
      exact hone.trans hrest

/-- Settling a run is taking steps of it. -/
lemma plays_settle (hs : w.scheduler.Sound) (number : Nat) :
    w.Plays (w.withScheduler fun s => (s.settle w.router number).1)
      (told (w.scheduler.settle w.router number).2.publications) := by
  rcases w.scheduler.exists_number number with ⟨r, hr, rfl⟩ | hnone
  · simp only [withScheduler, Scheduler.settle_eq hs hr]
    exact plays_steps hs hr (r.weight w.router)
  · simp only [withScheduler, Scheduler.settle_absent hnone]
    exact .refl w

/-- Jobs in the order of time are the passing of time and steps of runs. -/
lemma plays_settleAll (jobs : List (Nat × Nat)) (hs : w.scheduler.Sound)
    (hsorted : jobs.Pairwise fun a b => a.1 ≤ b.1) (hnow : ∀ j ∈ jobs, w.scheduler.now ≤ j.1) :
    w.Plays (w.withScheduler fun s => (s.settleAll w.router jobs).1)
      (told (w.scheduler.settleAll w.router jobs).2.publications) := by
  induction jobs generalizing w with
  | nil => exact .refl w
  | cons j jobs ih =>
    obtain ⟨time, number⟩ := j
    obtain ⟨hfirst, hrest⟩ := List.pairwise_cons.1 hsorted
    have htime : w.scheduler.now + (time - w.scheduler.now) = time :=
      Nat.add_sub_cancel' (hnow (time, number) (by simp))
    have hpass : w.Plays (w.withScheduler fun s => { s with now := time }) [] := by
      have hone := plays_pass w (time - w.scheduler.now)
      rwa [htime] at hone
    have hsettle := plays_settle (w := w.withScheduler fun s => { s with now := time })
      (hs.withNow time) number
    have hothers := @ih ((w.withScheduler fun s => { s with now := time }).withScheduler
      fun s => (s.settle w.router number).1) ((hs.withNow time).settle number) hrest (by
        intro j hj
        simpa only [withScheduler, Scheduler.now_settle] using hfirst j hj)
    have hlog : told (w.scheduler.settleAll w.router ((time, number) :: jobs)).2.publications
        = told
            (({ w.scheduler with now := time } : Scheduler).settle w.router number).2.publications
          ++ told ((({ w.scheduler with now := time } : Scheduler).settle w.router
            number).1.settleAll w.router jobs).2.publications := List.map_append
    rw [hlog]
    exact (hpass.trans hsettle).trans hothers

/-- The workspace once all runs were started. -/
def started (w : Workspace) : Workspace :=
  w.withScheduler fun s => (s.settleAll w.router (s.runs.map fun r => (s.now, r.number))).1

/-- The workspace once all runs that are due until a time were settled. -/
def firedUntil (limit : Nat) (w : Workspace) : Workspace :=
  w.withScheduler fun s => (s.settleAll w.router (s.dueUntil limit)).1

/-- To let time pass is to start all runs, then to settle those that are due, and then to set the
clock. -/
lemma advance_fst (w : Workspace) (duration : Nat) :
    (w.advance duration).1 = (w.started.firedUntil (w.scheduler.now + duration)).withScheduler
      fun s => { s with now := w.scheduler.now + duration } := rfl

lemma startJob_now {j : Nat × Nat}
    (h : j ∈ w.scheduler.runs.map fun r => (w.scheduler.now, r.number)) :
    j.1 = w.scheduler.now := by
  obtain ⟨r, -, rfl⟩ := List.mem_map.1 h
  rfl

lemma started_now_le (w : Workspace) : w.started.scheduler.now ≤ w.scheduler.now :=
  Scheduler.now_settleAll_le _ _ (fun _ hj => (startJob_now hj).le) le_rfl

/-- Once they were started, all runs wait. -/
lemma started_waits (hs : w.scheduler.Sound) :
    ∀ r ∈ w.started.scheduler.runs, r.Waits w.scheduler.now := by
  refine Scheduler.settleAll_waits _ hs ?_ (fun j hj r _ _ x hx => ?_) fun r hr hno => ?_
  · rw [List.map_map]
    exact hs.nodup
  · rw [startJob_now hj] at hx
    exact Run.settle_waits hx
  · exact absurd rfl (hno _ (List.mem_map_of_mem hr))

/-- Once those that are due until a time were settled, the others wait beyond it. -/
lemma firedUntil_waits {now : Nat} (hs : w.scheduler.Sound)
    (hwaits : ∀ r ∈ w.scheduler.runs, r.Waits now) (limit : Nat) :
    ∀ r ∈ (w.firedUntil limit).scheduler.runs, r.Waits limit := by
  refine Scheduler.settleAll_waits _ hs (Scheduler.nodup_dueUntil hs limit)
    (fun j hj r hr hn x hx => ?_) fun r hr hno => ?_
  · -- the run of a job fires at the time of the job, and so nothing is left of it
    obtain ⟨-, y, hy, hdue, hny⟩ := Scheduler.mem_dueUntil.1 hj
    obtain rfl := hs.eq_of_number hr hy (hn.trans hny.symm)
    obtain ⟨-, due, hstage, -⟩ := hwaits r hr
    have htime : due = j.1 := by simpa [Run.due?, hstage] using hdue
    rw [Run.settle_fire hstage htime.le] at hx
    contradiction
  · obtain ⟨hlive, due, hstage, -⟩ := hwaits r hr
    refine ⟨hlive, due, hstage, Nat.not_le.1 fun hle => ?_⟩
    have hdue : r.due? = some due := by simp [Run.due?, hstage]
    exact hno (due, r.number) (Scheduler.mem_dueUntil.2 ⟨hle, r, hr, hdue, rfl⟩) rfl

/-- Runs that wait fire by the end of the delay. -/
lemma Current.startedBy_of_waits {now : Nat} (h : Current w last) (hnow : w.scheduler.now ≤ now)
    (hwaits : ∀ r ∈ w.scheduler.runs, r.Waits now) :
    ∀ r ∈ w.scheduler.runs, r.StartedBy (now + w.scheduler.delay) := by
  intro r hr
  obtain ⟨-, due, hstage, -⟩ := hwaits r hr
  refine (h.startedBy hr fun delay he => ?_).mono (Nat.add_le_add_right hnow _)
  rw [hstage] at he
  contradiction

/-- Starting all runs, as steps of them. -/
lemma plays_started (hs : w.scheduler.Sound) :
    w.Plays w.started (told (w.scheduler.settleAll w.router
      (w.scheduler.runs.map fun r => (w.scheduler.now, r.number))).2.publications) :=
  plays_settleAll _ hs (List.pairwise_map.2 (List.pairwise_of_forall fun _ _ => le_rfl))
    fun _ hj => (startJob_now hj).ge

/-- Settling the runs that are due until a time, as steps of them. -/
lemma plays_firedUntil {now : Nat} (hs : w.scheduler.Sound) (hnow : w.scheduler.now ≤ now)
    (hwaits : ∀ r ∈ w.scheduler.runs, r.Waits now) (limit : Nat) :
    w.Plays (w.firedUntil limit) (told (w.scheduler.settleAll w.router
      (w.scheduler.dueUntil limit)).2.publications) := by
  refine plays_settleAll _ hs (Scheduler.pairwise_dueUntil _ limit) fun j hj => ?_
  obtain ⟨-, r, hr, hdue, -⟩ := Scheduler.mem_dueUntil.1 hj
  obtain ⟨-, due, hstage, hlt⟩ := hwaits r hr
  have htime : due = j.1 := by simpa [Run.due?, hstage] using hdue
  exact htime ▸ hnow.trans hlt.le

/-- **Letting time pass is playing steps of runs**, in the order of their timers. -/
theorem plays_advance (h : Current w last) (hp : w.router.adapters.Patient) (duration : Nat) :
    w.Plays (w.advance duration).1 (w.advance duration).2.notifications := by
  have hfirst := plays_started h.sound
  have hnow := started_now_le w
  have hsecond := plays_firedUntil (hfirst.current h hp).sound hnow (started_waits h.sound)
    (w.scheduler.now + duration)
  -- the clock never runs past the end
  have hend : (w.started.firedUntil (w.scheduler.now + duration)).scheduler.now
      ≤ w.scheduler.now + duration :=
    Scheduler.now_settleAll_le _ _ (fun j hj => (Scheduler.mem_dueUntil.1 hj).1)
      (hnow.trans (Nat.le_add_right _ _))
  have hclock := plays_pass (w.started.firedUntil (w.scheduler.now + duration))
    (w.scheduler.now + duration -
      (w.started.firedUntil (w.scheduler.now + duration)).scheduler.now)
  rw [Nat.add_sub_cancel' hend, ← advance_fst] at hclock
  have hplays := (hfirst.trans hsecond).trans hclock
  rw [List.append_nil] at hplays
  have hlog : (w.advance duration).2.notifications = _ := List.map_append
  rw [hlog]
  exact hplays

/-- **After a time no shorter than the delay no run is left.** -/
theorem advance_ends (h : Current w last) (hp : w.router.adapters.Patient) {duration : Nat}
    (hduration : w.scheduler.delay ≤ duration) : (w.advance duration).1.scheduler.runs = [] := by
  have hcurrent := (plays_started h.sound).current h hp
  have hwaits := started_waits h.sound
  have hfires := hcurrent.startedBy_of_waits (started_now_le w) hwaits
  have hsecond := plays_firedUntil hcurrent.sound (started_now_le w) hwaits
    (w.scheduler.now + duration)
  have hdelay : w.started.scheduler.delay = w.scheduler.delay :=
    Scheduler.delay_settleAll _ w.scheduler
  refine runs_eq_nil (w := (w.advance duration).1) (fun r hr hlive => ?_)
    (firedUntil_waits hcurrent.sound hwaits (w.scheduler.now + duration))
  refine (hsecond.startedBy (fun r hr _ => hfires r hr) r hr hlive).mono ?_
  rw [hdelay]
  exact Nat.add_le_add_left hduration _

end Workspace

end Mosaic
