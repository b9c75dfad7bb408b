import Mosaic.Proofs.Settling

/-!
# The run that a file waits for

A file has one live run at most, and that is the pending one: `Scheduler.Awaits` says which it is,
if there is one, and what is pending otherwise.  Whatever happens to other runs, those of the same
file that were cancelled included, leaves it alone, and it alone publishes anything of the file.

* `Run.settle_timer` — what comes of a live run, by when its timer fires.
* `Scheduler.Awaits.cancel`, `Scheduler.Awaits.request`, `Scheduler.Awaits.cancelAll` — which run is
  awaited after a request.
* `Scheduler.Awaits.advance` — as time passes the awaited run publishes the diagnostics of its file
  when it is due, or goes on to be awaited.  It stays pending if it breaks off.
-/

namespace Mosaic

/-! ## One run -/

/-- What is published of a file at a time, if the file is open and all its diagnostics can be
sent. -/
def Router.publication? (r : Router) (uri : String) (time : Nat) : Option Publication :=
  (r.store.get? uri).bind fun file =>
    (r.diagnostics uri false).result.toOption.map fun ds => ⟨time, uri, file.version, ds⟩

/-- Whether the file is open, and its diagnostics cannot be sent. -/
def Router.failsOn (r : Router) (uri : String) : Bool :=
  (r.store.get? uri).any fun _ => (r.diagnostics uri false).result.toOption.isNone

lemma Router.publication?_eq_none {r : Router} {uri : String} {time : Nat} (h : r.failsOn uri) :
    r.publication? uri time = none := by
  unfold failsOn at h
  unfold publication?
  cases hfile : r.store.get? uri with
  | none => rfl
  | some file =>
    rw [hfile] at h
    simpa [Option.isNone_iff_eq_none] using h

lemma Router.publication?_open {r : Router} {uri : String} {file : Snapshot} (time : Nat)
    (hp : r.adapters.Patient) (h : r.store.get? uri = some file) :
    r.publication? uri time = (r.diagnosticsOf file).map (⟨time, uri, file.version, ·⟩) := by
  rw [publication?, h, Option.bind_some, diagnostics_result hp h]
  cases r.diagnosticsOf file <;> rfl

lemma Router.failsOn_open {r : Router} {uri : String} {file : Snapshot}
    (hp : r.adapters.Patient) (h : r.store.get? uri = some file) :
    r.failsOn uri = (r.diagnosticsOf file).isNone := by
  rw [failsOn, h, Option.any_some, diagnostics_result hp h]
  cases r.diagnosticsOf file <;> rfl

namespace Run

variable {router : Router} {now n k due : Nat} {uri : String} {r : Run}

/-- When the timer of a run fires that has not asked any service.  That of a spawned run is set when
it takes its first step. -/
def timer? (now : Nat) (r : Run) : Option Nat :=
  match r.stage with
  | .spawned delay => some (now + delay)
  | .waiting due => some due
  | .asking _ _ _ => none

/-- Only a live run publishes, and nothing but diagnostics of its file. -/
lemma steps_published {p : Publication} (h : (r.steps router now k).published = some p) :
    p.uri = r.uri ∧ r.cancelled = false := by
  induction k generalizing r with
  | zero => contradiction
  | succ k ih =>
    cases hstep : (r.step router now).run with
    | none =>
      rw [steps_succ_none hstep] at h
      obtain ⟨hlive, huri, -⟩ := published_eq_some h
      exact ⟨huri, hlive⟩
    | some x =>
      rw [steps_succ_some hstep, Progress.andThen, (quiet_of_run hstep).1] at h
      obtain ⟨-, huri, hlive⟩ := step_keeps hstep
      exact ⟨(ih h).1.trans huri, hlive⟩

/-- A run that asks services publishes what all of them find, or breaks off. -/
lemma told_asking {file : Snapshot} {version : Int} {rest : List Service}
    {found : List Diagnostic} (hp : router.adapters.Patient) (h : router.Asked file rest found) :
    let p := steps router now (rest.length + 1) ⟨uri, n, .asking version rest found, false⟩
    p.published = (router.diagnosticsOf file).map (⟨now, uri, version, ·⟩) ∧
      p.broken = (router.diagnosticsOf file).isNone := by
  induction rest generalizing found with
  | nil =>
    rw [steps_succ_none (by rw [step_publish]), step_publish, h.finish]
    exact ⟨rfl, rfl⟩
  | cons s rest ih =>
    cases hs : s.found with
    | none =>
      rw [steps_succ_none (by rw [step_ask, hs]; rfl), step_ask, h.eq_none hs, hs]
      exact ⟨rfl, rfl⟩
    | some ds =>
      have hgoes := Router.cancels_of_patient hp h.mem
      rw [List.length_cons, steps_succ_some (by rw [step_ask, hs, hgoes]; rfl), step_ask, hs]
      exact ih (h.next hs)

/-- A run whose timer has not fired tells nothing. -/
lemma told_wait (router : Router) (n : Nat) (uri : String) (k : Nat) (h : now < due) :
    let p := steps router now k ⟨uri, n, .waiting due, false⟩
    p.published = none ∧ p.broken = false := by
  induction k with
  | zero => exact ⟨rfl, rfl⟩
  | succ k ih =>
    rw [steps_succ_some (by rw [step_wait h]), step_wait h]
    exact ih

/-- A run whose timer fires publishes the diagnostics of its file, or breaks off. -/
lemma told_fire (n : Nat) (uri : String) (hp : router.adapters.Patient) (h : due ≤ now) :
    let p := settle router now ⟨uri, n, .waiting due, false⟩
    p.published = router.publication? uri now ∧ p.broken = router.failsOn uri := by
  have hweight : weight router ⟨uri, n, .waiting due, false⟩ = serviceCount router uri + 2 := rfl
  rw [settle, hweight]
  cases hfile : router.store.get? uri with
  | none =>
    rw [steps_succ_none (by rw [step_fire_closed h hfile]), step_fire_closed h hfile,
      Router.publication?, Router.failsOn, hfile]
    exact ⟨rfl, rfl⟩
  | some file =>
    have hcount : serviceCount router uri = (router.services file).length := by
      simp [serviceCount, hfile]
    have hasked : router.Asked file (router.services file) [] := Router.asked_start
    rw [hcount, steps_succ_some (by rw [step_fire h hfile]), step_fire h hfile,
      Router.publication?_open now hp hfile, Router.failsOn_open hp hfile]
    exact told_asking hp hasked

/-- The first step of a run sets its timer. -/
lemma settle_spawned (delay : Nat) : settle router now ⟨uri, n, .spawned delay, false⟩
    = Progress.andThen { run := some ⟨uri, n, .waiting (now + delay), false⟩ }
        (settle router now ⟨uri, n, .waiting (now + delay), false⟩) := by
  have hweight : weight router ⟨uri, n, .spawned delay, false⟩
      = weight router ⟨uri, n, .waiting (now + delay), false⟩ + 1 := rfl
  rw [settle, hweight, steps_succ_some (by rw [step_start]), step_start]
  rfl

/-- What comes of a live run whose timer fires at a time: until then it waits, and then it publishes
the diagnostics of its file and ends, or it breaks off. -/
structure ComesTo (r : Run) (router : Router) (now due : Nat) (p : Progress) : Prop where
  published : p.published = if due ≤ now then router.publication? r.uri now else none
  run : p.run = if due ≤ now then none else some { r with stage := .waiting due }
  broken : p.broken = (decide (due ≤ now) && router.failsOn r.uri)

/-- **What comes of a live run**: once its timer fires it publishes the diagnostics of its file or
breaks off, until then it waits. -/
theorem settle_timer (hp : router.adapters.Patient) (hlive : r.cancelled = false)
    (ht : r.timer? now = some due) : r.ComesTo router now due (r.settle router now) := by
  obtain ⟨uri, n, stage, cancelled⟩ := r
  obtain rfl : cancelled = false := hlive
  have hwaiting (stage : Stage) (due : Nat) : ComesTo ⟨uri, n, stage, false⟩ router now due
      (settle router now ⟨uri, n, .waiting due, false⟩) := by
    by_cases hdue : due ≤ now
    · obtain ⟨hpublished, hbroken⟩ := told_fire n uri hp hdue
      refine ⟨hpublished.trans (if_pos hdue).symm, (settle_fire rfl hdue).trans (if_pos hdue).symm,
        hbroken.trans ?_⟩
      rw [decide_eq_true hdue, Bool.true_and]
    · obtain ⟨hpublished, hbroken⟩ := told_wait router n uri
        (weight router ⟨uri, n, .waiting due, false⟩) (Nat.not_le.1 hdue)
      refine ⟨hpublished.trans (if_neg hdue).symm,
        (steps_wait (Nat.not_le.1 hdue)).trans (if_neg hdue).symm, hbroken.trans ?_⟩
      rw [decide_eq_false hdue, Bool.false_and]
  cases stage with
  | spawned delay =>
    obtain rfl : now + delay = due := Option.some.inj ht
    rw [settle_spawned]
    have h := hwaiting (.spawned delay) (now + delay)
    exact ⟨h.published, h.run, h.broken⟩
  | waiting d =>
    obtain rfl : d = due := Option.some.inj ht
    exact hwaiting _ d
  | asking => contradiction

end Run

/-! ## The awaited run of a file -/

namespace Scheduler

/-- The live run of a file, if there is one, is the given one, and the given number is pending.  If
a run has this number, it is the live one. -/
structure Awaits (s : Scheduler) (uri : String) (o : Option Run) (n : Option Nat) : Prop where
  live : ∀ r, r ∈ s.runs ∧ r.uri = uri ∧ r.cancelled = false ↔ r ∈ o
  pending : s.pending[uri]? = n
  numbered : ∀ r ∈ s.runs, r.number ∈ n → r ∈ o

variable {router : Router} {s : Scheduler} {uri u : String} {o : Option Run} {n : Option Nat}
  {r : Run}

lemma Awaits.withNow (h : s.Awaits u o n) (time : Nat) :
    ({ s with now := time } : Scheduler).Awaits u o n :=
  ⟨h.live, h.pending, h.numbered⟩

/-- The awaited run is the one that is pending. -/
lemma Awaits.number_eq (hs : s.Sound) (h : s.Awaits u (some r) n) : n = some r.number := by
  obtain ⟨hr, hu, hlive⟩ := (h.live r).2 rfl
  rw [← h.pending, ← hu]
  exact hs.live r hr hlive

theorem Awaits.cancel (hs : s.Sound) (h : s.Awaits u o n) (uri : String) :
    (s.cancel uri).Awaits u (if uri = u then none else o) (if uri = u then none else n) := by
  -- a run of another file is as it was
  have hkept {x : Run} (hu : x.uri = u) (hne : uri ≠ u) : x.cancelFor uri = x :=
    Run.cancelFor_eq_self fun he => absurd (he.symm.trans hu) hne
  refine ⟨fun r => ?_, ?_, fun r hr hn => ?_⟩
  · rw [hs.runs_cancel, List.mem_map]
    constructor
    · rintro ⟨⟨x, hx, rfl⟩, hu, hlive⟩
      obtain ⟨hne, he⟩ := Run.cancelFor_live hlive
      rw [he] at hu hlive ⊢
      rw [if_neg fun heq => hne (hu.trans heq.symm)]
      exact (h.live x).1 ⟨hx, hu, hlive⟩
    · intro hr
      split at hr
      · contradiction
      next hne =>
        obtain ⟨hx, hu, hlive⟩ := (h.live r).2 hr
        exact ⟨⟨r, hx, hkept hu hne⟩, hu, hlive⟩
  · rw [pending_cancel, h.pending]
  · split at hn
    · contradiction
    next hne =>
      rw [hs.runs_cancel] at hr
      obtain ⟨x, hx, rfl⟩ := List.mem_map.1 hr
      rw [Run.cancelFor_number] at hn
      have hxo := h.numbered x hx hn
      rwa [if_neg hne, hkept ((h.live x).2 hxo).2.1 hne]

/-- **After a request the new run is awaited.** -/
theorem Awaits.request (hs : s.Sound) (h : s.Awaits u o n) (uri : String) (delay : Nat) :
    (s.request uri delay).Awaits u
      (if uri = u then some ⟨uri, s.issued, .spawned delay, false⟩ else o)
      (if uri = u then some s.issued else n) := by
  have hcancel := h.cancel hs uri
  have hlive := hcancel.live
  have hnumbered := hcancel.numbered
  rw [hs.runs_cancel] at hlive hnumbered
  refine ⟨fun r => ?_, ?_, fun r hr hn => ?_⟩
  · rw [hs.runs_request, List.mem_append, List.mem_singleton, or_and_right, hlive]
    by_cases he : uri = u
    · rw [if_pos he, if_pos he, Option.mem_some_iff, eq_comm]
      simp only [Option.not_mem_none, false_or, and_iff_left_iff_imp]
      rintro rfl
      exact ⟨he, rfl⟩
    · rw [if_neg he, if_neg he, or_iff_left]
      rintro ⟨rfl, hu, -⟩
      exact he hu
  · rw [pending_request, h.pending]
  · rw [hs.runs_request, List.mem_append, List.mem_singleton] at hr
    by_cases he : uri = u
    · rw [if_pos he] at hn ⊢
      rcases hr with hr | rfl
      · -- the numbers of earlier runs were issued before
        obtain ⟨x, hx, rfl⟩ := List.mem_map.1 hr
        rw [Run.cancelFor_number, Option.mem_some_iff] at hn
        exact absurd hn (Nat.ne_of_gt (hs.issued x hx))
      · rfl
    · rw [if_neg he] at hn ⊢
      rw [if_neg he, if_neg he] at hnumbered
      rcases hr with hr | rfl
      · exact hnumbered r hr hn
      · have hpending : s.pending[u]? = some s.issued := h.pending.trans hn
        exact absurd (hs.pending u s.issued hpending).1 (Nat.lt_irrefl _)

/-! ### Cancelling all runs -/

lemma cancelRuns_eq (numbers : List Nat) (s : Scheduler) :
    numbers.foldl (fun s number => s.cancelRun number) s
      = { s with runs := s.runs.map fun r =>
            if r.number ∈ numbers then { r with cancelled := true } else r } := by
  induction numbers generalizing s with
  | nil => simp
  | cons number numbers ih =>
    rw [List.foldl_cons, ih]
    simp only [cancelRun, List.map_map]
    refine congrArg (fun runs => { s with runs }) (List.map_congr_left fun r _ => ?_)
    by_cases hn : r.number = number
    · simp [hn]
    · simp [hn]

lemma values_eq_toList (m : Std.TreeMap String Nat) : m.values = m.toList.map Prod.snd := by
  have h : m.toList = m.inner.inner.toListModel.map fun e => (e.1, e.2) :=
    Std.DTreeMap.Internal.Impl.Const.toList_eq_toListModel_map
  rw [h, List.map_map]
  exact Std.DTreeMap.Internal.Impl.values_eq_map_snd

/-- Live runs are pending, and so none is left. -/
lemma Sound.runs_cancelAll (h : s.Sound) :
    s.cancelAll.runs = s.runs.map fun r => { r with cancelled := true } := by
  simp only [Scheduler.cancelAll, cancelRuns_eq]
  refine List.map_congr_left fun r hr => ?_
  cases hlive : r.cancelled with
  | true =>
    obtain ⟨_, _, _, _⟩ := r
    obtain rfl := hlive
    exact ite_self _
  | false =>
    have hpending := h.live r hr hlive
    have hmem : r.number ∈ s.pending.values := by
      rw [values_eq_toList]
      exact List.mem_map.2 ⟨(r.uri, r.number),
        Std.TreeMap.mem_toList_iff_getElem?_eq_some.2 hpending, rfl⟩
    exact if_pos hmem

theorem Awaits.cancelAll (hs : s.Sound) (u : String) : s.cancelAll.Awaits u none none := by
  refine ⟨fun r => ?_, ?_, nofun⟩
  · rw [hs.runs_cancelAll, List.mem_map]
    constructor
    · rintro ⟨⟨x, -, rfl⟩, -, hlive⟩
      contradiction
    · nofun
  · simp [Scheduler.cancelAll]

theorem Sound.cancelAll (h : s.Sound) : s.cancelAll.Sound := by
  have hissued : s.cancelAll.issued = s.issued := by
    simp only [Scheduler.cancelAll, cancelRuns_eq]
  refine ⟨?_, ?_, ?_, ?_⟩
  · rw [h.runs_cancelAll, List.map_map]
    exact h.nodup
  · rw [h.runs_cancelAll, List.forall_mem_map, hissued]
    exact h.issued
  · rw [h.runs_cancelAll, List.forall_mem_map]
    nofun
  · intro u n hu
    simp [Scheduler.cancelAll] at hu

/-! ### Settling -/

/-- **A run that ends does not take another out of its place**: whatever comes of a run that is not
awaited, the awaited run still is, and nothing is published of its file. -/
theorem Awaits.settle_other (router : Router) (hs : s.Sound) (h : s.Awaits u o n) {number : Nat}
    (hne : ∀ r ∈ o, r.number ≠ number) :
    (s.settle router number).1.Awaits u o n ∧
      (s.settle router number).2.publications.filter (·.uri = u) = [] := by
  rcases s.exists_number number with ⟨x, hx, rfl⟩ | hnone
  · have hstale : ¬ (x.uri = u ∧ x.cancelled = false) := fun hlive =>
      hne x ((h.live x).1 ⟨hx, hlive⟩) rfl
    have hother : x.number ∉ n := fun hn => hne x (h.numbered x hx hn) rfl
    rw [settle_eq hs hx]
    refine ⟨?_, ?_⟩
    · cases hrun : (x.settle router s.now).run with
      | none =>
        refine ⟨fun r => ?_, ?_, fun r hr hn => ?_⟩
        · rw [mem_update_none hs hx hrun, ← h.live r]
          refine ⟨fun hr => ⟨hr.1.1, hr.2⟩, fun hr => ⟨⟨hr.1, ?_⟩, hr.2⟩⟩
          rintro rfl
          exact hstale hr.2
        · rw [pending_update_of_none hrun, if_neg, h.pending]
          rintro ⟨-, -, hp⟩
          exact hother (h.pending.symm.trans hp)
        · exact h.numbered r ((mem_update_none hs hx hrun).1 hr).1 hn
      | some y =>
        obtain ⟨hnumber, huri, hlive⟩ := Run.steps_keeps hrun
        have hpending : (s.update x (x.settle router s.now)).pending = s.pending := by
          rw [update_of_some hrun]
        refine ⟨fun r => ?_, hpending.symm ▸ h.pending, fun r hr hn => ?_⟩
        · rw [mem_update_some hs hx hrun, ← h.live r]
          constructor
          · rintro ⟨rfl | hr, hu⟩
            · exact absurd ⟨huri ▸ hu.1, hlive hu.2⟩ hstale
            · exact ⟨hr.1, hu⟩
          · rintro ⟨hr, hu⟩
            refine ⟨Or.inr ⟨hr, ?_⟩, hu⟩
            rintro rfl
            exact hstale hu
        · rcases (mem_update_some hs hx hrun).1 hr with rfl | ⟨hr, -⟩
          · exact absurd (hnumber ▸ hn) hother
          · exact h.numbered r hr hn
    · rw [List.filter_eq_nil_iff]
      intro p hp hu
      obtain ⟨huri, hlive⟩ := Run.steps_published (Option.mem_toList.1 hp)
      exact hstale ⟨huri ▸ of_decide_eq_true hu, hlive⟩
  · rw [settle_absent hnone]
    exact ⟨h, rfl⟩

/-- The number that is pending after the awaited run has made some progress. -/
def pendingAfter (p : Progress) (n : Option Nat) : Option Nat :=
  if p.run.isSome ∨ p.broken then n else none

/-- What comes of the awaited run is awaited, and what it publishes is all that is published of its
file. -/
theorem Awaits.settle_own (router : Router) (hs : s.Sound) (h : s.Awaits u (some r) n) :
    let p := r.settle router s.now
    (s.settle router r.number).1.Awaits u p.run (pendingAfter p n) ∧
      (s.settle router r.number).2.publications.filter (·.uri = u) = p.published.toList := by
  intro p
  obtain ⟨hr, hu, hlive⟩ := (h.live r).2 rfl
  have hn := h.number_eq hs
  have hown {y : Run} (hy : y ∈ s.runs ∧ y ≠ r) : ¬ (y.uri = u ∧ y.cancelled = false) := fun hc =>
    hy.2 (Option.some.inj ((h.live y).1 ⟨hy.1, hc⟩)).symm
  have hothers {y : Run} (hy : y ∈ s.runs ∧ y ≠ r) : y.number ∉ n := fun hyn =>
    hy.2 (Option.some.inj (h.numbered y hy.1 hyn)).symm
  rw [settle_eq hs hr]
  refine ⟨?_, ?_⟩
  · cases hrun : p.run with
    | none =>
      have hpending : (s.update r p).pending[u]? = pendingAfter p n := by
        rw [pending_update_of_none hrun, h.pending, pendingAfter, hrun]
        cases p.broken <;> simp [hu, hn]
      refine ⟨fun y => ?_, hpending, fun y hy hyn => ?_⟩
      · rw [mem_update_none hs hr hrun]
        exact ⟨fun hy => absurd hy.2 (hown hy.1), nofun⟩
      · refine absurd ?_ (hothers ((mem_update_none hs hr hrun).1 hy))
        rw [pendingAfter] at hyn
        split at hyn
        · exact hyn
        · contradiction
    | some x =>
      obtain ⟨hnumber, huri, -⟩ := Run.steps_keeps hrun
      have hwaits := Run.settle_waits hrun
      have hpending : pendingAfter p n = n := if_pos (.inl (by rw [hrun]; rfl))
      refine ⟨fun y => ?_, ?_, fun y hy hyn => ?_⟩
      · rw [mem_update_some hs hr hrun, Option.mem_some_iff]
        constructor
        · rintro ⟨rfl | hy, hc⟩
          · rfl
          · exact absurd hc (hown hy)
        · rintro rfl
          exact ⟨Or.inl rfl, huri.trans hu, hwaits.1⟩
      · rw [hpending, ← h.pending, update_of_some hrun]
      · rw [hpending] at hyn
        rcases (mem_update_some hs hr hrun).1 hy with rfl | hy
        · rfl
        · exact absurd hyn (hothers hy)
  · rw [List.filter_eq_self]
    intro q hq
    exact decide_eq_true ((Run.steps_published (Option.mem_toList.1 hq)).1.trans hu)

/-- Jobs for other runs leave the awaited run alone. -/
theorem Awaits.settleAll_other (router : Router) (jobs : List (Nat × Nat)) (hs : s.Sound)
    (h : s.Awaits u o n) (hne : ∀ j ∈ jobs, ∀ r ∈ o, r.number ≠ j.2) :
    (s.settleAll router jobs).1.Awaits u o n ∧
      (s.settleAll router jobs).2.publications.filter (·.uri = u) = [] := by
  induction jobs generalizing s with
  | nil => exact ⟨h, rfl⟩
  | cons j jobs ih =>
    obtain ⟨hfirst, hnone⟩ := (h.withNow j.1).settle_other router (hs.withNow j.1)
      (hne j (by simp))
    obtain ⟨hrest, hnone'⟩ := ih ((hs.withNow j.1).settle j.2) hfirst
      fun j hj => hne j (by simp [hj])
    refine ⟨hrest, ?_⟩
    rw [settleAll_cons]
    exact (List.filter_append ..).trans (by rw [hnone, hnone']; rfl)

/-- The awaited run has one job: what comes of it then is awaited afterwards. -/
theorem Awaits.settleAll_own (router : Router) {jobs : List (Nat × Nat)} {time : Nat} (hs : s.Sound)
    (h : s.Awaits u (some r) n) (hnodup : (jobs.map Prod.snd).Nodup)
    (hjob : (time, r.number) ∈ jobs) :
    let p := r.settle router time
    (s.settleAll router jobs).1.Awaits u p.run (pendingAfter p n) ∧
      (s.settleAll router jobs).2.publications.filter (·.uri = u) = p.published.toList := by
  induction jobs generalizing s with
  | nil => contradiction
  | cons j jobs ih =>
    obtain ⟨t, number⟩ := j
    rw [List.map_cons, List.nodup_cons] at hnodup
    have hs' : (({ s with now := t } : Scheduler).settle router number).1.Sound :=
      (hs.withNow t).settle number
    rw [settleAll_cons]
    rcases List.mem_cons.1 hjob with he | hrest
    · obtain ⟨rfl, rfl⟩ := Prod.mk.inj he
      obtain ⟨hfirst, hpub⟩ := (h.withNow time).settle_own router (hs.withNow time)
      have hother : ∀ j ∈ jobs, ∀ x ∈ (r.settle router time).run, x.number ≠ j.2 := by
        intro j hj x hx hn
        rw [(Run.steps_keeps hx).1] at hn
        exact hnodup.1 (List.mem_map.2 ⟨j, hj, hn.symm⟩)
      obtain ⟨hrest, hnone⟩ := hfirst.settleAll_other router jobs hs' hother
      refine ⟨hrest, (List.filter_append ..).trans ?_⟩
      rw [hpub, hnone, List.append_nil]
    · have hne : ∀ x ∈ some r, x.number ≠ number := by
        rintro x hx rfl
        obtain rfl := Option.some.inj hx
        exact hnodup.1 (List.mem_map.2 ⟨_, hrest, rfl⟩)
      obtain ⟨hfirst, hnone⟩ := (h.withNow t).settle_other router (hs.withNow t) hne
      obtain ⟨hown, hpub⟩ := ih hs' hfirst hnodup.2 hrest
      refine ⟨hown, (List.filter_append ..).trans ?_⟩
      rw [hnone, hpub, List.nil_append]

/-! ### The passing of time -/

lemma Sound.advance (h : s.Sound) (duration : Nat) : (s.advance router duration).1.Sound :=
  ((h.settleAll _).settleAll _).withNow _

/-- Without an awaited run nothing is published of a file. -/
theorem Awaits.advance_none (router : Router) (hs : s.Sound) (h : s.Awaits u none n)
    (duration : Nat) :
    (s.advance router duration).1.Awaits u none n ∧
      (s.advance router duration).2.publications.filter (·.uri = u) = [] := by
  obtain ⟨hstarted, hnone⟩ := h.settleAll_other router (s.runs.map fun r => (s.now, r.number)) hs
    nofun
  obtain ⟨hfired, hnone'⟩ := hstarted.settleAll_other router
    (Scheduler.dueUntil (s.now + duration) _) (hs.settleAll _) nofun
  refine ⟨hfired.withNow _, (List.filter_append ..).trans ?_⟩
  rw [hnone, hnone', List.nil_append]

/-- The awaited run `r` has come to its due time by `limit`, or it waits for it. -/
structure ServedBy (s : Scheduler) (published : List Publication) (router : Router) (u : String)
    (r : Run) (due limit : Nat) : Prop where
  awaits : s.Awaits u (if due ≤ limit then none else some { r with stage := .waiting due })
    (if due ≤ limit ∧ router.failsOn u = false then none else some r.number)
  published : published.filter (·.uri = u)
    = if due ≤ limit then (router.publication? u due).toList else []

/-- What comes of the awaited run when it has a job at the time when its timer fires, or before. -/
lemma Awaits.servedBy {jobs : List (Nat × Nat)} {now due : Nat} (hp : router.adapters.Patient)
    (hs : s.Sound) (h : s.Awaits u (some r) n) (hnodup : (jobs.map Prod.snd).Nodup)
    (hjob : (now, r.number) ∈ jobs) (ht : r.timer? now = some due) (hdue : now ≤ due) :
    ServedBy (s.settleAll router jobs).1 (s.settleAll router jobs).2.publications router u r due
      now := by
  obtain ⟨-, rfl, hlive⟩ := (h.live r).2 rfl
  obtain rfl := h.number_eq hs
  have hcomes := Run.settle_timer hp hlive ht
  obtain ⟨hawaits, hpublished⟩ := h.settleAll_own router hs hnodup hjob
  rw [hcomes.run] at hawaits
  rw [hcomes.published] at hpublished
  have hpending : pendingAfter (r.settle router now) (some r.number)
      = if due ≤ now ∧ router.failsOn r.uri = false then none else some r.number := by
    rw [pendingAfter, hcomes.run, hcomes.broken]
    by_cases hnow : due ≤ now <;> cases router.failsOn r.uri <;> simp [hnow]
  rw [hpending] at hawaits
  refine ⟨hawaits, hpublished.trans ?_⟩
  by_cases hnow : due ≤ now
  · rw [if_pos hnow, if_pos hnow, Nat.le_antisymm hnow hdue]
  · rw [if_neg hnow, if_neg hnow]
    rfl

/-- An awaited run whose timer is set has a job if it fires in time. -/
lemma Awaits.firedUntil {due : Nat} (limit : Nat) (hp : router.adapters.Patient) (hs : s.Sound)
    (h : s.Awaits u (some r) n) (ht : r.stage = .waiting due) :
    ServedBy (s.settleAll router (s.dueUntil limit)).1
      (s.settleAll router (s.dueUntil limit)).2.publications router u r due limit := by
  obtain ⟨hr, -, -⟩ := (h.live r).2 rfl
  have hdue : r.due? = some due := by rw [Run.due?, ht]
  by_cases hlimit : due ≤ limit
  · have htimer : r.timer? due = some due := by rw [Run.timer?, ht]
    obtain ⟨hawaits, hpublished⟩ := h.servedBy hp hs (nodup_dueUntil hs limit)
      (mem_dueUntil.2 ⟨hlimit, r, hr, hdue, rfl⟩) htimer le_rfl
    exact ⟨by simpa [hlimit] using hawaits, by simpa [hlimit] using hpublished⟩
  · have hsame : { r with stage := .waiting due } = r := by
      obtain ⟨_, _, _, _⟩ := r
      obtain rfl := ht
      rfl
    obtain ⟨hawaits, hpublished⟩ := h.settleAll_other router (s.dueUntil limit) hs
      fun j hj x hx hn => by
        obtain rfl := Option.some.inj hx
        obtain ⟨hle, y, hy, hydue, hyn⟩ := mem_dueUntil.1 hj
        obtain rfl := hs.eq_of_number hy hr (hyn.trans hn.symm)
        obtain rfl : due = j.1 := Option.some.inj (hdue.symm.trans hydue)
        exact hlimit hle
    rw [h.number_eq hs] at hawaits
    exact ⟨by simpa [hlimit, hsame] using hawaits, by simpa [hlimit] using hpublished⟩

/-- **As time passes the awaited run publishes the diagnostics of its file when it is due**, or
breaks off, and then no run is awaited; until then it goes on to be awaited. -/
theorem Awaits.advance {due : Nat} (hp : router.adapters.Patient) (hs : s.Sound)
    (h : s.Awaits u (some r) n) (ht : r.timer? s.now = some due) (hdue : s.now ≤ due)
    (duration : Nat) :
    ServedBy (s.advance router duration).1 (s.advance router duration).2.publications router u r due
      (s.now + duration) := by
  obtain ⟨hr, -, -⟩ := (h.live r).2 rfl
  have hnodup : ((s.runs.map fun r => (s.now, r.number)).map Prod.snd).Nodup := by
    rw [List.map_map]
    exact hs.nodup
  obtain ⟨hstarted, hpub⟩ := h.servedBy hp hs hnodup (List.mem_map.2 ⟨r, hr, rfl⟩) ht hdue
  have hs' : (s.settleAll router (s.runs.map fun r => (s.now, r.number))).1.Sound := hs.settleAll _
  by_cases hnow : due ≤ s.now
  · -- it is due at once, and nothing is left to be fired
    have hlimit : due ≤ s.now + duration := hnow.trans (Nat.le_add_right ..)
    rw [if_pos hnow] at hstarted hpub
    obtain ⟨hfired, hnone⟩ := hstarted.settleAll_other router
      (Scheduler.dueUntil (s.now + duration) _) hs' nofun
    refine ⟨?_, (List.filter_append ..).trans ?_⟩
    · simp only [hlimit, if_true, true_and]
      simp only [hnow, true_and] at hfired
      exact hfired.withNow _
    · rw [hpub, hnone, List.append_nil, if_pos hlimit]
  · rw [if_neg hnow] at hstarted hpub
    obtain ⟨hfired, hpub'⟩ := hstarted.firedUntil (s.now + duration) hp hs' rfl
    refine ⟨hfired.withNow _, (List.filter_append ..).trans ?_⟩
    rw [hpub, hpub']
    rfl

end Scheduler

end Mosaic
