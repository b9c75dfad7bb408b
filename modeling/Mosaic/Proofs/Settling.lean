import Mosaic.Proofs.PendingRuns
import Mosaic.Proofs.ValidationRun

/-!
# Settling runs

To settle a run is to take all steps that it can take at one moment.  What is left of it then can
only wait for its timer (`Run.Waits`), and so the runs of a scheduler that was settled job by job
are those whose timers fire later.

* `Run.settle_waits` — a run that was settled has ended, or it waits.
* `Scheduler.settleAll_waits` — after some jobs all runs wait, if those without a job did.
* `Scheduler.mem_dueUntil` — the jobs that are due until a time.
-/

namespace Mosaic

namespace Run

variable {router : Router} {now n k : Nat} {uri : String} {r x : Run}

/-- The run is live, and its timer fires later than the given time. -/
def Waits (time : Nat) (r : Run) : Prop :=
  r.cancelled = false ∧ ∃ due, r.stage = .waiting due ∧ time < due

/-- A run keeps its name and its number from step to step, and only a live one goes on. -/
lemma step_keeps (h : (r.step router now).run = some x) :
    x.number = r.number ∧ x.uri = r.uri ∧ r.cancelled = false := by
  obtain ⟨uri, n, stage, cancelled⟩ := r
  cases cancelled with
  | true => simp [step] at h
  | false =>
    cases stage with
    | spawned delay =>
      obtain rfl := Option.some.inj h
      exact ⟨rfl, rfl, rfl⟩
    | waiting due =>
      by_cases hdue : due ≤ now
      · rw [show step router now ⟨uri, n, .waiting due, false⟩
          = { run := fire router ⟨uri, n, .waiting due, false⟩ } by simp [step, hdue]] at h
        obtain ⟨file, -, rfl⟩ := Option.map_eq_some_iff.1 h
        exact ⟨rfl, rfl, rfl⟩
      · rw [step_wait (Nat.not_le.1 hdue)] at h
        obtain rfl := Option.some.inj h
        exact ⟨rfl, rfl, rfl⟩
    | asking version rest found =>
      cases rest with
      | nil => contradiction
      | cons s rest =>
        rw [step_ask] at h
        obtain ⟨ds, -, rfl⟩ := Option.map_eq_some_iff.1 h
        exact ⟨rfl, rfl, rfl⟩

/-- A run that goes on has published nothing, and it has not broken off. -/
lemma quiet_of_run (h : (r.step router now).run = some x) :
    (r.step router now).published = none ∧ (r.step router now).broken = false := by
  obtain ⟨uri, n, stage, cancelled⟩ := r
  obtain rfl : cancelled = false := (step_keeps h).2.2
  match stage with
  | .spawned delay => exact ⟨rfl, rfl⟩
  | .waiting due =>
    by_cases hdue : due ≤ now
    · simp [step, hdue]
    · simp [step, hdue]
  | .asking version (s :: rest) found =>
    rw [step_ask] at h ⊢
    obtain ⟨ds, hs, -⟩ := Option.map_eq_some_iff.1 h
    exact ⟨rfl, by rw [hs]; rfl⟩
  | .asking version [] found => contradiction

lemma steps_succ_none (h : (r.step router now).run = none) :
    r.steps router now (k + 1) = r.step router now := by
  rw [steps]
  split
  · rfl
  next he => rw [h] at he; contradiction

lemma steps_succ_some (h : (r.step router now).run = some x) :
    r.steps router now (k + 1) = (r.step router now).andThen (x.steps router now k) := by
  rw [steps]
  split
  next he => rw [h] at he; contradiction
  next y he => rw [Option.some.inj (h.symm.trans he)]

/-- Steps keep the name and the number, and only a live run goes on to be live. -/
lemma steps_keeps (h : (r.steps router now k).run = some x) :
    x.number = r.number ∧ x.uri = r.uri ∧ (x.cancelled = false → r.cancelled = false) := by
  induction k generalizing r with
  | zero =>
    obtain rfl := Option.some.inj h
    exact ⟨rfl, rfl, id⟩
  | succ k ih =>
    cases hstep : (r.step router now).run with
    | none =>
      rw [steps_succ_none hstep, hstep] at h
      contradiction
    | some y =>
      rw [steps_succ_some hstep] at h
      obtain ⟨h1, h2, -⟩ := ih h
      obtain ⟨h3, h4, h5⟩ := step_keeps hstep
      exact ⟨h1.trans h3, h2.trans h4, fun _ => h5⟩

/-- A run that a step leaves as it is waits for its timer. -/
lemma waits_of_step_eq (h : (r.step router now).run = some r) : r.Waits now := by
  obtain ⟨-, -, hlive⟩ := step_keeps h
  obtain ⟨uri, n, stage, cancelled⟩ := r
  obtain rfl : cancelled = false := hlive
  cases stage with
  | spawned delay =>
    have hstage := congrArg Run.stage (Option.some.inj h)
    contradiction
  | waiting due =>
    refine ⟨rfl, due, rfl, Nat.lt_of_not_le fun hdue => ?_⟩
    rw [show step router now ⟨uri, n, .waiting due, false⟩
      = { run := fire router ⟨uri, n, .waiting due, false⟩ } by simp [step, hdue]] at h
    obtain ⟨file, -, he⟩ := Option.map_eq_some_iff.1 h
    have hstage := congrArg Run.stage he
    contradiction
  | asking version rest found =>
    cases rest with
    | nil => contradiction
    | cons s rest =>
      rw [step_ask] at h
      obtain ⟨ds, -, he⟩ := Option.map_eq_some_iff.1 h
      have hrest : rest = s :: rest := by
        injection congrArg Run.stage he
      exact absurd hrest.symm (List.cons_ne_self s rest)

/-! ## All steps at one moment -/

lemma steps_cancelled (h : r.cancelled) : (r.steps router now (k + 1)).run = none := by
  have hstep : (r.step router now).run = none := by rw [step_cancelled h]
  rw [steps_succ_none hstep, hstep]

/-- A run that asks services comes to its end in one step for each, and one more. -/
lemma steps_asking (version : Int) (rest : List Service) (found : List Diagnostic)
    (cancelled : Bool) :
    (steps router now (rest.length + 1) ⟨uri, n, .asking version rest found, cancelled⟩).run
      = none := by
  induction rest generalizing found cancelled with
  | nil => cases cancelled <;> rfl
  | cons s rest ih =>
    cases cancelled with
    | true => exact steps_cancelled rfl
    | false =>
      cases hs : s.found with
      | none =>
        have hstep : (step router now ⟨uri, n, .asking version (s :: rest) found, false⟩).run
            = none := by
          rw [step_ask, hs]
          rfl
        rw [steps_succ_none hstep, hstep]
      | some ds =>
        have hstep : (step router now ⟨uri, n, .asking version (s :: rest) found, false⟩).run
            = some ⟨uri, n, .asking version rest (found ++ ds),
              (s.adapter.validate s.document).cancels⟩ := by
          rw [step_ask, hs]
          rfl
        rw [List.length_cons, steps_succ_some hstep]
        exact ih (found ++ ds) _

/-- A run whose timer has not fired stays as it is. -/
lemma steps_wait {due : Nat} (h : now < due) :
    (steps router now k ⟨uri, n, .waiting due, false⟩).run
      = some ⟨uri, n, .waiting due, false⟩ := by
  induction k with
  | zero => rfl
  | succ k ih =>
    rw [steps_succ_some (by rw [step_wait h])]
    exact ih

/-- How many services a run has to ask. -/
def serviceCount (router : Router) (uri : String) : Nat :=
  ((router.store.get? uri).map fun file => (router.services file).length).getD 0

/-- A run whose timer fires comes to its end. -/
lemma steps_fire {due : Nat} (h : due ≤ now) :
    (steps router now (serviceCount router uri + 2) ⟨uri, n, .waiting due, false⟩).run = none := by
  cases hfile : router.store.get? uri with
  | none =>
    have hstep : (step router now ⟨uri, n, .waiting due, false⟩).run = none := by
      rw [step_fire_closed h hfile]
    rw [steps_succ_none hstep, hstep]
  | some file =>
    have hcount : serviceCount router uri = (router.services file).length := by
      simp [serviceCount, hfile]
    rw [hcount, steps_succ_some (by rw [step_fire h hfile])]
    exact steps_asking file.version (router.services file) [] false

/-- **A run that was settled has ended, or it waits for its timer.** -/
theorem settle_waits (h : (r.settle router now).run = some x) : x.Waits now := by
  obtain ⟨uri, n, stage, cancelled⟩ := r
  rw [settle] at h
  cases cancelled with
  | true =>
    have hweight : ∃ k, weight router ⟨uri, n, stage, true⟩ = k + 1 := by
      cases stage with
      | spawned => exact ⟨_, rfl⟩
      | waiting => exact ⟨_, rfl⟩
      | asking => exact ⟨_, rfl⟩
    obtain ⟨k, hk⟩ := hweight
    rw [hk, steps_cancelled rfl] at h
    contradiction
  | false =>
    -- what is left of a run that waits
    have hwaits {due : Nat} (hx : (steps router now (serviceCount router uri + 2)
        ⟨uri, n, .waiting due, false⟩).run = some x) : x.Waits now := by
      by_cases hdue : due ≤ now
      · rw [steps_fire hdue] at hx
        contradiction
      · rw [steps_wait (Nat.not_le.1 hdue)] at hx
        obtain rfl := Option.some.inj hx
        exact ⟨rfl, due, rfl, Nat.not_le.1 hdue⟩
    cases stage with
    | spawned delay =>
      have hweight : weight router ⟨uri, n, .spawned delay, false⟩
          = serviceCount router uri + 2 + 1 := rfl
      rw [hweight, steps_succ_some (by rw [step_start])] at h
      exact hwaits h
    | waiting due => exact hwaits h
    | asking version rest found =>
      have hweight : weight router ⟨uri, n, .asking version rest found, false⟩
          = rest.length + 1 := rfl
      rw [hweight, steps_asking] at h
      contradiction

/-- A run whose timer has fired comes to its end when it is settled. -/
lemma settle_fire {due : Nat} (hstage : r.stage = .waiting due) (h : due ≤ now) :
    (r.settle router now).run = none := by
  obtain ⟨uri, n, stage, cancelled⟩ := r
  obtain rfl : stage = .waiting due := hstage
  have hweight : weight router ⟨uri, n, .waiting due, cancelled⟩
      = serviceCount router uri + 2 := rfl
  rw [settle, hweight]
  cases cancelled with
  | true => exact steps_cancelled rfl
  | false => exact steps_fire h

end Run

/-! ## Settling a scheduler -/

namespace Scheduler

variable {router : Router} {s : Scheduler} {r x : Run} {number : Nat}

lemma find?_number (h : s.Sound) (hr : r ∈ s.runs) :
    s.runs.find? (·.number = r.number) = some r := by
  have hsome : (s.runs.find? (·.number = r.number)).isSome :=
    List.find?_isSome.2 ⟨r, hr, by simp⟩
  obtain ⟨x, hx⟩ := Option.isSome_iff_exists.1 hsome
  have hn : x.number = r.number := by simpa using List.find?_some hx
  rw [hx, h.eq_of_number (List.mem_of_find?_eq_some hx) hr hn]

/-- What settling does to the run with a number. -/
lemma settle_eq (h : s.Sound) (hr : r ∈ s.runs) :
    s.settle router r.number = (s.update r (r.settle router s.now),
      ⟨(r.settle router s.now).calls, (r.settle router s.now).published.toList⟩) := by
  simp only [settle, find?_number h hr]

lemma settle_absent (h : ∀ r ∈ s.runs, r.number ≠ number) : s.settle router number = (s, {}) := by
  have hnone : s.runs.find? (·.number = number) = none := by
    rw [List.find?_eq_none]
    simpa using h
  simp only [settle, hnone]

/-- Either there is a run with the number, or none. -/
lemma exists_number (s : Scheduler) (number : Nat) :
    (∃ r ∈ s.runs, r.number = number) ∨ ∀ r ∈ s.runs, r.number ≠ number := by
  by_cases h : ∃ r ∈ s.runs, r.number = number
  · exact Or.inl h
  · exact Or.inr fun r hr he => h ⟨r, hr, he⟩

lemma Sound.settle (h : s.Sound) (number : Nat) : (s.settle router number).1.Sound := by
  rcases s.exists_number number with ⟨r, hr, rfl⟩ | hnone
  · rw [settle_eq h hr]
    exact h.update hr fun x hx => Run.steps_keeps hx
  · rwa [settle_absent hnone]

/-- Settling a run leaves all others as they are. -/
lemma mem_runs_settle (h : s.Sound) {y : Run} (hy : y ∈ (s.settle router number).1.runs) :
    y ∈ s.runs ∧ y.number ≠ number ∨
      ∃ r ∈ s.runs, r.number = number ∧ (r.settle router s.now).run = some y := by
  rcases s.exists_number number with ⟨r, hr, rfl⟩ | hnone
  · rw [settle_eq h hr] at hy
    have hother (hy' : y ∈ s.runs ∧ y ≠ r) : y ∈ s.runs ∧ y.number ≠ r.number :=
      ⟨hy'.1, fun hn => hy'.2 (h.eq_of_number hy'.1 hr hn)⟩
    cases hx : (r.settle router s.now).run with
    | none => exact Or.inl (hother ((mem_update_none h hr hx).1 hy))
    | some x =>
      rcases (mem_update_some h hr hx).1 hy with rfl | hy'
      · exact Or.inr ⟨r, hr, rfl, hx⟩
      · exact Or.inl (hother hy')
  · rw [settle_absent hnone] at hy
    exact Or.inl ⟨hy, hnone y hy⟩

lemma now_settle (s : Scheduler) (number : Nat) : (s.settle router number).1.now = s.now := by
  unfold settle
  split
  · rfl
  · exact (update_keeps s _ _).1

lemma delay_settle (s : Scheduler) (number : Nat) :
    (s.settle router number).1.delay = s.delay := by
  unfold settle
  split
  · rfl
  · exact (update_keeps s _ _).2.1

lemma settleAll_cons (time : Nat) (jobs : List (Nat × Nat)) (s : Scheduler) :
    s.settleAll router ((time, number) :: jobs)
      = let first := ({ s with now := time } : Scheduler).settle router number
        ((first.1.settleAll router jobs).1, first.2 ++ (first.1.settleAll router jobs).2) :=
  rfl

/-- Jobs never set the clock later than all of them. -/
lemma now_settleAll_le {limit : Nat} (jobs : List (Nat × Nat)) (s : Scheduler)
    (hjobs : ∀ j ∈ jobs, j.1 ≤ limit) (hnow : s.now ≤ limit) :
    (s.settleAll router jobs).1.now ≤ limit := by
  induction jobs generalizing s with
  | nil => exact hnow
  | cons j jobs ih =>
    obtain ⟨time, number⟩ := j
    rw [settleAll_cons]
    refine ih _ (fun j hj => hjobs j (by simp [hj])) ?_
    rw [now_settle]
    exact hjobs (time, number) (by simp)

lemma delay_settleAll (jobs : List (Nat × Nat)) (s : Scheduler) :
    (s.settleAll router jobs).1.delay = s.delay := by
  induction jobs generalizing s with
  | nil => rfl
  | cons j jobs ih =>
    obtain ⟨time, number⟩ := j
    rw [settleAll_cons, ih, delay_settle]

/-- **After some jobs all runs wait**: a run with a job because it was settled, all others because
they waited before. -/
theorem settleAll_waits {limit : Nat} (jobs : List (Nat × Nat)) (h : s.Sound)
    (hnodup : (jobs.map Prod.snd).Nodup)
    (hjobs : ∀ j ∈ jobs, ∀ r ∈ s.runs, r.number = j.2 → ∀ x, (r.settle router j.1).run = some x →
      x.Waits limit)
    (hothers : ∀ r ∈ s.runs, (∀ j ∈ jobs, j.2 ≠ r.number) → r.Waits limit) :
    ∀ r ∈ (s.settleAll router jobs).1.runs, r.Waits limit := by
  induction jobs generalizing s with
  | nil => exact fun r hr => hothers r hr (by simp)
  | cons j jobs ih =>
    obtain ⟨time, number⟩ := j
    rw [List.map_cons, List.nodup_cons] at hnodup
    have hnow : ({ s with now := time } : Scheduler).Sound := h.withNow time
    have hnumber (j : Nat × Nat) (hj : j ∈ jobs) : j.2 ≠ number :=
      fun he => hnodup.1 (List.mem_map.2 ⟨j, hj, he⟩)
    rw [settleAll_cons]
    refine ih (hnow.settle number) hnodup.2 (fun j hj r hr hn x hx => ?_) (fun r hr hno => ?_)
    · rcases mem_runs_settle hnow hr with ⟨hr', -⟩ | ⟨y, -, hy, hyr⟩
      · exact hjobs j (by simp [hj]) r hr' hn x hx
      · -- the run of this job has another number
        exact absurd (hn.symm.trans ((Run.steps_keeps hyr).1.trans hy)) (hnumber j hj)
    · rcases mem_runs_settle hnow hr with ⟨hr', hne⟩ | ⟨y, hy, hyn, hyr⟩
      · refine hothers r hr' fun j hj => ?_
        rcases List.mem_cons.1 hj with rfl | hj
        · exact Ne.symm hne
        · exact hno j hj
      · exact hjobs (time, number) (by simp) y hy hyn r hyr

lemma Sound.settleAll (jobs : List (Nat × Nat)) (h : s.Sound) :
    (s.settleAll router jobs).1.Sound := by
  induction jobs generalizing s with
  | nil => exact h
  | cons j jobs ih => exact ih ((h.withNow j.1).settle j.2)

/-! ## Due jobs -/

/-- The jobs that are due until a time are those of the runs whose timers fire until then. -/
lemma mem_dueUntil {limit : Nat} {j : Nat × Nat} :
    j ∈ s.dueUntil limit ↔ j.1 ≤ limit ∧ ∃ r ∈ s.runs, r.due? = some j.1 ∧ r.number = j.2 := by
  obtain ⟨time, number⟩ := j
  simp only [dueUntil, List.mem_mergeSort, List.mem_filter, List.mem_filterMap,
    Option.map_eq_some_iff, Prod.mk.injEq, decide_eq_true_eq]
  constructor
  · rintro ⟨⟨r, hr, t, ht, rfl, rfl⟩, hle⟩
    exact ⟨hle, r, hr, ht, rfl⟩
  · rintro ⟨hle, r, hr, ht, rfl⟩
    exact ⟨⟨r, hr, time, ht, rfl, rfl⟩, hle⟩

lemma pairwise_dueUntil (s : Scheduler) (limit : Nat) :
    (s.dueUntil limit).Pairwise fun a b => a.1 ≤ b.1 := by
  have htrans (a b c : Nat × Nat) (hab : decide (a.1 ≤ b.1)) (hbc : decide (b.1 ≤ c.1)) :
      decide (a.1 ≤ c.1) :=
    decide_eq_true ((of_decide_eq_true hab).trans (of_decide_eq_true hbc))
  have htotal (a b : Nat × Nat) : decide (a.1 ≤ b.1) || decide (b.1 ≤ a.1) := by
    simpa using Nat.le_total a.1 b.1
  exact (List.pairwise_mergeSort htrans htotal _).imp of_decide_eq_true

lemma sublist_numbers (runs : List Run) :
    ((runs.filterMap fun r => r.due?.map (·, r.number)).map Prod.snd).Sublist
      (runs.map (·.number)) := by
  induction runs with
  | nil => exact List.Sublist.refl _
  | cons r runs ih =>
    cases hdue : r.due? with
    | none => simpa [hdue] using ih.cons r.number
    | some due => simpa [hdue] using ih

/-- No run is due twice. -/
lemma nodup_dueUntil (h : s.Sound) (limit : Nat) : ((s.dueUntil limit).map Prod.snd).Nodup := by
  refine (List.Perm.nodup_iff ((List.mergeSort_perm _ _).map _)).2 ?_
  refine List.Nodup.sublist (List.Sublist.map _ List.filter_sublist) ?_
  exact h.nodup.sublist (sublist_numbers s.runs)

end Scheduler

end Mosaic
