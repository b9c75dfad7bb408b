import Mathlib
import Mosaic.Revalidation.Scheduler

/-!
# Pending runs

Cancelling goes by the numbers of pending runs, and a run is superseded when another takes its place
as the pending one.  That this reaches exactly the runs it should rests on what `Scheduler.Sound`
says: numbers tell runs apart, and a run that was not cancelled is the pending one of its file.

* `Scheduler.Sound.runs_cancel` — cancelling a file cancels exactly the runs of that file.
* `Scheduler.Sound.runs_request` — so does asking for a new run, which comes last.
* `Scheduler.Sound.cancel`, `Scheduler.Sound.request`, `Scheduler.Sound.update` — the scheduler
  stays sound.
-/

namespace Mosaic

/-- The run, cancelled if it is one of the given file. -/
def Run.cancelFor (uri : String) (r : Run) : Run :=
  if r.uri = uri then { r with cancelled := true } else r

namespace Run

variable {uri : String} {r : Run}

@[simp] lemma cancelFor_uri (uri : String) (r : Run) : (r.cancelFor uri).uri = r.uri := by
  unfold cancelFor
  split <;> rfl

@[simp] lemma cancelFor_number (uri : String) (r : Run) : (r.cancelFor uri).number = r.number := by
  unfold cancelFor
  split <;> rfl

@[simp] lemma cancelFor_stage (uri : String) (r : Run) : (r.cancelFor uri).stage = r.stage := by
  unfold cancelFor
  split <;> rfl

/-- A run that is still live afterwards is of another file, and as it was. -/
lemma cancelFor_live (h : (r.cancelFor uri).cancelled = false) :
    r.uri ≠ uri ∧ r.cancelFor uri = r := by
  unfold cancelFor at h ⊢
  split at h
  · exact absurd h (by simp)
  next hne => exact ⟨hne, if_neg hne⟩

lemma cancelFor_eq_self (h : r.uri = uri → r.cancelled = true) : r.cancelFor uri = r := by
  unfold cancelFor
  split
  next hu =>
    obtain ⟨_, _, _, _⟩ := r
    simpa using h hu
  · rfl

end Run

namespace Scheduler

/-- Numbers tell runs apart, and a run that was not cancelled is the pending one of its file. -/
structure Sound (s : Scheduler) : Prop where
  nodup : (s.runs.map (·.number)).Nodup
  issued : ∀ r ∈ s.runs, r.number < s.issued
  live : ∀ r ∈ s.runs, r.cancelled = false → s.pending[r.uri]? = some r.number
  pending : ∀ uri n, s.pending[uri]? = some n →
    n < s.issued ∧ ∀ r ∈ s.runs, r.number = n → r.uri = uri

variable {s : Scheduler} {r x : Run} {p : Progress} {uri u : String}

/-- The number tells which run it is. -/
lemma Sound.eq_of_number (h : s.Sound) (hr : r ∈ s.runs) (hx : x ∈ s.runs)
    (he : r.number = x.number) : r = x :=
  List.inj_on_of_nodup_map h.nodup hr hx he

/-- The time has no part in it. -/
lemma Sound.withNow (h : s.Sound) (time : Nat) : ({ s with now := time } : Scheduler).Sound :=
  ⟨h.nodup, h.issued, h.live, h.pending⟩

/-! ## Cancelling -/

@[simp] lemma now_cancel (uri : String) (s : Scheduler) : (s.cancel uri).now = s.now := by
  unfold cancel
  split <;> rfl

@[simp] lemma delay_cancel (uri : String) (s : Scheduler) : (s.cancel uri).delay = s.delay := by
  unfold cancel
  split <;> rfl

@[simp] lemma issued_cancel (uri : String) (s : Scheduler) : (s.cancel uri).issued = s.issued := by
  unfold cancel
  split <;> rfl

lemma pending_cancel (uri : String) (s : Scheduler) (u : String) :
    (s.cancel uri).pending[u]? = if uri = u then none else s.pending[u]? := by
  unfold cancel
  cases hp : s.pending[uri]? with
  | none =>
    by_cases he : uri = u
    · rw [if_pos he, ← he]
      exact hp
    · rw [if_neg he]
  | some n => simp only [Std.TreeMap.getElem?_erase, compare_eq_iff_eq]

/-- **Cancelling a file cancels exactly its runs**: the pending one is the only one that was not
cancelled before. -/
theorem Sound.runs_cancel (h : s.Sound) (uri : String) :
    (s.cancel uri).runs = s.runs.map (Run.cancelFor uri) := by
  unfold Scheduler.cancel
  cases hp : s.pending[uri]? with
  | none =>
    have hself : ∀ r ∈ s.runs, r.cancelFor uri = r := by
      refine fun r hr => Run.cancelFor_eq_self fun hu => ?_
      by_contra hc
      have := h.live r hr (by simpa using hc)
      rw [hu, hp] at this
      contradiction
    exact ((List.map_congr_left hself).trans (List.map_id' s.runs)).symm
  | some n =>
    simp only [cancelRun]
    refine List.map_congr_left fun r hr => ?_
    by_cases hn : r.number = n
    · rw [if_pos hn, Run.cancelFor, if_pos ((h.pending uri n hp).2 r hr hn)]
    · rw [if_neg hn]
      refine (Run.cancelFor_eq_self fun hu => ?_).symm
      by_contra hc
      have := h.live r hr (by simpa using hc)
      rw [hu, hp] at this
      exact hn (Option.some.inj this).symm

theorem Sound.cancel (h : s.Sound) (uri : String) : (s.cancel uri).Sound := by
  have hruns := h.runs_cancel uri
  refine ⟨?_, ?_, ?_, ?_⟩
  · rw [hruns, List.map_map]
    simpa [Function.comp_def] using h.nodup
  · simp only [hruns, List.forall_mem_map, issued_cancel, Run.cancelFor_number]
    exact h.issued
  · simp only [hruns, List.forall_mem_map, pending_cancel, Run.cancelFor_number, Run.cancelFor_uri]
    intro r hr hlive
    obtain ⟨hne, he⟩ := Run.cancelFor_live hlive
    rw [if_neg (Ne.symm hne), h.live r hr (he ▸ hlive)]
  · simp only [hruns, List.forall_mem_map, pending_cancel, issued_cancel, Run.cancelFor_number,
      Run.cancelFor_uri]
    intro u n hu
    split at hu
    · contradiction
    · exact h.pending u n hu

/-! ## Asking for a run -/

@[simp] lemma now_request (uri : String) (delay : Nat) (s : Scheduler) :
    (s.request uri delay).now = s.now := now_cancel uri s

@[simp] lemma delay_request (uri : String) (delay : Nat) (s : Scheduler) :
    (s.request uri delay).delay = s.delay := delay_cancel uri s

lemma delay_schedules (uris : List String) (s : Scheduler) :
    (uris.foldl (fun s uri => s.schedule uri) s).delay = s.delay := by
  induction uris generalizing s with
  | nil => rfl
  | cons uri uris ih => exact (ih (s.schedule uri)).trans (delay_request uri s.delay s)

/-- **Asking for a run cancels exactly the runs of its file**, and the new run comes last. -/
theorem Sound.runs_request (h : s.Sound) (uri : String) (delay : Nat) :
    (s.request uri delay).runs = s.runs.map (Run.cancelFor uri) ++
      [{ uri, number := s.issued, stage := .spawned delay }] := by
  simp only [Scheduler.request, h.runs_cancel uri, issued_cancel]

lemma pending_request (uri : String) (delay : Nat) (s : Scheduler) (u : String) :
    (s.request uri delay).pending[u]? = if uri = u then some s.issued else s.pending[u]? := by
  simp only [request, Std.TreeMap.getElem?_insert, compare_eq_iff_eq, issued_cancel]
  by_cases he : uri = u
  · simp only [he, if_true]
  · rw [if_neg he, if_neg he, pending_cancel, if_neg he]

theorem Sound.request (h : s.Sound) (uri : String) (delay : Nat) : (s.request uri delay).Sound := by
  have hruns := h.runs_request uri delay
  have hissued : (s.request uri delay).issued = s.issued + 1 := by
    simp [Scheduler.request]
  refine ⟨?_, ?_, ?_, ?_⟩
  · rw [hruns, List.map_append, List.map_map, List.nodup_append]
    refine ⟨by simpa [Function.comp_def] using h.nodup, List.nodup_singleton _, ?_⟩
    simp only [List.mem_map, Function.comp_apply, Run.cancelFor_number, List.map_cons, List.map_nil,
      List.mem_singleton]
    rintro n ⟨r, hr, rfl⟩ m rfl
    exact Nat.ne_of_lt (h.issued r hr)
  · simp only [hruns, List.forall_mem_append, List.forall_mem_map, List.forall_mem_singleton,
      hissued, Run.cancelFor_number]
    exact ⟨fun r hr => Nat.lt_succ_of_lt (h.issued r hr), Nat.lt_succ_self _⟩
  · simp only [hruns, List.forall_mem_append, List.forall_mem_map, List.forall_mem_singleton,
      pending_request, Run.cancelFor_number, Run.cancelFor_uri, if_true, implies_true, and_true]
    intro r hr hlive
    obtain ⟨hne, he⟩ := Run.cancelFor_live hlive
    rw [if_neg (Ne.symm hne), h.live r hr (he ▸ hlive)]
  · simp only [hruns, List.forall_mem_append, List.forall_mem_map, List.forall_mem_singleton,
      pending_request, hissued, Run.cancelFor_number, Run.cancelFor_uri]
    intro u n hu
    split at hu
    next he =>
      obtain rfl := Option.some.inj hu
      refine ⟨Nat.lt_succ_self _, fun r hr hn => ?_, fun _ => he⟩
      exact absurd hn (Nat.ne_of_lt (h.issued r hr))
    · obtain ⟨hlt, hall⟩ := h.pending u n hu
      exact ⟨Nat.lt_succ_of_lt hlt, hall, fun hn => absurd hn (Nat.ne_of_gt hlt)⟩

/-! ## Steps of runs -/

/-- Progress of a run touches neither the clock nor what is asked for. -/
lemma update_keeps (s : Scheduler) (r : Run) (p : Progress) :
    (s.update r p).now = s.now ∧ (s.update r p).delay = s.delay ∧
      (s.update r p).issued = s.issued := by
  unfold update
  split <;> exact ⟨rfl, rfl, rfl⟩

lemma update_of_some (hp : p.run = some x) : s.update r p
    = { s with runs := s.runs.map fun y => if y.number = r.number then x else y } := by
  simp only [update, hp]

lemma runs_update_of_none (hp : p.run = none) :
    (s.update r p).runs = s.runs.filter (·.number != r.number) := by
  simp only [update, hp]

/-- A run that ends stops being pending, one that breaks off does not, and no other does. -/
lemma pending_update_of_none (hp : p.run = none) (u : String) : (s.update r p).pending[u]?
    = if p.broken = false ∧ r.uri = u ∧ s.pending[u]? = some r.number then none
      else s.pending[u]? := by
  simp only [update, hp]
  by_cases hpending : p.broken = false ∧ s.pending[r.uri]? = some r.number
  · rw [if_pos hpending, Std.TreeMap.getElem?_erase]
    by_cases hu : r.uri = u
    · subst hu
      rw [if_pos (by simp), if_pos ⟨hpending.1, rfl, hpending.2⟩]
    · rw [if_neg (by simpa using hu), if_neg fun h => hu h.2.1]
  · rw [if_neg hpending, if_neg]
    rintro ⟨hbroken, rfl, hnumber⟩
    exact hpending ⟨hbroken, hnumber⟩

/-- A run that becomes `x`, in the place of one with the same number. -/
lemma mem_update_some (h : s.Sound) (hr : r ∈ s.runs) (hp : p.run = some x) {y : Run} :
    y ∈ (s.update r p).runs ↔ y = x ∨ y ∈ s.runs ∧ y ≠ r := by
  rw [update_of_some hp, List.mem_map]
  constructor
  · rintro ⟨z, hz, rfl⟩
    by_cases hn : z.number = r.number
    · exact Or.inl (if_pos hn)
    · rw [if_neg hn]
      exact Or.inr ⟨hz, fun he => hn (he ▸ rfl)⟩
  · rintro (rfl | ⟨hy, hne⟩)
    · exact ⟨r, hr, if_pos rfl⟩
    · exact ⟨y, hy, if_neg fun hn => hne (h.eq_of_number hy hr hn)⟩

lemma mem_update_none (h : s.Sound) (hr : r ∈ s.runs) (hp : p.run = none) {y : Run} :
    y ∈ (s.update r p).runs ↔ y ∈ s.runs ∧ y ≠ r := by
  rw [runs_update_of_none hp, List.mem_filter, bne_iff_ne]
  exact and_congr_right fun hy => not_congr ⟨h.eq_of_number hy hr, fun he => he ▸ rfl⟩

/-- The scheduler stays sound when a run becomes another one with its name and number, which is live
only if it was. -/
theorem Sound.update_some (h : s.Sound) (hr : r ∈ s.runs) (hp : p.run = some x)
    (hnumber : x.number = r.number) (huri : x.uri = r.uri)
    (hlive : x.cancelled = false → r.cancelled = false) : (s.update r p).Sound := by
  have hmem {y : Run} := mem_update_some h hr hp (y := y)
  have hpending : (s.update r p).pending = s.pending := by rw [update_of_some hp]
  have hissued := (update_keeps s r p).2.2
  refine ⟨?_, ?_, ?_, ?_⟩
  · have hmap : ((s.update r p).runs.map (·.number)) = s.runs.map (·.number) := by
      rw [update_of_some hp, List.map_map]
      refine List.map_congr_left fun y _ => ?_
      by_cases hn : y.number = r.number
      · simp [hn, hnumber]
      · simp [hn]
    rw [hmap]
    exact h.nodup
  · intro y hy
    rw [hissued]
    rcases hmem.1 hy with rfl | ⟨hy, -⟩
    · rw [hnumber]
      exact h.issued r hr
    · exact h.issued y hy
  · intro y hy hc
    rw [hpending]
    rcases hmem.1 hy with rfl | ⟨hy, -⟩
    · rw [huri, hnumber]
      exact h.live r hr (hlive hc)
    · exact h.live y hy hc
  · intro u n hu
    rw [hpending] at hu
    obtain ⟨hlt, hall⟩ := h.pending u n hu
    refine ⟨hissued.symm ▸ hlt, fun y hy hn => ?_⟩
    rcases hmem.1 hy with rfl | ⟨hy, -⟩
    · rw [huri]
      exact hall r hr (hnumber ▸ hn)
    · exact hall y hy hn

/-- The scheduler stays sound when a run ends or breaks off: no other run stops being pending. -/
theorem Sound.update_none (h : s.Sound) (hr : r ∈ s.runs) (hp : p.run = none) :
    (s.update r p).Sound := by
  have hmem {y : Run} := mem_update_none h hr hp (y := y)
  have hpending := pending_update_of_none (s := s) (r := r) hp
  have hissued := (update_keeps s r p).2.2
  refine ⟨?_, fun y hy => hissued.symm ▸ h.issued y (hmem.1 hy).1, fun y hy hc => ?_,
    fun u n hu => ?_⟩
  · rw [runs_update_of_none hp]
    exact h.nodup.sublist (List.Sublist.map _ List.filter_sublist)
  · obtain ⟨hy, hne⟩ := hmem.1 hy
    have hl := h.live y hy hc
    rw [hpending, if_neg, hl]
    rintro ⟨-, -, hnumber⟩
    rw [hl] at hnumber
    exact hne (h.eq_of_number hy hr (Option.some.inj hnumber))
  · rw [hpending] at hu
    split at hu
    · contradiction
    · obtain ⟨hlt, hall⟩ := h.pending u n hu
      exact ⟨hissued.symm ▸ hlt, fun y hy hn => hall y (hmem.1 hy).1 hn⟩

/-- **Whatever comes of a run, the scheduler stays sound**, if the run keeps its name and number and
does not come back to life. -/
theorem Sound.update (h : s.Sound) (hr : r ∈ s.runs) (hp : ∀ x, p.run = some x →
    x.number = r.number ∧ x.uri = r.uri ∧ (x.cancelled = false → r.cancelled = false)) :
    (s.update r p).Sound := by
  cases hrun : p.run with
  | none => exact h.update_none hr hrun
  | some x =>
    obtain ⟨hnumber, huri, hlive⟩ := hp x hrun
    exact h.update_some hr hrun hnumber huri hlive

end Scheduler

end Mosaic
