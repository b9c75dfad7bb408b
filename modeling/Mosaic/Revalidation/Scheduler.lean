import Mosaic.Revalidation.Run
import Mosaic.Settings.Basic

/-!
# When files are validated

After each edit a file is validated anew, but not before the edits have paused for a while: a
request for validation supersedes the one before it for the same file, and only the run that lives
until its timer fires publishes anything.

* `Scheduler.schedule` and `Scheduler.validateNow` ask for a run, `Scheduler.cancel` and
  `Scheduler.cancelAll` take it back.
* `Scheduler.advance` lets time pass, and runs what becomes due.

For each file the run asked for last is *pending*; it alone can still be cancelled.  A run that has
ended is pending no longer, but one that has broken off is until another request for its file.
-/

namespace Mosaic

/-- The runs that have been asked for, and the clock. -/
structure Scheduler where
  /-- The time, in milliseconds. -/
  now : Nat := 0
  /-- How long runs asked for from now on wait. -/
  delay : Nat := defaultDelay
  /-- How many runs have ever been asked for. -/
  issued : Nat := 0
  /-- The runs that have not ended, in the order in which they were asked for. -/
  runs : List Run := []
  /-- The number of the pending run of each file. -/
  pending : Std.TreeMap String Nat := ∅

/-- What runs have done: calls to adapters, and publications. -/
structure Report where
  calls : List Call := []
  publications : List Publication := []

instance : Append Report where
  append a b := ⟨a.calls ++ b.calls, a.publications ++ b.publications⟩

namespace Scheduler

/-! ## Requests -/

/-- Chooses how long runs asked for from now on wait. -/
def setDelay (delay : Nat) (s : Scheduler) : Scheduler :=
  { s with delay }

/-- Cancels the run with the given number. -/
def cancelRun (number : Nat) (s : Scheduler) : Scheduler :=
  { s with
    runs := s.runs.map fun r => if r.number = number then { r with cancelled := true } else r }

/-- Cancels the pending run of a file. -/
def cancel (uri : String) (s : Scheduler) : Scheduler :=
  match s.pending[uri]? with
  | none => s
  | some number => { s.cancelRun number with pending := s.pending.erase uri }

/-- Cancels all pending runs. -/
def cancelAll (s : Scheduler) : Scheduler :=
  { s.pending.values.foldl (fun s number => s.cancelRun number) s with pending := ∅ }

/-- Asks for a run after a delay, in the place of the pending one. -/
def request (uri : String) (delay : Nat) (s : Scheduler) : Scheduler :=
  let s := s.cancel uri
  { s with
    issued := s.issued + 1
    runs := s.runs ++ [{ uri, number := s.issued, stage := .spawned delay }]
    pending := s.pending.insert uri s.issued }

/-- Asks for a run after the usual delay. -/
def schedule (uri : String) (s : Scheduler) : Scheduler :=
  s.request uri s.delay

/-- Asks for a run without delay. -/
def validateNow (uri : String) (s : Scheduler) : Scheduler :=
  s.request uri 0

/-! ## The passing of time -/

/-- The scheduler after a run has made some progress.  A run that ends stops being pending, unless
another one has taken its place; one that breaks off has no time to see to that. -/
def update (r : Run) (p : Progress) (s : Scheduler) : Scheduler :=
  match p.run with
  | some new => { s with runs := s.runs.map fun x => if x.number = r.number then new else x }
  | none =>
    { s with
      runs := s.runs.filter (·.number != r.number)
      pending :=
        if p.broken = false ∧ s.pending[r.uri]? = some r.number then s.pending.erase r.uri
        else s.pending }

/-- Takes all steps that the run with the given number can take now. -/
def settle (router : Router) (number : Nat) (s : Scheduler) : Scheduler × Report :=
  match s.runs.find? (·.number = number) with
  | none => (s, {})
  | some r =>
    let p := r.settle router s.now
    (s.update r p, ⟨p.calls, p.published.toList⟩)

/-- Takes all steps that the runs with the given numbers can take, each at its time. -/
def settleAll (router : Router) : List (Nat × Nat) → Scheduler → Scheduler × Report
  | [], s => (s, {})
  | (time, number) :: rest, s =>
    let (s, first) := settle router number { s with now := time }
    let (s, others) := settleAll router rest s
    (s, first ++ others)

/-- The runs whose timers fire up to a time, with the times, the earliest first. -/
def dueUntil (limit : Nat) (s : Scheduler) : List (Nat × Nat) :=
  let timers := s.runs.filterMap fun r => r.due?.map (·, r.number)
  (timers.filter (·.1 ≤ limit)).mergeSort fun a b => a.1 ≤ b.1

/-- Lets time pass.  Runs are started first; then those run whose timers fire in this time, in
the order of their timers. -/
def advance (router : Router) (duration : Nat) (s : Scheduler) : Scheduler × Report :=
  let limit := s.now + duration
  let (s, started) := settleAll router (s.runs.map fun r => (s.now, r.number)) s
  let (s, fired) := settleAll router (s.dueUntil limit) s
  ({ s with now := limit }, started ++ fired)

end Scheduler

end Mosaic
