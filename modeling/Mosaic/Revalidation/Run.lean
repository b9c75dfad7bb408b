import Mosaic.Routing.WholeFile

/-!
# One run of validation

A `Run` validates one file, once, after a delay.  It goes through three stages: it is spawned, it
waits for its timer, and then it asks one service after the other for diagnostics.  `Run.step` is
one step of it, at whose end other work may come in between; a run that was cancelled in the
meantime ends without a publication.  A run breaks off if it gets an answer that cannot be sent.

`Run.settle` takes all steps that can be taken at one moment.
-/

namespace Mosaic

/-- Diagnostics that are sent to the client, and what they are of. -/
structure Publication where
  /-- When they are sent, in milliseconds. -/
  time : Nat
  uri : String
  version : Int
  diagnostics : List Diagnostic
  deriving Repr

/-- How far a run has come. -/
inductive Stage where
  /-- It has not been started.  When it is, its timer is set to the delay. -/
  | spawned (delay : Nat)
  /-- It waits until its timer fires. -/
  | waiting (due : Nat)
  /-- Its timer has fired, when the file had the given version.  Some services are still to be
  asked, the others have found some diagnostics. -/
  | asking (version : Int) (rest : List Service) (found : List Diagnostic)

/-- One run of the validation of a file. -/
structure Run where
  uri : String
  /-- What tells this run from all others. -/
  number : Nat
  stage : Stage
  cancelled : Bool := false

/-- What comes of a run. -/
structure Progress where
  /-- The run, unless it has ended. -/
  run : Option Run
  /-- The calls to adapters, in order. -/
  calls : List Call := []
  published : Option Publication := none
  /-- Whether it has broken off, because an answer cannot be sent. -/
  broken : Bool := false

/-- What comes of a run that has made some progress and then some more. -/
def Progress.andThen (p q : Progress) : Progress :=
  ⟨q.run, p.calls ++ q.calls, p.published <|> q.published, p.broken || q.broken⟩

namespace Run

/-- The run at the moment when its timer fires.  It ends if the file is not open. -/
def fire (router : Router) (r : Run) : Option Run :=
  (router.store.get? r.uri).map fun file =>
    { r with stage := .asking file.version (router.services file) [] }

/-- The run after it has asked one more service.  It breaks off if the answer cannot be sent. -/
def ask (r : Run) (version : Int) (s : Service) (rest : List Service)
    (found : List Diagnostic) : Progress :=
  let reply := s.adapter.validate s.document
  let new := contribution (fun e => Diagnostic.translate e.uri e.rangeToHost?) (s, reply)
  { run := new.map fun ds =>
      { r with stage := .asking version rest (found ++ ds), cancelled := reply.cancels }
    calls := [s.call .validate]
    broken := new.isNone }

/-- One step of a run at the time `now`.  Before its timer fires a run that waits stays as it
is. -/
def step (router : Router) (now : Nat) (r : Run) : Progress :=
  if r.cancelled then { run := none }
  else
    match r.stage with
    | .spawned delay => { run := some { r with stage := .waiting (now + delay) } }
    | .waiting due => if due ≤ now then { run := r.fire router } else { run := some r }
    | .asking version (s :: rest) found => r.ask version s rest found
    | .asking version [] found =>
      { run := none, published := some ⟨now, r.uri, version, found⟩ }

/-- So many steps of a run at the time `now`. -/
def steps (router : Router) (now : Nat) : Nat → Run → Progress
  | 0, r => { run := some r }
  | n + 1, r =>
    let p := r.step router now
    match p.run with
    | none => p
    | some r => p.andThen (steps router now n r)

/-- How many steps a run can take at most at one moment. -/
def weight (router : Router) (r : Run) : Nat :=
  let services := ((router.store.get? r.uri).map fun file => (router.services file).length).getD 0
  match r.stage with
  | .spawned _ => services + 3
  | .waiting _ => services + 2
  | .asking _ rest _ => rest.length + 1

/-- The run after all steps that it can take at the time `now`. -/
def settle (router : Router) (now : Nat) (r : Run) : Progress :=
  r.steps router now (r.weight router)

/-- When the timer of a run fires, if it has been set. -/
def due? (r : Run) : Option Nat :=
  match r.stage with
  | .waiting due => some due
  | _ => none

end Run

end Mosaic
