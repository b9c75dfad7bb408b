import Mosaic.Proofs.AwaitedRun
import Mosaic.Proofs.StoreOperations

/-!
# What becomes of requests for validation

A file is asked for, asked for again, changed, closed, and time passes.  A `Scene` is all that can
be known of this without looking at runs: the open files, the clock, and how many requests there
were. From the operations that follow a request its `Fate` can be told: it is superseded, or it
waits, or the diagnostics of its file are published at the time it was to be served.  If the file is
not open then, or its diagnostics cannot be sent, nothing is published.

* `Scene.fate_eq_waiting_iff`, `Scene.fate_of_reaches` — a request waits as long as operations
  pass it by, and its outcome is that of the passing of time that then reaches its due time.
* `Scene.fatesFrom_cons` — one operation ends one request at most, and one at most stays pending.
* `Scene.Alike.fates_filter` — what becomes of the requests for a file does not depend on operations
  on other files.
-/

namespace Mosaic

/-! ## Operations -/

/-- An operation on a scheduler, or on the store of its files. -/
inductive Operation where
  | schedule (uri : String)
  | validateNow (uri : String)
  | cancel (uri : String)
  | cancelAll
  | setDelay (delay : Nat)
  | advance (duration : Nat)
  | store (op : Store.Op)

namespace Operation

/-- The file that an operation names. -/
def uri? : Operation → Option String
  | .schedule uri | .validateNow uri | .cancel uri => some uri
  | .store op => op.uri?
  | _ => none

/-- Whether an operation names the given file, or none. -/
def concerns (uri : String) (op : Operation) : Bool :=
  op.uri?.all (· = uri)

/-- Whether an operation takes back earlier requests for a file. -/
def supersedes (uri : String) : Operation → Bool
  | .schedule u | .validateNow u | .cancel u => u = uri
  | .cancelAll => true
  | _ => false

/-- How long a request for a file is to wait, if the operation is one; `delay` is the usual time. -/
def wait? (uri : String) (delay : Nat) : Operation → Option Nat
  | .schedule u => if u = uri then some delay else none
  | .validateNow u => if u = uri then some 0 else none
  | _ => none

end Operation

/-! ## Fates -/

/-- What is known without looking at runs. -/
structure Scene where
  router : Router
  now : Nat
  delay : Nat
  /-- How many requests there were. -/
  issued : Nat

/-- A request: its number, and when it is to be served. -/
structure Ticket where
  number : Nat
  due : Nat

/-- What becomes of a request. -/
inductive Fate where
  | superseded
  | waiting
  /-- Its file was not open when it was due. -/
  | closed
  /-- The diagnostics of its file could not be sent.  It stays pending until an operation takes it
  back; `left` tells whether none has. -/
  | failed (left : Bool)
  | served (published : Publication)

/-- How the last request for a file stands, as long as nothing has taken it back. -/
inductive Standing where
  /-- There is none, or it is done with. -/
  | idle
  | waits (t : Ticket)
  /-- The diagnostics of its file could not be sent. -/
  | failed (t : Ticket)

/-- The number of a request that is pending. -/
def Standing.number? : Standing → Option Nat
  | .idle => none
  | .waits t | .failed t => some t.number

/-- The publication that a request leads to. -/
def Fate.published? : Fate → Option Publication
  | .served published => some published
  | _ => none

namespace Scene

/-- The scene after an operation. -/
def after (s : Scene) : Operation → Scene
  | .schedule _ | .validateNow _ => { s with issued := s.issued + 1 }
  | .cancel _ | .cancelAll => s
  | .setDelay delay => { s with delay }
  | .advance duration => { s with now := s.now + duration }
  | .store op => { s with router := { s.router with store := s.router.store.perform op } }

/-- Whether an operation lets time pass up to a due time. -/
def reaches (s : Scene) (due : Nat) : Operation → Bool
  | .advance duration => due ≤ s.now + duration
  | _ => false

/-- The request for a file that an operation makes. -/
def ticket? (s : Scene) (uri : String) (op : Operation) : Option Ticket :=
  (op.wait? uri s.delay).map fun wait => ⟨s.issued, s.now + wait⟩

/-- What becomes of a request for a file that is due, if its diagnostics can be sent or there are
none. -/
def served (s : Scene) (uri : String) (due : Nat) : Fate :=
  match s.router.publication? uri due with
  | some published => .served published
  | none => .closed

/-- What becomes of a request for a file that is due before the given operations. -/
def outcome (s : Scene) (uri : String) (due : Nat) (rest : List Operation) : Fate :=
  if s.router.failsOn uri then .failed (rest.all fun op => !op.supersedes uri)
  else s.served uri due

/-- What becomes of a request for a file in some operations. -/
def fate (uri : String) (due : Nat) : List Operation → Scene → Fate
  | [], _ => .waiting
  | op :: ops, s =>
    if op.supersedes uri then .superseded
    else if s.reaches due op then s.outcome uri due ops
    else fate uri due ops (s.after op)

/-- All requests for a file among some operations, and what becomes of each. -/
def fates (uri : String) : List Operation → Scene → List (Ticket × Fate)
  | [], _ => []
  | op :: ops, s =>
    ((s.ticket? uri op).map fun t => (t, fate uri t.due ops (s.after op))).toList ++
      fates uri ops (s.after op)

/-- The scene after some operations. -/
def afterAll (ops : List Operation) (s : Scene) : Scene :=
  ops.foldl after s

variable {s s' : Scene} {uri : String} {due : Nat} {op : Operation} {ops : List Operation}

lemma reaches_eq_true (h : s.reaches due op) :
    ∃ duration, op = .advance duration ∧ due ≤ s.now + duration := by
  cases op with
  | advance duration => exact ⟨duration, rfl, of_decide_eq_true h⟩
  | _ => contradiction

/-- Some operations neither supersede a request for a file nor last until its due time. -/
structure Passes (uri : String) (due : Nat) (ops : List Operation) (s : Scene) : Prop where
  kept : ∀ op ∈ ops, ¬ op.supersedes uri
  early : ∀ a duration b, ops = a ++ .advance duration :: b →
    (s.afterAll a).now + duration < due

lemma passes_cons : s.Passes uri due (op :: ops) ↔
    ¬ op.supersedes uri ∧ ¬ s.reaches due op ∧ (s.after op).Passes uri due ops := by
  constructor
  · intro h
    refine ⟨h.kept op (by simp), fun hreaches => ?_, fun op' hop => h.kept op' (by simp [hop]),
      fun a duration b he => ?_⟩
    · obtain ⟨duration, rfl, hle⟩ := reaches_eq_true hreaches
      exact Nat.not_lt.2 hle (h.early [] duration ops rfl)
    · exact h.early (op :: a) duration b (by rw [he]; rfl)
  · rintro ⟨hop, hreaches, h⟩
    refine ⟨List.forall_mem_cons.2 ⟨hop, h.kept⟩, fun a duration b he => ?_⟩
    cases a with
    | nil =>
      obtain ⟨rfl, rfl⟩ := List.cons.inj he
      exact Nat.lt_of_not_le fun hle => hreaches (decide_eq_true hle)
    | cons first a =>
      obtain ⟨rfl, rfl⟩ := List.cons.inj he
      exact h.early a duration b rfl

lemma Passes.fate_append (h : s.Passes uri due ops) (rest : List Operation) :
    s.fate uri due (ops ++ rest) = (s.afterAll ops).fate uri due rest := by
  induction ops generalizing s with
  | nil => rfl
  | cons op ops ih =>
    obtain ⟨hop, hreaches, h⟩ := passes_cons.1 h
    rw [List.cons_append, fate, if_neg hop, if_neg hreaches]
    exact ih h

lemma outcome_ne_waiting (s : Scene) (ops : List Operation) :
    s.outcome uri due ops ≠ .waiting := by
  unfold outcome served
  split
  · nofun
  · split <;> nofun

/-- **A request waits** as long as operations pass it by. -/
theorem fate_eq_waiting_iff : s.fate uri due ops = .waiting ↔ s.Passes uri due ops := by
  induction ops generalizing s with
  | nil => exact iff_of_true rfl ⟨nofun, fun a _ _ he => absurd he (by simp)⟩
  | cons op ops ih =>
    rw [passes_cons, ← ih, fate]
    by_cases hop : op.supersedes uri
    · simp [hop]
    · by_cases hreaches : s.reaches due op
      · simp [hop, hreaches, outcome_ne_waiting]
      · simp [hop, hreaches]

/-- **A request is served by the passing of time that reaches its due time**, if the operations
before pass it by. -/
theorem fate_of_reaches {before rest : List Operation} {duration : Nat}
    (hpasses : s.Passes uri due before) (hdue : due ≤ (s.afterAll before).now + duration) :
    s.fate uri due (before ++ .advance duration :: rest)
      = (s.afterAll before).outcome uri due rest := by
  have hreaches : (s.afterAll before).reaches due (.advance duration) := decide_eq_true hdue
  rw [hpasses.fate_append, fate, if_neg (by simp [Operation.supersedes]), if_pos hreaches]

/-! ## The last request -/

/-- How the last request for a file stands after an operation. -/
def next (s : Scene) (uri : String) (op : Operation) (standing : Standing) : Standing :=
  if op.supersedes uri then ((s.ticket? uri op).map .waits).getD .idle
  else
    match standing with
    | .waits t =>
      if s.reaches t.due op then if s.router.failsOn uri then .failed t else .idle else .waits t
    | other => other

/-- What is published when an operation reaches the due time of a request that waits. -/
def fired (s : Scene) (uri : String) (op : Operation) : Standing → Option Publication
  | .waits t => if s.reaches t.due op then s.router.publication? uri t.due else none
  | _ => none

lemma fired_eq_none (standing : Standing) (h : ∀ due, s.reaches due op = false) :
    s.fired uri op standing = none := by
  cases standing <;> simp [fired, h]

lemma next_idle (hop : op.supersedes uri = false) : s.next uri op .idle = .idle := by
  simp [next, hop]

lemma next_failed (t : Ticket) (hop : op.supersedes uri = false) :
    s.next uri op (.failed t) = .failed t := by
  simp [next, hop]

lemma next_waits (t : Ticket) (hop : op.supersedes uri = false) :
    s.next uri op (.waits t) = if s.reaches t.due op then
      if s.router.failsOn uri then .failed t else .idle
    else .waits t := by
  simp [next, hop]

lemma next_eq_self (standing : Standing) (hop : op.supersedes uri = false)
    (h : ∀ due, s.reaches due op = false) : s.next uri op standing = standing := by
  cases standing <;> simp [next, hop, h]

lemma next_request {u : String} {wait : Nat} (standing : Standing)
    (hop : op.supersedes uri = decide (u = uri))
    (hwait : op.wait? uri s.delay = if u = uri then some wait else none)
    (h : ∀ due, s.reaches due op = false) :
    s.next uri op standing = if u = uri then .waits ⟨s.issued, s.now + wait⟩ else standing := by
  by_cases hu : u = uri
  · simp [next, ticket?, hop, hwait, hu]
  · rw [if_neg hu, next_eq_self standing (by simp [hop, hu]) h]

/-- The request that is pending no longer after an operation, and what has become of it. -/
def ended (s : Scene) (uri : String) (op : Operation) : Standing → Option (Ticket × Fate)
  | .idle => none
  | .waits t =>
    if op.supersedes uri then some (t, .superseded)
    else if s.reaches t.due op ∧ ¬ s.router.failsOn uri then some (t, s.served uri t.due)
    else none
  | .failed t => if op.supersedes uri then some (t, .failed false) else none

/-- What becomes of the last request for a file in some operations. -/
def lastFate (s : Scene) (uri : String) (ops : List Operation) :
    Standing → Option (Ticket × Fate)
  | .idle => none
  | .waits t => some (t, s.fate uri t.due ops)
  | .failed t => some (t, .failed (ops.all fun op => !op.supersedes uri))

/-- What becomes of the last request for a file, and of all later ones. -/
def fatesFrom (s : Scene) (uri : String) (standing : Standing) (ops : List Operation) :
    List (Ticket × Fate) :=
  (s.lastFate uri ops standing).toList ++ s.fates uri ops

/-- A new request for a file takes back earlier ones. -/
lemma ticket?_eq_none (hop : ¬ op.supersedes uri) : s.ticket? uri op = none := by
  cases op <;> simp_all [ticket?, Operation.wait?, Operation.supersedes]

/-- What becomes of a new request is what becomes of the last one. -/
lemma fates_cons (s : Scene) (uri : String) (op : Operation) (ops : List Operation) :
    s.fates uri (op :: ops)
      = (s.after op).fatesFrom uri (((s.ticket? uri op).map .waits).getD .idle) ops := by
  rw [fates, fatesFrom]
  cases s.ticket? uri op <;> rfl

lemma fates_cons_of_not_supersedes (hop : ¬ op.supersedes uri) (ops : List Operation) :
    s.fates uri (op :: ops) = (s.after op).fates uri ops := by
  rw [fates_cons, ticket?_eq_none hop]
  rfl

/-- One operation ends one request at most, and one at most stays pending. -/
theorem fatesFrom_cons (s : Scene) (uri : String) (standing : Standing) (op : Operation)
    (ops : List Operation) : s.fatesFrom uri standing (op :: ops)
      = (s.ended uri op standing).toList ++
        (s.after op).fatesFrom uri (s.next uri op standing) ops := by
  by_cases hop : op.supersedes uri
  · -- the last request is taken back, and a new one may take its place
    have hnext : s.next uri op standing = ((s.ticket? uri op).map .waits).getD .idle := if_pos hop
    rw [hnext, ← fates_cons, fatesFrom]
    cases standing <;> simp [ended, lastFate, fate, hop]
  · rw [fatesFrom, fates_cons_of_not_supersedes hop]
    cases standing with
    | idle => simp [ended, next, hop, fatesFrom, lastFate]
    | failed t => simp [ended, next, hop, fatesFrom, lastFate]
    | waits t =>
      by_cases hreaches : s.reaches t.due op
      · by_cases hfails : s.router.failsOn uri
        · simp [ended, next, hop, hreaches, hfails, fate, fatesFrom, lastFate, outcome]
        · simp [ended, next, hop, hreaches, hfails, fate, fatesFrom, lastFate, outcome]
      · simp [ended, next, hop, hreaches, fate, fatesFrom, lastFate]

/-- A request that is pending no longer waits no longer, and is not left. -/
lemma ended_ne_pending {x : Ticket} {fate : Fate} (standing : Standing)
    (h : (x, fate) ∈ s.ended uri op standing) : fate ≠ .waiting ∧ fate ≠ .failed true := by
  cases standing with
  | idle => contradiction
  | waits t =>
    rw [ended] at h
    split at h
    · obtain ⟨rfl, rfl⟩ := Prod.mk.inj (Option.some.inj h)
      exact ⟨nofun, nofun⟩
    · split at h
      · obtain ⟨rfl, rfl⟩ := Prod.mk.inj (Option.some.inj h)
        unfold served
        split <;> exact ⟨nofun, nofun⟩
      · contradiction
  | failed t =>
    rw [ended] at h
    split at h
    · obtain ⟨rfl, rfl⟩ := Prod.mk.inj (Option.some.inj h)
      exact ⟨nofun, nofun⟩
    · contradiction

/-- What is published is what has become of the request. -/
lemma published_ended (standing : Standing) :
    ((s.ended uri op standing).toList.filterMap (·.2.published?))
      = (s.fired uri op standing).toList := by
  cases standing with
  | idle => rfl
  | failed t => by_cases hop : op.supersedes uri <;> simp [ended, fired, hop, Fate.published?]
  | waits t =>
    by_cases hreaches : s.reaches t.due op
    · have hop : ¬ op.supersedes uri := by
        obtain ⟨duration, rfl, -⟩ := reaches_eq_true hreaches
        simp [Operation.supersedes]
      by_cases hfails : s.router.failsOn uri
      · simp [ended, fired, hop, hreaches, hfails, Router.publication?_eq_none hfails]
      · cases hp : s.router.publication? uri t.due <;>
          simp [ended, fired, hop, hreaches, hfails, served, Fate.published?, hp]
    · by_cases hop : op.supersedes uri <;> simp [ended, fired, hop, hreaches, Fate.published?]

/-! ## Requests for different files -/

/-- Two scenes in which the same is known of a file. -/
structure Alike (uri : String) (s s' : Scene) : Prop where
  filed : s.router.store.Filed
  filed' : s'.router.store.Filed
  now : s.now = s'.now
  delay : s.delay = s'.delay
  adapters : s.router.adapters = s'.router.adapters
  options : s.router.store.options = s'.router.store.options
  file : s.router.store.get? uri = s'.router.store.get? uri

lemma Alike.publication? (h : s.Alike uri s') (time : Nat) :
    s.router.publication? uri time = s'.router.publication? uri time := by
  obtain ⟨⟨store, adapters⟩, now, delay, issued⟩ := s
  obtain ⟨⟨store', adapters'⟩, now', delay', issued'⟩ := s'
  obtain rfl : adapters = adapters' := h.adapters
  have hfile : store.get? uri = store'.get? uri := h.file
  simp only [Router.publication?, Router.diagnostics, Router.askAll, Router.on, Store.require,
    hfile]
  rfl

lemma Alike.failsOn (h : s.Alike uri s') : s.router.failsOn uri = s'.router.failsOn uri := by
  obtain ⟨⟨store, adapters⟩, now, delay, issued⟩ := s
  obtain ⟨⟨store', adapters'⟩, now', delay', issued'⟩ := s'
  obtain rfl : adapters = adapters' := h.adapters
  have hfile : store.get? uri = store'.get? uri := h.file
  simp only [Router.failsOn, Router.diagnostics, Router.askAll, Router.on, Store.require, hfile]
  rfl

/-- The same operation changes them in the same way. -/
lemma Alike.after (h : s.Alike uri s') (op : Operation) : (s.after op).Alike uri (s'.after op) := by
  cases op with
  | schedule | validateNow | cancel | cancelAll => exact ⟨h.1, h.2, h.3, h.4, h.5, h.6, h.7⟩
  | setDelay delay => exact { h with delay := rfl }
  | advance duration => exact { h with now := congrArg (· + duration) h.now }
  | store op =>
    have hoptions : s.router.store.scanOptions = s'.router.store.scanOptions :=
      congrArg (·.getD {}) h.options
    refine { h with filed := h.filed.perform op, filed' := h.filed'.perform op, options := ?_,
                    file := ?_ }
    · simp only [Scene.after, Store.options_perform, h.options]
    · simp only [Scene.after, h.filed.get?_perform, h.filed'.get?_perform, hoptions, h.file]

/-- An operation on another file changes nothing that is known of this one. -/
lemma Alike.skip (h : s.Alike uri s') (hop : ¬ op.concerns uri) : (s.after op).Alike uri s' := by
  cases op with
  | schedule | validateNow | cancel => exact ⟨h.1, h.2, h.3, h.4, h.5, h.6, h.7⟩
  | cancelAll | setDelay | advance => exact absurd rfl hop
  | store op =>
    have huri : op.uri? ≠ some uri := by
      intro hu
      simp [Operation.concerns, Operation.uri?, hu] at hop
    refine { h with filed := h.filed.perform op, options := ?_, file := ?_ }
    · rw [← h.options]
      cases op with
      | configure options => exact absurd rfl hop
      | _ => exact Store.options_perform _ _
    · rw [← h.file]
      exact (h.filed.get?_perform op uri).trans (if_neg huri)

lemma supersedes_concerns (h : op.supersedes uri) : op.concerns uri := by
  cases op <;> simp_all [Operation.supersedes, Operation.concerns, Operation.uri?]

lemma reaches_concerns (h : s.reaches due op) : op.concerns uri := by
  obtain ⟨duration, rfl, -⟩ := reaches_eq_true h
  rfl

/-- Operations that take back requests for a file concern it. -/
lemma all_filter_concerns (uri : String) (ops : List Operation) :
    (ops.filter (·.concerns uri)).all (fun op => !op.supersedes uri)
      = ops.all fun op => !op.supersedes uri := by
  induction ops with
  | nil => rfl
  | cons op ops ih =>
    by_cases hop : op.concerns uri
    · rw [List.filter_cons_of_pos hop, List.all_cons, List.all_cons, ih]
    · have hsupersedes : op.supersedes uri = false :=
        Bool.eq_false_iff.2 fun h => hop (supersedes_concerns h)
      rw [List.filter_cons_of_neg hop, List.all_cons, ih, hsupersedes]
      rfl

lemma Alike.outcome_filter (h : s.Alike uri s') (due : Nat) (ops : List Operation) :
    s.outcome uri due ops = s'.outcome uri due (ops.filter (·.concerns uri)) := by
  rw [outcome, outcome, h.failsOn, all_filter_concerns, served, served, h.publication?]

/-- What becomes of a request depends on the operations that concern its file. -/
lemma Alike.fate_filter (h : s.Alike uri s') (due : Nat) (ops : List Operation) :
    s.fate uri due ops = s'.fate uri due (ops.filter (·.concerns uri)) := by
  induction ops generalizing s s' with
  | nil => rfl
  | cons op ops ih =>
    by_cases hop : op.concerns uri
    · have hreaches : s.reaches due op = s'.reaches due op := by
        cases op <;> simp [reaches, h.now]
      rw [List.filter_cons_of_pos hop, fate, fate, hreaches, h.outcome_filter, ih (h.after op)]
    · rw [List.filter_cons_of_neg hop, fate, if_neg fun hs => hop (supersedes_concerns hs),
        if_neg fun hr => hop (reaches_concerns hr)]
      exact ih (h.skip hop)

/-- **What becomes of the requests for a file does not depend on operations on other files.** -/
theorem Alike.fates_filter (h : s.Alike uri s') (ops : List Operation) :
    (s.fates uri ops).map Prod.snd
      = (s'.fates uri (ops.filter (·.concerns uri))).map Prod.snd := by
  induction ops generalizing s s' with
  | nil => rfl
  | cons op ops ih =>
    by_cases hop : op.concerns uri
    · rw [List.filter_cons_of_pos hop, fates, fates, List.map_append, List.map_append,
        ih (h.after op), ticket?, ticket?, h.delay, h.now]
      cases op.wait? uri s'.delay with
      | none => rfl
      | some wait =>
        simp only [Option.map_some, Option.toList_some, List.map_cons, List.map_nil,
          (h.after op).fate_filter]
    · have hnone : s.ticket? uri op = none :=
        ticket?_eq_none fun hs => hop (supersedes_concerns hs)
      rw [List.filter_cons_of_neg hop, fates, hnone]
      exact ih (h.skip hop)

/-! ## The files of a scene -/

lemma filed_afterAll {s : Scene} (h : s.router.store.Filed) (ops : List Operation) :
    (s.afterAll ops).router.store.Filed := by
  induction ops generalizing s with
  | nil => exact h
  | cons op ops ih =>
    refine ih (s := s.after op) ?_
    cases op with
    | store op => exact h.perform op
    | _ => exact h

lemma adapters_afterAll (s : Scene) (ops : List Operation) :
    (s.afterAll ops).router.adapters = s.router.adapters := by
  induction ops generalizing s with
  | nil => rfl
  | cons op ops ih =>
    refine (ih (s.after op)).trans ?_
    cases op <;> rfl

end Scene

end Mosaic
