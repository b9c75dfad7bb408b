import Mosaic.Adapter.Builtin
import Mosaic.Proofs.MarkedEvents

/-!
# The marks of YAML errors

A document keeps the marks of its events, and an error that loading it ends with is at one of
them or where the reader broke off.  So an error that is anywhere is between two characters of the
text.

* `Document.In`, `Document.reads_ofText` — the marks of a document.
* `Places` — a load that ends with a value, or with an error in the text.
* `Document.LoadsIn`, `Document.In.loadsIn` — loading a node, the items of a sequence and the
  entries of a mapping.
* `in_of_load` — the error that a text cannot be loaded with.
* `countsBytes_reader` — the reader that a server runs with counts bytes.
-/

namespace Mosaic.Yaml

open Text

variable {t : Text} {m : Mark} {d : Document} {α β : Type}

/-! ## Documents -/

/-- An error that is anywhere has its mark in the text. -/
def LoadError.In (t : Text) (e : LoadError) : Prop :=
  ∀ m ∈ e.mark?, m.In t

/-- The events of a document have their marks in the text, and so has what it breaks off with. -/
structure Document.In (t : Text) (d : Document) : Prop where
  events : ∀ e ∈ d.events, e.2.In t
  broken : ∀ b ∈ d.broken, (LoadError.ofBreakage b).In t

lemma LoadError.In.of_mark {e : LoadError} (he : e.mark? = some m) (hm : m.In t) : e.In t := by
  intro n hn
  obtain rfl := Option.some.inj (he.symm.trans hn)
  exact hm

namespace Document

lemma in_empty (t : Text) : In t {} :=
  ⟨nofun, nofun⟩

lemma In.push (h : d.In t) (e : NodeEvent) (hm : m.In t) : (d.push e m).In t := by
  refine ⟨fun x hx => ?_, h.broken⟩
  rcases Array.mem_push.1 hx with hx | rfl
  · exact h.events x hx
  · exact hm

lemma In.define (h : d.In t) (anchor : Option Text) : (d.define anchor).In t := by
  cases anchor with
  | none => exact h
  | some name => exact ⟨h.events, h.broken⟩

/-- The document breaks off at a mark in the text. -/
lemma In.breakOff (h : d.In t) {b : Breakage} (hmark : (LoadError.ofBreakage b).mark? = some m)
    (hm : m.In t) : In t { d with broken := some b } := by
  refine ⟨h.events, fun b' hb => ?_⟩
  obtain rfl := Option.some.inj hb
  exact .of_mark hmark hm

/-- **Reading events keeps the marks in the text.** -/
theorem in_readFrom {ended : Document → Mark → Option Document} {r : EventReader}
    (hended : ∀ d m, In t d → m.In t → ∀ d' ∈ ended d m, In t d') (hd : d.In t)
    (hr : r.tokens.In t) (fuel : Nat) : ∀ d' ∈ (readFrom ended fuel d r).1, In t d' := by
  have hself {d : Document} (hd : d.In t) : ∀ d' ∈ some d, In t d' := by
    rintro d' hd'
    obtain rfl := Option.some.inj hd'
    exact hd
  induction fuel generalizing d r with
  | zero => exact hself hd
  | succ fuel ih =>
    have hnext := EventReader.readsEvent_next hr
    rw [readFrom]
    split
    next f hf =>
      rw [hf] at hnext
      exact hself (hd.breakOff rfl hnext)
    next e r' he =>
      rw [he] at hnext
      obtain ⟨hm, hr'⟩ := hnext
      split
      · exact ih hd hr'
      · exact ih hd hr'
      · exact hended d e.mark hd hm
      · exact hself hd
      · split
        · exact ih (hd.push _ hm) hr'
        · exact hself (hd.breakOff rfl hm)
      · exact ih ((hd.define _).push _ hm) hr'
      · exact ih ((hd.define _).push _ hm) hr'
      · exact ih (hd.push _ hm) hr'
      · exact ih ((hd.define _).push _ hm) hr'
      · exact ih (hd.push _ hm) hr'

/-- A character that may not occur is told without a mark, and so at the start of the text. -/
lemma reads_checkCharacters (t : Text) : Reads t (fun _ => True) (checkCharacters t) := by
  unfold checkCharacters
  split
  · trivial
  · exact IsBoundary.zero t

/-- **The first document of a text has its marks in the text.** -/
theorem reads_ofText (t : Text) : Reads t (fun x => x.1.In t) (ofText t) := by
  refine (reads_checkCharacters t).bind fun _ _ => ?_
  have hended (d : Document) (m : Mark) (hd : In t d) (hm : m.In t) :
      ∀ d' ∈ some (if d.events.isEmpty then d.push .void m else d), In t d' := by
    intro d' hd'
    obtain rfl := Option.some.inj hd'
    split
    · exact hd.push _ hm
    · exact hd
  have hread := in_readFrom hended (in_empty t) (r := .ofText t) (Tokenizer.in_ofText t)
    (eventBound t)
  have hget {d : Option Document} (h : ∀ d' ∈ d, In t d') : In t (d.getD {}) := by
    cases d with
    | none => exact in_empty t
    | some d => exact h d rfl
  dsimp only
  split
  next d hd =>
    rw [hd] at hread
    exact hget hread
  next d r hd =>
    rw [hd] at hread
    exact hget hread

end Document

/-! ## Loading -/

/-- A load ends with a value, or with an error in the text. -/
def Places (t : Text) : Except LoadError α → Prop
  | .ok _ => True
  | .error e => e.In t

namespace Places

variable {x : Except LoadError α}

lemma bind {g : α → Except LoadError β} (h : Places t x) (hg : ∀ a, Places t (g a)) :
    Places t (x >>= g) := by
  cases x with
  | error e => exact h
  | ok a => exact hg a

lemma ite {p : Prop} [Decidable p] {y : Except LoadError α} (h : Places t x) (h' : Places t y) :
    Places t (if p then x else y) := by
  split
  · exact h
  · exact h'

end Places

/-- Where the events are at an end, the document broke off in the text, or there is no more. -/
lemma Document.In.places_end (h : d.In t) : Places t
    (.error ((d.broken.map LoadError.ofBreakage).getD .noDocument) : Except LoadError α) := by
  cases hb : d.broken with
  | none => exact nofun
  | some b => exact h.broken b hb

/-- With some fuel, loading ends with a value or with an error in the text: a node as well as what is
left of a sequence and of a mapping, which complains at the mark of the mapping. -/
structure Document.LoadsIn (t : Text) (d : Document) (fuel : Nat) : Prop where
  node : ∀ ctx s, Places t (loadNode d fuel ctx s)
  items : ∀ ctx index s, Places t (loadItems d fuel ctx index s)
  entries : ∀ mark ctx entries s, mark.In t → Places t (loadEntries d fuel mark ctx entries s)

namespace Document

variable {fuel : Nat}

lemma In.places_loadNode (h : d.In t) (hload : d.LoadsIn t fuel) (ctx : NodeContext)
    (s : LoadState) : Places t (loadNode d (fuel + 1) ctx s) := by
  rw [loadNode]
  split
  · exact h.places_end
  next event mark hevent =>
    have hmark : mark.In t := h.events (event, mark) (Array.mem_of_getElem? hevent)
    have hfail (e : NodeError) : LoadError.In t (.node e mark ctx.path) := .of_mark rfl hmark
    -- the node without its tag comes first
    have htagged (name : Octets) : Places t (if name.isEmpty then
        .error (.node .emptyTag mark ctx.path)
      else loadNode d fuel { ctx with tagRead := true } s >>= fun r =>
        pure (Value.tagged name r.1, r.2)) :=
      .ite (hfail _) ((hload.node _ _).bind fun _ => trivial)
    dsimp only
    split
    · refine .ite nofun ?_
      split
      · exact nofun
      · exact (hload.node _ _).bind fun _ => trivial
    · split
      · exact htagged _
      · cases scalarValue _ _ _ with
        | error e => exact hfail e
        | ok v => trivial
    · split
      · exact htagged _
      · split
        · exact .of_mark rfl hmark
        · exact (hload.items _ _ _).bind fun _ => trivial
    · split
      · exact htagged _
      · split
        · exact .of_mark rfl hmark
        · exact (hload.entries _ _ _ _ hmark).bind fun _ => trivial
    · trivial
    · trivial
    · trivial

lemma In.places_loadItems (h : d.In t) (hload : d.LoadsIn t fuel) (ctx : NodeContext) (index : Nat)
    (s : LoadState) : Places t (loadItems d (fuel + 1) ctx index s) := by
  rw [loadItems]
  split
  · exact h.places_end
  · trivial
  · exact (hload.node _ _).bind fun _ => (hload.items _ _ _).bind fun _ => trivial

lemma In.places_loadEntries (h : d.In t) (hload : d.LoadsIn t fuel) {mark : Mark}
    (hmark : mark.In t) (ctx : NodeContext) (entries : List (Value × Value)) (s : LoadState) :
    Places t (loadEntries d (fuel + 1) mark ctx entries s) := by
  rw [loadEntries]
  split
  · exact h.places_end
  · trivial
  · have hvalue {path : Path} {k : Value} {s : LoadState} : Places t
        (loadNode d fuel { ctx with path, tagRead := false } s >>= fun r =>
          loadEntries d fuel mark ctx (entries ++ [(k, r.1)]) r.2) :=
      (hload.node _ _).bind fun _ => hload.entries _ _ _ _ hmark
    refine (hload.node _ _).bind fun _ => ?_
    dsimp only
    split
    · exact .of_mark rfl hmark
    · exact hvalue

/-- **Loading ends with a value or with an error in the text**, however deep nodes are nested. -/
theorem In.loadsIn (h : d.In t) (fuel : Nat) : d.LoadsIn t fuel := by
  induction fuel with
  | zero => exact ⟨fun _ _ => nofun, fun _ _ _ => nofun, fun _ _ _ _ _ => nofun⟩
  | succ fuel ih =>
    exact ⟨h.places_loadNode ih, h.places_loadItems ih, fun _ ctx entries s hmark =>
      h.places_loadEntries ih hmark ctx entries s⟩

lemma In.places_value (h : d.In t) : Places t d.value := by
  unfold Document.value
  refine ((h.loadsIn _).node _ _).bind fun _ => ?_
  dsimp only
  split
  next b hb => exact h.broken b hb
  next => trivial

end Document

/-- **An error that a text cannot be loaded with is in the text**, if it is anywhere. -/
theorem in_of_load {e : LoadError} (h : load t = .error e) : e.In t := by
  have hload : Places t (load t) := by
    have hread := Document.reads_ofText t
    unfold load
    cases hdoc : Document.ofText t with
    | error f =>
      rw [hdoc] at hread
      exact .of_mark rfl hread
    | ok x =>
      rw [hdoc] at hread
      exact hread.places_value.bind fun _ => .ite nofun trivial
  rwa [h] at hload

/-- **The reader that a server runs with counts bytes**, as the library does that it stands for. -/
theorem countsBytes_reader : reader.CountsBytes := by
  intro t error index hread hindex
  unfold reader at hread
  split at hread
  · contradiction
  · contradiction
  · contradiction
  next e hload =>
    obtain rfl := Except.error.inj hread
    obtain ⟨m, hm, rfl⟩ := Option.map_eq_some_iff.1 hindex
    exact (in_of_load hload m hm).exists_take

end Mosaic.Yaml
