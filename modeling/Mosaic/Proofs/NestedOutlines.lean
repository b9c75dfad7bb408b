import Mosaic.Proofs.FanOut
import Mosaic.Proofs.MetadataKeys
import Mosaic.Proofs.RangeOrder
import Mosaic.Proofs.SheetReading

/-!
# Nested outlines

An outline is a forest of symbols.  It is well formed if each symbol has its selection and its
children inside its range, and children are in order without overlap.  The adapters of the library
report such outlines for their text, and in the file they are still well formed.

* `DocumentSymbol.Nested`, `Outlined` — well-formed symbols and lists of them, for given relations
  between ranges.
* `Embedded.Joins.outlined_toHost` — a well-formed outline of the blocks is one of the file.
* `Style.outlined_symbols`, `Metadata.outlined_symbols` — what the adapters report.
* `outlines_nest` — the outline of a file that is served by these adapters.
-/

namespace Mosaic

open Text

/-- In a symbol, and in all symbols inside it, the selection and the ranges of the children are in
the range of the symbol, and the children are in order. -/
inductive DocumentSymbol.Nested (Within Clears : Range → Range → Prop) : DocumentSymbol → Prop where
  | mk {s : DocumentSymbol} : Within s.info.selection s.info.range →
      (∀ c ∈ s.children, Within c.info.range s.info.range) →
      (s.children.Pairwise fun c next => Clears c.info.range next.info.range) →
      (∀ c ∈ s.children, c.Nested Within Clears) → s.Nested Within Clears

/-- Well-formed symbols in order. -/
structure Outlined (Within Clears : Range → Range → Prop) (symbols : List DocumentSymbol) :
    Prop where
  nested : ∀ s ∈ symbols, s.Nested Within Clears
  pairwise : symbols.Pairwise fun s next => Clears s.info.range next.info.range

/-! ## From the blocks to the file -/

/-- What holds between any two of some answers holds between them when they are brought back, if it
does for each pair. -/
lemma pairwise_of_mapM {α β : Type} {f : α → Option β} {xs : List α} {ys : List β}
    {R : α → α → Prop} {R' : β → β → Prop} (h : xs.mapM f = some ys) (hpair : xs.Pairwise R)
    (hR : ∀ x x' y y', R x x' → f x = some y → f x' = some y' → R' y y') : ys.Pairwise R' := by
  have hall := mapM_eq_some_iff.1 h
  clear h
  induction hall with
  | nil => exact .nil
  | @cons x y xs ys hxy hrest ih =>
    obtain ⟨hfirst, hpair⟩ := List.pairwise_cons.1 hpair
    refine .cons (fun y' hy' => ?_) (ih hpair)
    obtain ⟨x', hx', hxy'⟩ := mem_of_mapM (mapM_eq_some_iff.2 hrest) hy'
    exact hR x x' y y' (hfirst x' hx') hxy hxy'

namespace DocumentSymbol

variable {f : Range → Option Range} {s s' : DocumentSymbol} {symbols symbols' : List DocumentSymbol}
  {Within Clears Within' Clears' : Range → Range → Prop}

lemma translateAll_eq_mapM (f : Range → Option Range) (symbols : List DocumentSymbol) :
    translate.translateAll f symbols = symbols.mapM (translate f) := by
  induction symbols with
  | nil => rfl
  | cons s symbols ih => simp [translate.translateAll, List.mapM_cons, ih]

/-- A symbol goes to the host with both its ranges and its children. -/
lemma translate_eq_some (h : s.translate f = some s') :
    f s.info.range = some s'.info.range ∧ f s.info.selection = some s'.info.selection ∧
      s.children.mapM (translate f) = some s'.children := by
  have hinfo {info info' : SymbolInfo} (h : info.translate f = some info') :
      f info.range = some info'.range ∧ f info.selection = some info'.selection := by
    simp only [SymbolInfo.translate, Option.bind_eq_bind, Option.bind_eq_some_iff,
      Option.some.injEq] at h
    obtain ⟨range, hrange, selection, hselection, rfl⟩ := h
    exact ⟨hrange, hselection⟩
  cases s with
  | leaf info =>
    obtain ⟨info', h', rfl⟩ := Option.map_eq_some_iff.1 h
    exact ⟨(hinfo h').1, (hinfo h').2, rfl⟩
  | node info children =>
    simp only [translate, translateAll_eq_mapM, Option.bind_eq_bind, Option.bind_eq_some_iff,
      Option.some.injEq] at h
    obtain ⟨info', h', children', hchildren, rfl⟩ := h
    exact ⟨(hinfo h').1, (hinfo h').2, hchildren⟩

/-- **A well-formed symbol is still well formed after its ranges have been translated**, if the
translation keeps what is to hold between ranges. -/
theorem Nested.translate (h : s.Nested Within Clears)
    (hwithin : ∀ r o r' o', Within r o → f r = some r' → f o = some o' → Within' r' o')
    (hclears : ∀ r n r' n', Clears r n → f r = some r' → f n = some n' → Clears' r' n')
    (hs : s.translate f = some s') : s'.Nested Within' Clears' := by
  induction h generalizing s' with
  | mk hselection hin hpair _ ih =>
    obtain ⟨hrange, hselect, hchildren⟩ := translate_eq_some hs
    refine .mk (hwithin _ _ _ _ hselection hselect hrange) (fun c' hc' => ?_)
      (pairwise_of_mapM hchildren hpair fun c d c' d' hcd hc hd =>
        hclears _ _ _ _ hcd (translate_eq_some hc).1 (translate_eq_some hd).1)
      fun c' hc' => ?_
    · obtain ⟨c, hc, hcc⟩ := mem_of_mapM hchildren hc'
      exact hwithin _ _ _ _ (hin c hc) (translate_eq_some hcc).1 hrange
    · obtain ⟨c, hc, hcc⟩ := mem_of_mapM hchildren hc'
      exact ih c hc hcc

end DocumentSymbol

/-- **A well-formed outline of the blocks is a well-formed outline of the file.** -/
theorem Embedded.Joins.outlined_toHost {e : Embedded} {rs : List Region}
    {symbols symbols' : List DocumentSymbol} (h : e.Joins rs) (hmode : e.mode = .offset)
    (hlocal : Outlined (Range.WithinIn e.text) (Range.ClearsIn e.text) symbols)
    (hhost : symbols.mapM (DocumentSymbol.translate e.rangeToHost?) = some symbols') :
    Outlined Range.Within Range.Clears symbols' where
  nested s' hs' := by
    obtain ⟨s, hs, hss⟩ := mem_of_mapM hhost hs'
    exact (hlocal.nested s hs).translate (fun _ _ _ _ => h.within_rangeToHost? hmode)
      (fun _ _ _ _ => h.clears_rangeToHost? hmode) hss
  pairwise := pairwise_of_mapM hhost hlocal.pairwise fun _ _ _ _ hclears hs hnext =>
    h.clears_rangeToHost? hmode hclears (DocumentSymbol.translate_eq_some hs).1
      (DocumentSymbol.translate_eq_some hnext).1

/-! ## Ranges of spans -/

section Spans

variable {t : Text} {a b lo hi : Nat}

lemma lastIn_rangeOf (h : a ≤ b) : (rangeOf t a b).lastIn t = bytes (takeBytes b t) := by
  simp only [Range.lastIn, rangeOf, offsetAt_positionAt]
  exact max_eq_right (bytes_takeBytes_mono h t)

/-- The range of a span is within that of a longer one, if it starts there, or before that one
ends. -/
lemma withinIn_rangeOf (hlo : lo ≤ a) (hab : a ≤ b) (hhi : b ≤ hi)
    (hstart : a = lo ∨ bytes (takeBytes a t) < bytes (takeBytes hi t)) :
    (rangeOf t a b).WithinIn t (rangeOf t lo hi) where
  start_le := by
    simp only [rangeOf, offsetAt_positionAt]
    exact bytes_takeBytes_mono hlo t
  last_le := by
    rw [lastIn_rangeOf hab, lastIn_rangeOf (hlo.trans (hab.trans hhi))]
    exact bytes_takeBytes_mono hhi t
  starts := by
    rw [lastIn_rangeOf (hlo.trans (hab.trans hhi))]
    simp only [rangeOf, offsetAt_positionAt]
    exact hstart.imp_left fun h => by rw [h]

lemma clearsIn_rangeOf (hab : a ≤ b) (hlo : b ≤ lo) :
    (rangeOf t a b).ClearsIn t (rangeOf t lo hi) := by
  rw [Range.ClearsIn, lastIn_rangeOf hab]
  simp only [rangeOf, offsetAt_positionAt]
  exact bytes_takeBytes_mono hlo t

end Spans

/-! ## Style sheets -/

namespace Style

variable {t m : Text} {r : Rule} {rs : List Rule} {lo hi n : Nat}

lemma info_symbol (t : Text) (r : Rule) : (r.symbol t).info = r.info t := by
  obtain ⟨prelude, name, extent, _ | ⟨c, cs⟩⟩ := r <;> rfl

lemma symbols_eq_map (t : Text) (rs : List Rule) :
    Rule.symbol.symbols t rs = rs.map (Rule.symbol t) := by
  induction rs with
  | nil => rfl
  | cons r rs ih => rw [Rule.symbol.symbols, ih, List.map_cons]

lemma children_symbol (t : Text) (r : Rule) :
    (r.symbol t).children = r.children.map (Rule.symbol t) := by
  obtain ⟨prelude, name, extent, _ | ⟨c, cs⟩⟩ := r
  · rfl
  · show Rule.symbol t c :: Rule.symbol.symbols t cs = _
    rw [symbols_eq_map]
    rfl

/-- A brace is a character of its own, also in the text whose comments are not masked. -/
lemma OpensAt.boundaries (h : OpensAt m n) (hmasks : Masks t m) :
    IsBoundary t n ∧ IsBoundary t (n + 1) := by
  obtain ⟨a, b, rfl, rfl⟩ := h
  obtain ⟨x, y, rfl, hx, -⟩ := hmasks.split (by decide)
  rw [hx.bytes_eq]
  exact ⟨⟨x, _, rfl, rfl⟩, ⟨x ++ ['\x7b'], y, by simp, bytes_append x ['\x7b']⟩⟩

/-- A rule is not empty, whatever the offsets of its ends are rounded to. -/
lemma Rule.Ordered.cut_lt (h : r.Ordered m) (hmasks : Masks t m) :
    bytes (takeBytes r.extent.start t) < bytes (takeBytes r.extent.stop t) := by
  cases h with
  | @mk prelude name brace stop children h1 h2 hopens h3 _ =>
    obtain ⟨hb, hb'⟩ := hopens.boundaries hmasks
    calc bytes (takeBytes prelude.start t) ≤ bytes (takeBytes brace t) :=
          bytes_takeBytes_mono (h1.trans h2) t
      _ < bytes (takeBytes (brace + 1) t) := by
          rw [isBoundary_iff.1 hb, isBoundary_iff.1 hb']
          exact Nat.lt_succ_self _
      _ ≤ bytes (takeBytes stop t) := bytes_takeBytes_mono h3 t

namespace RulesWithin

/-- The ranges of rules in order are in order. -/
lemma clears (h : RulesWithin m lo rs hi) : (rs.map (Rule.symbol t)).Pairwise fun s next =>
    s.info.range.ClearsIn t next.info.range := by
  refine List.pairwise_map.2 (h.pairwise.imp_of_mem fun {r next} hr _ hle => ?_)
  rw [info_symbol, info_symbol]
  exact clearsIn_rangeOf (h.bounds r hr).1.start_lt_stop.le hle

end RulesWithin

mutual

/-- The symbol of a rule whose parts are in order is well formed. -/
theorem nested_symbol (hmasks : Masks t m) : ∀ r : Rule, r.Ordered m →
    (r.symbol t).Nested (Range.WithinIn t) (Range.ClearsIn t)
  | .mk prelude name extent children, h => by
    have hall := nested_symbols hmasks children
    cases h with
    | @mk _ _ brace stop _ h1 h2 hopens h3 hchildren =>
      refine .mk ?_ ?_ ?_ ?_ <;> simp only [info_symbol, children_symbol, Rule.children,
        Rule.info, Rule.extent, Rule.prelude, Span.rangeIn]
      · exact withinIn_rangeOf le_rfl h1 (h2.trans h3.le) (.inl rfl)
      · refine List.forall_mem_map.2 fun c hc => ?_
        rw [info_symbol]
        obtain ⟨hordered, hlo, hhi⟩ := hchildren.bounds c hc
        refine withinIn_rangeOf (by omega) hordered.start_lt_stop.le hhi (.inr ?_)
        exact (hordered.cut_lt hmasks).trans_le (bytes_takeBytes_mono hhi t)
      · exact hchildren.clears
      · exact List.forall_mem_map.2 (hall fun c hc => (hchildren.bounds c hc).1)

theorem nested_symbols (hmasks : Masks t m) : ∀ rs : List Rule, (∀ r ∈ rs, r.Ordered m) →
    ∀ r ∈ rs, (r.symbol t).Nested (Range.WithinIn t) (Range.ClearsIn t)
  | [], _ => by simp
  | r :: rs, h => List.forall_mem_cons.2 ⟨nested_symbol hmasks r (h r List.mem_cons_self),
      nested_symbols hmasks rs fun r' hr' => h r' (List.mem_cons_of_mem r hr')⟩

end

/-- **The outline of a style sheet is well formed.** -/
theorem outlined_symbols (t : Text) : Outlined (Range.WithinIn t) (Range.ClearsIn t)
    ((Sheet.ofText t).rules.map (Rule.symbol t)) where
  nested := List.forall_mem_map.2 fun r hr =>
    nested_symbol (masks_maskComments t) r ((rulesWithin_ofText t).bounds r hr).1
  pairwise := (rulesWithin_ofText t).clears

end Style

/-! ## Metadata blocks -/

/-- **The outline of a metadata block is well formed.** -/
theorem Metadata.outlined_symbols (t : Text) : Outlined (Range.WithinIn t) (Range.ClearsIn t)
    ((keys t).map (Key.symbol t)) where
  nested := List.forall_mem_map.2 fun k hk => by
    obtain ⟨h1, h2⟩ := (standsIn_of_mem_keys hk).bounds
    exact .mk (withinIn_rangeOf le_rfl h1 h2 (.inl rfl)) nofun .nil nofun
  pairwise := List.pairwise_map.2 ((pairwise_keys t).imp_of_mem fun {k next} hk _ hle => by
    obtain ⟨h1, h2⟩ := (standsIn_of_mem_keys hk).bounds
    exact clearsIn_rangeOf (h1.trans h2) hle)

/-! ## Files -/

namespace Registry

/-- What the adapters of the library outline is well formed. -/
lemma outlined_builtinWith {yaml : Metadata.Reader} {language : String} {a : Adapter}
    (h : (builtinWith yaml).get? language = some a) (e : Embedded) :
    ∃ symbols, a.symbols e = ⟨.ok symbols, false⟩ ∧
      Outlined (Range.WithinIn e.text) (Range.ClearsIn e.text) symbols := by
  rcases get?_builtinWith h with ⟨style, rfl⟩ | rfl
  · exact ⟨_, rfl, Style.outlined_symbols e.text⟩
  · exact ⟨_, rfl, Metadata.outlined_symbols e.text⟩

end Registry

/-- Of well-formed symbols in order an earlier one starts earlier, or where the later one does. -/
lemma Outlined.pairwise_start {symbols : List DocumentSymbol}
    (h : Outlined Range.Within Range.Clears symbols) :
    symbols.Pairwise fun s next => s.info.range.start.upTo next.info.range.start := by
  refine h.pairwise.imp_of_mem fun {s next} hs _ hclears => ?_
  cases h.nested s hs with
  | mk hselection _ _ _ =>
    obtain ⟨h1, h2, h3⟩ := hselection
    exact Position.upTo_trans (Position.upTo_trans h1 (Position.upTo_trans h2 h3)) hclears

/-- **The outline of a file is well formed**, if the file is served by the adapters of the library.
It is sorted by where the symbols start; in each symbol the selection and the children are inside
its range, and the children in order.  The symbols of one language are still in their order, one
behind the other. -/
theorem outlines_nest (r : Router) (options : ScanOptions) (key uri id : String) (version : Int)
    (source : Text) (cancelled : Bool)
    (hopen : r.store.get? key = some (.ofText options uri id version source))
    (yaml : Metadata.Reader) (hbuiltin : r.adapters = .builtinWith yaml) :
    let file := Snapshot.ofText options uri id version source
    let services := if cancelled then [] else r.blockServices file
    ∃ symbols, (r.documentSymbols key cancelled).result = .ok symbols ∧
      (symbols.Pairwise fun s next => s.info.range.start.upTo next.info.range.start) ∧
      (∀ s ∈ symbols, s.Nested Range.Within Range.Clears) ∧
      ∃ groups, List.Forall₂ (fun service group =>
          FileRequest.symbols.contributed service = some group) services groups ∧
        symbols.Perm groups.flatten ∧
        ∀ group ∈ groups, group.Sublist symbols ∧
          group.Pairwise fun s next => s.info.range.Clears next.info.range := by
  intro file services
  have hfans : FansOut .symbols key (fun r => r.documentSymbols key) :=
    fansOut_of_serves (fun _ _ => rfl) (Or.inl rfl) fun e he =>
      DocumentSymbol.isSome_translate (Embedded.isSome_rangeToHost? he)
  obtain ⟨symbols, hsymbols⟩ := hfans.exists_result rfl hopen cancelled
  have hmem (service : Service) (h : service ∈ services) : service ∈ r.blockServices file := by
    cases cancelled with
    | true => exact absurd h (by simp [services])
    | false => exact h
  -- the adapters let the request go on, and so all of them contribute
  have hlocal (service : Service) (h : service ∈ r.blockServices file) :
      ∃ answer, service.adapter.symbols service.document = ⟨.ok answer, false⟩ ∧
        Outlined (Range.WithinIn service.document.text) (Range.ClearsIn service.document.text)
          answer := by
    obtain ⟨language, hget, -⟩ := Router.mem_blockServices h
    rw [hbuiltin] at hget
    exact Registry.outlined_builtinWith hget service.document
  have hasked : FileRequest.symbols.asked (r.blockServices file) = r.blockServices file :=
    hfans.complete _ fun service h => by
      obtain ⟨answer, ha, -⟩ := hlocal service h
      exact hfans.goesOn_of_offset (Router.mode_of_mem_blockServices h) (congrArg Reply.cancels ha)
  have hfanIn : FileRequest.symbols.fanIn services = .ok symbols := by
    rw [← hsymbols, hfans.result_eq hopen]
    simp only [services, FileRequest.symbols] at hasked ⊢
    rw [hasked]
  obtain ⟨groups, hgroups, rfl⟩ := FileRequest.exists_of_fanIn hfanIn
  have houtlined (group : List DocumentSymbol) (h : group ∈ groups) :
      Outlined Range.Within Range.Clears group := by
    obtain ⟨service, hs, hc⟩ := mem_of_mapM hgroups h
    obtain ⟨language, -, hdoc, -⟩ := Router.mem_blockServices (hmem service hs)
    obtain ⟨answer, ha, hordered⟩ := hlocal service (hmem service hs)
    rw [FileRequest.contributed_of_answer (congrArg Reply.answer ha)] at hc
    rw [hdoc] at hordered hc
    exact (Embedded.joins_ofLanguage options uri id version source language).outlined_toHost rfl
      hordered hc
  have hperm : (FileRequest.symbols.gather groups.flatten).Perm groups.flatten :=
    List.mergeSort_perm _ _
  refine ⟨_, hsymbols, Position.pairwise_mergeSort (·.info.range.start) groups.flatten,
    fun s hs => ?_, groups, mapM_eq_some_iff.1 hgroups, hperm, fun group h => ⟨?_, ?_⟩⟩
  · obtain ⟨group, hgroup, hs⟩ := List.mem_flatten.1 (hperm.mem_iff.1 hs)
    exact (houtlined group hgroup).nested s hs
  · exact Position.sublist_mergeSort (·.info.range.start) (houtlined group h).pairwise_start
      (List.sublist_flatten_of_mem h)
  · exact (houtlined group h).pairwise

/-- A file with a rule that goes from one block into the next one, and with metadata. -/
theorem outlines_nest_two_blocks :
    let source : Text := "---\nk: v\n---<style>a{b{}</style><p/><style>c{}}</style>".toList
    let file := Snapshot.ofText {} "file:///a" "sfc" 1 source
    let r : Router := ⟨({} : Store).put file, .builtinWith fun _ => .ok .mapping⟩
    r.store.get? "file:///a" = some file ∧
      ∃ symbols, (r.documentSymbols "file:///a" false).result = .ok symbols ∧
        ∀ s ∈ symbols, s.Nested Range.Within Range.Clears := by
  intro source file r
  have hopen : r.store.get? "file:///a" = some file := Std.TreeMap.getElem?_insert_self
  obtain ⟨symbols, hsymbols, -, hnested, -⟩ :=
    outlines_nest r {} "file:///a" "file:///a" "sfc" 1 source false hopen _ rfl
  exact ⟨hopen, symbols, hsymbols, hnested⟩

end Mosaic
