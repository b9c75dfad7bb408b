import Mosaic.Proofs.MarkedCursor
import Mosaic.Yaml.Token

/-!
# The marks of YAML tokens

A tokenizer reads ahead, and a token that it puts in front of others it has already read takes
the mark of a possible key.  So the marks of the queue and of the possible keys are kept in the
text together with the cursor.

* `Tokenizer.In` — all of a tokenizer's marks are in a text.
* `Tokenizer.In.fetchNext` — reading one token keeps them there.
* `Tokenizer.In.peek` — a token that is handed out.
* `Tokenizer.in_ofText` — a tokenizer starts in its text.
-/

namespace Mosaic.Yaml

open Text

variable {t : Text} {s : Tokenizer} {m : Mark} {c : Cursor}

/-- A list of readers, each of which ends with something that has a property. -/
lemma Reads.mapM {α β : Type} {Q : β → Prop} {f : α → Except Fault β} {xs : List α}
    (hf : ∀ x ∈ xs, Reads t Q (f x)) : Reads t (fun ys => ∀ y ∈ ys, Q y) (xs.mapM f) := by
  induction xs with
  | nil => exact fun _ h => nomatch h
  | cons x xs ih =>
    rw [List.mapM_cons]
    rw [List.forall_mem_cons] at hf
    exact hf.1.bind fun y hy => (ih hf.2).bind fun ys hys => List.forall_mem_cons.2 ⟨hy, hys⟩

namespace Tokenizer

/-- The marks of possible keys stand in a text. -/
def KeysIn (t : Text) (keys : List (Option PossibleKey)) : Prop :=
  ∀ key ∈ keys, ∀ k ∈ key, k.mark.In t

lemma keysIn_cons {key : Option PossibleKey} {keys : List (Option PossibleKey)} :
    KeysIn t (key :: keys) ↔ (∀ k ∈ key, k.mark.In t) ∧ KeysIn t keys :=
  List.forall_mem_cons

lemma KeysIn.none_cons {keys : List (Option PossibleKey)} (h : KeysIn t keys) :
    KeysIn t (none :: keys) :=
  keysIn_cons.2 ⟨nofun, h⟩

lemma KeysIn.tail {keys : List (Option PossibleKey)} (h : KeysIn t keys) : KeysIn t keys.tail :=
  fun key hkey => h key (List.mem_of_mem_tail hkey)

/-- The cursor of a tokenizer stands in a text, and so do the marks of the tokens that it has not
handed out and of its possible keys. -/
structure In (t : Text) (s : Tokenizer) : Prop where
  cursor : s.cursor.In t
  queue : ∀ token ∈ s.queue, token.mark.In t
  keys : KeysIn t s.keys

namespace In

lemma mark (h : s.In t) : s.mark.In t := h.cursor.mark

lemma withCursor (h : s.In t) (hc : c.In t) : In t { s with cursor := c } :=
  ⟨hc, h.queue, h.keys⟩

lemma withKeys (h : s.In t) {keys : List (Option PossibleKey)} (hkeys : KeysIn t keys) :
    In t { s with keys := keys } :=
  ⟨h.cursor, h.queue, hkeys⟩

lemma allowKey (h : s.In t) (allowed : Bool) : In t { s with keyAllowed := allowed } :=
  ⟨h.cursor, h.queue, h.keys⟩

lemma push (h : s.In t) (kind : TokenKind) (hm : m.In t) : (s.push kind m).In t := by
  refine ⟨h.cursor, fun token htoken => ?_, h.keys⟩
  rcases List.mem_append.1 htoken with htoken | htoken
  · exact h.queue token htoken
  · rw [List.mem_singleton.1 htoken]
    exact hm

lemma insertAt (h : s.In t) (n : Nat) (kind : TokenKind) (hm : m.In t) :
    (s.insertAt n kind m).In t := by
  refine ⟨h.cursor, fun token htoken => ?_, h.keys⟩
  rcases List.mem_append.1 htoken with htoken | htoken
  · exact h.queue token (List.mem_of_mem_take htoken)
  · rcases List.mem_cons.1 htoken with rfl | htoken
    · exact hm
    · exact h.queue token (List.mem_of_mem_drop htoken)

lemma pushIndicator (h : s.In t) (kind : TokenKind) (width : Nat) :
    (s.pushIndicator kind width).In t :=
  (h.push kind h.mark).withCursor (h.cursor.move width)

/-! ## Possible keys -/

lemma dropStaleKeys (h : s.In t) : Reads t (In t) s.dropStaleKeys := by
  refine Reads.bind (P := KeysIn t) (Reads.mapM fun key hkey => ?_)
    fun keys hkeys => h.withKeys fun key hkey => hkeys key (List.mem_reverse.1 hkey)
  have hk := h.keys key (List.mem_reverse.1 hkey)
  cases key with
  | none => exact hk
  | some k => exact .ite (fun _ => .ite (fun _ => h.mark) fun _ => nofun) fun _ => hk

lemma dropKey (h : s.In t) : Reads t (In t) s.dropKey := by
  unfold Tokenizer.dropKey
  split
  next k ks hkeys =>
    have hrest := (keysIn_cons.1 (hkeys ▸ h.keys)).2
    exact .ite (fun _ => h.mark) fun _ => h.withKeys hrest.none_cons
  next => exact h

lemma saveKey (h : s.In t) : Reads t (In t) s.saveKey := by
  refine .ite (fun _ => h) fun _ => h.dropKey.bind fun s hs => ?_
  refine hs.withKeys (keysIn_cons.2 ⟨fun k hk => ?_, hs.keys.tail⟩)
  obtain rfl := Option.some.inj hk
  exact hs.mark

/-! ## Indentation -/

lemma rollIndent (h : s.In t) (column : Nat) (number : Option Nat) (kind : TokenKind)
    (hm : m.In t) : (s.rollIndent column number kind m).In t := by
  unfold Tokenizer.rollIndent
  split
  · exact h
  · have hs : In t { s with outer := s.indent :: s.outer, indent := column } :=
      ⟨h.cursor, h.queue, h.keys⟩
    cases number with
    | none => exact hs.push kind hm
    | some n => exact hs.insertAt n kind hm

lemma unrollIndentFrom (h : s.In t) (column : Int) (outer : List Int) :
    (unrollIndentFrom column outer s).In t := by
  induction outer generalizing s with
  | nil => exact h
  | cons i is ih =>
    rw [Tokenizer.unrollIndentFrom]
    split
    · have hs := h.push .blockEnd h.mark
      exact ih ⟨hs.cursor, hs.queue, hs.keys⟩
    · exact h

lemma unrollIndent (h : s.In t) (column : Int) : (s.unrollIndent column).In t := by
  unfold Tokenizer.unrollIndent
  split
  · exact h
  · exact h.unrollIndentFrom column s.outer

/-! ## White space between tokens -/

lemma skipBlanks (h : s.In t) (fuel : Nat) : (skipBlanks fuel s).In t := by
  induction fuel generalizing s with
  | zero => exact h
  | succ fuel ih =>
    rw [Tokenizer.skipBlanks]
    -- an order mark, spaces and a comment
    generalize hfirst : (if s.cursor.mark.index = 0 ∧ s.cursor.next = '\ufeff'
      then s.cursor.move 1 else s.cursor) = first
    have hmark : first.In t := hfirst ▸ (h.cursor.move 1).ite _ h.cursor
    have hspaces := hmark.skipWhile fun x => x == ' ' || ((s.inFlow || !s.keyAllowed) && x == '\t')
    generalize first.skipWhile _ = blank at hspaces ⊢
    have hcomment := hspaces.skipLine.ite (blank.next = '#') hspaces
    split
    next hbreak => exact ih ⟨hcomment.lineBreak? hbreak, h.queue, h.keys⟩
    next => exact h.withCursor hcomment

/-! ## Reading one token -/

lemma fetchStreamStart (h : s.In t) : s.fetchStreamStart.In t :=
  ⟨h.cursor, (h.push .streamStart h.mark).queue, KeysIn.none_cons nofun⟩

lemma leaveDocument (h : s.In t) : Reads t (In t) s.leaveDocument :=
  (h.unrollIndent (-1)).dropKey.bind fun _ hs => hs.allowKey false

/-- The end of the stream is where the text ends, on whatever line it is said to be. -/
lemma fetchStreamEnd (h : s.In t) : Reads t (In t) s.fetchStreamEnd := by
  obtain ⟨a, ht, ha⟩ := h.cursor
  have hindex : (if s.mark.column = 0 then s.mark
      else { s.mark with line := s.mark.line + 1, column := 0 }).index = s.cursor.mark.index := by
    split <;> rfl
  have hs : In t { s with cursor.mark := if s.mark.column = 0 then s.mark
      else { s.mark with line := s.mark.line + 1, column := 0 } } :=
    ⟨⟨a, ht, ha.trans hindex.symm⟩, h.queue, h.keys⟩
  unfold Tokenizer.fetchStreamEnd
  exact hs.leaveDocument.bind fun _ hs => hs.push .streamEnd hs.mark

lemma fetchDirective (h : s.In t) : Reads t (In t) s.fetchDirective :=
  h.leaveDocument.bind fun _ hs => (readsOn_readDirective hs.cursor).bind fun _ hc =>
    (hs.push _ hs.mark).withCursor hc

lemma fetchDocumentBound (h : s.In t) (kind : TokenKind) :
    Reads t (In t) (s.fetchDocumentBound kind) :=
  h.leaveDocument.bind fun _ hs => hs.pushIndicator kind 3

lemma fetchFlowStart (h : s.In t) (kind : TokenKind) : Reads t (In t) (s.fetchFlowStart kind) :=
  h.saveKey.bind fun s hs => by
    have hopen : In t
        { s with flowLevel := s.flowLevel + 1, keys := none :: s.keys, keyAllowed := true } :=
      ⟨hs.cursor, hs.queue, hs.keys.none_cons⟩
    exact hopen.pushIndicator kind 1

lemma fetchFlowEnd (h : s.In t) (kind : TokenKind) : Reads t (In t) (s.fetchFlowEnd kind) :=
  h.dropKey.bind fun s hs => by
    have hclose : In t (if s.inFlow
        then { s with flowLevel := s.flowLevel - 1, keys := s.keys.tail } else s) := by
      split
      · exact ⟨hs.cursor, hs.queue, hs.keys.tail⟩
      · exact hs
    exact (hclose.allowKey false).pushIndicator kind 1

lemma fetchFlowEntry (h : s.In t) : Reads t (In t) s.fetchFlowEntry :=
  h.dropKey.bind fun _ hs => (hs.allowKey true).pushIndicator .flowEntry 1

lemma fetchBlockEntry (h : s.In t) : Reads t (In t) s.fetchBlockEntry := by
  unfold Tokenizer.fetchBlockEntry
  refine .throwIf ?_ ?_
  · exact h.mark
  · exact (h.rollIndent s.mark.column none .blockSequenceStart h.mark).dropKey.bind fun _ hs =>
      (hs.allowKey true).pushIndicator .blockEntry 1

lemma fetchKey (h : s.In t) : Reads t (In t) s.fetchKey := by
  unfold Tokenizer.fetchKey
  refine .throwIf ?_ ?_
  · exact h.mark
  · exact (h.rollIndent s.mark.column none .blockMappingStart h.mark).dropKey.bind fun s hs =>
      (hs.allowKey (!s.inFlow)).pushIndicator .key 1

lemma fetchValue (h : s.In t) : Reads t (In t) s.fetchValue := by
  unfold Tokenizer.fetchValue
  split
  next k ks hkeys =>
    obtain ⟨hk, hrest⟩ := keysIn_cons.1 (hkeys ▸ h.keys)
    have hs := (h.insertAt k.number .key (hk k rfl)).rollIndent k.mark.column (some k.number)
      .blockMappingStart (hk k rfl)
    exact ((hs.withKeys hrest.none_cons).allowKey false).pushIndicator .value 1
  next =>
    have hs := h.rollIndent s.mark.column none .blockMappingStart h.mark
    exact .ite (fun _ => h.mark) fun _ => (hs.allowKey _).pushIndicator .value 1

/-- An anchor, an alias or a tag becomes a token. -/
lemma fetchProperty (h : s.In t) {read : Cursor → Except Fault (TokenKind × Cursor)}
    (hread : ∀ c, c.In t → ReadsOn t (read c)) : Reads t (In t) (s.fetchProperty read) :=
  h.saveKey.bind fun s hs => (hread s.cursor hs.cursor).bind fun r hr =>
    ((hs.push r.1 hs.mark).allowKey false).withCursor hr

/-- A scalar that has been read becomes a token. -/
lemma pushScalar (h : s.In t) {r : ReadScalar} (hr : r.cursor.In t) (isPlain allowed : Bool) :
    In t { s.push (.scalar r.text isPlain) s.mark with
      keyAllowed := allowed, cursor := r.cursor } :=
  ((h.push _ h.mark).allowKey allowed).withCursor hr

lemma fetchBlockScalar (h : s.In t) (literal : Bool) :
    Reads t (In t) (s.fetchBlockScalar literal) :=
  h.dropKey.bind fun s hs => (readsScalar_readBlock hs.cursor literal s.indent).bind fun _ hr =>
    hs.pushScalar hr false true

lemma fetchQuoted (h : s.In t) : Reads t (In t) s.fetchQuoted :=
  h.saveKey.bind fun _ hs => (readsScalar_readQuoted hs.cursor).bind fun _ hr =>
    hs.pushScalar hr false false

lemma fetchPlain (h : s.In t) : Reads t (In t) s.fetchPlain :=
  h.saveKey.bind fun _ hs => (readsScalar_readPlain hs.cursor _ _).bind fun r hr =>
    hs.pushScalar hr true r.broken

/-- **Reading one token stays in the text.** -/
theorem fetchNext (h : s.In t) : Reads t (In t) s.fetchNext := by
  unfold Tokenizer.fetchNext
  refine .ite (fun _ => h.fetchStreamStart) fun _ =>
    (h.skipBlanks _).dropStaleKeys.bind fun s hs => ?_
  replace hs := hs.unrollIndent s.mark.column
  refine .ite (fun _ => hs.fetchStreamEnd) fun _ => .ite (fun _ => hs.fetchDirective) fun _ =>
    .ite (fun _ => hs.fetchDocumentBound _) fun _ => .ite (fun _ => hs.fetchFlowStart _) fun _ =>
    .ite (fun _ => hs.fetchFlowStart _) fun _ => .ite (fun _ => hs.fetchFlowEnd _) fun _ =>
    .ite (fun _ => hs.fetchFlowEnd _) fun _ => .ite (fun _ => hs.fetchFlowEntry) fun _ =>
    .ite (fun _ => hs.fetchBlockEntry) fun _ => .ite (fun _ => hs.fetchKey) fun _ =>
    .ite (fun _ => hs.fetchValue) fun _ => .ite (fun _ => ?_) fun _ => .ite (fun _ => ?_) fun _ =>
    .ite (fun _ => ?_) fun _ => .ite (fun _ => hs.fetchBlockScalar _) fun _ =>
    .ite (fun _ => hs.fetchQuoted) fun _ => .ite (fun _ => hs.fetchPlain) fun _ => hs.mark
  · exact hs.fetchProperty fun _ hc => (readsOn_readAnchor hc .alias).map fun _ hr => hr
  · exact hs.fetchProperty fun _ hc => (readsOn_readAnchor hc .anchor).map fun _ hr => hr
  · exact hs.fetchProperty fun _ hc => (readsOn_readTag hc _).map fun _ hr => hr

/-! ## Handing tokens out -/

lemma fill (h : s.In t) (fuel : Nat) : Reads t (In t) (fill fuel s) := by
  induction fuel generalizing s with
  | zero => exact h
  | succ fuel ih =>
    rw [Tokenizer.fill]
    refine .ite (fun _ => h.fetchNext.bind fun _ hs => ih hs) fun _ => ?_
    exact h.dropStaleKeys.bind fun _ hs => .ite (fun _ => hs.fetchNext.bind fun _ hs => ih hs)
      fun _ => hs

/-- **A token that is handed out has its mark in the text.** -/
theorem peek (h : s.In t) : Reads t (fun r => r.1.mark.In t ∧ r.2.In t) s.peek :=
  (h.fill _).bind fun s hs => ⟨by
    cases hqueue : s.queue with
    | nil => exact hs.mark
    | cons token rest => exact hs.queue token (hqueue ▸ List.mem_cons_self), hs⟩

lemma drop (h : s.In t) : s.drop.In t :=
  ⟨h.cursor, fun token htoken => h.queue token (List.mem_of_mem_tail htoken), h.keys⟩

end In

lemma in_ofText (t : Text) : (ofText t).In t :=
  ⟨⟨[], rfl, rfl⟩, nofun, nofun⟩

end Tokenizer

end Mosaic.Yaml
