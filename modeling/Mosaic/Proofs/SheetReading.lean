import Mosaic.Proofs.CommentMask
import Mosaic.Proofs.RegionPlace
import Mosaic.Style.Sheet

/-!
# Reading a style sheet

The reader of style sheets goes through a text character by character and keeps the text since the
last delimiter, the open rules, and what it has found.  Whatever it reports stands in the text at
the offsets it reports, and rules are reported in the order of the text, inside each other or one
behind the other.

* `Style.SheetState.At` — how far the reader has come.
* `Style.SheetState.run` — what each step keeps holds at the end.
* `Style.Rule.Ordered`, `Style.RulesWithin` — the parts of a rule, and rules, in their order.
* `Style.rulesWithin_ofText` — the rules of a sheet are in order.
* `Style.named_of_mem_declarations` — the properties of a sheet are names in it.
-/

namespace Mosaic

open Text

/-- Trimming leaves the span of the trimmed text. -/
lemma Span.ofTrimmed_eq (start : Nat) (t : Text) :
    ofTrimmed start t = ofText (start + bytes (t.takeWhile isBlank)) (trim t) := by
  simp only [ofTrimmed, ofText, max_trimmed]

lemma Span.ofTrimmed_bounds (start : Nat) (t : Text) :
    start ≤ (ofTrimmed start t).start ∧ (ofTrimmed start t).start ≤ (ofTrimmed start t).stop ∧
      (ofTrimmed start t).stop ≤ start + bytes t := by
  have hlength := congrArg bytes (takeWhile_append_trim t)
  simp only [bytes_append] at hlength
  simp only [ofTrimmed_eq, ofText]
  omega

namespace Style

variable {t read rest : Text} {c : Char} {s : SheetState} {r : Rule} {rs : List Rule}
  {lo mid hi reached reached' : Nat}

/-! ## How far the reader has come -/

namespace SheetState

/-- The reader has read a text: the part since the last delimiter is kept. -/
def At (s : SheetState) (read : Text) : Prop :=
  ∃ front, read = front ++ s.chunk ∧ bytes front = s.chunkStart

lemma At.offset (h : s.At read) : s.offset = bytes read := by
  obtain ⟨front, rfl, hfront⟩ := h
  rw [SheetState.offset, bytes_append, hfront]

lemma at_start : At {} [] := ⟨[], rfl, rfl⟩

@[simp] lemma stack_declare (s : SheetState) : s.declare.stack = s.stack := by
  unfold declare
  split <;> rfl

@[simp] lemma rules_declare (s : SheetState) : s.declare.sheet.rules = s.sheet.rules := by
  unfold declare
  split <;> rfl

@[simp] lemma chunk_declare (s : SheetState) : s.declare.chunk = s.chunk := by
  unfold declare
  split <;> rfl

@[simp] lemma chunkStart_declare (s : SheetState) : s.declare.chunkStart = s.chunkStart := by
  unfold declare
  split <;> rfl

@[simp] lemma offset_declare (s : SheetState) : s.declare.offset = s.offset := by
  simp [offset]

@[simp] lemma chunk_attach (s : SheetState) (r : Rule) : (s.attach r).chunk = s.chunk := by
  unfold attach
  split <;> rfl

@[simp] lemma chunkStart_attach (s : SheetState) (r : Rule) :
    (s.attach r).chunkStart = s.chunkStart := by
  unfold attach
  split <;> rfl

@[simp] lemma declarations_attach (s : SheetState) (r : Rule) :
    (s.attach r).sheet.declarations = s.sheet.declarations := by
  unfold attach
  split <;> rfl

@[simp] lemma offset_closeRule (s : SheetState) : s.closeRule.offset = s.offset := by
  unfold closeRule
  split <;> simp [offset]

@[simp] lemma declarations_closeRule (s : SheetState) :
    s.closeRule.sheet.declarations = s.sheet.declarations := by
  unfold closeRule
  split <;> simp

/-- Behind a delimiter nothing is kept. -/
lemma At.delimit (h : s.offset = bytes read) (hc : c.utf8Size = 1) :
    s.delimit.At (read ++ [c]) :=
  ⟨read ++ [c], by simp [SheetState.delimit], by simp [SheetState.delimit, h, hc]⟩

/-- Each step reads one character. -/
lemma At.step (h : s.At read) (c : Char) : (s.step c).At (read ++ [c]) := by
  have hoffset := h.offset
  unfold SheetState.step
  split_ifs with hopen hsemicolon hclose
  · exact .delimit hoffset (by rw [hopen]; rfl)
  · exact .delimit (by simpa using hoffset) (by rw [hsemicolon]; rfl)
  · exact .delimit (by simpa using hoffset) (by rw [hclose]; rfl)
  · obtain ⟨front, rfl, hfront⟩ := h
    exact ⟨front, by simp, hfront⟩

/-- What holds of the text that has been read and the state, at the start and after each step, holds
at the end. -/
theorem run_reading {P : Text → SheetState → Prop} (t : Text) (hstart : P [] {})
    (hstep : ∀ read c rest s, t = read ++ c :: rest → P read s → P (read ++ [c]) (s.step c)) :
    P t (t.foldl step {}) := by
  suffices h : ∀ rest read s, t = read ++ rest → P read s → P t (rest.foldl step s) from
    h t [] {} rfl hstart
  intro rest
  induction rest with
  | nil =>
    rintro read s rfl hs
    simpa using hs
  | cons c rest ih =>
    intro read s ht hs
    exact ih (read ++ [c]) (s.step c) (by simp [ht]) (hstep read c rest s ht hs)

/-- **What holds at the start and is kept by each step holds at the end.** -/
theorem run {P : SheetState → Prop} (t : Text) (hstart : P {})
    (hstep : ∀ s read c rest, t = read ++ c :: rest → s.At read → P s → P (s.step c)) :
    (t.foldl step {}).At t ∧ P (t.foldl step {}) :=
  run_reading (P := fun read s => s.At read ∧ P s) t ⟨at_start, hstart⟩
    fun read c rest s ht hs => ⟨hs.1.step c, hstep s read c rest ht hs.1 hs.2⟩

end SheetState

/-! ## Rules in order -/

/-- An opening brace stands at an offset of a text. -/
def OpensAt (t : Text) (n : Nat) : Prop :=
  ∃ a b, t = a ++ '\x7b' :: b ∧ bytes a = n

mutual

/-- The parts of a rule follow each other: what it is for, its opening brace, the rules inside, and
its end. -/
inductive Rule.Ordered (t : Text) : Rule → Prop where
  | mk {prelude : Span} {name : Text} {brace stop : Nat} {children : List Rule} :
    prelude.start ≤ prelude.stop → prelude.stop ≤ brace → OpensAt t brace → brace < stop →
      RulesWithin t (brace + 1) children stop →
      Rule.Ordered t (.mk prelude name ⟨prelude.start, stop⟩ children)

/-- Rules follow each other between two offsets. -/
inductive RulesWithin (t : Text) : Nat → List Rule → Nat → Prop where
  | nil {lo hi : Nat} : lo ≤ hi → RulesWithin t lo [] hi
  | cons {lo hi : Nat} {r : Rule} {rs : List Rule} : lo ≤ r.extent.start → r.Ordered t →
      RulesWithin t r.extent.stop rs hi → RulesWithin t lo (r :: rs) hi

end

lemma Rule.Ordered.start_lt_stop (h : r.Ordered t) : r.extent.start < r.extent.stop := by
  cases h with
  | mk h1 h2 _ h3 _ => exact (h1.trans h2).trans_lt h3

namespace RulesWithin

lemma le (h : RulesWithin t lo rs hi) : lo ≤ hi := by
  induction rs generalizing lo with
  | nil =>
    cases h with
    | nil hle => exact hle
  | cons r rs ih =>
    cases h with
    | cons hlo hr hrest =>
      have := hr.start_lt_stop
      have := ih hrest
      omega

lemma mono (h : RulesWithin t lo rs mid) (hle : mid ≤ hi) : RulesWithin t lo rs hi := by
  induction rs generalizing lo with
  | nil => exact .nil (h.le.trans hle)
  | cons r rs ih =>
    cases h with
    | cons hlo hr hrest => exact .cons hlo hr (ih hrest)

/-- One more rule, behind the others. -/
lemma snoc (h : RulesWithin t lo rs r.extent.start) (hr : r.Ordered t) :
    RulesWithin t lo (rs ++ [r]) r.extent.stop := by
  induction rs generalizing lo with
  | nil => exact .cons h.le hr (.nil le_rfl)
  | cons r' rs ih =>
    cases h with
    | cons hlo hr' hrest => exact .cons hlo hr' (ih hrest)

lemma bounds (h : RulesWithin t lo rs hi) :
    ∀ r ∈ rs, r.Ordered t ∧ lo ≤ r.extent.start ∧ r.extent.stop ≤ hi := by
  induction rs generalizing lo with
  | nil => simp
  | cons r rs ih =>
    cases h with
    | cons hlo hr hrest =>
      intro r' hr'
      rcases List.mem_cons.1 hr' with rfl | hr'
      · exact ⟨hr, hlo, hrest.le⟩
      · obtain ⟨hordered, hle, hge⟩ := ih hrest r' hr'
        exact ⟨hordered, hlo.trans (hr.start_lt_stop.le.trans hle), hge⟩

lemma pairwise (h : RulesWithin t lo rs hi) :
    rs.Pairwise fun r next => r.extent.stop ≤ next.extent.start := by
  induction rs generalizing lo with
  | nil => exact .nil
  | cons r rs ih =>
    cases h with
    | cons hlo hr hrest => exact .cons (fun r' hr' => (hrest.bounds r' hr').2.1) (ih hrest)

end RulesWithin

/-! ## Open rules -/

/-- The parts of an open rule follow each other up to the place that has been reached. -/
structure OpenRule.Ordered (t : Text) (o : OpenRule) (reached : Nat) : Prop where
  prelude_le : o.prelude.start ≤ o.prelude.stop
  le_brace : o.prelude.stop ≤ o.brace
  opens : OpensAt t o.brace
  children : RulesWithin t (o.brace + 1) o.children reached

/-- An open rule becomes a rule where it is closed. -/
lemma OpenRule.Ordered.close {o : OpenRule} (h : o.Ordered t reached) :
    (o.close reached).Ordered t :=
  .mk h.prelude_le h.le_brace h.opens h.children.le h.children

/-- Each open rule is behind all that is finished in the one around it, and the outermost one is
behind all finished rules. -/
inductive StackOrdered (t : Text) (rules : List Rule) : List OpenRule → Nat → Prop where
  | nil {reached : Nat} : RulesWithin t 0 rules reached → StackOrdered t rules [] reached
  | cons {o : OpenRule} {rest : List OpenRule} {reached : Nat} : o.Ordered t reached →
      StackOrdered t rules rest o.prelude.start → StackOrdered t rules (o :: rest) reached

variable {o : OpenRule} {stack : List OpenRule}

lemma StackOrdered.mono (h : StackOrdered t rs stack reached) (hle : reached ≤ reached') :
    StackOrdered t rs stack reached' := by
  cases h with
  | nil hrules => exact .nil (hrules.mono hle)
  | cons ho hrest =>
    exact .cons ⟨ho.prelude_le, ho.le_brace, ho.opens, ho.children.mono hle⟩ hrest

/-- One more rule in an open one. -/
lemma OpenRule.Ordered.snoc (h : o.Ordered t r.extent.start) (hr : r.Ordered t) :
    ({ o with children := o.children ++ [r] } : OpenRule).Ordered t r.extent.stop :=
  ⟨h.prelude_le, h.le_brace, h.opens, h.children.snoc hr⟩

namespace SheetState

/-- The rules found up to the last delimiter are in order. -/
def RulesOrdered (t : Text) (s : SheetState) : Prop :=
  StackOrdered t s.sheet.rules s.stack s.chunkStart

/-- A finished rule goes behind all the others. -/
lemma stackOrdered_attach (h : StackOrdered t s.sheet.rules s.stack r.extent.start)
    (hr : r.Ordered t) :
    StackOrdered t (s.attach r).sheet.rules (s.attach r).stack r.extent.stop := by
  obtain ⟨_ | ⟨parent, rest⟩, chunkStart, chunk, sheet⟩ := s
  · cases h with
    | nil hrules => exact .nil (hrules.snoc hr)
  · cases h with
    | cons hparent hrest => exact .cons (hparent.snoc hr) hrest

lemma rulesOrdered_openRule (h : s.RulesOrdered t) (hopens : OpensAt t s.offset) :
    s.openRule.delimit.RulesOrdered t := by
  obtain ⟨h1, h2, h3⟩ := Span.ofTrimmed_bounds s.chunkStart s.chunk
  exact .cons ⟨h2, h3, hopens, .nil le_rfl⟩ (h.mono h1)

lemma rulesOrdered_closeRule (h : s.RulesOrdered t) : s.closeRule.delimit.RulesOrdered t := by
  have hle : s.chunkStart ≤ s.offset + 1 := (Nat.le_add_right ..).trans (Nat.le_succ _)
  have hreached := h.mono hle
  show StackOrdered t s.closeRule.sheet.rules s.closeRule.stack (s.closeRule.offset + 1)
  rw [offset_closeRule]
  obtain ⟨_ | ⟨o, rest⟩, chunkStart, chunk, sheet⟩ := s
  · exact hreached
  · cases hreached with
    | cons ho hrest => exact stackOrdered_attach (s := ⟨rest, chunkStart, chunk, sheet⟩) hrest ho.close

/-- **Each step keeps the rules in order.** -/
theorem rulesOrdered_step (ht : t = read ++ c :: rest) (hat : s.At read) (h : s.RulesOrdered t) :
    (s.step c).RulesOrdered t := by
  have hdeclare : s.declare.RulesOrdered t := by simpa [RulesOrdered] using h
  unfold step
  split_ifs with hopen hsemicolon hclose
  · exact rulesOrdered_openRule h ⟨read, rest, by rw [ht, hopen], hat.offset.symm⟩
  · exact hdeclare.mono ((Nat.le_add_right ..).trans (Nat.le_succ _))
  · exact rulesOrdered_closeRule hdeclare
  · exact h

/-- Closing what is still open leaves the rules in order. -/
theorem rulesWithin_unwind {sheet : Sheet} (h : StackOrdered t sheet.rules stack hi) :
    RulesWithin t 0 (unwind hi stack sheet).rules hi := by
  fun_induction unwind hi stack sheet with
  | case1 sheet =>
    cases h with
    | nil hrules => exact hrules
  | case2 o sheet =>
    cases h with
    | cons ho hrest =>
      cases hrest with
      | nil hrules => exact hrules.snoc (r := o.close hi) ho.close
  | case3 o parent rest sheet ih =>
    cases h with
    | cons ho hrest =>
      cases hrest with
      | cons hparent hrest => exact ih (.cons (hparent.snoc (r := o.close hi) ho.close) hrest)

lemma rules_finish (s : SheetState) :
    s.finish.rules = (unwind s.offset s.stack s.declare.sheet).rules := by
  simp [finish]

end SheetState

/-- **The rules of a style sheet are in order**, inside each other or one behind the other. -/
theorem rulesWithin_ofText (t : Text) :
    RulesWithin (maskComments t) 0 (Sheet.ofText t).rules (bytes t) := by
  obtain ⟨hat, hordered⟩ := SheetState.run (P := SheetState.RulesOrdered (maskComments t))
    (maskComments t) (.nil (.nil le_rfl)) fun s read c rest ht hat h =>
      SheetState.rulesOrdered_step ht hat h
  have hoffset := hat.offset.trans (masks_maskComments t).bytes_eq
  rw [Sheet.ofText, SheetState.rules_finish, ← hoffset]
  refine SheetState.rulesWithin_unwind ?_
  rw [SheetState.rules_declare]
  exact hordered.mono (Nat.le_add_right ..)

/-! ## Names of properties -/

/-- The name of a property stands in a span of a text. -/
def Named (t : Text) (span : Span) : Prop :=
  ∃ a w b, t = a ++ (w ++ b) ∧ isPropertyName w ∧ span = Span.ofText (bytes a) w

/-- What is kept of a name: it is not empty, and its characters are of words or dashes. -/
lemma chars_of_isPropertyName {w : Text} (h : isPropertyName w) :
    w ≠ [] ∧ ∀ c ∈ w, c = '-' ∨ c.isAlpha ∨ isWordChar c := by
  simp only [isPropertyName] at h
  have hsplit := List.take_append_drop (w.takeWhile (· == '-')).length w
  have hdashes := List.takeWhile_prefix (l := w) (· == '-')
  rw [List.prefix_iff_eq_take] at hdashes
  rw [← hdashes] at hsplit
  cases hrest : w.drop (w.takeWhile (· == '-')).length with
  | nil => simp [hrest] at h
  | cons c r =>
    rw [hrest] at h hsplit
    obtain ⟨⟨-, hc⟩, hr⟩ : (_ ∧ c.isAlpha) ∧ ∀ x ∈ r, isWordChar x ∨ x = '-' := by simpa using h
    refine ⟨by rintro rfl; simp at hrest, fun x hx => ?_⟩
    rw [← hsplit] at hx
    rcases List.mem_append.1 hx with hx | hx
    · exact .inl (by simpa using List.mem_takeWhile_imp hx)
    · rcases List.mem_cons.1 hx with rfl | hx
      · exact .inr (.inl hc)
      · exact (hr x hx).elim (fun hw => .inr (.inr hw)) .inl

/-- A declaration is a name, a colon and a value. -/
lemma Declaration.parts_of_ofChunk? {start : Nat} {chunk : Text} {d : Declaration}
    (h : ofChunk? start chunk = some d) :
    ∃ before after, chunk = before ++ ':' :: after ∧ isPropertyName (trim before) ∧
      d = ⟨Span.ofTrimmed start before, Span.ofTrimmed (start + bytes before + 1) after⟩ := by
  have hsplit := List.take_append_drop (chunk.takeWhile (· != ':')).length chunk
  rw [← List.prefix_iff_eq_take.1 (List.takeWhile_prefix _)] at hsplit
  have hcolon := List.head?_dropWhile_not (· != ':') chunk
  rw [← List.append_cancel_left (hsplit.trans List.takeWhile_append_dropWhile.symm)] at hcolon
  simp only [ofChunk?] at h
  generalize chunk.takeWhile (· != ':') = before at h hsplit hcolon
  split at h
  · contradiction
  next colon after hafter =>
    split at h
    next hname =>
      rw [hafter] at hsplit hcolon
      obtain rfl : colon = ':' := by simpa using hcolon
      exact ⟨before, after, hsplit.symm, hname, (Option.some.inj h).symm⟩
    · contradiction

/-- A declaration starts with the name of its property. -/
lemma named_of_ofChunk? {start : Nat} {chunk : Text} {d : Declaration}
    (h : Declaration.ofChunk? start chunk = some d) :
    ∃ x w y, chunk = x ++ (w ++ y) ∧ isPropertyName w ∧
      d.property = Span.ofText (start + bytes x) w := by
  obtain ⟨before, after, rfl, hname, rfl⟩ := Declaration.parts_of_ofChunk? h
  refine ⟨before.takeWhile isBlank, trim before,
    (trimStart before).rtakeWhile isBlank ++ ':' :: after, ?_, hname, Span.ofTrimmed_eq start before⟩
  conv_lhs => rw [← takeWhile_append_trim before]
  simp only [List.append_assoc]

namespace SheetState

/-- The properties of all declarations that were found are names in the text. -/
def AllNamed (t : Text) (s : SheetState) : Prop :=
  ∀ d ∈ s.sheet.declarations, Named t d.property

lemma allNamed_declare (ht : t = read ++ rest) (hat : s.At read) (h : s.AllNamed t) :
    s.declare.AllNamed t := by
  unfold declare
  cases hd : Declaration.ofChunk? s.chunkStart s.chunk with
  | none => exact h
  | some d =>
    obtain ⟨front, rfl, hfront⟩ := hat
    obtain ⟨x, w, y, hchunk, hname, hspan⟩ := named_of_ofChunk? hd
    have hnamed : Named t d.property :=
      ⟨front ++ x, w, y ++ rest, by rw [ht, hchunk]; simp only [List.append_assoc], hname,
        by rw [hspan, bytes_append, hfront]⟩
    intro d' hd'
    rcases List.mem_append.1 hd' with hd' | hd'
    · exact h d' hd'
    · rwa [List.mem_singleton.1 hd']

lemma allNamed_step (ht : t = read ++ c :: rest) (hat : s.At read) (h : s.AllNamed t) :
    (s.step c).AllNamed t := by
  have hdeclare := allNamed_declare ht hat h
  unfold step
  split_ifs
  · exact h
  · exact hdeclare
  · unfold AllNamed
    show ∀ d ∈ s.declare.closeRule.sheet.declarations, Named t d.property
    rwa [declarations_closeRule]
  · exact h

lemma declarations_unwind (stop : Nat) (stack : List OpenRule) (sheet : Sheet) :
    (unwind stop stack sheet).declarations = sheet.declarations := by
  fun_induction unwind stop stack sheet with
  | case1 => rfl
  | case2 => rfl
  | case3 o parent rest sheet ih => exact ih

lemma declarations_finish (s : SheetState) :
    s.finish.declarations = s.declare.sheet.declarations := by
  simp [finish, declarations_unwind]

end SheetState

/-- **The property of a declaration is a name that stands in the text**, where the declaration says
that it is. -/
theorem named_of_mem_declarations {d : Declaration} (h : d ∈ (Sheet.ofText t).declarations) :
    Named t d.property := by
  obtain ⟨hat, hall⟩ := SheetState.run (P := SheetState.AllNamed (maskComments t)) (maskComments t)
    nofun fun s read c rest ht hat h => SheetState.allNamed_step ht hat h
  rw [Sheet.ofText, SheetState.declarations_finish] at h
  obtain ⟨a, w, b, ht, hname, hspan⟩ :=
    SheetState.allNamed_declare (List.append_nil _).symm hat hall d h
  obtain ⟨hne, hchars⟩ := chars_of_isPropertyName hname
  -- a name has no spaces, so none of it is masked
  have hspace : ' ' ∉ w := fun hmem => absurd (hchars ' ' hmem) (by decide)
  obtain ⟨x, y, hxy, hx, -⟩ := (ht ▸ masks_maskComments t).split_word hne hspace
  exact ⟨x, w, y, hxy, hname, by rw [hspan, hx.bytes_eq]⟩

end Style

end Mosaic
