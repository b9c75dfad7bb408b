import Mosaic.Proofs.Boundary
import Mosaic.Yaml.Scalar
import Mosaic.Yaml.Tag

/-!
# The marks of a YAML reader

The index of a mark is meant to count the bytes of the characters that were read before it.  It
does so because a reader goes on by whole characters only: what it has left of a text is then all
that follows its mark, and whatever it complains about, it does so at a mark that it has passed.

* `Mark.In` — a mark between two characters of a text.
* `Cursor.In`, `Cursor.In.after` — a cursor in a text, and what reading on does to it.
* `Reads` — a reader that ends with something good or with a fault in the text; `Reads.bind`,
  `Reads.ite`, `Reads.throwIf` and `Reads.gap` go through the ways to put readers together.
* `readsOn_readTag`, `readsOn_readDirective` — anchors, tags and directives.
* `readsScalar_readPlain`, `readsScalar_readQuoted`, `readsScalar_readBlock` — scalars.
-/

namespace Mosaic.Yaml

open Text

variable {t : Text} {c : Cursor} {m : Mark} {f : Fault} {α β : Type} {P : α → Prop} {Q : β → Prop}
  {x : Except Fault α} {a : α}

/-! ## Marks in a text -/

/-- A mark stands between two characters of a text, and its index counts the bytes of those before
it. -/
def Mark.In (t : Text) (m : Mark) : Prop :=
  IsBoundary t m.index

/-- A cursor stands in a text: what is left is all that follows its mark. -/
def Cursor.In (t : Text) (c : Cursor) : Prop :=
  ∃ a, t = a ++ c.rest ∧ bytes a = c.mark.index

/-- A reader ends with something that has a property, or with a fault at a mark in the text. -/
def Reads (t : Text) (P : α → Prop) : Except Fault α → Prop
  | .ok a => P a
  | .error f => f.mark.In t

/-- A reader ends with a cursor in the text, or with a fault at a mark in it. -/
abbrev ReadsOn (t : Text) (x : Except Fault (α × Cursor)) : Prop :=
  Reads t (fun r => r.2.In t) x

namespace Reads

lemma bind {g : α → Except Fault β} (h : Reads t P x) (hg : ∀ a, P a → Reads t Q (g a)) :
    Reads t Q (x >>= g) := by
  cases x with
  | error f => exact h
  | ok a => exact hg a h

lemma map {g : α → β} (h : Reads t P x) (hg : ∀ a, P a → Q (g a)) : Reads t Q (x.map g) := by
  cases x with
  | error f => exact h
  | ok a => exact hg a h

lemma ite {p : Prop} [Decidable p] {y : Except Fault α} (h : p → Reads t P x)
    (h' : ¬ p → Reads t P y) : Reads t P (if p then x else y) := by
  split
  next hp => exact h hp
  next hp => exact h' hp

/-- A reader that starts in one of two ways. -/
lemma ite_bind {p : Prop} [Decidable p] {y : Except Fault α} {g : α → Except Fault β}
    (h : p → Reads t P x) (h' : ¬ p → Reads t P y) (hg : ∀ a, P a → Reads t Q (g a)) :
    Reads t Q (if p then x >>= g else y >>= g) :=
  ite (fun hp => (h hp).bind hg) fun hp => (h' hp).bind hg

/-- A reader that gives up under some condition. -/
lemma throwIf {p : Prop} [Decidable p] {g : PUnit → Except Fault β} (h : f.mark.In t)
    (hg : Reads t Q (g ⟨⟩)) : Reads t Q (if p then throw f >>= g else g ⟨⟩) :=
  ite (fun _ => h) fun _ => hg

end Reads

namespace Cursor

/-! ## Cursors -/

lemma In.mark (h : c.In t) : c.mark.In t := by
  obtain ⟨a, ht, ha⟩ := h
  exact ⟨a, c.rest, ht, ha⟩

/-- What is read stands in front of the cursor then, whatever becomes of line and column. -/
lemma In.after (h : c.In t) (n line column : Nat) :
    Cursor.In t ⟨c.rest.drop n, ⟨c.indexAfter n, line, column⟩⟩ := by
  obtain ⟨a, ht, ha⟩ := h
  refine ⟨a ++ c.rest.take n, ?_, ?_⟩
  · rw [ht, List.append_assoc, List.take_append_drop]
  · rw [bytes_append, ha, indexAfter]

lemma In.move (h : c.In t) (n : Nat) : (c.move n).In t :=
  h.after n _ _

lemma In.newLine (h : c.In t) (n : Nat) : (c.newLine n).In t :=
  h.after n _ _

lemma In.readWhile (h : c.In t) (p : Char → Bool) : (c.readWhile p).2.In t :=
  h.move _

lemma In.skipWhile (h : c.In t) (p : Char → Bool) : (c.skipWhile p).In t :=
  h.move _

lemma In.skipLine (h : c.In t) : c.skipLine.In t :=
  h.skipWhile _

lemma In.lineBreak? (h : c.In t) {b : Text} {d : Cursor} (hbreak : c.lineBreak? = some (b, d)) :
    d.In t := by
  unfold Cursor.lineBreak? at hbreak
  split at hbreak
  · contradiction
  · split_ifs at hbreak
    · obtain ⟨-, rfl⟩ := Prod.mk.inj (Option.some.inj hbreak)
      exact h.newLine 2
    · obtain ⟨-, rfl⟩ := Prod.mk.inj (Option.some.inj hbreak)
      exact h.newLine 1
    · obtain ⟨-, rfl⟩ := Prod.mk.inj (Option.some.inj hbreak)
      exact h.newLine 1

lemma In.skipBreak (h : c.In t) : c.skipBreak.In t := by
  unfold Cursor.skipBreak
  split
  next b d hbreak => exact h.lineBreak? hbreak
  next => exact h

lemma In.ite {d : Cursor} (h : c.In t) (p : Prop) [Decidable p] (h' : d.In t) :
    Cursor.In t (if p then c else d) := by
  split
  · exact h
  · exact h'

lemma In.endOfLine (h : c.In t) (activity : Activity) (start : Mark) :
    Reads t (Cursor.In t) (c.endOfLine activity start) := by
  have hspaces := h.skipWhile isSpace
  have hcomment := hspaces.skipLine.ite ((c.skipWhile isSpace).next = '#') hspaces
  exact .ite (fun _ => hcomment.skipBreak) fun _ => hcomment.mark

end Cursor

/-! ## Anchors and tags -/

lemma readsOn_readAnchor (h : c.In t) (activity : Activity) :
    ReadsOn t (readAnchor activity c) := by
  have hname := (h.move 1).readWhile isNameChar
  exact .ite (fun _ => hname.mark) fun _ => hname

lemma readsOn_readTagHandle (h : c.In t) (place : TagPlace) (start : Mark) :
    ReadsOn t (readTagHandle place start c) := by
  have hname := (h.move 1).readWhile isNameChar
  exact .ite (fun _ => h.mark) fun _ => .ite (fun _ => hname.move 1) fun _ =>
    .ite (fun _ => hname.mark) fun _ => hname

lemma readsOn_readTrailingOctets (h : c.In t) (activity : Activity) (start : Mark) (n : Nat) :
    ReadsOn t (readTrailingOctets activity start n c) := by
  induction n generalizing c with
  | zero => exact h
  | succ n ih =>
    rw [readTrailingOctets]
    split
    · exact h.mark
    · exact .ite (fun _ => h.mark) fun _ => (ih (h.move 3)).bind fun _ hc => hc

lemma readsOn_readEscapedOctets (h : c.In t) (activity : Activity) (start : Mark) :
    ReadsOn t (readEscapedOctets activity start c) := by
  rw [readEscapedOctets]
  split
  · exact h.mark
  · exact .ite (fun _ => h.mark) fun _ =>
      (readsOn_readTrailingOctets (h.move 3) activity start _).bind fun _ hc => hc

lemma readsOn_readUriChars (h : c.In t) (verbatim : Bool) (activity : Activity) (start : Mark)
    (fuel : Nat) : ReadsOn t (readUriChars verbatim activity start fuel c) := by
  induction fuel generalizing c with
  | zero => exact h
  | succ fuel ih =>
    rw [readUriChars]
    refine .ite (fun _ => h) fun _ => .ite (fun _ => ?_) fun _ => ?_
    · exact (readsOn_readEscapedOctets h activity start).bind fun _ hc =>
        (ih hc).bind fun _ hmore => hmore
    · exact (ih (h.move 1)).bind fun _ hmore => hmore

lemma readsOn_readTagUri (h : c.In t) (place : TagPlace) (verbatim : Bool) (head : Text)
    (start : Mark) : ReadsOn t (readTagUri place verbatim head start c) := by
  rw [readTagUri]
  exact (readsOn_readUriChars h verbatim _ start _).bind fun _ hd => .throwIf hd.mark hd

lemma readsOn_readTag (h : c.In t) (inFlow : Bool) : ReadsOn t (readTag inFlow c) := by
  have hend {tag : TagName} {d : Cursor} (hd : d.In t) : ReadsOn t
      (if isBlankOrEnd d.next ∨ (inFlow ∧ d.next = ',') then pure (tag, d)
        else throw (d.fault .spaceOrBreakMissing .tag c.mark)) :=
    .ite (fun _ => hd) fun _ => hd.mark
  rw [readTag]
  refine .ite (fun _ => ?_) fun _ => ?_
  · exact (readsOn_readTagUri (h.move 2) .node true [] c.mark).bind fun _ hd =>
      .throwIf hd.mark (hend (hd.move 1))
  · refine (readsOn_readTagHandle h .node c.mark).bind fun _ hd => ?_
    exact .ite (fun _ => (readsOn_readTagUri hd .node false [] c.mark).bind fun _ hd => hend hd)
      fun _ => (readsOn_readTagUri hd .node false _ c.mark).bind fun _ hd => hend hd

/-! ## Directives -/

lemma readsOn_readVersionNumber (h : c.In t) (start : Mark) :
    ReadsOn t (readVersionNumber start c) :=
  .ite (fun _ => (h.move 9).mark) fun _ => .ite (fun _ => h.mark) fun _ => h.move _

lemma readsOn_readVersion (h : c.In t) (start : Mark) : ReadsOn t (readVersion start c) := by
  rw [readVersion]
  refine (readsOn_readVersionNumber (h.skipWhile isSpace) start).bind fun _ hd =>
    .throwIf hd.mark ?_
  exact (readsOn_readVersionNumber (hd.move 1) start).bind fun _ hd => hd

lemma readsOn_readTagDefinition (h : c.In t) (start : Mark) :
    ReadsOn t (readTagDefinition start c) := by
  rw [readTagDefinition]
  refine (readsOn_readTagHandle (h.skipWhile isSpace) .directive start).bind fun _ hd =>
    .throwIf hd.mark ?_
  exact (readsOn_readTagUri (hd.skipWhile isSpace) .directive true [] start).bind fun _ hd =>
    .throwIf hd.mark hd

lemma readsOn_readDirective (h : c.In t) : ReadsOn t (readDirective c) := by
  have hname := (h.move 1).readWhile isNameChar
  have hend {directive : Directive} {d : Cursor} (hd : d.In t) : ReadsOn t
      (do
        let d ← d.endOfLine .directive c.mark
        return (directive, d)) :=
    (hd.endOfLine .directive c.mark).bind fun _ hd => hd
  rw [readDirective]
  refine .throwIf hname.mark (.throwIf hname.mark (.ite (fun _ => ?_) fun _ => .ite (fun _ => ?_)
    fun _ => hname.mark))
  · exact (readsOn_readVersion hname c.mark).bind fun _ hd => hend hd
  · exact (readsOn_readTagDefinition hname c.mark).bind fun _ hd => hend hd

/-! ## Scalars -/

/-- White space ends at a cursor in the text, also where a tab may not stand. -/
def Gap.EndsIn (t : Text) : Except Cursor (Gap × Cursor) → Prop
  | .ok r => r.2.In t
  | .error d => d.In t

lemma Gap.endsIn_read (h : c.In t) (indent : Option Nat) (fuel : Nat) (g : Gap) :
    EndsIn t (g.read indent fuel c) := by
  induction fuel generalizing g c with
  | zero => exact h
  | succ fuel ih =>
    rw [Gap.read]
    split
    · split
      · exact h
      · exact ih (h.move 1) _
    · split
      next => exact h
      next hbreak => exact ih (h.lineBreak? hbreak) _

/-- A reader ends with a scalar and a cursor in the text, or with a fault at a mark in it. -/
abbrev ReadsScalar (t : Text) (x : Except Fault ReadScalar) : Prop :=
  Reads t (fun r => r.cursor.In t) x

lemma readsOn_readEscape (h : c.In t) (start : Mark) : ReadsOn t (readEscape start c) := by
  rw [readEscape]
  split
  · exact h.move 2
  · exact .ite (fun _ => (h.move 2).mark) fun _ => .ite (fun _ => (h.move 2).mark) fun _ =>
      (h.move 2).move _
  · exact h.mark

lemma readsOn_readQuotedWord (h : c.In t) (quote : Char) (start : Mark) (fuel : Nat) (word : Text) :
    Reads t (fun r => r.2.2.In t) (readQuotedWord quote start fuel word c) := by
  induction fuel generalizing c word with
  | zero => exact h
  | succ fuel ih =>
    rw [readQuotedWord]
    refine .ite (fun _ => h) fun _ => .ite (fun _ => ih (h.move 2) _) fun _ => .ite (fun _ => h)
      fun _ => .ite (fun _ => ?_) fun _ => ih (h.move 1) _
    refine .ite (fun _ => (h.move 1).skipBreak) fun _ => ?_
    have hescape := readsOn_readEscape h start
    split
    next hread => rwa [hread] at hescape
    next hread =>
      rw [hread] at hescape
      exact ih hescape _

/-- A reader that goes on behind white space, and gives up at a tab that may not stand there. -/
lemma Reads.gap {gap : Except Cursor (Gap × Cursor)} (hgap : Gap.EndsIn t gap)
    {p : Problem} {activity : Activity} {start : Mark} {g : Gap → Cursor → Except Fault α}
    (hg : ∀ gap d, d.In t → Reads t P (g gap d)) :
    Reads t P (match gap with
      | .error d => .error (d.fault p activity start)
      | .ok (gap, d) => g gap d) := by
  cases gap with
  | error d => exact hgap.mark
  | ok r => exact hg r.1 r.2 hgap

lemma readsScalar_readPlainFrom (h : c.In t) (inFlow : Bool) (indent : Nat) (start : Mark)
    (fuel : Nat) (text : Text) (g : Gap) :
    ReadsScalar t (readPlainFrom inFlow indent start fuel text g c) := by
  induction fuel generalizing c text g with
  | zero => exact h
  | succ fuel ih =>
    rw [readPlainFrom]
    refine .ite (fun _ => h) fun _ => ?_
    obtain ⟨word, bad⟩ := plainWord inFlow c.rest
    have hword := h.move word.length
    exact .ite (fun _ => hword.mark) fun _ => .ite (fun _ => hword) fun _ =>
      .gap (Gap.endsIn_read hword (some indent) _ _) fun _ _ hd =>
        .ite (fun _ => hd) fun _ => ih hd _ _

lemma readsScalar_readPlain (h : c.In t) (inFlow : Bool) (indent : Nat) :
    ReadsScalar t (readPlain inFlow indent c) :=
  readsScalar_readPlainFrom h inFlow indent c.mark _ [] {}

lemma readsScalar_readQuotedFrom (h : c.In t) (quote : Char) (start : Mark) (fuel : Nat)
    (text : Text) : ReadsScalar t (readQuotedFrom quote start fuel text c) := by
  induction fuel generalizing c text with
  | zero => exact h
  | succ fuel ih =>
    rw [readQuotedFrom]
    refine .throwIf h.mark (.throwIf h.mark ?_)
    refine (readsOn_readQuotedWord h quote start _ []).bind fun _ hd => .ite (fun _ => hd.move 1)
      fun _ => ?_
    exact .gap (Gap.endsIn_read hd none _ _) fun _ _ hd => ih hd _

lemma readsScalar_readQuoted (h : c.In t) : ReadsScalar t (readQuoted c) :=
  readsScalar_readQuotedFrom (h.move 1) c.next c.mark _ []

lemma readsOn_readBlockHeader (h : c.In t) (start : Mark) :
    Reads t (fun r => r.2.2.In t) (readBlockHeader start c) := by
  have hdigit {d : Cursor} (hd : d.In t) : ReadsOn t
      (if d.next = '0' then .error (d.fault .zeroIndentation .blockScalar start)
        else if d.next.isDigit then .ok (hexValue d.next, d.move 1) else .ok (0, d)) :=
    .ite (fun _ => hd.mark) fun _ => .ite (fun _ => hd.move 1) fun _ => hd
  unfold readBlockHeader
  dsimp only
  split
  · exact (hdigit (h.move 1)).bind fun _ hd => hd
  · refine (hdigit h).bind fun r hd => ?_
    obtain ⟨n, d⟩ := r
    dsimp only
    split
    · exact .ite (fun _ => hd) fun _ => hd.move 1
    · exact hd

lemma readsOn_readBlockBreaks (h : c.In t) (indent : Nat) (start : Mark) (fuel deepest : Nat)
    (breaks : Text) :
    Reads t (fun r => r.2.2.In t) (readBlockBreaks indent start fuel deepest breaks c) := by
  induction fuel generalizing c deepest breaks with
  | zero => exact h
  | succ fuel ih =>
    rw [readBlockBreaks]
    have hspaces := h.move (if indent = 0 then (c.rest.takeWhile (· == ' ')).length
      else min (c.rest.takeWhile (· == ' ')).length (indent - c.mark.column))
    refine .ite (fun _ => hspaces.mark) fun _ => ?_
    split
    next => exact hspaces
    next hbreak => exact ih (hspaces.lineBreak? hbreak) _ _

lemma readsOn_readBlockLines (h : c.In t) (literal : Bool) (indent : Nat) (start : Mark)
    (fuel : Nat) (text first others : Text) (spaced : Bool) :
    Reads t (fun r => r.2.2.2.In t)
      (readBlockLines literal indent start fuel text first others spaced c) := by
  induction fuel generalizing c text first others spaced with
  | zero => exact h
  | succ fuel ih =>
    rw [readBlockLines]
    have hline := h.readWhile fun x => !isBreak x
    refine .ite (fun _ => h) fun _ => (readsOn_readBlockBreaks (?_ : Cursor.In t _) indent start _ 0
      []).bind fun _ hd => ih hd _ _ _ _
    split
    next hbreak => exact hline.lineBreak? hbreak
    next => exact hline

lemma readsScalar_readBlock (h : c.In t) (literal : Bool) (outer : Int) :
    ReadsScalar t (readBlock literal outer c) := by
  rw [readBlock]
  refine (readsOn_readBlockHeader (h.move 1) c.mark).bind fun _ hd => ?_
  refine (hd.endOfLine .blockScalar c.mark).bind fun _ hd => ?_
  refine (readsOn_readBlockBreaks hd _ c.mark _ 0 []).bind fun _ hd => ?_
  exact (readsOn_readBlockLines hd literal _ c.mark _ [] [] _ false).bind fun _ hd => hd

end Mosaic.Yaml
