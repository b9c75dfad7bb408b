import Mosaic.Proofs.BraceMatching
import Mosaic.Proofs.SheetStretches
import Mosaic.Style.Adapter

/-!
# Rules and the braces they belong to

The rules of a style sheet are those that its opening braces make: one for each brace, inside each
other as the braces are, each up to the partner of its brace or to the end of the text.  What is
reported about braces are those without a partner.

* `Style.forest` — the rules of a sheet and all rules inside them.
* `Style.RuleAt` — a rule is the one of the opening brace at an offset.
* `Style.Frames` — what has been read: the part in front of the first open brace, and the part behind
  each open brace, all of their rules finished.
* `Style.Frames.unwind` — the rules that are open at the end.
* `Style.validate_follows_braces` — rules and reports of a sheet follow its braces.
-/

namespace Mosaic.Style

open Text List

variable {t read front f g z w b : Text} {c d : Char} {i j k n n' lo hi : Nat} {r r' : Rule}
  {rs rules extra : List Rule} {o : OpenRule} {stack : List OpenRule} {s : SheetState}

/-! ## All rules -/

mutual

/-- A rule and all rules inside it, in the order in which they open. -/
def Rule.withInner : Rule → List Rule
  | .mk prelude name extent children => .mk prelude name extent children :: forest children

/-- Rules and all rules inside them, in the order in which they open. -/
def forest : List Rule → List Rule
  | [] => []
  | r :: rs => r.withInner ++ forest rs

end

lemma forest_cons (r : Rule) (rs : List Rule) :
    forest (r :: rs) = r :: (forest r.children ++ forest rs) := by
  cases r
  rw [forest, Rule.withInner]
  rfl

lemma forest_append (rs rs' : List Rule) : forest (rs ++ rs') = forest rs ++ forest rs' := by
  induction rs with
  | nil => rfl
  | cons r rs ih => rw [List.cons_append, forest, forest, ih, List.append_assoc]

lemma forest_singleton (r : Rule) : forest [r] = r :: forest r.children := by
  rw [forest_cons, forest, List.append_nil]

mutual

/-- What is inside a rule lies in its extent, behind its start. -/
lemma forest_inside : ∀ r : Rule, r.Ordered t → ∀ r' ∈ forest r.children,
    r'.Ordered t ∧ r.extent.start < r'.extent.start ∧ r'.extent.stop ≤ r.extent.stop
  | .mk prelude name extent children, h => by
    intro r' hr'
    cases h with
    | @mk _ _ brace stop _ h1 h2 _ _ hchildren =>
      obtain ⟨hordered, hlo, hhi⟩ := forest_bounds children _ _ hchildren r' hr'
      refine ⟨hordered, ?_, hhi⟩
      show prelude.start < r'.extent.start
      omega

/-- All rules lie where the outer ones do. -/
lemma forest_bounds : ∀ (rs : List Rule) (lo hi : Nat), RulesWithin t lo rs hi → ∀ r ∈ forest rs,
    r.Ordered t ∧ lo ≤ r.extent.start ∧ r.extent.stop ≤ hi
  | [], _, _, _ => nofun
  | r :: rs, lo, hi, h => by
    intro r' hr'
    cases h with
    | cons hlo hr hrest =>
      rw [forest_cons] at hr'
      rcases List.mem_cons.1 hr' with rfl | hr'
      · exact ⟨hr, hlo, hrest.le⟩
      rcases List.mem_append.1 hr' with hr' | hr'
      · obtain ⟨hordered, hstart, hstop⟩ := forest_inside r hr r' hr'
        exact ⟨hordered, hlo.trans hstart.le, hstop.trans hrest.le⟩
      · obtain ⟨hordered, hstart, hstop⟩ := forest_bounds rs _ _ hrest r' hr'
        exact ⟨hordered, hlo.trans (hr.start_lt_stop.le.trans hstart), hstop⟩

end

/-- Two rules are one inside the other, or have nothing in common. -/
def Rule.Laminar (r r' : Rule) : Prop :=
  r = r' ∨ r' ∈ forest r.children ∨ r ∈ forest r'.children ∨
    r.extent.stop ≤ r'.extent.start ∨ r'.extent.stop ≤ r.extent.start

mutual

lemma laminar_withInner : ∀ r : Rule, r.Ordered t → ∀ r₁ ∈ r.withInner, ∀ r₂ ∈ r.withInner,
    r₁.Laminar r₂
  | .mk prelude name extent children, h => by
    intro r₁ h₁ r₂ h₂
    rw [Rule.withInner] at h₁ h₂
    rcases List.mem_cons.1 h₁ with rfl | hin₁ <;> rcases List.mem_cons.1 h₂ with rfl | hin₂
    · exact .inl rfl
    · exact .inr (.inl hin₂)
    · exact .inr (.inr (.inl hin₁))
    · cases h with
      | mk _ _ _ _ hchildren => exact laminar_forest children _ _ hchildren r₁ hin₁ r₂ hin₂

/-- **Of any two rules, one is inside the other or they have nothing in common.** -/
lemma laminar_forest : ∀ (rs : List Rule) (lo hi : Nat), RulesWithin t lo rs hi →
    ∀ r₁ ∈ forest rs, ∀ r₂ ∈ forest rs, r₁.Laminar r₂
  | [], _, _, _ => nofun
  | r :: rs, lo, hi, h => by
    intro r₁ h₁ r₂ h₂
    cases h with
    | cons hlo hr hrest =>
      have hfront : ∀ x ∈ r.withInner, x.extent.stop ≤ r.extent.stop := by
        intro x hx
        obtain ⟨prelude, name, extent, children⟩ := r
        rw [Rule.withInner] at hx
        rcases List.mem_cons.1 hx with rfl | hx
        · exact le_rfl
        · exact (forest_inside _ hr x hx).2.2
      have hbehind := forest_bounds rs _ _ hrest
      rw [forest] at h₁ h₂
      rcases List.mem_append.1 h₁ with hr₁ | hrs₁ <;> rcases List.mem_append.1 h₂ with hr₂ | hrs₂
      · exact laminar_withInner r hr r₁ hr₁ r₂ hr₂
      · exact .inr (.inr (.inr (.inl ((hfront r₁ hr₁).trans (hbehind r₂ hrs₂).2.1))))
      · exact .inr (.inr (.inr (.inr ((hfront r₂ hr₂).trans (hbehind r₁ hrs₁).2.1))))
      · exact laminar_forest rs _ _ hrest r₁ hrs₁ r₂ hrs₂

end

/-- **A rule is inside another exactly when it starts inside of it.** -/
theorem mem_forest_children_iff (h : RulesWithin t lo rs hi) (hr : r ∈ forest rs)
    (hr' : r' ∈ forest rs) :
    r' ∈ forest r.children ↔
      r.extent.start < r'.extent.start ∧ r'.extent.start < r.extent.stop := by
  have hordered := (forest_bounds rs _ _ h r hr).1
  have hordered' := (forest_bounds rs _ _ h r' hr').1
  have hlt := hordered.start_lt_stop
  have hlt' := hordered'.start_lt_stop
  constructor
  · intro hin
    obtain ⟨-, hstart, hstop⟩ := forest_inside r hordered r' hin
    exact ⟨hstart, hlt'.trans_le hstop⟩
  · rintro ⟨hstart, hstop⟩
    rcases laminar_forest rs _ _ h r hr r' hr' with rfl | hin | hin | hle | hle
    · exact absurd hstart (lt_irrefl _)
    · exact hin
    · obtain ⟨-, hstart', -⟩ := forest_inside r' hordered' r hin
      omega
    · omega
    · omega

/-! ## The rule of a brace -/

/-- The opening brace at an offset opens what the stretch in front of it says. -/
def HeadAt (t : Text) (brace : Nat) (prelude : Span) (name : Text) : Prop :=
  ∃ start w b, Stretch t start w ('\x7b' :: b) ∧ start + bytes w = brace ∧
    prelude = Span.ofTrimmed start w ∧ name = joinWords w

/-- The rule of the opening brace at an offset: it runs from the start of what it is for through the
partner of the brace, or to the end of the text. -/
structure RuleAt (t : Text) (brace : Nat) (r : Rule) : Prop where
  head : HeadAt t brace r.prelude r.name
  start : r.extent.start = r.prelude.start
  stop : (∃ j, Matched t brace j ∧ r.extent.stop = j + 1) ∨
    (∀ j, ¬ Matched t brace j) ∧ r.extent.stop = bytes t

namespace RuleAt

lemma start_le (h : RuleAt t n r) : r.extent.start ≤ n := by
  obtain ⟨start, w, b, -, rfl, hprelude, -⟩ := h.head
  obtain ⟨-, h2, h3⟩ := Span.ofTrimmed_bounds start w
  rw [h.start, hprelude]
  exact h2.trans h3

/-- Delimiters in front of the brace are in front of the rule. -/
lemma lt_start (h : RuleAt t n r) (hk : t.StandsAt d k) (hd : IsDelimiter d) (hlt : k < n) :
    k < r.extent.start := by
  obtain ⟨start, w, b, hstretch, rfl, hprelude, -⟩ := h.head
  obtain ⟨h1, -, -⟩ := Span.ofTrimmed_bounds start w
  rw [h.start, hprelude]
  rcases hstretch.outside hk hd with hfront | hbehind
  · exact hfront.trans_le h1
  · omega

lemma opens (h : RuleAt t n r) : t.StandsAt '\x7b' n := by
  obtain ⟨start, w, b, hstretch, rfl, -, -⟩ := h.head
  exact hstretch.standsAt

/-- Rules of one brace start at one place. -/
lemma start_eq (h : RuleAt t n r) (h' : RuleAt t n r') : r.extent.start = r'.extent.start := by
  obtain ⟨start, w, b, hstretch, hn, hprelude, -⟩ := h.head
  obtain ⟨start', w', b', hstretch', hn', hprelude', -⟩ := h'.head
  have hstart : start = start' := hstretch.start_eq hstretch' (hn.trans hn'.symm)
  obtain ⟨a, ht, ha, -⟩ := hstretch.stands
  obtain ⟨a', ht', ha', -⟩ := hstretch'.stands
  obtain ⟨-, hrest⟩ := append_inj_of_bytes (ht.symm.trans ht') (ha.trans (hstart.trans ha'.symm))
  obtain ⟨rfl, -⟩ := append_inj_of_bytes hrest (by omega)
  rw [h.start, h'.start, hprelude, hprelude', hstart]

/-- **A rule starts inside another exactly when its brace is between those of the other.** -/
theorem inside_iff (h : RuleAt t n r) (h' : RuleAt t n' r') :
    (r.extent.start < r'.extent.start ∧ r'.extent.start < r.extent.stop) ↔
      n < n' ∧ ∀ j, Matched t n j → n' < j := by
  have hopen : IsDelimiter '\x7b' := .inl rfl
  have hclose : IsDelimiter '\x7d' := .inr (.inr rfl)
  constructor
  · rintro ⟨hstart, hstop⟩
    have hlt : n < n' := by
      rcases lt_trichotomy n n' with hlt | rfl | hlt
      · exact hlt
      · exact absurd (h.start_eq h') hstart.ne
      · have := h.lt_start h'.opens hopen hlt
        have := h'.start_le
        omega
    refine ⟨hlt, fun j hj => ?_⟩
    obtain ⟨j', hj', hextent⟩ | ⟨hnone, -⟩ := h.stop
    · obtain rfl := hj.unique hj'
      rcases lt_trichotomy n' j with hbetween | rfl | hbehind
      · exact hbetween
      · exact absurd (Text.StandsAt.unique h'.opens hj.closes) (by decide)
      · have := h'.lt_start hj.closes hclose hbehind
        omega
    · exact absurd hj (hnone j)
  · rintro ⟨hlt, hbetween⟩
    have hstart' := h'.start_le
    refine ⟨h.start_le.trans_lt (h'.lt_start h.opens hopen hlt), ?_⟩
    obtain ⟨j, hj, hextent⟩ | ⟨-, hextent⟩ := h.stop
    · have := hbetween j hj
      omega
    · have := h'.opens.lt_bytes
      omega

end RuleAt

/-- A rule of a brace that has a partner. -/
def ClosedRule (t : Text) (brace : Nat) (r : Rule) : Prop :=
  (∃ j, Matched t brace j) ∧ RuleAt t brace r

lemma forall₂_closedRule {ns : List Nat} : Forall₂ (ClosedRule t) ns rs ↔
    (∀ n ∈ ns, ∃ j, Matched t n j) ∧ Forall₂ (RuleAt t) ns rs :=
  forall₂_and_left ns rs

/-! ## Open braces and what is between them -/

/-- What has been read: in front of all open braces, and behind each of them, nothing is open and the
rules are finished. -/
inductive Frames (t : Text) (rules : List Rule) : List OpenRule → Text → Prop where
  | bottom {f : Text} : OpensClosed f → Forall₂ (ClosedRule t) (openings 0 f) (forest rules) →
      Frames t rules [] f
  | frame {o : OpenRule} {rest : List OpenRule} {front f : Text} : Frames t rules rest front →
      o.brace = bytes front → HeadAt t (bytes front) o.prelude o.name → Balanced f →
      Forall₂ (ClosedRule t) (openings (bytes front + 1) f) (forest o.children) →
      Frames t rules (o :: rest) (front ++ '\x7b' :: f)

namespace Frames

lemma grow_bottom (h : Frames t rules [] f) (hg : OpensClosed g)
    (hrs : Forall₂ (ClosedRule t) (openings (bytes f) g) (forest rs)) :
    Frames t (rules ++ rs) [] (f ++ g) := by
  cases h with
  | bottom hf hrules =>
    refine .bottom (hf.append hg) ?_
    rw [openings_append, forest_append, Nat.zero_add]
    exact rel_append hrules hrs

lemma grow_frame (h : Frames t rules (o :: stack) read) (hg : Balanced g)
    (hrs : Forall₂ (ClosedRule t) (openings (bytes read) g) (forest rs)) :
    Frames t rules ({ o with children := o.children ++ rs } :: stack) (read ++ g) := by
  cases h with
  | @frame _ _ front f hfront hbrace hhead hf hchildren =>
    rw [List.append_assoc, List.cons_append]
    refine .frame hfront hbrace hhead (hf.append hg) ?_
    rw [openings_append, forest_append]
    rw [bytes_brace] at hrs
    exact rel_append hchildren hrs

/-- A character that is no brace changes nothing. -/
lemma other (h : Frames t rules stack read) (h1 : c ≠ '\x7b') (h2 : c ≠ '\x7d') :
    Frames t rules stack (read ++ [c]) := by
  have hbalanced : Balanced [c] := .other h1 h2 .nil
  have hnone : Forall₂ (ClosedRule t) (openings (bytes read) [c]) (forest []) := by
    rw [openings_other h1]
    exact .nil
  cases stack with
  | nil => simpa using h.grow_bottom hbalanced.opensClosed hnone
  | cons o stack => simpa using h.grow_frame hbalanced hnone

/-- A closing brace with nothing open changes nothing. -/
lemma stray (h : Frames t rules [] read) : Frames t rules [] (read ++ ['\x7d']) := by
  have hnone : Forall₂ (ClosedRule t) (openings (bytes read) ['\x7d']) (forest []) := .nil
  simpa using h.grow_bottom (OpensClosed.stray Balanced.nil.opensClosed) hnone

/-- The innermost open brace and a closing one match. -/
lemma matched (h : Frames t rules (o :: stack) read) (ht : t = read ++ '\x7d' :: b) :
    Matched t o.brace (bytes read) := by
  cases h with
  | @frame _ _ front f hfront hbrace hhead hf hchildren =>
    exact ⟨front, f, b, by rw [ht]; simp, hf, hbrace.symm, (bytes_brace front f).symm⟩

/-- **The innermost open rule is finished by a closing brace** and goes into the one around it. -/
lemma close (h : Frames t s.sheet.rules (o :: s.stack) read) (ht : t = read ++ '\x7d' :: b) :
    Frames t (s.attach (o.close (bytes read + 1))).sheet.rules
      (s.attach (o.close (bytes read + 1))).stack (read ++ ['\x7d']) := by
  have hmatched := h.matched ht
  obtain ⟨stack, chunkStart, chunk, sheet⟩ := s
  cases h with
  | @frame _ _ front f hfront hbrace hhead hf hchildren =>
    rw [hbrace] at hmatched
    generalize bytes (front ++ '\x7b' :: f) = stop at hmatched ⊢
    have hg : Balanced ('\x7b' :: (f ++ '\x7d' :: [])) := .braces hf .nil
    have hrule : ClosedRule t (bytes front) (o.close (stop + 1)) :=
      ⟨⟨stop, hmatched⟩, hhead, rfl, .inl ⟨stop, hmatched, rfl⟩⟩
    have hrules : Forall₂ (ClosedRule t) (openings (bytes front) ('\x7b' :: (f ++ '\x7d' :: [])))
        (forest [o.close (stop + 1)]) := by
      rw [openings_open, openings_append, openings_other (by decide), List.append_nil,
        forest_singleton]
      exact .cons hrule hchildren
    rw [List.append_assoc, List.cons_append]
    cases stack with
    | nil => exact hfront.grow_bottom hg.opensClosed hrules
    | cons parent stack => exact hfront.grow_frame hg hrules

/-- An opening brace opens a rule. -/
lemma openRule (h : Frames t s.sheet.rules s.stack read)
    (hstretch : Stretch read s.chunkStart s.chunk []) (ht : t = read ++ '\x7b' :: b) :
    Frames t s.openRule.sheet.rules s.openRule.stack (read ++ ['\x7b']) := by
  have hoffset := SheetState.offset_of_stretch hstretch
  have hhead : HeadAt t (bytes read) (Span.ofTrimmed s.chunkStart s.chunk) (joinWords s.chunk) :=
    ⟨s.chunkStart, s.chunk, b, SheetState.stretch_whole hstretch ht, hoffset, rfl, rfl⟩
  exact .frame h hoffset hhead .nil .nil

/-- **Each step keeps what has been read as open braces and finished rules.** -/
theorem step (h : Frames t s.sheet.rules s.stack read)
    (hstretch : Stretch read s.chunkStart s.chunk []) (ht : t = read ++ c :: b) :
    Frames t (s.step c).sheet.rules (s.step c).stack (read ++ [c]) := by
  have hoffset := SheetState.offset_of_stretch hstretch
  have hdeclare : Frames t s.declare.sheet.rules s.declare.stack read := by simpa using h
  unfold SheetState.step
  split_ifs with hopen hsemicolon hclose
  · subst hopen
    exact h.openRule hstretch ht
  · exact hdeclare.other (by simp [hsemicolon]) (by simp [hsemicolon])
  · subst hclose
    show Frames t s.declare.closeRule.sheet.rules s.declare.closeRule.stack _
    unfold SheetState.closeRule
    cases hstack : s.declare.stack with
    | nil =>
      rw [hstack] at hdeclare
      simpa [hstack] using hdeclare.stray
    | cons o rest =>
      rw [hstack] at hdeclare
      rw [SheetState.offset_declare, hoffset]
      exact hdeclare.close (s := { s.declare with stack := rest }) ht
  · exact h.other hopen hclose

/-! ## The end of the text -/

/-- Each opening brace that has been read has a partner or is an open one. -/
lemma matched_or_open (h : Frames t rules stack read) :
    ∀ n ∈ openings 0 read, (∃ j, Matched t n j) ∨ ∃ o ∈ stack, o.brace = n := by
  induction h with
  | bottom _ hrules => exact fun n hn => .inl ((forall₂_closedRule.1 hrules).1 n hn)
  | @frame o rest front f _ hbrace _ _ hchildren ih =>
    intro n hn
    rw [openings_append, openings_open, Nat.zero_add] at hn
    rcases List.mem_append.1 hn with hn | hn
    · refine (ih n hn).imp_right ?_
      rintro ⟨o', ho', rfl⟩
      exact ⟨o', List.mem_cons_of_mem o ho', rfl⟩
    rcases List.mem_cons.1 hn with rfl | hn
    · exact .inr ⟨o, List.mem_cons_self, hbrace⟩
    · exact .inl ((forall₂_closedRule.1 hchildren).1 n hn)

/-- The open braces have been read. -/
lemma standsAt_brace (h : Frames t rules stack read) :
    ∀ o ∈ stack, read.StandsAt '\x7b' o.brace := by
  induction h with
  | bottom => nofun
  | @frame o rest front f _ hbrace _ _ _ ih =>
    intro o' ho'
    rcases List.mem_cons.1 ho' with rfl | ho'
    · exact ⟨front, f, rfl, hbrace.symm⟩
    · obtain ⟨a, b, hfront, ha⟩ := ih o' ho'
      exact ⟨a, b ++ '\x7b' :: f, by rw [hfront]; simp, ha⟩

/-- The inner open braces are behind the outer ones. -/
lemma braces_pairwise (h : Frames t rules stack read) :
    stack.Pairwise fun inner outer => outer.brace < inner.brace := by
  induction h with
  | bottom => exact .nil
  | frame hfront hbrace _ _ _ ih =>
    refine .cons (fun o' ho' => ?_) ih
    rw [hbrace]
    exact (hfront.standsAt_brace o' ho').lt_bytes

/-- **What is open at the end has no partner.** -/
lemma not_matched (h : Frames t rules stack read) :
    ∀ z, t = read ++ z → ClosesOpened z → ∀ o ∈ stack, ∀ j, ¬ Matched t o.brace j := by
  induction h with
  | bottom => exact fun _ _ _ => nofun
  | @frame o rest front f _ hbrace _ hf _ ih =>
    intro z ht hz o' ho' j
    have hbehind : ClosesOpened (f ++ z) := hf.closesOpened_append hz
    rw [List.append_assoc, List.cons_append] at ht
    rcases List.mem_cons.1 ho' with rfl | ho'
    · rw [hbrace, ht]
      exact not_matched_of_closesOpened hbehind
    · exact ih _ ht hbehind.open o' ho' j

/-- An open brace at the end of the text makes a rule that runs up to there. -/
lemma unclosed (hhead : HeadAt t (bytes front) o.prelude o.name) (hf : Balanced f)
    (hchildren : Forall₂ (ClosedRule t) (openings (bytes front + 1) f) (forest o.children))
    (ht : t = front ++ '\x7b' :: (f ++ z)) (hz : ClosesOpened z)
    (hextra : Forall₂ (RuleAt t) (openings (bytes front + 1 + bytes f) z) (forest extra)) :
    Forall₂ (RuleAt t) (openings (bytes front) ('\x7b' :: (f ++ z)))
      (forest [OpenRule.close { o with children := o.children ++ extra } (bytes t)]) := by
  have hbehind : ClosesOpened (f ++ z) := hf.closesOpened_append hz
  have hnone : ∀ j, ¬ Matched t (bytes front) j := by
    intro j
    rw [ht]
    exact not_matched_of_closesOpened hbehind
  rw [openings_open, forest_singleton]
  refine .cons ⟨hhead, rfl, .inr ⟨hnone, rfl⟩⟩ ?_
  rw [openings_append]
  show Forall₂ (RuleAt t) _ (forest (o.children ++ extra))
  rw [forest_append]
  exact rel_append ((forall₂_closedRule.1 hchildren).2) hextra

/-- Closing the open rules at the end, the innermost of which has got some more rules inside it, from
behind what has been read. -/
lemma unwind_behind {sheet : Sheet} (h : Frames t sheet.rules (o :: stack) read) (ht : t = read ++ z)
    (hz : ClosesOpened z) (hextra : Forall₂ (RuleAt t) (openings (bytes read) z) (forest extra)) :
    Forall₂ (RuleAt t) (openings 0 t) (forest (SheetState.unwind (bytes t)
      ({ o with children := o.children ++ extra } :: stack) sheet).rules) := by
  -- the last open rule becomes one more rule inside of the one around it
  induction stack generalizing o read z extra sheet with
  | nil =>
    cases h with
    | @frame _ _ front f hfront hbrace hhead hf hchildren =>
      rw [List.append_assoc, List.cons_append] at ht
      rw [bytes_brace] at hextra
      have hrule := unclosed hhead hf hchildren ht hz hextra
      cases hfront with
      | bottom _ hrules =>
        rw [SheetState.unwind, forest_append]
        conv_lhs => rw [ht]
        rw [openings_append, Nat.zero_add]
        exact rel_append ((forall₂_closedRule.1 hrules).2) hrule
  | cons parent stack ih =>
    cases h with
    | @frame _ _ front f hfront hbrace hhead hf hchildren =>
      rw [List.append_assoc, List.cons_append] at ht
      rw [bytes_brace] at hextra
      have hrule := unclosed hhead hf hchildren ht hz hextra
      have hbehind : ClosesOpened (f ++ z) := hf.closesOpened_append hz
      rw [SheetState.unwind]
      exact ih hfront ht hbehind.open hrule

/-- **At the end of the text each opening brace has its rule.** -/
theorem unwind {sheet : Sheet} (h : Frames t sheet.rules stack t) :
    Forall₂ (RuleAt t) (openings 0 t)
      (forest (SheetState.unwind (bytes t) stack sheet).rules) := by
  cases stack with
  | nil =>
    cases h with
    | bottom _ hrules =>
      rw [SheetState.unwind]
      exact (forall₂_closedRule.1 hrules).2
  | cons o stack =>
    have hnone : Forall₂ (RuleAt t) (openings (bytes t) []) (forest []) := .nil
    simpa using h.unwind_behind (List.append_nil t).symm Balanced.nil.closesOpened hnone

end Frames

/-! ## Braces without a partner -/

/-- One brace without a partner is in front of another. -/
def LoneBrace.Before (x y : LoneBrace) : Prop :=
  x.offset < y.offset

/-- What is reported so far are the closing braces without a partner that have been read. -/
structure ReportsStrays (t read : Text) (lone : List LoneBrace) : Prop where
  mem_iff : ∀ x, x ∈ lone ↔
    ∃ k, x = .unexpected k ∧ read.StandsAt '\x7d' k ∧ ∀ i, ¬ Matched t i k
  ordered : lone.Pairwise LoneBrace.Before

namespace ReportsStrays

variable {lone : List LoneBrace}

lemma standsAt_snoc : (read ++ [c]).StandsAt d k ↔ read.StandsAt d k ∨ d = c ∧ k = bytes read := by
  constructor
  · rintro ⟨a, b, ht, rfl⟩
    rcases List.eq_nil_or_concat b with rfl | ⟨b, x, rfl⟩
    · obtain ⟨rfl, hc⟩ := List.append_inj' ht rfl
      exact .inr ⟨(List.cons.inj hc).1.symm, rfl⟩
    · rw [List.concat_eq_append, ← List.cons_append, ← List.append_assoc] at ht
      exact .inl ⟨a, b, (List.append_inj' ht rfl).1, rfl⟩
  · rintro (⟨a, b, rfl, rfl⟩ | ⟨rfl, rfl⟩)
    · exact ⟨a, b ++ [c], by simp, rfl⟩
    · exact ⟨read, [], rfl, rfl⟩

/-- A character that is no closing brace, or one with a partner, is not reported. -/
lemma other (h : ReportsStrays t read lone) (hc : c = '\x7d' → ∃ i, Matched t i (bytes read)) :
    ReportsStrays t (read ++ [c]) lone := by
  refine ⟨fun x => (h.mem_iff x).trans (exists_congr fun k => and_congr_right fun _ => ?_), h.ordered⟩
  rw [standsAt_snoc]
  refine and_congr_left fun hnone => (or_iff_left ?_).symm
  rintro ⟨rfl, rfl⟩
  obtain ⟨i, hi⟩ := hc rfl
  exact hnone i hi

/-- A closing brace without a partner is reported behind all others. -/
lemma stray (h : ReportsStrays t read lone) (hnone : ∀ i, ¬ Matched t i (bytes read)) :
    ReportsStrays t (read ++ ['\x7d']) (lone ++ [.unexpected (bytes read)]) := by
  refine ⟨fun x => ?_, List.pairwise_append.2 ⟨h.ordered, List.pairwise_singleton _ _, ?_⟩⟩
  · simp only [List.mem_append, List.mem_singleton, h.mem_iff, standsAt_snoc]
    constructor
    · rintro (⟨k, rfl, hk, hfree⟩ | rfl)
      · exact ⟨k, rfl, .inl hk, hfree⟩
      · exact ⟨_, rfl, .inr ⟨trivial, rfl⟩, hnone⟩
    · rintro ⟨k, rfl, hk | ⟨-, rfl⟩, hfree⟩
      · exact .inl ⟨k, rfl, hk, hfree⟩
      · exact .inr rfl
  · intro x hx y hy
    obtain ⟨k, rfl, hk, -⟩ := (h.mem_iff x).1 hx
    rw [List.mem_singleton.1 hy]
    exact hk.lt_bytes

end ReportsStrays

/-! ## What the reader knows of braces -/

namespace SheetState

@[simp] lemma lone_declare (s : SheetState) : s.declare.sheet.lone = s.sheet.lone := by
  unfold declare
  split <;> rfl

@[simp] lemma lone_attach (s : SheetState) (r : Rule) :
    (s.attach r).sheet.lone = s.sheet.lone := by
  unfold attach
  split <;> rfl

/-- What has been read of the braces of a text. -/
structure ReadsBraces (t read : Text) (s : SheetState) : Prop where
  stretch : Stretch read s.chunkStart s.chunk []
  frames : Frames t s.sheet.rules s.stack read
  strays : ReportsStrays t read s.sheet.lone

lemma readsBraces_start (t : Text) : ReadsBraces t [] {} where
  stretch := stretch_start
  frames := .bottom Balanced.nil.opensClosed .nil
  strays := ⟨by simp [StandsAt], .nil⟩

/-- A closing brace is reported exactly when nothing is open. -/
lemma reportsStrays_closeRule (h : s.ReadsBraces t read) (ht : t = read ++ '\x7d' :: b) :
    ReportsStrays t (read ++ ['\x7d']) s.declare.closeRule.sheet.lone := by
  unfold closeRule
  have hframes := h.frames
  rw [stack_declare]
  cases hstack : s.stack with
  | nil =>
    rw [hstack] at hframes
    have hnone : ∀ i, ¬ Matched t i (bytes read) := by
      intro i
      cases hframes with
      | bottom hread _ =>
        rw [ht]
        exact not_matched_of_opensClosed hread
    simpa [offset_of_stretch h.stretch] using h.strays.stray hnone
  | cons o rest =>
    rw [hstack] at hframes
    simpa using h.strays.other fun _ => ⟨o.brace, hframes.matched ht⟩

/-- **Each step keeps what is known of the braces.** -/
theorem readsBraces_step (ht : t = read ++ c :: b) (h : s.ReadsBraces t read) :
    (s.step c).ReadsBraces t (read ++ [c]) where
  stretch := stretch_step h.stretch c
  frames := h.frames.step h.stretch ht
  strays := by
    unfold step
    split_ifs with hopen hsemicolon hclose
    · exact h.strays.other (by simp [hopen])
    · simpa [delimit] using h.strays.other (c := c) (by simp [hsemicolon])
    · subst hclose
      exact reportsStrays_closeRule h ht
    · exact h.strays.other fun hc => absurd hc hclose

lemma lone_unwind (stop : Nat) (stack : List OpenRule) (sheet : Sheet) :
    (unwind stop stack sheet).lone = sheet.lone ++ stack.map fun o => .unclosed o.brace := by
  fun_induction unwind stop stack sheet with
  | case1 => simp
  | case2 => rfl
  | case3 o parent rest sheet ih =>
    rw [ih]
    simp

/-- What is reported at the end, before it is sorted. -/
def reports (s : SheetState) : List LoneBrace :=
  s.sheet.lone ++ s.stack.map fun o => .unclosed o.brace

lemma lone_finish (s : SheetState) :
    s.finish.lone = s.reports.mergeSort fun x y => x.offset ≤ y.offset := by
  simp [finish, lone_unwind, reports]

variable (h : s.ReadsBraces t t)

include h

lemma unexpected_mem_reports :
    .unexpected n ∈ s.reports ↔ t.StandsAt '\x7d' n ∧ ∀ i, ¬ Matched t i n := by
  simp [reports, h.strays.mem_iff]

lemma unclosed_mem_reports :
    .unclosed n ∈ s.reports ↔ t.StandsAt '\x7b' n ∧ ∀ j, ¬ Matched t n j := by
  have hopen : .unclosed n ∈ s.reports ↔ ∃ o ∈ s.stack, o.brace = n := by
    simp [reports, h.strays.mem_iff]
  rw [hopen]
  constructor
  · rintro ⟨o, ho, rfl⟩
    exact ⟨h.frames.standsAt_brace o ho, h.frames.not_matched [] (List.append_nil t).symm
      Balanced.nil.closesOpened o ho⟩
  · rintro ⟨hstands, hnone⟩
    refine (h.frames.matched_or_open n (mem_openings_zero.2 hstands)).resolve_left ?_
    rintro ⟨j, hj⟩
    exact hnone j hj

/-- No two reports are about one brace. -/
lemma reports_pairwise_ne : s.reports.Pairwise fun x y => x.offset ≠ y.offset := by
  refine List.pairwise_append.2 ⟨h.strays.ordered.imp ne_of_lt, ?_, fun x hx y hy => ?_⟩
  · exact List.pairwise_map.2 (h.frames.braces_pairwise.imp ne_of_gt)
  · obtain ⟨k, rfl, hk, -⟩ := (h.strays.mem_iff x).1 hx
    obtain ⟨o, ho, rfl⟩ := List.mem_map.1 hy
    rintro (hsame : k = o.brace)
    have hopens := h.frames.standsAt_brace o ho
    rw [← hsame] at hopens
    exact absurd (hk.unique hopens) (by decide)

/-- What is sorted is in the order of the text. -/
lemma sorted_reports :
    (s.reports.mergeSort fun x y => x.offset ≤ y.offset).Pairwise LoneBrace.Before := by
  have hsorted : (s.reports.mergeSort fun x y => x.offset ≤ y.offset).Pairwise fun x y =>
      decide (x.offset ≤ y.offset) := by
    refine List.pairwise_mergeSort (fun x y z hxy hyz => ?_) (fun x y => ?_) s.reports
    · simp only [decide_eq_true_eq] at hxy hyz ⊢
      exact hxy.trans hyz
    · simp only [Bool.or_eq_true, decide_eq_true_eq]
      exact Nat.le_total x.offset y.offset
  have hperm := List.mergeSort_perm s.reports fun x y => x.offset ≤ y.offset
  have hne := (hperm.pairwise_iff Ne.symm).2 (reports_pairwise_ne h)
  exact hsorted.imp₂ (fun x y hle hxy => lt_of_le_of_ne (of_decide_eq_true hle) hxy) hne

end SheetState

/-- Rules and reports of a style sheet follow its braces. -/
structure FollowsBraces (t : Text) (sheet : Sheet) : Prop where
  /-- Masking comments leaves all offsets as they are. -/
  length : bytes (maskComments t) = bytes t
  /-- The braces that count are those outside comments. -/
  braces : ∀ c n, c = '\x7b' ∨ c = '\x7d' →
    ((maskComments t).StandsAt c n ↔ t.StandsAt c n ∧ ¬ Commented t n)
  /-- Reports are in the order of the text, no two of them about one brace. -/
  ordered : sheet.lone.Pairwise LoneBrace.Before
  /-- A closing brace is reported exactly when no opening one matches it. -/
  unexpected : ∀ n, .unexpected n ∈ sheet.lone ↔
    (maskComments t).StandsAt '\x7d' n ∧ ∀ i, ¬ Matched (maskComments t) i n
  /-- An opening brace is reported exactly when no closing one matches it. -/
  unclosed : ∀ n, .unclosed n ∈ sheet.lone ↔
    (maskComments t).StandsAt '\x7b' n ∧ ∀ j, ¬ Matched (maskComments t) n j
  /-- The opening braces are listed in the order of the text, each of them once. -/
  listed : (openings 0 (maskComments t)).Pairwise (· < ·)
  /-- No opening brace is left out. -/
  complete : ∀ n, n ∈ openings 0 (maskComments t) ↔ (maskComments t).StandsAt '\x7b' n
  /-- Each opening brace has one rule, and there are no others. -/
  rules : Forall₂ (RuleAt (maskComments t)) (openings 0 (maskComments t)) (forest sheet.rules)
  /-- A rule is inside another exactly when its brace is between those of the other. -/
  nested : ∀ n n' r r', r ∈ forest sheet.rules → r' ∈ forest sheet.rules →
    RuleAt (maskComments t) n r → RuleAt (maskComments t) n' r' →
    (r' ∈ forest r.children ↔ n < n' ∧ ∀ j, Matched (maskComments t) n j → n' < j)

/-- **A style sheet is read by its braces.** -/
theorem followsBraces_ofText (t : Text) : FollowsBraces t (Sheet.ofText t) := by
  have hread : SheetState.ReadsBraces (maskComments t) (maskComments t)
      ((maskComments t).foldl SheetState.step {}) :=
    SheetState.run_reading (P := fun read s => s.ReadsBraces (maskComments t) read) (maskComments t)
      (SheetState.readsBraces_start _) fun read c b s ht h => SheetState.readsBraces_step ht h
  have hlone := SheetState.lone_finish ((maskComments t).foldl SheetState.step {})
  exact {
    length := (masks_maskComments t).bytes_eq
    braces := fun c n hc => standsAt_maskComments_iff (by rcases hc with rfl | rfl <;> decide)
    ordered := by
      rw [Sheet.ofText, hlone]
      exact SheetState.sorted_reports hread
    unexpected := fun n => by
      rw [Sheet.ofText, hlone, List.mem_mergeSort]
      exact SheetState.unexpected_mem_reports hread
    unclosed := fun n => by
      rw [Sheet.ofText, hlone, List.mem_mergeSort]
      exact SheetState.unclosed_mem_reports hread
    listed := openings_pairwise 0 (maskComments t)
    complete := fun _ => mem_openings_zero
    rules := by
      rw [Sheet.ofText, SheetState.rules_finish, SheetState.offset_of_stretch hread.stretch]
      have hframes := hread.frames
      rw [← SheetState.rules_declare] at hframes
      exact hframes.unwind
    nested := fun n n' r r' hr hr' hn hn' =>
      (mem_forest_children_iff (rulesWithin_ofText t) hr hr').trans (hn.inside_iff hn') }

/-- **What is reported of a style sheet are its braces without a partner**, and its rules are those
that its braces make. -/
theorem validate_follows_braces (language : String) (e : Embedded) :
    ((adapter language).validate e).answer =
        .ok ((Sheet.ofText e.text).lone.map (·.diagnostic language e.text)) ∧
      FollowsBraces e.text (Sheet.ofText e.text) :=
  ⟨rfl, followsBraces_ofText e.text⟩

end Mosaic.Style
