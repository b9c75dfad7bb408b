import Mosaic.Proofs.CommentMask
import Mosaic.Proofs.CursorMove
import Mosaic.Text.Span

/-!
# Where the comments are

The comments of a style sheet, told by where they start and stop: each one from `/*` through the next
`*/` behind that, or to the end of the text.  Masking puts spaces in the place of the characters in
them and leaves all others as they are.

* `Style.comments`, `Style.Commented` — the comments of a text, and the offsets inside them.
* `Style.maskComments_eq` — what is masked are the characters in comments.
* `Style.standsAt_maskComments_iff` — what is no space stands in the masked text where it stands in
  the text itself outside comments.
-/

namespace Mosaic

open Text

/-- A character stands at an offset of a text. -/
def Text.StandsAt (t : Text) (c : Char) (n : Nat) : Prop :=
  ∃ a b, t = a ++ c :: b ∧ bytes a = n

/-- At most one character stands at an offset. -/
lemma Text.StandsAt.unique {t : Text} {c d : Char} {n : Nat} (h : t.StandsAt c n)
    (h' : t.StandsAt d n) : c = d := by
  obtain ⟨a, b, rfl, rfl⟩ := h
  obtain ⟨a', b', ht, hn⟩ := h'
  obtain ⟨-, hrest⟩ := append_inj_of_bytes ht hn.symm
  exact (List.cons.inj hrest).1

lemma Text.StandsAt.lt_bytes {t : Text} {c : Char} {n : Nat} (h : t.StandsAt c n) : n < bytes t := by
  obtain ⟨a, b, rfl, rfl⟩ := h
  have hsize := c.utf8Size_pos
  rw [bytes_append, bytes_cons]
  omega

/-- What stands at an offset inside a part of a text is in that part. -/
lemma Text.StandsAt.mem_part {a w b : Text} {c : Char} {n : Nat}
    (h : (a ++ (w ++ b)).StandsAt c n) (hstart : bytes a ≤ n) (hstop : n < bytes a + bytes w) :
    c ∈ w := by
  obtain ⟨x, y, ht, rfl⟩ := h
  obtain ⟨z, rfl⟩ : ∃ z, x = a ++ z := by
    rcases List.append_eq_append_iff.1 ht with ⟨z, rfl, -⟩ | ⟨z, rfl, -⟩
    · exact ⟨z, rfl⟩
    · obtain rfl : z = [] := eq_nil_of_bytes (by rw [bytes_append] at hstart; omega)
      exact ⟨[], by simp⟩
  rw [bytes_append] at hstop
  rw [List.append_assoc] at ht
  rcases List.append_eq_append_iff.1 (List.append_cancel_left ht) with ⟨u, rfl, -⟩ | ⟨u, rfl, hu⟩
  · rw [bytes_append] at hstop
    omega
  · cases u with
    | nil =>
      rw [List.append_nil] at hstop
      omega
    | cons d u =>
      obtain rfl : d = c := (List.cons.inj hu).1.symm
      simp

/-- An offset is in a span, the end of the span excluded. -/
def Span.Holds (s : Span) (n : Nat) : Prop :=
  s.start ≤ n ∧ n < s.stop

instance (s : Span) (n : Nat) : Decidable (s.Holds n) :=
  inferInstanceAs (Decidable (_ ∧ _))

namespace Style

/-! ## The comments of a text -/

/-- The comments of a text, the start of which is at the offset `n`.  Each runs from `/*` through the
next `*/` behind that, or to the end of the text. -/
def comments (n : Nat) (t : Text) : List Span :=
  let front := breakAt (['/', '*'].isPrefixOf ·) t
  if front.2 = [] then []
  else
    let body := breakAt (['*', '/'].isPrefixOf ·) (front.2.drop 2)
    let start := n + bytes front.1
    let stop := start + bytes (front.2.take 2 ++ body.1 ++ body.2.take 2)
    ⟨start, stop⟩ :: comments stop (body.2.drop 2)
termination_by t.length
decreasing_by
  have hfront : front.2.length ≤ t.length := length_breakAt_snd_le (['/', '*'].isPrefixOf ·) t
  have hbody : body.2.length ≤ (front.2.drop 2).length :=
    length_breakAt_snd_le (['*', '/'].isPrefixOf ·) (front.2.drop 2)
  have hpos : 0 < front.2.length := List.length_pos_iff.2 ‹_›
  change (body.2.drop 2).length < t.length
  rw [List.length_drop] at hbody ⊢
  omega

/-- The offset is in a comment of the text. -/
def Commented (t : Text) (n : Nat) : Prop :=
  ∃ s ∈ comments 0 t, s.Holds n

instance (t : Text) (n : Nat) : Decidable (Commented t n) :=
  inferInstanceAs (Decidable (∃ s ∈ comments 0 t, s.Holds n))

/-! ## Blanking some characters -/

/-- The text, the start of which is at the offset `n`, with spaces in the place of the characters at
some offsets. -/
def blankOut (p : Nat → Prop) [DecidablePred p] : Nat → Text → Text
  | _, [] => []
  | n, c :: r => (if p n then blanksFor c else [c]) ++ blankOut p (n + c.utf8Size) r

section BlankOut

variable {p q : Nat → Prop} [DecidablePred p] [DecidablePred q] {a b t : Text} {c : Char} {n : Nat}

lemma blankOut_append (p : Nat → Prop) [DecidablePred p] (n : Nat) (a b : Text) :
    blankOut p n (a ++ b) = blankOut p n a ++ blankOut p (n + bytes a) b := by
  induction a generalizing n with
  | nil => rfl
  | cons c a ih =>
    rw [List.cons_append, blankOut, blankOut, ih, bytes_cons, List.append_assoc, Nat.add_assoc]

/-- Only the offsets in the text matter. -/
lemma blankOut_congr (h : ∀ k, n ≤ k → k < n + bytes t → (p k ↔ q k)) :
    blankOut p n t = blankOut q n t := by
  induction t generalizing n with
  | nil => rfl
  | cons c t ih =>
    have hsize := c.utf8Size_pos
    rw [bytes_cons] at h
    have hrest : blankOut p (n + c.utf8Size) t = blankOut q (n + c.utf8Size) t :=
      ih fun k hle hlt => h k (by omega) (by omega)
    have hc : p n ↔ q n := h n le_rfl (by omega)
    simp only [blankOut, hrest, hc]

lemma blankOut_none (h : ∀ k, n ≤ k → k < n + bytes t → ¬ p k) : blankOut p n t = t := by
  rw [blankOut_congr (q := fun _ => False) fun k hle hlt => iff_of_false (h k hle hlt) not_false]
  induction t generalizing n with
  | nil => rfl
  | cons c t ih =>
    have hsize := c.utf8Size_pos
    rw [bytes_cons] at h
    rw [blankOut, if_neg not_false, ih fun k hle hlt => h k (by omega) (by omega)]
    rfl

lemma blankOut_all (h : ∀ k, n ≤ k → k < n + bytes t → p k) :
    blankOut p n t = t.flatMap blanksFor := by
  rw [blankOut_congr (q := fun _ => True) fun k hle hlt => iff_of_true (h k hle hlt) trivial]
  induction t generalizing n with
  | nil => rfl
  | cons c t ih =>
    have hsize := c.utf8Size_pos
    rw [bytes_cons] at h
    rw [blankOut, if_pos trivial, ih fun k hle hlt => h k (by omega) (by omega), List.flatMap_cons]

lemma bytes_blankOut (p : Nat → Prop) [DecidablePred p] (n : Nat) (t : Text) :
    bytes (blankOut p n t) = bytes t := by
  induction t generalizing n with
  | nil => rfl
  | cons c t ih =>
    rw [blankOut, bytes_append, ih, bytes_cons]
    split
    · rw [blanksFor, bytes_replicate_blank]
    · rfl

/-- What is blanked leaves a space where it stood. -/
lemma standsAt_blankOut (h : t.StandsAt c n) :
    (blankOut p 0 t).StandsAt (if p n then ' ' else c) n := by
  obtain ⟨a, b, rfl, rfl⟩ := h
  obtain ⟨k, hk⟩ := Nat.exists_eq_succ_of_ne_zero c.utf8Size_pos.ne'
  rw [blankOut_append, Nat.zero_add, blankOut]
  refine ⟨blankOut p 0 a, ?_, ?_, bytes_blankOut p 0 a⟩
  · exact (if p (bytes a) then List.replicate k ' ' else []) ++ blankOut p (bytes a + c.utf8Size) b
  · split
    · rw [blanksFor, hk, List.replicate_succ]
      rfl
    · rfl

/-- The first span that is blanked, and the others behind it. -/
lemma blankOut_spans {spans : List Span} (r : Text)
    (hle : ∀ s ∈ spans, n + bytes a + bytes b ≤ s.start) :
    blankOut (fun k => ∃ s ∈ ⟨n + bytes a, n + bytes a + bytes b⟩ :: spans, s.Holds k) n
        (a ++ (b ++ r)) =
      a ++ (b.flatMap blanksFor ++
        blankOut (fun k => ∃ s ∈ spans, s.Holds k) (n + bytes a + bytes b) r) := by
  have hbehind : ∀ s ∈ spans, ∀ k, k < n + bytes a + bytes b → ¬ s.Holds k := by
    intro s hs k hk hholds
    have h1 := hle s hs
    have h2 := hholds.1
    omega
  simp only [List.mem_cons, exists_eq_or_imp]
  rw [blankOut_append, blankOut_append]
  congr 1
  · refine blankOut_none fun k _ hk => ?_
    rintro (⟨hstart, -⟩ | ⟨s, hs, hholds⟩)
    · exact absurd hk (not_lt.2 hstart)
    · exact hbehind s hs k (by omega) hholds
  · congr 1
    · exact blankOut_all fun k hstart hstop => .inl ⟨hstart, hstop⟩
    · refine blankOut_congr fun k hstop _ => ⟨fun h => h.resolve_left ?_, .inr⟩
      exact fun hholds => absurd hholds.2 (not_lt.2 hstop)

end BlankOut

/-! ## Comments are masked -/

variable {t : Text} {c : Char} {n : Nat}

lemma pair_isPrefixOf_cons {x y : Char} {r : Text} :
    [x, y].isPrefixOf (c :: r) ↔ c = x ∧ r.head? = some y := by
  cases r with
  | nil => simp
  | cons d r => simp [@eq_comm Char x, @eq_comm Char y]

/-- A text stays as it is up to its first comment. -/
lemma maskFrom_outside (t : Text) :
    maskFrom .outside t = (breakAt (['/', '*'].isPrefixOf ·) t).1 ++
      maskFrom .outside (breakAt (['/', '*'].isPrefixOf ·) t).2 := by
  induction t with
  | nil => rfl
  | cons c r ih =>
    by_cases h : ['/', '*'].isPrefixOf (c :: r)
    · rw [breakAt, if_pos h, List.nil_append]
    · rw [breakAt, if_neg h, maskFrom, if_neg (mt pair_isPrefixOf_cons.2 h), ih]
      rfl

/-- In a comment all is masked up to where it is closed. -/
lemma maskFrom_inside (t : Text) :
    maskFrom .inside t = (breakAt (['*', '/'].isPrefixOf ·) t).1.flatMap blanksFor ++
      maskFrom .inside (breakAt (['*', '/'].isPrefixOf ·) t).2 := by
  induction t with
  | nil => rfl
  | cons c r ih =>
    by_cases h : ['*', '/'].isPrefixOf (c :: r)
    · rw [breakAt, if_pos h]
      rfl
    · rw [breakAt, if_neg h, maskFrom, if_neg (mt pair_isPrefixOf_cons.2 h), ih,
        List.flatMap_cons, List.append_assoc]

/-- The two characters that open a comment are masked. -/
lemma maskFrom_opening (h : ['/', '*'].isPrefixOf t) :
    maskFrom .outside t = (t.take 2).flatMap blanksFor ++ maskFrom .inside (t.drop 2) := by
  obtain ⟨r, rfl⟩ := List.isPrefixOf_iff_prefix.1 h
  rfl

/-- The two characters that close a comment are masked. -/
lemma maskFrom_closing (h : t = [] ∨ ['*', '/'].isPrefixOf t) :
    maskFrom .inside t = (t.take 2).flatMap blanksFor ++ maskFrom .outside (t.drop 2) := by
  rcases h with rfl | h
  · rfl
  · obtain ⟨r, rfl⟩ := List.isPrefixOf_iff_prefix.1 h
    rfl

/-- What is in front of the first comment of a text, the comment, and what follows it. -/
lemma split_comment (t : Text) :
    let front := breakAt (['/', '*'].isPrefixOf ·) t
    let body := breakAt (['*', '/'].isPrefixOf ·) (front.2.drop 2)
    t = front.1 ++ ((front.2.take 2 ++ body.1 ++ body.2.take 2) ++ body.2.drop 2) := by
  intro front body
  have hbody : body.1 ++ body.2 = front.2.drop 2 :=
    breakAt_append (['*', '/'].isPrefixOf ·) (front.2.drop 2)
  rw [List.append_assoc, List.take_append_drop, List.append_assoc, hbody, List.take_append_drop]
  exact (breakAt_append (['/', '*'].isPrefixOf ·) t).symm

/-- The comments of a text start in it. -/
lemma le_of_mem_comments (n : Nat) (t : Text) : ∀ s ∈ comments n t, n ≤ s.start := by
  fun_induction comments n t with
  | case1 => nofun
  | case2 n t front hne body start stop ih =>
    intro s hs
    rcases List.mem_cons.1 hs with rfl | hs
    · exact Nat.le_add_right ..
    · exact ((Nat.le_add_right ..).trans (Nat.le_add_right ..)).trans (ih s hs)

/-- **What is masked are the characters in comments**, also from an offset on. -/
theorem maskFrom_outside_eq (n : Nat) (t : Text) :
    maskFrom .outside t = blankOut (fun k => ∃ s ∈ comments n t, s.Holds k) n t := by
  fun_induction comments n t with
  | case1 n t front hnil =>
    have hfront : front.1 = t := by
      have h := breakAt_append (['/', '*'].isPrefixOf ·) t
      rwa [show (breakAt _ t).2 = [] from hnil, List.append_nil] at h
    rw [blankOut_none (by simp), maskFrom_outside, show (breakAt _ t).2 = [] from hnil]
    exact (List.append_nil _).trans hfront
  | case2 n t front hne body start stop ih =>
    have hopen : ['/', '*'].isPrefixOf front.2 :=
      (breakAt_snd (['/', '*'].isPrefixOf ·) t).resolve_left hne
    have hclose : body.2 = [] ∨ ['*', '/'].isPrefixOf body.2 :=
      breakAt_snd (['*', '/'].isPrefixOf ·) (front.2.drop 2)
    have ht : t = front.1 ++ ((front.2.take 2 ++ body.1 ++ body.2.take 2) ++ body.2.drop 2) :=
      split_comment t
    have hmask : maskFrom .outside t = front.1 ++
        ((front.2.take 2 ++ body.1 ++ body.2.take 2).flatMap blanksFor ++
          maskFrom .outside (body.2.drop 2)) := by
      rw [maskFrom_outside, maskFrom_opening hopen, maskFrom_inside, maskFrom_closing hclose]
      simp only [List.flatMap_append, List.append_assoc]
      rfl
    rw [hmask, ih]
    conv_rhs => rw [ht]
    exact (blankOut_spans _ (le_of_mem_comments stop _)).symm

/-- **Masking blanks what is in comments** and leaves all else as it is. -/
theorem maskComments_eq (t : Text) : maskComments t = blankOut (Commented t) 0 t :=
  maskFrom_outside_eq 0 t

/-- **What is no space stands in the masked text where it stands in the text outside comments.** -/
theorem standsAt_maskComments_iff (hc : c ≠ ' ') :
    (maskComments t).StandsAt c n ↔ t.StandsAt c n ∧ ¬ Commented t n := by
  constructor
  · rintro ⟨a, b, hm, rfl⟩
    obtain ⟨x, y, ht, hx, -⟩ := (hm ▸ masks_maskComments t).split hc
    have hstands : t.StandsAt c (bytes a) := ⟨x, y, ht, hx.bytes_eq.symm⟩
    refine ⟨hstands, fun hcommented => hc ?_⟩
    have hspace := standsAt_blankOut (p := Commented t) hstands
    rw [if_pos hcommented, ← maskComments_eq] at hspace
    exact Text.StandsAt.unique ⟨a, b, hm, rfl⟩ hspace
  · rintro ⟨hstands, hfree⟩
    have hkept := standsAt_blankOut (p := Commented t) hstands
    rwa [if_neg hfree, ← maskComments_eq] at hkept

end Style

end Mosaic
