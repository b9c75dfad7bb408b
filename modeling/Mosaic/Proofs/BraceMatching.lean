import Mosaic.Proofs.CommentSpans

/-!
# Braces that match

Two braces match if the text between them is balanced, and a brace without such a partner is
unmatched.  None of this knows how a style sheet is read.

* `Style.Balanced` — texts in which every brace has its partner.
* `Style.Matched` — the opening brace at one offset matches the closing one at another.
* `Style.Matched.unique` — an opening brace has one partner at most.
* `Style.not_matched_of_closesOpened`, `Style.not_matched_of_opensClosed` — what stands behind an
  opening brace, or in front of a closing one, tells that it has no partner.
* `Style.openings` — where the opening braces of a text are.
-/

namespace Mosaic.Style

open Text

variable {t v w f r a b : Text} {c : Char} {i j n : Nat}

/-! ## Balanced texts -/

/-- Every brace of the text has its partner in it. -/
inductive Balanced : Text → Prop where
  | nil : Balanced []
  | other {c : Char} {w : Text} : c ≠ '\x7b' → c ≠ '\x7d' → Balanced w → Balanced (c :: w)
  | braces {v w : Text} : Balanced v → Balanced w → Balanced ('\x7b' :: (v ++ '\x7d' :: w))

lemma Balanced.append (hv : Balanced v) (hw : Balanced w) : Balanced (v ++ w) := by
  induction hv with
  | nil => exact hw
  | other h1 h2 _ ih => exact .other h1 h2 ih
  | braces hv _ _ ih =>
    rw [List.cons_append, List.append_assoc]
    exact .braces hv ih

/-- As many braces open as close. -/
lemma Balanced.count_eq (h : Balanced w) : w.count '\x7b' = w.count '\x7d' := by
  induction h with
  | nil => rfl
  | other h1 h2 _ ih => rw [List.count_cons_of_ne h1, List.count_cons_of_ne h2, ih]
  | braces _ _ ihv ihw =>
    simp only [List.count_cons, List.count_append, ihv, ihw, beq_iff_eq, Char.reduceEq,
      ↓reduceIte]
    omega

/-- Nothing closes in the text that was not opened in it. -/
def ClosesOpened (t : Text) : Prop :=
  ∀ p, p <+: t → p.count '\x7d' ≤ p.count '\x7b'

/-- Everything that opens in the text is closed in it. -/
def OpensClosed (t : Text) : Prop :=
  ∀ s, s <:+ t → s.count '\x7b' ≤ s.count '\x7d'

lemma prefix_append_cases {p : Text} (h : p <+: v ++ w) :
    p <+: v ∨ ∃ q, q <+: w ∧ p = v ++ q := by
  rcases List.prefix_or_prefix_of_prefix h (List.prefix_append v w) with h' | ⟨q, rfl⟩
  · exact .inl h'
  · exact .inr ⟨q, (List.prefix_append_right_inj v).1 h, rfl⟩

lemma suffix_append_cases {s : Text} (h : s <:+ v ++ w) :
    s <:+ w ∨ ∃ q, q <:+ v ∧ s = q ++ w := by
  rcases List.suffix_or_suffix_of_suffix h (List.suffix_append v w) with h' | ⟨q, rfl⟩
  · exact .inl h'
  · exact .inr ⟨q, (List.suffix_append_self_iff).1 h, rfl⟩

lemma ClosesOpened.open (h : ClosesOpened w) : ClosesOpened ('\x7b' :: w) := by
  intro p hp
  rcases List.prefix_cons_iff.1 hp with rfl | ⟨q, rfl, hq⟩
  · rfl
  · have := h q hq
    simp only [List.count_cons, beq_iff_eq, Char.reduceEq, ↓reduceIte]
    omega

lemma Balanced.closesOpened (h : Balanced w) : ClosesOpened w := by
  induction h with
  | nil =>
    intro p hp
    rw [List.prefix_nil.1 hp]
    rfl
  | other h1 h2 _ ih =>
    intro p hp
    rcases List.prefix_cons_iff.1 hp with rfl | ⟨q, rfl, hq⟩
    · rfl
    · rw [List.count_cons_of_ne h1, List.count_cons_of_ne h2]
      exact ih q hq
  | @braces v w hv hw ihv ihw =>
    intro p hp
    rcases List.prefix_cons_iff.1 hp with rfl | ⟨q, rfl, hq⟩
    · rfl
    rcases prefix_append_cases hq with hq | ⟨u, hu, rfl⟩
    · exact ihv.open _ ((List.prefix_cons_inj _).2 hq)
    rcases List.prefix_cons_iff.1 hu with rfl | ⟨s, rfl, hs⟩
    · rw [List.append_nil]
      exact ihv.open _ List.prefix_rfl
    · have h1 := hv.count_eq
      have h2 := ihw s hs
      simp only [List.count_cons, List.count_append, beq_iff_eq, Char.reduceEq, ↓reduceIte]
      omega

/-- Behind a balanced text, it only matters what closes there. -/
lemma Balanced.closesOpened_append (hv : Balanced v) (hw : ClosesOpened w) :
    ClosesOpened (v ++ w) := by
  intro p hp
  rcases prefix_append_cases hp with hp | ⟨q, hq, rfl⟩
  · exact hv.closesOpened p hp
  · rw [List.count_append, List.count_append]
    exact Nat.add_le_add hv.count_eq.ge (hw q hq)

/-- What is left behind the start of a balanced text closes at least as much as it opens. -/
lemma Balanced.opensClosed (h : Balanced w) : OpensClosed w := by
  rintro s ⟨p, rfl⟩
  have hall := h.count_eq
  have hfront := h.closesOpened p (List.prefix_append p s)
  rw [List.count_append, List.count_append] at hall
  omega

lemma OpensClosed.append (hv : OpensClosed v) (hw : OpensClosed w) : OpensClosed (v ++ w) := by
  intro s hs
  rcases suffix_append_cases hs with hs | ⟨q, hq, rfl⟩
  · exact hw s hs
  · rw [List.count_append, List.count_append]
    exact Nat.add_le_add (hv q hq) (hw w List.suffix_rfl)

/-- A brace that closes nothing leaves nothing open. -/
lemma OpensClosed.stray (h : OpensClosed w) : OpensClosed (w ++ ['\x7d']) := by
  refine h.append fun s hs => ?_
  rcases List.suffix_cons_iff.1 hs with rfl | hs
  · simp
  · rw [List.suffix_nil.1 hs]
    rfl

/-! ## Braces that match -/

lemma bytes_brace (a w : Text) : bytes (a ++ '\x7b' :: w) = bytes a + 1 + bytes w := by
  rw [bytes_append, bytes_cons, ← Nat.add_assoc]
  rfl

/-- The opening brace at `i` and the closing brace at `j` match: what is between them is
balanced. -/
def Matched (t : Text) (i j : Nat) : Prop :=
  ∃ a w b, t = a ++ '\x7b' :: (w ++ '\x7d' :: b) ∧ Balanced w ∧ bytes a = i ∧
    bytes a + 1 + bytes w = j

lemma Matched.closes (h : Matched t i j) : t.StandsAt '\x7d' j := by
  obtain ⟨a, w, b, ht, -, -, rfl⟩ := h
  exact ⟨a ++ '\x7b' :: w, b, by rw [ht]; simp, bytes_brace a w⟩

/-- A balanced text and a closing brace behind it close more than they open. -/
lemma not_closesOpened_of_balanced (h : Balanced w) : ¬ ClosesOpened (w ++ '\x7d' :: b) := by
  intro hcloses
  have hprefix : w ++ ['\x7d'] <+: w ++ '\x7d' :: b := ⟨b, by simp⟩
  have hle := hcloses _ hprefix
  have heq := h.count_eq
  simp only [List.count_append, List.count_cons, List.count_nil, beq_iff_eq, Char.reduceEq,
    ↓reduceIte] at hle
  omega

/-- An opening brace and a balanced text behind it open more than they close. -/
lemma not_opensClosed_of_balanced (h : Balanced w) : ¬ OpensClosed (a ++ '\x7b' :: w) := by
  intro hopens
  have hle := hopens _ (List.suffix_append a ('\x7b' :: w))
  have heq := h.count_eq
  simp only [List.count_cons, beq_iff_eq, Char.reduceEq, ↓reduceIte] at hle
  omega

/-- **An opening brace that nothing behind it closes is unmatched.** -/
lemma not_matched_of_closesOpened (h : ClosesOpened r) :
    ¬ Matched (a ++ '\x7b' :: r) (bytes a) j := by
  rintro ⟨a', w, b, ht, hw, ha, -⟩
  obtain ⟨-, hrest⟩ := append_inj_of_bytes ht ha.symm
  obtain rfl : r = w ++ '\x7d' :: b := (List.cons.inj hrest).2
  exact not_closesOpened_of_balanced hw h

/-- **A closing brace is unmatched if all that opens in front of it is closed there.** -/
lemma not_matched_of_opensClosed (h : OpensClosed f) :
    ¬ Matched (f ++ '\x7d' :: b) i (bytes f) := by
  rintro ⟨a, w, b', ht, hw, -, hj⟩
  have hsplit : f ++ '\x7d' :: b = (a ++ '\x7b' :: w) ++ '\x7d' :: b' := by rw [ht]; simp
  obtain ⟨rfl, -⟩ := append_inj_of_bytes hsplit (hj.symm.trans (bytes_brace a w).symm)
  exact not_opensClosed_of_balanced hw h

/-- **An opening brace has one partner at most.** -/
theorem Matched.unique {j' : Nat} (h : Matched t i j) (h' : Matched t i j') : j = j' := by
  obtain ⟨a, w, b, rfl, hw, rfl, rfl⟩ := h
  obtain ⟨a', w', b', ht, hw', ha, rfl⟩ := h'
  obtain ⟨rfl, hrest⟩ := append_inj_of_bytes ht ha.symm
  -- of two balanced texts before a closing brace, neither goes on behind that of the other
  rcases List.append_eq_append_iff.1 (List.cons.inj hrest).2 with ⟨z, rfl, hz⟩ | ⟨z, rfl, hz⟩
  · cases z with
    | nil => rw [List.append_nil]
    | cons d z =>
      obtain rfl : '\x7d' = d := (List.cons.inj hz).1
      exact absurd hw'.closesOpened (not_closesOpened_of_balanced hw)
  · cases z with
    | nil => rw [List.append_nil]
    | cons d z =>
      obtain rfl : '\x7d' = d := (List.cons.inj hz).1
      exact absurd hw.closesOpened (not_closesOpened_of_balanced hw')

/-! ## Where braces open -/

/-- The offsets of the opening braces of a text that starts at `n`. -/
def openings (n : Nat) : Text → List Nat
  | [] => []
  | c :: r => (if c = '\x7b' then [n] else []) ++ openings (n + c.utf8Size) r

lemma openings_append (n : Nat) (a b : Text) :
    openings n (a ++ b) = openings n a ++ openings (n + bytes a) b := by
  induction a generalizing n with
  | nil => rfl
  | cons c a ih =>
    rw [List.cons_append, openings, openings, ih, bytes_cons, List.append_assoc, Nat.add_assoc]

lemma openings_open (n : Nat) (t : Text) :
    openings n ('\x7b' :: t) = n :: openings (n + 1) t := rfl

lemma openings_other (h : c ≠ '\x7b') : openings n [c] = [] := by
  rw [openings, if_neg h]
  rfl

/-- **Each offset listed is one of an opening brace, and none is left out.** -/
theorem mem_openings {k : Nat} :
    k ∈ openings n t ↔ ∃ a b, t = a ++ '\x7b' :: b ∧ n + bytes a = k := by
  constructor
  · intro hk
    induction t generalizing n with
    | nil => simp [openings] at hk
    | cons c r ih =>
      rcases List.mem_append.1 hk with hk | hk
      · split at hk
        next hc => exact ⟨[], r, by rw [hc]; rfl, (List.mem_singleton.1 hk).symm⟩
        next => simp at hk
      · obtain ⟨a, b, rfl, rfl⟩ := ih hk
        exact ⟨c :: a, b, rfl, by rw [bytes_cons, Nat.add_assoc]⟩
  · rintro ⟨a, b, rfl, rfl⟩
    rw [openings_append, openings_open]
    simp

lemma mem_openings_zero {k : Nat} : k ∈ openings 0 t ↔ t.StandsAt '\x7b' k := by
  simp only [mem_openings, Nat.zero_add, StandsAt]

/-- The offsets are listed in order. -/
theorem openings_pairwise (n : Nat) (t : Text) : (openings n t).Pairwise (· < ·) := by
  induction t generalizing n with
  | nil => exact .nil
  | cons c r ih =>
    have hsize := c.utf8Size_pos
    refine List.pairwise_append.2 ⟨?_, ih _, fun k hk k' hk' => ?_⟩
    · split
      · exact List.pairwise_singleton _ _
      · exact .nil
    · obtain rfl : k = n := by
        split at hk
        · exact List.mem_singleton.1 hk
        · simp at hk
      obtain ⟨a, b, -, rfl⟩ := mem_openings.1 hk'
      omega

end Mosaic.Style
