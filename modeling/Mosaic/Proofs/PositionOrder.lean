import Mosaic.Proofs.LinePosition

/-!
# Positions in their order

Positions are ordered by line and then by character, and offsets by size.  Going from one to the
other keeps the order, also for positions that are no place of the text: behind the end of a line,
behind the last line, or inside a character.

* `Position.pairwise_mergeSort`, `Position.sublist_mergeSort` — what is sorted by position.
* `Text.offsetAt_cons` — how a position is looked up one character at a time.
* `Text.offsetAt_mono` — a later position is at the same offset or a later one.
* `Text.positionAt_precedes` — of two boundaries the later one has the later position.
* `Text.offsetAt_plus`, `Text.offsetAt_append` — a text in two parts: a position is looked up in the
  one that it reaches.
* `Text.positionAt_parts` — a place in a part of a text, seen from the whole.
-/

namespace Mosaic

namespace Position

lemma upTo_iff {p q : Position} :
    p.upTo q ↔ p.line < q.line ∨ p.line = q.line ∧ p.character ≤ q.character := by
  simp only [upTo, precedes, Bool.not_eq_true', Bool.or_eq_false_iff, Bool.and_eq_false_iff,
    decide_eq_false_iff_not, beq_eq_false_iff_ne]
  omega

lemma upTo_refl (p : Position) : p.upTo p := upTo_iff.2 (Or.inr ⟨rfl, Nat.le_refl _⟩)

lemma upTo_trans {p q r : Position} (hpq : p.upTo q) (hqr : q.upTo r) : p.upTo r := by
  rw [upTo_iff] at *
  omega

lemma upTo_total (p q : Position) : p.upTo q || q.upTo p := by
  simp only [Bool.or_eq_true, upTo_iff]
  omega

lemma upTo_antisymm {p q : Position} (hpq : p.upTo q) (hqp : q.upTo p) : p = q := by
  obtain ⟨line, character⟩ := p
  obtain ⟨line', character'⟩ := q
  simp only [upTo_iff] at hpq hqp
  simp only [mk.injEq]
  omega

lemma precedes_iff {p q : Position} : p.precedes q ↔ p.upTo q ∧ p ≠ q := by
  constructor
  · intro h
    refine ⟨?_, ?_⟩
    · simpa [upTo, h] using upTo_total p q
    · rintro rfl
      simp [precedes] at h
  · rintro ⟨hpq, hne⟩
    by_contra h
    exact hne (upTo_antisymm hpq (by simpa [upTo] using h))

section Sorting

variable {α : Type} (key : α → Position) {l l' : List α}

/-- Sorting by position puts the positions in order. -/
lemma pairwise_mergeSort (l : List α) :
    (l.mergeSort fun a b => (key a).upTo (key b)).Pairwise fun a b => (key a).upTo (key b) :=
  List.pairwise_mergeSort (fun a b c => upTo_trans (p := key a) (q := key b) (r := key c))
    (fun a b => upTo_total (key a) (key b)) l

/-- What is in order already stays in its order. -/
lemma sublist_mergeSort (h : l'.Pairwise fun a b => (key a).upTo (key b)) (hsub : l'.Sublist l) :
    l'.Sublist (l.mergeSort fun a b => (key a).upTo (key b)) :=
  List.sublist_mergeSort (fun a b c => upTo_trans (p := key a) (q := key b) (r := key c))
    (fun a b => upTo_total (key a) (key b)) h hsub

end Sorting

/-- A position, counted from behind the first character of the text. -/
def behind (p : Position) (c : Char) : Position where
  line := if c = '\n' then p.line - 1 else p.line
  character := if c = '\n' ∨ p.line ≠ 0 then p.character else p.character - charUnits c

/-- The position is not behind the first character of the text: it is the start, or on the line
which that character ends. -/
def AtFront (p : Position) (c : Char) : Prop :=
  p.line = 0 ∧ (p.character = 0 ∨ c = '\n')

instance (p : Position) (c : Char) : Decidable (p.AtFront c) :=
  inferInstanceAs (Decidable (_ ∧ _))

variable {p q : Position} {c : Char}

lemma AtFront.of_upTo (h : q.AtFront c) (hpq : p.upTo q) : p.AtFront c := by
  rw [upTo_iff] at hpq
  obtain ⟨hline, hc⟩ := h
  refine ⟨by omega, hc.imp_left fun hzero => by omega⟩

lemma behind_mono (hpq : p.upTo q) (hp : ¬ p.AtFront c) : (p.behind c).upTo (q.behind c) := by
  rw [upTo_iff] at hpq ⊢
  by_cases hc : c = '\n'
  · have hline : p.line ≠ 0 := fun h => hp ⟨h, Or.inr hc⟩
    simp only [behind, hc, true_or, if_true]
    omega
  · simp only [behind, hc, false_or, if_false]
    split_ifs <;> omega

end Position

namespace Text

variable {t : Text} {p q : Position} {m n : Nat}

/-! ## Looking positions up in order -/

@[simp] lemma offsetAt_start (t : Text) : offsetAt t ⟨0, 0⟩ = 0 := by
  simp [offsetAt, offsetAt?, lineFrom, columnBytes]

@[simp] lemma offsetAt_nil (p : Position) : offsetAt [] p = 0 := by
  have h := (isBoundary_offsetAt [] p).le
  rwa [bytes_nil, Nat.le_zero] at h

/-- A position is looked up one character at a time. -/
theorem offsetAt_cons (c : Char) (r : Text) (p : Position) :
    offsetAt (c :: r) p
      = if p.AtFront c then 0 else c.utf8Size + offsetAt r (p.behind c) := by
  obtain ⟨line, character⟩ := p
  cases line with
  | zero =>
    cases character with
    | zero => simp [Position.AtFront]
    | succ k =>
      by_cases hc : c = '\n' <;>
        simp [offsetAt, offsetAt?, lineFrom, columnBytes, Position.AtFront, Position.behind, hc]
  | succ line =>
    have hfront : ¬ (⟨line + 1, character⟩ : Position).AtFront c := fun h => by cases h.1
    have hbehind : (⟨line + 1, character⟩ : Position).behind c
        = ⟨if c = '\n' then line else line + 1, character⟩ := by
      by_cases hc : c = '\n' <;> simp [Position.behind, hc]
    rw [if_neg hfront, hbehind]
    simp only [offsetAt, offsetAt?, lineFrom_cons, Option.map_map]
    cases lineFrom (if c = '\n' then line else line + 1) r with
    | none => rfl
    | some found => exact Nat.add_assoc ..

/-- **A later position is at the same offset or a later one**, whether there is such a place in the
text or not. -/
theorem offsetAt_mono (h : p.upTo q) : offsetAt t p ≤ offsetAt t q := by
  induction t generalizing p q with
  | nil => simp
  | cons c r ih =>
    rw [offsetAt_cons, offsetAt_cons]
    by_cases hp : p.AtFront c
    · rw [if_pos hp]
      exact Nat.zero_le _
    · rw [if_neg hp, if_neg fun hq => hp (hq.of_upTo h)]
      exact Nat.add_le_add_left (ih (Position.behind_mono h hp)) _

/-- **Of two boundaries the later one has the later position.** -/
theorem positionAt_precedes (hm : IsBoundary t m) (hn : IsBoundary t n) (h : m < n) :
    (positionAt t m).precedes (positionAt t n) := by
  by_contra hnot
  have hle : offsetAt t (positionAt t n) ≤ offsetAt t (positionAt t m) :=
    offsetAt_mono (by simpa [Position.upTo] using hnot)
  rw [offsetAt_positionAt_of_boundary hm, offsetAt_positionAt_of_boundary hn] at hle
  omega

/-- The boundary to which a cut rounds an offset up has the position of the offset. -/
lemma positionAt_bytes_takeBytes (t : Text) (n : Nat) :
    positionAt t (bytes (takeBytes n t)) = positionAt t n := by
  have h := takeBytes_bytes_append (takeBytes n t) (dropBytes n t)
  rw [takeBytes_append_dropBytes] at h
  rw [positionAt, h, positionAt]

/-- Of two offsets the later one has the later position, or the same. -/
lemma positionAt_upTo (t : Text) (h : m ≤ n) : (positionAt t m).upTo (positionAt t n) := by
  have hcut (k : Nat) : IsBoundary t (bytes (takeBytes k t)) :=
    ⟨takeBytes k t, dropBytes k t, (takeBytes_append_dropBytes k t).symm, rfl⟩
  rw [← positionAt_bytes_takeBytes t m, ← positionAt_bytes_takeBytes t n]
  rcases (bytes_takeBytes_mono h t).lt_or_eq with hlt | heq
  · exact (Position.precedes_iff.1 (positionAt_precedes (hcut m) (hcut n) hlt)).1
  · rw [heq]
    exact Position.upTo_refl _

/-! ## A text in parts -/

/-- A position beyond the end of a front part is looked up in the rest. -/
lemma offsetAt_plus (a b : Text) (q : Position) :
    offsetAt (a ++ b) ((endPosition ⟨0, 0⟩ a).plus q) = bytes a + offsetAt b q := by
  rw [offsetAt, offsetAt?_plus, offsetAt, bytes_append]
  cases offsetAt? b q <;> rfl

/-- Behind the first character of a text its end is as far as that of the rest. -/
lemma upTo_behind {c : Char} {r : Text} (h : p.upTo (endPosition ⟨0, 0⟩ (c :: r)))
    (hp : ¬ p.AtFront c) : (p.behind c).upTo (endPosition ⟨0, 0⟩ r) := by
  rw [endPosition_cons, endPosition_eq_plus, Position.upTo_iff] at h
  rw [Position.upTo_iff]
  by_cases hc : c = '\n'
  · have hline : p.line ≠ 0 := fun h => hp ⟨h, Or.inr hc⟩
    simp only [Position.advance, Position.behind, Position.plus, hc, true_or, if_true] at h ⊢
    split_ifs at h <;> simp only at h <;> omega
  · simp only [Position.advance, Position.behind, Position.plus, hc, false_or, if_false] at h ⊢
    split_ifs at h ⊢ <;> simp only at h <;> omega

/-- A position up to the end of a front part is looked up there. -/
theorem offsetAt_append {a : Text} (b : Text) (h : p.upTo (endPosition ⟨0, 0⟩ a)) :
    offsetAt (a ++ b) p = offsetAt a p := by
  induction a generalizing p with
  | nil =>
    obtain ⟨line, character⟩ := p
    obtain ⟨rfl, rfl⟩ : line = 0 ∧ character = 0 := by
      simpa [Position.upTo_iff, endPosition] using h
    simp
  | cons c r ih =>
    rw [List.cons_append, offsetAt_cons, offsetAt_cons]
    by_cases hp : p.AtFront c
    · rw [if_pos hp, if_pos hp]
    · rw [if_neg hp, if_neg hp, ih (upTo_behind h hp)]

/-- A position up to the end of a front part is at an offset of it. -/
lemma offsetAt_le {a : Text} (b : Text) (h : p.upTo (endPosition ⟨0, 0⟩ a)) :
    offsetAt (a ++ b) p ≤ bytes a :=
  (offsetAt_append b h).trans_le (isBoundary_offsetAt a p).le

/-- A position beyond the end of a front part is at no offset of it. -/
lemma le_offsetAt {a : Text} (b : Text) (h : (endPosition ⟨0, 0⟩ a).upTo p) :
    bytes a ≤ offsetAt (a ++ b) p := by
  have hend : offsetAt (a ++ b) (endPosition ⟨0, 0⟩ a) = bytes a := by
    rw [offsetAt, offsetAt?_endPosition, Option.getD_some]
  exact hend ▸ offsetAt_mono h

/-- **A place in a part of a text, seen from the whole**, is as far behind the start of the part as
it is from the start of the part alone. -/
theorem positionAt_parts (a c : Text) {b : Text} (h : IsBoundary b n) :
    positionAt (a ++ (b ++ c)) (bytes a + n)
      = (positionAt (a ++ (b ++ c)) (bytes a)).plus (positionAt b n) := by
  obtain ⟨x, y, rfl, rfl⟩ := h
  have hwhole : a ++ (x ++ y ++ c) = (a ++ x) ++ (y ++ c) := by simp
  have hfront : positionAt (a ++ (x ++ y ++ c)) (bytes a) = endPosition ⟨0, 0⟩ a := by
    rw [positionAt, takeBytes_bytes_append]
  rw [hfront, hwhole, ← bytes_append, positionAt, positionAt, takeBytes_bytes_append,
    takeBytes_bytes_append, endPosition_append_eq]

end Text

end Mosaic
