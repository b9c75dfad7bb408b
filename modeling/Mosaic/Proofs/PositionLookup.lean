import Mosaic.Proofs.ByteText
import Mosaic.Proofs.Embedding
import Mosaic.Proofs.PositionOrder

/-!
# Positions and offsets, there and back

Neither all offsets nor all positions are places of a text: an offset may stand inside a character
or behind the text, and a position inside a character, behind the end of its line or on a line that
does not exist.  Looking one up and going back tells which place it is taken for.

**Offsets.**  `Text.isLeast_bytes_takeBytes` — an offset is taken for the next boundary, and behind
the text for its end.

**Positions.**  `Text.lineFrom_eq_none_iff` says which lines there are.  A position on one of them
is taken for the next place of its line, and behind the line for the end of the line
(`Text.takenFor_of_offsetAt?`).

**Both.**  `positions_and_offsets_inverse` — these, and that the order is kept both ways.
-/

namespace Mosaic

open Text

namespace Text

variable {t rest : Text} {p : Position} {m n o : Nat}

/-! ## Offsets -/

/-- A cut keeps all bytes up to its offset, or all of the text. -/
lemma min_le_bytes_takeBytes (n : Nat) (t : Text) : min n (bytes t) ≤ bytes (takeBytes n t) := by
  fun_induction takeBytes n t with
  | case1 => simp
  | case2 => simp
  | case3 n c r ih =>
    rw [bytes_cons, bytes_cons]
    omega

lemma isBoundary_bytes_takeBytes (n : Nat) (t : Text) : IsBoundary t (bytes (takeBytes n t)) :=
  ⟨takeBytes n t, dropBytes n t, (takeBytes_append_dropBytes n t).symm, rfl⟩

/-- **A cut is at the least boundary that is not before its offset**, or at the end of the text. -/
theorem isLeast_bytes_takeBytes (n : Nat) (t : Text) :
    IsLeast {k | IsBoundary t k ∧ min n (bytes t) ≤ k} (bytes (takeBytes n t)) := by
  refine ⟨⟨isBoundary_bytes_takeBytes n t, min_le_bytes_takeBytes n t⟩, ?_⟩
  rintro k ⟨hk, hle⟩
  rcases min_le_iff.1 hle with hn | hfull
  · exact (bytes_takeBytes_mono hn t).trans_eq (isBoundary_iff.1 hk)
  · exact (isBoundary_bytes_takeBytes n t).le.trans hfull

/-! ## Lines -/

/-- Each line break that is read makes one more line. -/
lemma line_endPosition (p : Position) (t : Text) :
    (endPosition p t).line = p.line + t.count '\n' := by
  induction t generalizing p with
  | nil => rfl
  | cons c r ih =>
    rw [endPosition_cons, ih]
    by_cases hc : c = '\n'
    · simp only [Position.advance, hc, if_true, List.count_cons_self]
      omega
    · simp [Position.advance, hc]

/-- A text has as many lines as line breaks, and one more. -/
lemma lineFrom_eq_none_iff : lineFrom n t = none ↔ t.count '\n' < n := by
  induction t generalizing n with
  | nil => cases n <;> simp [lineFrom]
  | cons c r ih =>
    cases n with
    | zero => simp [lineFrom]
    | succ n =>
      rw [lineFrom_cons, Option.map_eq_none_iff, ih]
      by_cases hc : c = '\n' <;> simp [hc]

/-! ## Positions -/

/-- The position is that of a place between two characters of the text. -/
def IsPlace (t : Text) (p : Position) : Prop :=
  ∃ n, IsBoundary t n ∧ positionAt t n = p

/-- The offset is the end of a line, before its line break. -/
def EndsLine (t : Text) (n : Nat) : Prop :=
  ∀ c ∈ (dropBytes n t).head?, c = '\n'

/-- What a position is taken for: the next place of its line, or if there is none the end of the
line. -/
structure TakenFor (t : Text) (p : Position) (o : Nat) : Prop where
  boundary : IsBoundary t o
  line : (positionAt t o).line = p.line
  reached : p.character ≤ (positionAt t o).character ∨
    (positionAt t o).character < p.character ∧ EndsLine t o
  least : ∀ q, IsPlace t q → p.upTo q → (positionAt t o).upTo q

lemma isBoundary_of_offsetAt? (h : offsetAt? t p = some o) : IsBoundary t o := by
  have hb := isBoundary_offsetAt t p
  rwa [offsetAt, h, Option.getD_some] at hb

/-- Looking a position up never goes past a place that is not before it. -/
lemma positionAt_upTo_of_isPlace (h : offsetAt? t p = some o) {q : Position} (hq : IsPlace t q)
    (hpq : p.upTo q) : (positionAt t o).upTo q := by
  obtain ⟨n, hn, rfl⟩ := hq
  have hle := offsetAt_mono (t := t) hpq
  rw [offsetAt_positionAt_of_boundary hn, offsetAt, h, Option.getD_some] at hle
  exact positionAt_upTo t hle

/-- **A position is taken for the next place of its line**, or for the end of the line. -/
theorem takenFor_of_offsetAt? (h : offsetAt? t p = some o) : TakenFor t p o := by
  obtain ⟨⟨start, rest⟩, hline, ho⟩ := Option.map_eq_some_iff.1 h
  obtain ⟨a, rfl, rfl, hstart⟩ := lineFrom_spec hline
  obtain ⟨x, y, rfl, hx, hbreak, hcolumn⟩ := columnBytes_spec p.character rest
  obtain rfl : bytes a + bytes x = o := by rw [hx]; exact ho
  have hfront : positionAt (a ++ (x ++ y)) (bytes a) = ⟨p.line, 0⟩ := by
    rw [positionAt, takeBytes_bytes_append, hstart]
  have hplace : positionAt (a ++ (x ++ y)) (bytes a + bytes x) = ⟨p.line, units x⟩ := by
    rw [positionAt_same_line a x y hbreak, hfront, Nat.zero_add]
  have hbehind : dropBytes (bytes a + bytes x) (a ++ (x ++ y)) = y := by
    rw [← bytes_append, ← List.append_assoc, dropBytes_bytes_append]
  refine ⟨isBoundary_of_offsetAt? h, by rw [hplace], ?_, fun q => positionAt_upTo_of_isPlace h⟩
  rw [hplace, EndsLine, hbehind]
  exact hcolumn

/-- A position is taken for itself exactly if it is a place. -/
lemma positionAt_eq_iff_isPlace (h : offsetAt? t p = some o) :
    positionAt t o = p ↔ IsPlace t p := by
  constructor
  · exact fun he => ⟨o, isBoundary_of_offsetAt? h, he⟩
  · rintro ⟨n, hn, rfl⟩
    rw [offsetAt?_positionAt, isBoundary_iff.1 hn] at h
    rw [Option.some.inj h]

/-- No number in the position of an offset exceeds the size of the text. -/
lemma positionAt_le_bytes (t : Text) (n : Nat) :
    (positionAt t n).line ≤ bytes t ∧ (positionAt t n).character ≤ bytes t := by
  have hcut := isBoundary_bytes_takeBytes n t
  refine ⟨?_, ?_⟩
  · have hcount : (takeBytes n t).count '\n' ≤ (takeBytes n t).length := List.count_le_length
    rw [positionAt, line_endPosition, Nat.zero_add]
    exact (hcount.trans (length_le_bytes _)).trans hcut.le
  · rw [← positionAt_bytes_takeBytes]
    exact (character_positionAt_le hcut).trans hcut.le

end Text

/-- **Positions and offsets are inverse to each other where both are places of the text, and keep
their order everywhere.**  An offset comes back as the least boundary that is not before it, or as
the end of the text.  A position is found exactly if its line exists; it comes back as the next
place of its line or the end of the line, hence as itself exactly if it is a place. -/
theorem positions_and_offsets_inverse (t : Text) :
    (∀ n, ∃ k, offsetAt? t (positionAt t n) = some k ∧
      IsLeast {k | IsBoundary t k ∧ min n (bytes t) ≤ k} k) ∧
    (∀ p, (offsetAt? t p = none ↔ t.count '\n' < p.line) ∧
      ∀ o, offsetAt? t p = some o → TakenFor t p o ∧ (positionAt t o = p ↔ IsPlace t p)) ∧
    (∀ m n, m ≤ n → (positionAt t m).upTo (positionAt t n)) ∧
    (∀ p q : Position, p.upTo q → offsetAt t p ≤ offsetAt t q) ∧
    ∀ n, (positionAt t n).line ≤ bytes t ∧ (positionAt t n).character ≤ bytes t := by
  refine ⟨fun n => ?_, fun p => ⟨?_, fun o ho => ?_⟩, fun m n => positionAt_upTo t,
    fun p q => offsetAt_mono, positionAt_le_bytes t⟩
  · exact ⟨_, offsetAt?_positionAt t n, isLeast_bytes_takeBytes n t⟩
  · rw [offsetAt?, Option.map_eq_none_iff]
    exact lineFrom_eq_none_iff
  · exact ⟨takenFor_of_offsetAt? ho, positionAt_eq_iff_isPlace ho⟩

/-- A position inside a character of two units is taken for the end of that character. -/
theorem positions_and_offsets_inverse_surrogate :
    let t : Text := "a😀\r\nb".toList
    offsetAt? t ⟨0, 2⟩ = some 5 ∧ TakenFor t ⟨0, 2⟩ 5 ∧ ¬ IsPlace t ⟨0, 2⟩ := by
  intro t
  have hoffset : offsetAt? t ⟨0, 2⟩ = some 5 := by decide +kernel
  have hplace : positionAt t 5 ≠ ⟨0, 2⟩ := by decide +kernel
  obtain ⟨-, hpositions, -⟩ := positions_and_offsets_inverse t
  obtain ⟨htaken, hiff⟩ := (hpositions ⟨0, 2⟩).2 5 hoffset
  exact ⟨hoffset, htaken, fun h => hplace (hiff.2 h)⟩

end Mosaic
