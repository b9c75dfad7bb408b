import Mathlib
import Mosaic.Text.Position

/-!
# Offsets between characters

An offset that falls inside a character cannot be the end of anything that is read out of a text.
`Text.IsBoundary` are the offsets that do not.

* `Text.isBoundary_iff` — an offset is a boundary exactly when the cut there has that length.
* `Text.IsBoundary.parts` — two boundaries divide a text into three parts.
* `Text.slice_parts`, `Text.slice_inside`, `Text.bytes_slice` — between two boundaries the slice is
  the middle part, the same in a part of the text, and as long as it should be.
* `Text.bytes_takeBytes_mono` — cuts never go back, wherever the offsets fall.
-/

namespace Mosaic.Text

/-- The offset stands between two characters of the text, or at one of its ends. -/
def IsBoundary (t : Text) (n : Nat) : Prop :=
  ∃ a b, t = a ++ b ∧ bytes a = n

lemma bytes_pos {t : Text} (h : t ≠ []) : 0 < bytes t := by
  cases t with
  | nil => exact absurd rfl h
  | cons c r =>
    have := c.utf8Size_pos
    rw [bytes_cons]
    omega

lemma eq_nil_of_bytes {t : Text} (h : bytes t = 0) : t = [] := by
  by_contra hne
  have := bytes_pos hne
  omega

lemma IsBoundary.zero (t : Text) : IsBoundary t 0 := ⟨[], t, rfl, rfl⟩

lemma IsBoundary.full (t : Text) : IsBoundary t (bytes t) := ⟨t, [], by simp, rfl⟩

lemma IsBoundary.le {t : Text} {n : Nat} (h : IsBoundary t n) : n ≤ bytes t := by
  obtain ⟨a, b, rfl, rfl⟩ := h
  simp

/-- A boundary is in front of a character, or at the end. -/
lemma IsBoundary.exists_take {t : Text} {n : Nat} (h : IsBoundary t n) :
    ∃ k ≤ t.length, n = bytes (t.take k) := by
  obtain ⟨a, b, rfl, rfl⟩ := h
  exact ⟨a.length, by simp, by rw [List.take_left]⟩

lemma IsBoundary.max {t : Text} {m n : Nat} (hm : IsBoundary t m) (hn : IsBoundary t n) :
    IsBoundary t (max m n) := by
  rcases max_choice m n with h | h
  · rwa [h]
  · rwa [h]

/-- A boundary of a later part is a boundary of the whole, as far behind as the part starts. -/
lemma IsBoundary.shift {b : Text} {n : Nat} (a c : Text) (h : IsBoundary b n) :
    IsBoundary (a ++ (b ++ c)) (bytes a + n) := by
  obtain ⟨x, y, rfl, rfl⟩ := h
  exact ⟨a ++ x, y ++ c, by simp, bytes_append a x⟩

/-! ## Cuts -/

/-- A cut at a boundary has the length of its offset, and no other cut does. -/
theorem isBoundary_iff {t : Text} {n : Nat} : IsBoundary t n ↔ bytes (takeBytes n t) = n := by
  constructor
  · rintro ⟨a, b, rfl, rfl⟩
    rw [takeBytes_bytes_append]
  · intro h
    exact ⟨takeBytes n t, dropBytes n t, (takeBytes_append_dropBytes n t).symm, h⟩

/-- A later cut keeps at least as much. -/
theorem bytes_takeBytes_mono {m n : Nat} (h : m ≤ n) (t : Text) :
    bytes (takeBytes m t) ≤ bytes (takeBytes n t) := by
  induction t generalizing m n with
  | nil => cases m <;> cases n <;> simp [takeBytes]
  | cons c r ih =>
    cases m with
    | zero => simp [takeBytes]
    | succ m =>
      obtain ⟨k, rfl⟩ : ∃ k, n = k + 1 := ⟨n - 1, by omega⟩
      have := ih (m := m + 1 - c.utf8Size) (n := k + 1 - c.utf8Size) (by omega)
      simp only [takeBytes, bytes_cons]
      omega

/-- Two boundaries in order divide a text into three parts. -/
theorem IsBoundary.parts {t : Text} {m n : Nat} (hm : IsBoundary t m) (hn : IsBoundary t n)
    (h : m ≤ n) : ∃ a mid b, t = a ++ (mid ++ b) ∧ bytes a = m ∧ bytes a + bytes mid = n := by
  obtain ⟨a, x, rfl, rfl⟩ := hm
  obtain ⟨a', y, he, rfl⟩ := hn
  rcases List.append_eq_append_iff.1 he with ⟨mid, rfl, rfl⟩ | ⟨mid, rfl, rfl⟩
  · exact ⟨a, mid, y, rfl, rfl, (bytes_append a mid).symm⟩
  · -- the second boundary is no earlier, so nothing stands between the two
    have hz : mid = [] := eq_nil_of_bytes (by rw [bytes_append] at h; omega)
    subst hz
    exact ⟨a', [], x, by simp, by simp, by simp⟩

/-- A text is divided in one way only at an offset. -/
lemma append_inj_of_bytes {a a' b b' : Text} (h : a ++ b = a' ++ b') (ha : bytes a = bytes a') :
    a = a' ∧ b = b' := by
  have hfront : a = a' := by
    rw [← takeBytes_bytes_append a b, h, ha, takeBytes_bytes_append]
  exact ⟨hfront, List.append_cancel_left (hfront ▸ h)⟩

/-- The slice between two boundaries is the part between them. -/
lemma slice_parts (a mid b : Text) :
    slice (bytes a) (bytes a + bytes mid) (a ++ (mid ++ b)) = mid := by
  rw [slice, dropBytes_bytes_append, Nat.add_sub_cancel_left, takeBytes_bytes_append]

/-- A slice of a part of a text. -/
lemma slice_inside (a c : Text) {b : Text} {m n : Nat} (hm : IsBoundary b m)
    (hn : IsBoundary b n) (h : m ≤ n) :
    slice (bytes a + m) (bytes a + n) (a ++ (b ++ c)) = slice m n b := by
  obtain ⟨x, mid, y, rfl, rfl, rfl⟩ := hm.parts hn h
  have hwhole : a ++ (x ++ (mid ++ y) ++ c) = (a ++ x) ++ (mid ++ (y ++ c)) := by simp
  rw [slice_parts, hwhole, ← Nat.add_assoc, ← bytes_append, slice_parts]

/-- A slice between two boundaries is as long as they are apart. -/
lemma bytes_slice {t : Text} {m n : Nat} (hm : IsBoundary t m) (hn : IsBoundary t n) (h : m ≤ n) :
    bytes (slice m n t) = n - m := by
  obtain ⟨a, mid, b, rfl, rfl, rfl⟩ := hm.parts hn h
  rw [slice_parts]
  omega

/-- A boundary of the slice between two boundaries is a boundary of the whole text. -/
lemma IsBoundary.of_slice {t : Text} {m n k : Nat} (hm : IsBoundary t m) (hn : IsBoundary t n)
    (h : m ≤ n) (hk : IsBoundary (slice m n t) k) : IsBoundary t (m + k) := by
  obtain ⟨a, mid, b, rfl, rfl, rfl⟩ := hm.parts hn h
  rw [slice_parts] at hk
  exact hk.shift a b

end Mosaic.Text
