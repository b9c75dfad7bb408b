import Mosaic.Proofs.EditSession
import Mosaic.Proofs.Embedding
import Mosaic.Protocol.Edit
import Mosaic.Text.Span

/-!
# Edits of one text

The edits of one answer are all edits of the text as it is: their ranges are read before any of them
is made.  `Text.replaceFrom` makes them, going once through the text, and copies what is between
them.

* `Text.replaceFrom_of_le` — up to the first span the text is copied.
* `Text.replaceFrom_part` — spans in a part of a text are replaced in the part.
* `Text.replaceFrom_parts` — spans in several parts of a text are replaced by replacing the parts.
* `Text.applyEdits_singleton` — a single edit is a change of the text.
-/

namespace Mosaic

/-- A span of a text, and what takes its place. -/
structure Replacement where
  span : Span
  text : Text
  deriving DecidableEq, Repr

/-- The replacement of a span that is further behind. -/
def Replacement.shift (n : Nat) (x : Replacement) : Replacement :=
  ⟨⟨n + x.span.start, n + x.span.stop⟩, x.text⟩

namespace Text

/-- The text from offset `n` on, with some spans of it replaced, the first one first. -/
def replaceFrom (t : Text) : Nat → List Replacement → Text
  | n, [] => dropBytes n t
  | n, x :: xs => slice n x.span.start t ++ (x.text ++ replaceFrom t x.span.stop xs)

/-- The replacements are of spans between characters of the text, one behind the other. -/
structure Replaces (t : Text) (xs : List Replacement) : Prop where
  isBoundary : ∀ x ∈ xs, IsBoundary t x.span.start ∧ IsBoundary t x.span.stop
  le : ∀ x ∈ xs, x.span.start ≤ x.span.stop
  pairwise : xs.Pairwise fun x y => x.span.stop ≤ y.span.start

variable {t b : Text} {x : Replacement} {xs ys : List Replacement} {m n k : Nat}

lemma Replaces.tail (h : Replaces t (x :: xs)) : Replaces t xs where
  isBoundary y hy := h.isBoundary y (by simp [hy])
  le y hy := h.le y (by simp [hy])
  pairwise := h.pairwise.of_cons

/-! ## What is copied -/

/-- Two slices that meet are one. -/
lemma slice_append_slice (hm : IsBoundary t m) (hn : IsBoundary t n) (hk : IsBoundary t k)
    (hmn : m ≤ n) (hnk : n ≤ k) : slice m n t ++ slice n k t = slice m k t := by
  obtain ⟨a, mid, c, rfl, rfl, rfl⟩ := hm.parts hk (hmn.trans hnk)
  obtain ⟨j, rfl⟩ := Nat.exists_eq_add_of_le hmn
  obtain ⟨x, y, rfl, rfl⟩ := hn.of_shift (by omega)
  have hleft : slice (bytes a) (bytes a + bytes x) (a ++ (x ++ y ++ c)) = x := by
    rw [List.append_assoc x y c, slice_parts]
  have hright : slice (bytes a + bytes x) (bytes a + bytes (x ++ y)) (a ++ (x ++ y ++ c)) = y := by
    have hwhole : a ++ (x ++ y ++ c) = (a ++ x) ++ (y ++ c) := by simp
    rw [hwhole, bytes_append, ← Nat.add_assoc, ← bytes_append, slice_parts]
  rw [hleft, hright, slice_parts]

/-- A slice, and what is behind it. -/
lemma slice_append_dropBytes (hm : IsBoundary t m) (hn : IsBoundary t n) (h : m ≤ n) :
    slice m n t ++ dropBytes n t = dropBytes m t := by
  obtain ⟨a, mid, c, rfl, rfl, rfl⟩ := hm.parts hn h
  rw [slice_parts, dropBytes_parts, dropBytes_bytes_append]

/-- A slice of a text behind a boundary of its part, up to the end of the part. -/
lemma slice_part_dropBytes (a c : Text) (hn : IsBoundary b n) :
    slice (bytes a + n) (bytes a + bytes b) (a ++ (b ++ c)) = dropBytes n b := by
  rw [slice_inside a c hn (.full b) hn.le]
  obtain ⟨x, y, rfl, rfl⟩ := hn
  have h := slice_parts x y []
  rw [List.append_nil] at h
  rw [bytes_append, h, dropBytes_bytes_append]

/-- **Up to the first span the text is copied.** -/
theorem replaceFrom_of_le (h : Replaces t xs) (hn : IsBoundary t n) (hm : IsBoundary t m)
    (hnm : n ≤ m) (hle : ∀ x ∈ xs, m ≤ x.span.start) :
    replaceFrom t n xs = slice n m t ++ replaceFrom t m xs := by
  cases xs with
  | nil => exact (slice_append_dropBytes hn hm hnm).symm
  | cons x xs =>
    have hx := (h.isBoundary x (by simp)).1
    rw [replaceFrom, replaceFrom, ← List.append_assoc (slice n m t),
      slice_append_slice hn hm hx hnm (hle x (by simp))]

/-- **Spans in a part of a text are replaced in the part**, and what is replaced behind the part
does not matter. -/
theorem replaceFrom_part (a c : Text) (hxs : Replaces b xs) (hn : IsBoundary b n)
    (hle : ∀ x ∈ xs, n ≤ x.span.start) (hys : Replaces (a ++ (b ++ c)) ys)
    (hbehind : ∀ y ∈ ys, bytes a + bytes b ≤ y.span.start) :
    replaceFrom (a ++ (b ++ c)) (bytes a + n) (xs.map (Replacement.shift (bytes a)) ++ ys)
      = replaceFrom b n xs ++ replaceFrom (a ++ (b ++ c)) (bytes a + bytes b) ys := by
  induction xs generalizing n with
  | nil =>
    have hend : IsBoundary (a ++ (b ++ c)) (bytes a + bytes b) := (IsBoundary.full b).shift a c
    rw [List.map_nil, List.nil_append, replaceFrom,
      replaceFrom_of_le hys (hn.shift a c) hend (Nat.add_le_add_left hn.le _) hbehind,
      slice_part_dropBytes a c hn]
  | cons x xs ih =>
    obtain ⟨hstart, hstop⟩ := hxs.isBoundary x (by simp)
    rw [List.map_cons, List.cons_append, replaceFrom, replaceFrom]
    simp only [Replacement.shift]
    rw [slice_inside a c hn hstart (hle x (by simp)),
      ih hxs.tail hstop (List.pairwise_cons.1 hxs.pairwise).1]
    simp only [List.append_assoc]

/-! ## Parts -/

section Parts

variable {ι : Type} {items : List ι} {pos : ι → Nat} {part : ι → Text}
  {inside : ι → List Replacement}

/-- Some parts of a text, one behind the other, each with the offset at which it starts. -/
structure HasParts (t : Text) (items : List ι) (pos : ι → Nat) (part : ι → Text) : Prop where
  occurs : ∀ i ∈ items, ∃ a c, t = a ++ (part i ++ c) ∧ bytes a = pos i
  pairwise : items.Pairwise fun i j => pos i + bytes (part i) ≤ pos j

lemma HasParts.tail {i : ι} (h : HasParts t (i :: items) pos part) :
    HasParts t items pos part where
  occurs j hj := h.occurs j (by simp [hj])
  pairwise := h.pairwise.of_cons

lemma HasParts.isBoundary {i : ι} (h : HasParts t items pos part) (hi : i ∈ items)
    (hn : IsBoundary (part i) n) : IsBoundary t (pos i + n) := by
  obtain ⟨a, c, rfl, ha⟩ := h.occurs i hi
  rw [← ha]
  exact hn.shift a c

/-- Replacements in the parts are replacements in the whole text. -/
lemma HasParts.replaces (h : HasParts t items pos part)
    (hinside : ∀ i ∈ items, Replaces (part i) (inside i)) :
    Replaces t (items.flatMap fun i => (inside i).map (Replacement.shift (pos i))) := by
  have hmem {x : Replacement}
      (hx : x ∈ items.flatMap fun i => (inside i).map (Replacement.shift (pos i))) :
      ∃ i ∈ items, ∃ y ∈ inside i, y.shift (pos i) = x := by simpa using hx
  refine ⟨fun x hx => ?_, fun x hx => ?_, List.pairwise_flatMap.2 ⟨fun i hi => ?_, ?_⟩⟩
  · obtain ⟨i, hi, y, hy, rfl⟩ := hmem hx
    obtain ⟨hstart, hstop⟩ := (hinside i hi).isBoundary y hy
    exact ⟨h.isBoundary hi hstart, h.isBoundary hi hstop⟩
  · obtain ⟨i, hi, y, hy, rfl⟩ := hmem hx
    exact Nat.add_le_add_left ((hinside i hi).le y hy) _
  · exact List.pairwise_map.2 ((hinside i hi).pairwise.imp fun hle => Nat.add_le_add_left hle _)
  · refine h.pairwise.imp_of_mem fun {i j} hi hj hij x hx y hy => ?_
    obtain ⟨x, hmem, rfl⟩ := List.mem_map.1 hx
    obtain ⟨y, -, rfl⟩ := List.mem_map.1 hy
    have hend := ((hinside i hi).isBoundary x hmem).2.le
    simp only [Replacement.shift]
    omega

/-- **Spans in several parts of a text are replaced by replacing the parts.** -/
theorem replaceFrom_parts (h : HasParts t items pos part)
    (hinside : ∀ i ∈ items, Replaces (part i) (inside i)) (hn : IsBoundary t n)
    (hle : ∀ i ∈ items, n ≤ pos i) :
    replaceFrom t n (items.flatMap fun i => (inside i).map (Replacement.shift (pos i)))
      = replaceFrom t n (items.map fun i =>
          ⟨⟨pos i, pos i + bytes (part i)⟩, replaceFrom (part i) 0 (inside i)⟩) := by
  induction items generalizing n with
  | nil => rfl
  | cons i items ih =>
    have hparts := h.tail
    have hrest (j : ι) (hj : j ∈ items) : Replaces (part j) (inside j) := hinside j (by simp [hj])
    have hnext := (List.pairwise_cons.1 h.pairwise).1
    have hstart := h.isBoundary (List.mem_cons_self) (.zero (part i))
    have hstop := h.isBoundary (List.mem_cons_self) (.full (part i))
    -- what is replaced in the later parts is behind this one
    have hbehind : ∀ x ∈ items.flatMap fun j => (inside j).map (Replacement.shift (pos j)),
        pos i + bytes (part i) ≤ x.span.start := by
      intro x hx
      obtain ⟨j, hj, y, -, rfl⟩ : ∃ j ∈ items, ∃ y ∈ inside j, y.shift (pos j) = x := by
        simpa using hx
      exact (hnext j hj).trans (Nat.le_add_right ..)
    have hfirst : ∀ x ∈ (i :: items).flatMap fun j => (inside j).map (Replacement.shift (pos j)),
        pos i ≤ x.span.start := by
      intro x hx
      rw [List.flatMap_cons, List.mem_append, List.mem_map] at hx
      rcases hx with ⟨y, -, rfl⟩ | hx
      · exact Nat.le_add_right ..
      · exact (Nat.le_add_right ..).trans (hbehind x hx)
    rw [replaceFrom_of_le (h.replaces hinside) hn hstart (hle i (by simp)) hfirst, List.map_cons,
      replaceFrom, ← ih hparts hrest hstop hnext, List.flatMap_cons]
    obtain ⟨a, c, rfl, ha⟩ := h.occurs i (by simp)
    have hpart := replaceFrom_part a c (hinside i (by simp)) (.zero _) (fun _ _ => Nat.zero_le _)
      (hparts.replaces hrest) (ha ▸ hbehind)
    rw [ha, Nat.add_zero] at hpart
    rw [Nat.add_zero, hpart]

end Parts

/-! ## Edits -/

/-- An edit of a text, by the span that its range denotes. -/
def replacementOf (t : Text) (edit : TextEdit) : Replacement :=
  ⟨⟨(spanOf t edit.range).1, (spanOf t edit.range).2⟩, edit.newText.toList⟩

/-- The text after some edits of it, which come in the order of their ranges. -/
def applyEdits (t : Text) (edits : List TextEdit) : Text :=
  replaceFrom t 0 (edits.map (replacementOf t))

/-- A single edit is a change of the text. -/
theorem applyEdits_singleton (t : Text) (edit : TextEdit) :
    applyEdits t [edit] = Change.apply t ⟨some edit.range, edit.newText.toList⟩ := by
  simp only [applyEdits, replacementOf, Change.apply, splice, replaceFrom, slice, List.map_cons,
    List.map_nil, Nat.sub_zero, dropBytes, List.append_assoc]

end Text

end Mosaic
