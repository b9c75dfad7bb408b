import Mosaic.Proofs.Boundary
import Mosaic.Style.Comment

/-!
# Masked comments

Masking a comment puts a space in the place of each of its bytes, and so whatever is no space in the
masked text is at the same offset of the text itself.

* `Style.Masks` — a text, and the same text with some characters masked.
* `Style.masks_maskComments` — the text with its comments masked.
* `Style.Masks.split`, `Style.Masks.split_word` — what is no space is there in the text itself.
-/

namespace Mosaic.Style

open Text

/-- The second text is the first one with spaces in the place of some characters, one for each
byte. -/
inductive Masks : Text → Text → Prop where
  | nil : Masks [] []
  | keep {c : Char} {t m : Text} : Masks t m → Masks (c :: t) (c :: m)
  | blank {c : Char} {t m : Text} : Masks t m → Masks (c :: t) (blanksFor c ++ m)

variable {t m a b w : Text} {c : Char}

lemma bytes_replicate_blank (n : Nat) : bytes (List.replicate n ' ') = n := by
  induction n with
  | zero => rfl
  | succ n ih =>
    rw [List.replicate_succ, bytes_cons, ih]
    exact Nat.add_comm 1 n

/-! ## Comments -/

/-- Comments are masked, from any state of the reader on. -/
theorem masks_maskFrom (s : CommentState) (t : Text) (hopening : s = .opening → t.head? = some '*')
    (hclosing : s = .closing → t.head? = some '/') : Masks t (maskFrom s t) := by
  fun_induction maskFrom s t with
  | case1 s => exact .nil
  | case2 c r hc ih =>
    obtain ⟨rfl, hr⟩ := hc
    exact .blank (ih (fun _ => hr) nofun)
  | case3 c r hc ih => exact .keep (ih nofun nofun)
  | case4 c r ih =>
    obtain rfl : c = '*' := by simpa using hopening
    exact .blank (ih nofun nofun)
  | case5 c r hc ih =>
    obtain ⟨rfl, hr⟩ := hc
    exact .blank (ih nofun fun _ => hr)
  | case6 c r hc ih => exact .blank (ih nofun nofun)
  | case7 c r ih =>
    obtain rfl : c = '/' := by simpa using hclosing
    exact .blank (ih nofun nofun)

/-- **A text, and the same text with its comments masked.** -/
theorem masks_maskComments (t : Text) : Masks t (maskComments t) :=
  masks_maskFrom .outside t nofun nofun

/-! ## What is left -/

namespace Masks

/-- Masking leaves the length as it is. -/
lemma bytes_eq (h : Masks t m) : bytes m = bytes t := by
  induction h with
  | nil => rfl
  | keep _ ih => rw [bytes_cons, bytes_cons, ih]
  | blank _ ih => rw [bytes_append, bytes_cons, ih, blanksFor, bytes_replicate_blank]

/-- **What is no space in the masked text is there in the text itself**, at the same offset. -/
theorem split (h : Masks t (a ++ c :: b)) (hc : c ≠ ' ') :
    ∃ x y, t = x ++ c :: y ∧ Masks x a ∧ Masks y b := by
  generalize hm : a ++ c :: b = m at h
  induction h generalizing a with
  | nil => simp at hm
  | @keep d t m h ih =>
    cases a with
    | nil =>
      obtain ⟨rfl, rfl⟩ : c = d ∧ b = m := by simpa using hm
      exact ⟨[], t, rfl, .nil, h⟩
    | cons e a =>
      obtain ⟨rfl, hrest⟩ : e = d ∧ a ++ c :: b = m := by simpa using hm
      obtain ⟨x, y, rfl, hx, hy⟩ := ih hrest
      exact ⟨e :: x, y, rfl, .keep hx, hy⟩
  | @blank d t m h ih =>
    -- the character is none of the spaces that stand for the masked one
    obtain ⟨a', rfl, hrest⟩ : ∃ a', a = blanksFor d ++ a' ∧ m = a' ++ c :: b := by
      rcases List.append_eq_append_iff.1 hm with ⟨z, hz, hcb⟩ | ⟨z, ha, hcb⟩
      · cases z with
        | nil => exact ⟨[], by simpa using hz.symm, hcb.symm⟩
        | cons e z =>
          obtain ⟨rfl, -⟩ : c = e ∧ b = z ++ m := by simpa using hcb
          have hmem : c ∈ blanksFor d := by simp [hz]
          exact absurd (List.eq_of_mem_replicate hmem) hc
      · exact ⟨z, ha, hcb⟩
    obtain ⟨x, y, rfl, hx, hy⟩ := ih hrest.symm
    exact ⟨d :: x, y, rfl, .blank hx, hy⟩

lemma eq_nil (h : Masks t []) : t = [] :=
  eq_nil_of_bytes h.bytes_eq.symm

/-- A word without spaces is there in the text itself, at the same offset. -/
theorem split_word (h : Masks t (a ++ (w ++ b))) (hne : w ≠ []) (hw : ' ' ∉ w) :
    ∃ x y, t = x ++ (w ++ y) ∧ Masks x a ∧ Masks y b := by
  induction w generalizing t a with
  | nil => exact absurd rfl hne
  | cons c w ih =>
    obtain ⟨hc, hw⟩ : ¬ ' ' = c ∧ ' ' ∉ w := by simpa using hw
    obtain ⟨x, y, rfl, hx, hy⟩ := h.split (Ne.symm hc)
    cases w with
    | nil => exact ⟨x, y, rfl, hx, hy⟩
    | cons d w =>
      obtain ⟨z, y', rfl, hz, hy'⟩ := ih (a := []) hy (by simp) hw
      obtain rfl := hz.eq_nil
      exact ⟨x, y', rfl, hx, hy'⟩

end Masks

end Mosaic.Style
