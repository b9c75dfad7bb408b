import Mathlib
import Mosaic.Markup.Token

/-!
# Letter case in texts

Lowering a text changes its capital ASCII letters and nothing else: no length, no white space and no
punctuation.  So whatever is read off a text without regard to its letters can as well be read off
the lowered text.

* `IgnoresCase` — what can be read off a character without regard to case; it is enough to look at
  the capitals (`IgnoresCase.of_capitals`).
* `toLower_eq_iff` — what is no letter comes from itself only.
* `Text.takeWhile_lower`, `Text.trim_lower`, `Text.breakAt_lower`, `Text.slice_lower` — lowering
  commutes with what cuts a text.
* `Text.sameIgnoringCase_lower`, `Text.startsIgnoringCase_lower` — comparisons do not see it.
-/

namespace Mosaic

/-! ## Characters -/

/-- The capital ASCII letters. -/
def capitals : List Char :=
  (List.range 26).map fun n => Char.ofNat ('A'.toNat + n)

/-- Only capitals are changed. -/
lemma toLower_eq_self_or_mem_capitals (c : Char) : c.toLower = c ∨ c ∈ capitals := by
  by_cases hc : c.isUpper
  · have hbounds : 65 ≤ c.toNat ∧ c.toNat ≤ 90 := by
      simp only [Char.isUpper, ge_iff_le, decide_eq_true_eq, UInt32.le_iff_toNat_le] at hc
      exact hc
    refine Or.inr (List.mem_map.2 ⟨c.toNat - 65, List.mem_range.2 (by omega), ?_⟩)
    have hsum : 'A'.toNat + (c.toNat - 65) = c.toNat := Nat.add_sub_of_le hbounds.1
    rw [hsum, Char.ofNat_toNat]
  · exact Or.inl (Char.toLower_eq_of_not_isUpper hc)

/-- What is read off a character is the same for a capital and its small letter. -/
def IgnoresCase {α : Type} (f : Char → α) : Prop :=
  ∀ c, f c.toLower = f c

lemma IgnoresCase.of_capitals {α : Type} {f : Char → α}
    (h : capitals.map (fun c => f c.toLower) = capitals.map f) : IgnoresCase f := by
  intro c
  rcases toLower_eq_self_or_mem_capitals c with hc | hc
  · rw [hc]
  · exact List.map_inj_left.1 h c hc

/-- A character that is no letter comes from itself only. -/
lemma toLower_eq_iff {c x : Char} (hx : ¬ x.isAlpha) : c.toLower = x ↔ c = x := by
  have hself {d : Char} (hd : ¬ d.isAlpha) : d.toLower = d := by
    refine Char.toLower_eq_of_not_isUpper fun hu => hd ?_
    rw [Char.isAlpha, hu, Bool.true_or]
  constructor
  · rintro rfl
    rw [Char.isAlpha_toLower_eq_isAlpha] at hx
    exact (hself hx).symm
  · rintro rfl
    exact hself hx

lemma toLower_beq {x : Char} (hx : ¬ x.isAlpha) (c : Char) : (c.toLower == x) = (c == x) :=
  Bool.eq_iff_iff.2 (by rw [beq_iff_eq, beq_iff_eq, toLower_eq_iff hx])

lemma ignoresCase_utf8Size : IgnoresCase Char.utf8Size := .of_capitals (by decide)

lemma ignoresCase_isBlank : IgnoresCase isBlank := .of_capitals (by decide)

lemma ignoresCase_isMarkupBlank : IgnoresCase isMarkupBlank := .of_capitals (by decide)

lemma ignoresCase_dash : IgnoresCase (· == '-') := toLower_beq (by decide)

namespace Markup

lemma ignoresCase_isTagInitial : IgnoresCase isTagInitial := .of_capitals (by decide)

lemma ignoresCase_isNameChar : IgnoresCase isNameChar := .of_capitals (by decide)

lemma ignoresCase_isAttributeNameChar : IgnoresCase isAttributeNameChar :=
  .of_capitals (by decide)

lemma ignoresCase_isBareValueChar : IgnoresCase isBareValueChar :=
  .of_capitals (by decide)

lemma ignoresCase_isStrayChar : IgnoresCase isStrayChar := .of_capitals (by decide)

end Markup

/-! ## Texts -/

namespace Text

variable {p : Char → Bool} {x : Char} {t : Text}

@[simp] lemma lower_nil : lower [] = [] := rfl

@[simp] lemma lower_cons (c : Char) (r : Text) : lower (c :: r) = c.toLower :: lower r := rfl

@[simp] lemma lower_append (a b : Text) : lower (a ++ b) = lower a ++ lower b := List.map_append

@[simp] lemma lower_lower (t : Text) : lower (lower t) = lower t := by
  simp [lower, Function.comp_def, Char.toLower_toLower_eq_toLower]

@[simp] lemma length_lower (t : Text) : (lower t).length = t.length := List.length_map ..

@[simp] lemma lower_eq_nil : lower t = [] ↔ t = [] := List.map_eq_nil_iff

@[simp] lemma isEmpty_lower (t : Text) : (lower t).isEmpty = t.isEmpty := List.isEmpty_map

@[simp] lemma bytes_lower (t : Text) : bytes (lower t) = bytes t := by
  induction t with
  | nil => rfl
  | cons c r ih => rw [lower_cons, bytes_cons, bytes_cons, ih, ignoresCase_utf8Size]

lemma mem_lower_iff (hx : ¬ x.isAlpha) : x ∈ lower t ↔ x ∈ t := by
  simp [lower, toLower_eq_iff hx]

/-! ### Cuts -/

lemma drop_lower (n : Nat) (t : Text) : (lower t).drop n = lower (t.drop n) := List.map_drop.symm

lemma take_lower (n : Nat) (t : Text) : (lower t).take n = lower (t.take n) := List.map_take.symm

lemma reverse_lower (t : Text) : (lower t).reverse = lower t.reverse := List.map_reverse.symm

lemma takeWhile_lower (hp : IgnoresCase p) (t : Text) :
    (lower t).takeWhile p = lower (t.takeWhile p) := by
  rw [lower, List.takeWhile_map, show p ∘ Char.toLower = p from funext hp]
  rfl

lemma dropWhile_lower (hp : IgnoresCase p) (t : Text) :
    (lower t).dropWhile p = lower (t.dropWhile p) := by
  rw [lower, List.dropWhile_map, show p ∘ Char.toLower = p from funext hp]
  rfl

lemma trimStart_lower (t : Text) : trimStart (lower t) = lower (trimStart t) :=
  dropWhile_lower ignoresCase_isBlank t

lemma trim_lower (t : Text) : trim (lower t) = lower (trim t) := by
  rw [trim, trim, trimStart_lower, trimEnd, trimEnd, reverse_lower,
    dropWhile_lower ignoresCase_isBlank, reverse_lower]

/-- A text is broken where the lowered text is, if the places to break it correspond. -/
lemma breakAt_lower {found found' : Text → Bool} (hfound : ∀ t, found' (lower t) = found t)
    (t : Text) :
    breakAt found' (lower t) = (lower (breakAt found t).1, lower (breakAt found t).2) := by
  induction t with
  | nil => rfl
  | cons c r ih =>
    have hhere := hfound (c :: r)
    rw [lower_cons] at hhere ⊢
    rw [breakAt, breakAt, hhere, ih]
    split
    · rfl
    · rfl

lemma takeBytes_lower (n : Nat) (t : Text) : takeBytes n (lower t) = lower (takeBytes n t) := by
  fun_induction takeBytes n t with
  | case1 => simp [takeBytes]
  | case2 => rfl
  | case3 n c r ih => rw [lower_cons, lower_cons, takeBytes, ignoresCase_utf8Size, ih]

lemma dropBytes_lower (n : Nat) (t : Text) : dropBytes n (lower t) = lower (dropBytes n t) := by
  fun_induction dropBytes n t with
  | case1 => simp [dropBytes]
  | case2 => rfl
  | case3 n c r ih => rw [lower_cons, dropBytes, ignoresCase_utf8Size, ih]

lemma slice_lower (start stop : Nat) (t : Text) :
    slice start stop (lower t) = lower (slice start stop t) := by
  rw [slice, slice, dropBytes_lower, takeBytes_lower]

/-! ### What a text starts with -/

lemma head?_lower (hx : ¬ x.isAlpha) : (lower t).head? = some x ↔ t.head? = some x := by
  cases t with
  | nil => simp
  | cons c r => simp [toLower_eq_iff hx]

lemma getLast?_lower (hx : ¬ x.isAlpha) : (lower t).getLast? = some x ↔ t.getLast? = some x := by
  rw [lower, List.getLast?_map]
  cases t.getLast? with
  | none => simp
  | some c => simp [toLower_eq_iff hx]

lemma any_head?_lower (hp : IgnoresCase p) (t : Text) :
    (lower t).head?.any p = t.head?.any p := by
  cases t with
  | nil => rfl
  | cons c r => simp [hp c]

lemma isPrefixOf_lower (mark : Text) (h : mark.any Char.isAlpha = false) (t : Text) :
    mark.isPrefixOf (lower t) = mark.isPrefixOf t := by
  induction mark generalizing t with
  | nil => rfl
  | cons c mark ih =>
    cases t with
    | nil => rfl
    | cons d r =>
      rw [List.any_cons, Bool.or_eq_false_iff] at h
      have hc : (c == d.toLower) = (c == d) := by
        rw [BEq.comm, toLower_beq (by simp [h.1]), BEq.comm]
      rw [lower_cons, List.isPrefixOf, List.isPrefixOf, hc, ih h.2]

lemma sameIgnoringCase_iff {a b : Text} : sameIgnoringCase a b ↔ lower a = lower b := by
  rw [sameIgnoringCase, beq_iff_eq]

/-- Comparisons do not see whether texts are lowered. -/
lemma sameIgnoringCase_lower (a b : Text) :
    sameIgnoringCase (lower a) (lower b) = sameIgnoringCase a b := by
  rw [sameIgnoringCase, sameIgnoringCase, lower_lower, lower_lower]

lemma sameIgnoringCase_lower_left (a b : Text) :
    sameIgnoringCase (lower a) b = sameIgnoringCase a b := by
  rw [sameIgnoringCase, sameIgnoringCase, lower_lower]

lemma startsIgnoringCase_lower_right (mark t : Text) :
    startsIgnoringCase mark (lower t) = startsIgnoringCase mark t := by
  rw [startsIgnoringCase, startsIgnoringCase, take_lower, sameIgnoringCase, sameIgnoringCase,
    lower_lower]

lemma startsIgnoringCase_lower (mark t : Text) :
    startsIgnoringCase (lower mark) (lower t) = startsIgnoringCase mark t := by
  rw [startsIgnoringCase_lower_right, startsIgnoringCase, startsIgnoringCase, length_lower,
    sameIgnoringCase_lower_left]

end Text

end Mosaic
