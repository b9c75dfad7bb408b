import Mosaic.Proofs.ByteText
import Mosaic.Proofs.RuleForest

/-!
# Masking comments in place

Comments are masked in a copy of the bytes of a text: a loop looks for `/*`, finds the next `*/`
in the text itself, and fills all from the one through the other with spaces.  The copy is UTF-8
when the loop is done, and what is read from it stands between characters of the text.

* `Style.maskBytes?`, `Style.maskText?` — the loop, which fails where it would cut a character.
* `Style.maskBytes?_utf8` — it does not fail, and the copy is the masked text.
* `Style.utf8_maskComments` — each byte of a comment is a space, and all others are as they were.
* `Style.no_opener_maskFrom`, `Style.maskComments_idem` — nothing is left to mask.
* `Style.betweenChars_ofTrimmed` — what is read of a masked text is between characters of the text.
* `Style.masking_faithful` — all of this.
-/

namespace Mosaic.Style

open Text Utf8

variable {t m a b w r : Text} {c : Char} {n i k : Nat}

/-! ## The loop over the bytes -/

/-- The bytes with those between two offsets made spaces. -/
def fillBytes (start stop : Nat) (bs : List UInt8) : List UInt8 :=
  bs.take start ++ List.replicate (stop - start) 32 ++ bs.drop stop

lemma length_fillBytes {bs : List UInt8} {start stop : Nat} (h : start ≤ stop)
    (hstop : stop ≤ bs.length) : (fillBytes start stop bs).length = bs.length := by
  simp only [fillBytes, List.length_append, List.length_take, List.length_replicate,
    List.length_drop]
  omega

/-- Where the comment ends that is opened at an offset, its text being what follows `/*`. -/
def commentStop (i length : Nat) (rest : List UInt8) : Nat :=
  match search? ([42, 47].isPrefixOf ·) rest with
  | none => length
  | some n => i + 2 + n + 2

/-- Masks the comments from an offset on in a copy of the bytes of a source.  There is no result
if the source would be cut within a character, or the copy be filled behind its end. -/
def maskBytes? (source bs : List UInt8) (i : Nat) : Option (List UInt8) :=
  if i + 1 < bs.length then
    if [47, 42].isPrefixOf (bs.drop i) then
      match from? source (i + 2) with
      | none => none
      | some rest =>
        let stop := commentStop i bs.length rest
        if i < stop ∧ stop ≤ bs.length then maskBytes? source (fillBytes i stop bs) stop else none
    else maskBytes? source bs (i + 1)
  else some bs
termination_by bs.length - i
decreasing_by
  · next h =>
    rw [length_fillBytes h.1.le h.2]
    omega
  · omega

/-- The text with its comments masked.  If the copy were no UTF-8, it would be the text itself. -/
def maskText? (t : Text) : Option Text :=
  (maskBytes? (utf8 t) (utf8 t) 0).map fun bs =>
    (bs.toByteArray.utf8Decode?.map Array.toList).getD t

section Loop

variable {source bs rest l : List UInt8}

/-- The loop goes on where no comment is opened. -/
lemma maskBytes?_pass (h : [47, 42].isPrefixOf (bs.drop i) = false) :
    maskBytes? source bs i = maskBytes? source bs (i + 1) := by
  by_cases hlt : i + 1 < bs.length
  · rw [maskBytes?, if_pos hlt, h, if_neg Bool.false_ne_true]
  · rw [maskBytes?, if_neg hlt, maskBytes?, if_neg (by omega)]

lemma maskBytes?_pass_run (hdrop : bs.drop i = l ++ rest) (hl : ∀ x ∈ l, x ≠ 47) :
    maskBytes? source bs i = maskBytes? source bs (i + l.length) := by
  induction l generalizing i with
  | nil => rfl
  | cons x l ih =>
    rw [List.forall_mem_cons] at hl
    have hfirst : [47, 42].isPrefixOf (bs.drop i) = false := by
      rw [hdrop, List.cons_append, List.isPrefixOf, beq_false_of_ne (Ne.symm hl.1), Bool.false_and]
    have hnext : bs.drop (i + 1) = l ++ rest := by
      rw [← List.drop_drop, hdrop]
      rfl
    rw [maskBytes?_pass hfirst, ih hnext hl.2, List.length_cons, Nat.add_assoc, Nat.add_comm 1]

/-- The loop passes over a character that opens no comment, byte by byte. -/
lemma maskBytes?_pass_char (hdrop : bs.drop i = utf8 (c :: r))
    (hc : ¬ ['/', '*'].isPrefixOf (c :: r)) :
    maskBytes? source bs i = maskBytes? source bs (i + c.utf8Size) := by
  obtain ⟨x, l, he, -, hl⟩ := encode_eq_cons c
  have hfirst : [47, 42].isPrefixOf (bs.drop i) = false := by
    rw [hdrop]
    exact (isPrefixOf_utf8 (p := ['/', '*']) (by simp) (c :: r)).trans (Bool.eq_false_iff.2 hc)
  have hnext : bs.drop (i + 1) = l ++ utf8 r := by
    rw [← List.drop_drop, hdrop, utf8_cons, he]
    rfl
  have hsize : c.utf8Size = 1 + l.length := by
    rw [← String.length_utf8EncodeChar, he, List.length_cons, Nat.add_comm]
  rw [maskBytes?_pass hfirst, maskBytes?_pass_run hnext, hsize, Nat.add_assoc]
  rintro x hx rfl
  exact hl _ hx (by decide)

end Loop

/-- Where a comment ends in the bytes, if `r` is the text behind its `/*`. -/
lemma commentStop_utf8 {length : Nat} (hlength : length = i + 2 + bytes r) :
    let body := breakAt (['*', '/'].isPrefixOf ·) r
    commentStop i length (utf8 r) = i + (2 + bytes body.1 + bytes (body.2.take 2)) := by
  intro body
  have hsame (t : Text) : [42, 47].isPrefixOf (utf8 t) = ['*', '/'].isPrefixOf t :=
    isPrefixOf_utf8 (p := ['*', '/']) (by simp) t
  have hascii (x : UInt8) (l : List UInt8) (hx : 128 ≤ x.toNat) :
      [42, 47].isPrefixOf (x :: l) = false := by
    have hne : (42 : UInt8) ≠ x := by
      rintro rfl
      exact absurd hx (by decide)
    rw [List.isPrefixOf, beq_false_of_ne hne, Bool.false_and]
  have hbody : body.1 ++ body.2 = r := breakAt_append _ r
  have hclose : body.2 = [] ∨ ['*', '/'].isPrefixOf body.2 := breakAt_snd _ r
  rw [commentStop, search?_utf8 hsame hascii]
  change (match if body.2 = [] then none else some (bytes body.1) with
    | none => length
    | some n => i + 2 + n + 2) = _
  clear_value body
  subst hbody
  by_cases hnil : body.2 = []
  · rw [if_pos hnil, hlength, hnil]
    simp [Nat.add_assoc]
  · obtain ⟨rest, hrest⟩ := List.isPrefixOf_iff_prefix.1 (hclose.resolve_left hnil)
    have htwo : bytes (body.2.take 2) = 2 := by
      rw [← hrest]
      rfl
    rw [if_neg hnil, htwo]
    show i + 2 + bytes body.1 + 2 = _
    omega

lemma utf8_blanks (w : Text) : utf8 (w.flatMap blanksFor) = List.replicate (bytes w) 32 := by
  have hblank (n : Nat) : utf8 (List.replicate n ' ') = List.replicate n 32 := by
    induction n with
    | zero => rfl
    | succ n ih =>
      rw [List.replicate_succ, utf8_cons, ih]
      rfl
  induction w with
  | nil => rfl
  | cons c w ih =>
    rw [List.flatMap_cons, utf8_append, ih, blanksFor, hblank, bytes_cons,
      List.replicate_append_replicate]

lemma bytes_blanks (w : Text) : bytes (w.flatMap blanksFor) = bytes w := by
  rw [← length_utf8, utf8_blanks, List.length_replicate]

lemma fillBytes_utf8 (a w b : Text) :
    fillBytes (bytes a) (bytes a + bytes w) (utf8 (a ++ (w ++ b)))
      = utf8 (a ++ (w.flatMap blanksFor ++ b)) := by
  have hdrop : (utf8 (a ++ (w ++ b))).drop (bytes a + bytes w) = utf8 b := by
    rw [← bytes_append, ← List.append_assoc, drop_utf8]
  rw [fillBytes, take_utf8, hdrop, Nat.add_sub_cancel_left, utf8_append, utf8_append, utf8_blanks,
    List.append_assoc]

/-- A comment is masked through the next `*/`, or to the end. -/
lemma maskFrom_comment (r : Text) :
    let body := breakAt (['*', '/'].isPrefixOf ·) r
    maskFrom .outside ('/' :: '*' :: r)
      = ('/' :: '*' :: (body.1 ++ body.2.take 2)).flatMap blanksFor ++
          maskFrom .outside (body.2.drop 2) := by
  intro body
  have hclose : body.2 = [] ∨ ['*', '/'].isPrefixOf body.2 := breakAt_snd _ r
  have hopen : maskFrom .outside ('/' :: '*' :: r)
      = blanksFor '/' ++ (blanksFor '*' ++ maskFrom .inside r) := rfl
  rw [hopen, maskFrom_inside, maskFrom_closing hclose]
  simp only [List.flatMap_cons, List.flatMap_append, List.append_assoc]
  rfl

lemma bytes_opener (r : Text) : bytes ('/' :: '*' :: r) = 2 + bytes r :=
  (Nat.add_assoc 1 1 (bytes r)).symm

/-- The comment that a text starts with, and what follows it. -/
lemma exists_comment (r : Text) :
    ∃ w rest, '/' :: '*' :: r = w ++ rest ∧
      maskFrom .outside ('/' :: '*' :: r) = w.flatMap blanksFor ++ maskFrom .outside rest ∧
      (∀ i, commentStop i (i + 2 + bytes r) (utf8 r) = i + bytes w) ∧ 2 ≤ bytes w ∧
      rest.length < r.length + 2 := by
  have hmask := maskFrom_comment r
  have hstop (i : Nat) := commentStop_utf8 (i := i) (r := r) rfl
  have hbody : (breakAt (['*', '/'].isPrefixOf ·) r).1 ++ (breakAt (['*', '/'].isPrefixOf ·) r).2
    = r := breakAt_append _ r
  refine ⟨_, _, ?_, hmask, fun i => (hstop i).trans ?_, ?_, ?_⟩
  · conv_lhs => rw [← hbody]
    simp
  · rw [bytes_opener, bytes_append, Nat.add_assoc]
  · rw [bytes_opener]
    exact Nat.le_add_right ..
  · have hlength := congrArg List.length hbody
    rw [List.length_append] at hlength
    rw [List.length_drop]
    omega

/-- **The loop masks the comments**, from an offset on at which it stands outside comments. -/
theorem maskBytes?_utf8 (a m r : Text) (hm : bytes m = bytes a) :
    maskBytes? (utf8 (a ++ r)) (utf8 (m ++ r)) (bytes a)
      = some (utf8 (m ++ maskFrom .outside r)) := by
  induction hn : r.length using Nat.strong_induction_on generalizing a m r with
  | _ n ih =>
  subst hn
  have hdrop : (utf8 (m ++ r)).drop (bytes a) = utf8 r := by rw [← hm, drop_utf8]
  by_cases hopen : ['/', '*'].isPrefixOf r
  · obtain ⟨r, rfl⟩ : ∃ r', r = '/' :: '*' :: r' :=
      (List.isPrefixOf_iff_prefix.1 hopen).imp fun _ => Eq.symm
    obtain ⟨w, rest, hsplit, hmask, hstop, htwo, hshort⟩ := exists_comment r
    have hcut : from? (utf8 (a ++ '/' :: '*' :: r)) (bytes a + 2) = some (utf8 r) := by
      have h := from?_utf8 (a ++ ['/', '*']) r
      rw [List.append_assoc, bytes_append] at h
      exact h
    have hlength : (utf8 (m ++ '/' :: '*' :: r)).length = bytes a + 2 + bytes r := by
      rw [length_utf8, bytes_append, hm, bytes_opener, Nat.add_assoc]
    have hwhole := congrArg bytes hsplit
    rw [bytes_append, bytes_opener] at hwhole
    have hrest := ih rest.length hshort (a ++ w) (m ++ w.flatMap blanksFor) rest
      (by rw [bytes_append, bytes_append, hm, bytes_blanks]) rfl
    rw [maskBytes?, if_pos (by omega), if_pos (by rw [hdrop]; rfl), hcut]
    simp only [hlength, hstop]
    rw [if_pos (by omega), hmask, hsplit, ← hm, fillBytes_utf8, hm]
    simpa only [List.append_assoc, bytes_append] using hrest
  · cases r with
    | nil =>
      rw [maskBytes?, if_neg (by rw [length_utf8, List.append_nil, hm]; omega)]
      rfl
    | cons c r =>
      have hnext : maskFrom .outside (c :: r) = c :: maskFrom .outside r := by
        rw [maskFrom, if_neg (mt pair_isPrefixOf_cons.2 hopen)]
      have hstep := ih r.length (Nat.lt_succ_self _) (a ++ [c]) (m ++ [c]) r
        (by rw [bytes_append, bytes_append, hm]) rfl
      simp only [List.append_assoc, List.singleton_append, bytes_append, bytes_cons, bytes_nil,
        Nat.add_zero] at hstep
      rw [maskBytes?_pass_char hdrop hopen, hstep, hnext]

/-- **Masking a text never fails**, and the copy of its bytes is always UTF-8. -/
theorem maskText?_eq (t : Text) : maskText? t = some (maskComments t) := by
  have hbytes : maskBytes? (utf8 t) (utf8 t) 0 = some (utf8 (maskComments t)) :=
    maskBytes?_utf8 [] [] t rfl
  have hdecode : (utf8 (maskComments t)).toByteArray.utf8Decode? = some (maskComments t).toArray :=
    List.utf8Decode?_utf8Encode
  rw [maskText?, hbytes, Option.map_some, hdecode, Option.map_some, List.toList_toArray,
    Option.getD_some]

/-! ## Which bytes are masked -/

/-- Comments start and stop between characters. -/
lemma parts_of_mem_comments (n : Nat) (t : Text) : ∀ s ∈ comments n t,
    ∃ a w b, t = a ++ (w ++ b) ∧ s = ⟨n + bytes a, n + bytes a + bytes w⟩ := by
  fun_induction comments n t with
  | case1 => exact fun _ hs => absurd hs List.not_mem_nil
  | case2 n t front hne body start stop ih =>
    intro s hs
    have ht : t = front.1 ++ ((front.2.take 2 ++ body.1 ++ body.2.take 2) ++ body.2.drop 2) :=
      split_comment t
    rcases List.mem_cons.1 hs with rfl | hs
    · exact ⟨_, _, _, ht, rfl⟩
    · obtain ⟨a, w, b, hrest, rfl⟩ := ih s hs
      rw [hrest] at ht
      refine ⟨front.1 ++ ((front.2.take 2 ++ body.1 ++ body.2.take 2) ++ a), w, b, ?_, ?_⟩
      · rw [ht]
        simp only [List.append_assoc]
      · have hstop : stop + bytes a
            = n + bytes (front.1 ++ ((front.2.take 2 ++ body.1 ++ body.2.take 2) ++ a)) := by
          unfold stop start
          simp only [bytes_append]
          omega
        rw [hstop]

/-- No offset between characters is inside of one. -/
lemma boundary_outside {n : Nat} (h : IsBoundary (a ++ c :: b) n) :
    n ≤ bytes a ∨ bytes a + c.utf8Size ≤ n := by
  obtain ⟨x, y, ht, rfl⟩ := h
  rcases List.append_eq_append_iff.1 ht with ⟨z, rfl, hz⟩ | ⟨z, rfl, hz⟩
  · cases z with
    | nil => exact .inl (by rw [List.append_nil])
    | cons d z =>
      obtain ⟨rfl, -⟩ := List.cons.inj hz
      rw [bytes_append, bytes_cons]
      exact .inr (by omega)
  · exact .inl (by rw [bytes_append]; exact Nat.le_add_right ..)

/-- A character is in a comment with all its bytes, or with none. -/
lemma commented_within (ht : t = a ++ c :: b) (hk : k < c.utf8Size) :
    Commented t (bytes a + k) ↔ Commented t (bytes a) := by
  unfold Commented
  refine exists_congr fun s => and_congr_right fun hs => ?_
  obtain ⟨x, w, y, hx, rfl⟩ := parts_of_mem_comments 0 t s hs
  have hstart : IsBoundary t (bytes x) := ⟨x, w ++ y, hx, rfl⟩
  have hstop : IsBoundary t (bytes x + bytes w) :=
    ⟨x ++ w, y, by rw [hx, List.append_assoc], bytes_append x w⟩
  rw [ht] at hstart hstop
  have h1 := boundary_outside hstart
  have h2 := boundary_outside hstop
  simp only [Span.Holds, Nat.zero_add]
  omega

/-- Blanking characters blanks their bytes. -/
lemma utf8_blankOut (p : Nat → Prop) [DecidablePred p] (n : Nat) (t : Text)
    (h : ∀ a c b, t = a ++ c :: b → ∀ k < c.utf8Size, (p (n + bytes a + k) ↔ p (n + bytes a))) :
    utf8 (blankOut p n t) = (utf8 t).mapIdx fun i x => if p (n + i) then 32 else x := by
  induction t generalizing n with
  | nil => rfl
  | cons c t ih =>
    have hrest := ih (n + c.utf8Size) fun a d b ht k hk => by
      have hd := h (c :: a) d b (congrArg (c :: ·) ht) k hk
      rwa [bytes_cons, ← Nat.add_assoc] at hd
    have hfirst : utf8 (if p n then blanksFor c else [c])
        = (String.utf8EncodeChar c).mapIdx fun i x => if p (n + i) then 32 else x := by
      have hsame : ∀ k < c.utf8Size, (p (n + k) ↔ p n) := h [] c t rfl
      have hlength := String.length_utf8EncodeChar c
      have hblanks : utf8 (blanksFor c) = List.replicate c.utf8Size 32 := by
        simpa using utf8_blanks [c]
      have hkept : utf8 [c] = String.utf8EncodeChar c := List.append_nil _
      split
      next hp =>
        rw [hblanks]
        refine List.ext_getElem (by simp) fun i hi hi' => ?_
        rw [List.length_replicate] at hi
        rw [List.getElem_replicate, List.getElem_mapIdx, if_pos ((hsame i hi).2 hp)]
      next hp =>
        rw [hkept]
        refine List.ext_getElem (by simp) fun i hi hi' => ?_
        rw [hlength] at hi
        rw [List.getElem_mapIdx, if_neg (mt (hsame i hi).1 hp)]
    rw [blankOut, utf8_append, hfirst, hrest, utf8_cons, List.mapIdx_append,
      String.length_utf8EncodeChar]
    simp only [Nat.add_assoc, Nat.add_comm c.utf8Size]

/-- **Each byte of a comment is a space**, and all other bytes are as they were. -/
theorem utf8_maskComments (t : Text) :
    utf8 (maskComments t) = (utf8 t).mapIdx fun i x => if Commented t i then 32 else x := by
  have h := utf8_blankOut (Commented t) 0 t fun a c b ht k hk => by
    rw [Nat.zero_add, commented_within ht hk]
  simp only [Nat.zero_add] at h
  rw [maskComments_eq, h]

/-! ## Nothing is left to mask -/

lemma contains_blanks (n : Nat) (r : Text) :
    Text.contains ['/', '*'] (List.replicate n ' ' ++ r) = Text.contains ['/', '*'] r := by
  induction n with
  | zero => rfl
  | succ n ih =>
    rw [List.replicate_succ, List.cons_append, Text.contains, ih]
    rfl

lemma head?_maskFrom_outside (h : r.head? ≠ some '*') :
    (maskFrom .outside r).head? ≠ some '*' := by
  cases r with
  | nil => exact h
  | cons c r =>
    rw [maskFrom]
    split
    · simp
    · exact h

/-- **No comment is opened in a masked text.** -/
theorem no_opener_maskFrom (s : CommentState) (t : Text) :
    Text.contains ['/', '*'] (maskFrom s t) = false := by
  fun_induction maskFrom s t with
  | case1 s => rfl
  | case2 c r hc ih => exact (contains_blanks 1 _).trans ih
  | case3 c r hc ih =>
    rw [Text.contains, ih, Bool.or_false, Bool.eq_false_iff, Ne, pair_isPrefixOf_cons]
    rintro ⟨rfl, hhead⟩
    exact head?_maskFrom_outside (fun hr => hc ⟨rfl, hr⟩) hhead
  | case4 c r ih => exact (contains_blanks 1 _).trans ih
  | case5 c r hc ih => exact (contains_blanks 1 _).trans ih
  | case6 c r hc ih => exact (contains_blanks _ _).trans ih
  | case7 c r ih => exact (contains_blanks 1 _).trans ih

/-- A text without comments stays as it is. -/
lemma maskFrom_outside_of_free (h : Text.contains ['/', '*'] t = false) :
    maskFrom .outside t = t := by
  induction t with
  | nil => rfl
  | cons c r ih =>
    rw [Text.contains, Bool.or_eq_false_iff, Bool.eq_false_iff, Ne, pair_isPrefixOf_cons] at h
    rw [maskFrom, if_neg h.1, ih h.2]

/-- **Masking a masked text changes nothing.** -/
theorem maskComments_idem (t : Text) : maskComments (maskComments t) = maskComments t :=
  maskFrom_outside_of_free (no_opener_maskFrom .outside t)

/-! ## What is read of a masked text -/

/-- A span starts and stops between characters of a text. -/
def BetweenChars (t : Text) (s : Span) : Prop :=
  IsBoundary t s.start ∧ IsBoundary t s.stop

/-- What is no space is a character of the text, with the same bytes. -/
lemma Masks.boundaries (h : Masks t (a ++ c :: b)) (hc : c ≠ ' ') :
    IsBoundary t (bytes a) ∧ IsBoundary t (bytes a + c.utf8Size) := by
  obtain ⟨x, y, rfl, hx, -⟩ := h.split hc
  rw [hx.bytes_eq]
  exact ⟨⟨x, c :: y, rfl, rfl⟩, ⟨x ++ [c], y, by simp, by simp⟩⟩

/-- A text with some white space off its front starts with something else. -/
lemma head_trimStart (h : trimStart w = c :: r) : isBlank c = false := by
  have hhead := List.head?_dropWhile_not isBlank w
  rw [show w.dropWhile isBlank = c :: r from h] at hhead
  exact hhead

/-- White space alone is trimmed to nothing. -/
lemma takeWhile_of_trim_nil (h : trim w = []) : w.takeWhile isBlank = w := by
  have hall : ∀ c ∈ trimStart w, isBlank c := List.rdropWhile_eq_nil_iff.1 h
  have hnil : trimStart w = [] := by
    cases hstart : trimStart w with
    | nil => rfl
    | cons c r =>
      have hblank := hall c (by rw [hstart]; exact List.mem_cons_self)
      exact absurd (hblank.symm.trans (head_trimStart hstart)) Bool.true_eq_false.mp
  have hsplit := List.takeWhile_append_dropWhile (p := isBlank) (l := w)
  rwa [show w.dropWhile isBlank = [] from hnil, List.append_nil] at hsplit

/-- A trimmed text starts with no white space. -/
lemma head_trim (h : trim w = c :: r) : isBlank c = false := by
  obtain ⟨z, hz⟩ : trim w <+: trimStart w := List.rdropWhile_prefix isBlank _
  rw [h] at hz
  exact head_trimStart hz.symm

/-- A trimmed text ends with no white space. -/
lemma last_trim (h : trim w = r ++ [c]) : isBlank c = false := by
  have hne : (trimStart w).rdropWhile isBlank ≠ [] := by
    rw [show (trimStart w).rdropWhile isBlank = r ++ [c] from h]
    simp
  have hlast := List.rdropWhile_last_not isBlank (trimStart w) hne
  simp only [show (trimStart w).rdropWhile isBlank = r ++ [c] from h,
    List.getLast_append_singleton] at hlast
  exact Bool.eq_false_iff.2 hlast

lemma ne_space_of_not_blank (h : isBlank c = false) : c ≠ ' ' := by
  rintro rfl
  exact absurd h (by decide)

/-- **What is left of a masked text after trimming is between characters of the text**, if the text
ends behind it or goes on with something other than a space. -/
theorem betweenChars_ofTrimmed (h : Masks t (a ++ (w ++ b))) (hb : ∀ c ∈ b.head?, c ≠ ' ') :
    BetweenChars t (Span.ofTrimmed (bytes a) w) := by
  have hsplit := takeWhile_append_trim w
  rw [Span.ofTrimmed_eq]
  cases htrim : trim w with
  | nil =>
    rw [takeWhile_of_trim_nil htrim]
    have hend : IsBoundary t (bytes a + bytes w) := by
      rw [← List.append_assoc] at h
      rw [← bytes_append]
      cases b with
      | nil =>
        rw [List.append_nil] at h
        rw [h.bytes_eq]
        exact .full t
      | cons d b => exact (h.boundaries (hb d rfl)).1
    exact ⟨hend, hend⟩
  | cons c r =>
    refine ⟨?_, ?_⟩
    · have hfirst : a ++ (w ++ b) = (a ++ w.takeWhile isBlank) ++
          c :: (r ++ (trimStart w).rtakeWhile isBlank ++ b) := by
        conv_lhs => rw [← hsplit, htrim]
        simp
      rw [hfirst] at h
      have hstart := (h.boundaries (ne_space_of_not_blank (head_trim htrim))).1
      rwa [bytes_append] at hstart
    · obtain ⟨z, d, hlast⟩ : ∃ z d, c :: r = z ++ [d] :=
        (List.eq_nil_or_concat' (c :: r)).resolve_left (by simp)
      rw [hlast] at htrim ⊢
      have hback : a ++ (w ++ b) = (a ++ w.takeWhile isBlank ++ z) ++
          d :: ((trimStart w).rtakeWhile isBlank ++ b) := by
        conv_lhs => rw [← hsplit, htrim]
        simp
      rw [hback] at h
      have hstop := (h.boundaries (ne_space_of_not_blank (last_trim htrim))).2
      rw [bytes_append, bytes_append] at hstop
      rw [Span.ofText, bytes_append, ← Nat.add_assoc]
      simpa using hstop

/-- The parts of a declaration are between characters of the text. -/
lemma Declaration.InStretch.betweenChars {d : Declaration} (h : d.InStretch m) (hm : Masks t m) :
    BetweenChars t d.property ∧ BetweenChars t d.value := by
  obtain ⟨start, w, b, hstretch, hb, hd⟩ := h
  obtain ⟨a, rfl, rfl, -⟩ := hstretch.stands
  obtain ⟨before, after, rfl, -, rfl⟩ := parts_of_ofChunk? hd
  refine ⟨?_, ?_⟩
  · rw [List.append_assoc] at hm
    exact betweenChars_ofTrimmed hm (by simp)
  · have hafter : a ++ (before ++ ':' :: after ++ b)
        = (a ++ (before ++ [':'])) ++ (after ++ b) := by
      simp
    have hstart : bytes a + bytes before + 1 = bytes (a ++ (before ++ [':'])) := by
      rw [bytes_append, bytes_append, ← Nat.add_assoc]
      rfl
    rw [hafter] at hm
    rw [hstart]
    refine betweenChars_ofTrimmed hm fun c hc => ?_
    rcases hb c hc with rfl | rfl <;> decide

/-- What a rule is for, and all of the rule, are between characters of the text. -/
lemma RuleAt.betweenChars {rule : Rule} (h : RuleAt m n rule) (hm : Masks t m) :
    BetweenChars t rule.prelude ∧ BetweenChars t rule.extent := by
  have hprelude : BetweenChars t rule.prelude := by
    obtain ⟨start, w, b, hstretch, -, hprelude, -⟩ := h.head
    obtain ⟨a, rfl, rfl, -⟩ := hstretch.stands
    rw [hprelude]
    exact betweenChars_ofTrimmed hm (by simp)
  refine ⟨hprelude, ?_, ?_⟩
  · rw [h.start]
    exact hprelude.1
  · obtain ⟨j, hj, hstop⟩ | ⟨-, hstop⟩ := h.stop
    · obtain ⟨x, y, rfl, rfl⟩ := hj.closes
      rw [hstop]
      exact (hm.boundaries (by decide)).2
    · rw [hstop, hm.bytes_eq]
      exact .full t

/-- Each rule is the rule of some brace. -/
lemma exists_ruleAt {rule : Rule} (h : rule ∈ forest (Sheet.ofText t).rules) :
    ∃ n, RuleAt (maskComments t) n rule := by
  have hrules := (followsBraces_ofText t).rules
  obtain ⟨i, hi, rfl⟩ := List.getElem_of_mem h
  have hlength := hrules.length_eq
  exact ⟨_, hrules.get (hlength ▸ hi) hi⟩

/-- **Masking comments is faithful.**  The loop over the bytes never cuts a character, and it
leaves UTF-8 of the same length, in which the bytes of comments are spaces and all others are
unchanged; so the text itself is never returned for want of it.  No comment is opened in the
result, which is not changed by masking it once more.  All spans of the rules and declarations
that are read from it start and stop between characters of the text itself. -/
theorem masking_faithful (t : Text) :
    (∃ bs, maskBytes? (utf8 t) (utf8 t) 0 = some bs ∧
        bs.toByteArray.utf8Decode? = some (maskComments t).toArray ∧
        bs.length = (utf8 t).length ∧
        bs = (utf8 t).mapIdx fun i x => if Commented t i then 32 else x) ∧
      maskText? t = some (maskComments t) ∧
      Text.contains ['/', '*'] (maskComments t) = false ∧
      maskComments (maskComments t) = maskComments t ∧
      (∀ rule ∈ forest (Sheet.ofText t).rules,
        BetweenChars t rule.prelude ∧ BetweenChars t rule.extent) ∧
      ∀ d ∈ (Sheet.ofText t).declarations,
        BetweenChars t d.property ∧ BetweenChars t d.value := by
  refine ⟨⟨utf8 (maskComments t), maskBytes?_utf8 [] [] t rfl, List.utf8Decode?_utf8Encode, ?_,
    utf8_maskComments t⟩, maskText?_eq t, no_opener_maskFrom .outside t, maskComments_idem t,
    fun rule hrule => ?_, fun d hd => ?_⟩
  · rw [length_utf8, length_utf8, (masks_maskComments t).bytes_eq]
  · obtain ⟨n, hn⟩ := exists_ruleAt hrule
    exact hn.betweenChars (masks_maskComments t)
  · exact ((declarations_placed t).1 d hd).betweenChars (masks_maskComments t)

end Mosaic.Style
