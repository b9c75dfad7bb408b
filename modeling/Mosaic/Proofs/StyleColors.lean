import Mosaic.Proofs.PositionOrder
import Mosaic.Proofs.SheetStretches
import Mosaic.Style.Adapter

/-!
# Where colours are found

Colours are looked for from every character of a value on, once for each of the two ways to write
them.  Each way starts with a character that is nowhere else in a colour, so no two colours overlap.

* `Style.Passes` — a reader passes over characters that start no colour.
* `Style.ColorText` — the text of a colour.
* `Style.ColorAt` — the text of a colour in a span, and `Style.ColorAt.stop_le`, which tells that
  two of them do not overlap.
* `Style.declarations_and_colors_placed` — where the declarations of a sheet and its colours are.
-/

namespace Mosaic.Style

open Text

variable {t t' u w v rest : Text} {c first : Char} {span span' : Span} {color : Color} {start : Nat}

/-! ## Readers of colours -/

/-- The character starts no colour. -/
def StartsNone (c : Char) : Prop :=
  c ≠ '#' ∧ c ≠ 'r'

instance (c : Char) : Decidable (StartsNone c) :=
  inferInstanceAs (Decidable (_ ∧ _))

/-- A reader that gets from one text to another passes over characters that start no colour. -/
def Passes (t rest : Text) : Prop :=
  ∃ w, t = w ++ rest ∧ ∀ c ∈ w, StartsNone c

namespace Passes

lemma refl (t : Text) : Passes t t := ⟨[], rfl, nofun⟩

lemma trans (h : Passes t u) (h' : Passes u rest) : Passes t rest := by
  obtain ⟨w, rfl, hw⟩ := h
  obtain ⟨w', rfl, hw'⟩ := h'
  refine ⟨w ++ w', (List.append_assoc ..).symm, fun c hc => ?_⟩
  exact (List.mem_append.1 hc).elim (hw c) (hw' c)

lemma cons (hc : StartsNone c) (t : Text) : Passes (c :: t) t :=
  ⟨[c], rfl, by simpa using hc⟩

lemma takeWhile {p : Char → Bool} (hp : ∀ c, p c → StartsNone c) (t : Text) :
    Passes t (t.drop (t.takeWhile p).length) := by
  refine ⟨t.takeWhile p, ?_, fun c hc => hp c (List.mem_takeWhile_imp hc)⟩
  have hsplit := List.take_append_drop (t.takeWhile p).length t
  rwa [← List.prefix_iff_eq_take.1 (List.takeWhile_prefix _), eq_comm] at hsplit

end Passes

lemma startsNone_of_isBlank (h : isBlank c) : StartsNone c := by
  constructor <;> rintro rfl <;> exact absurd h (by decide)

lemma startsNone_of_isDigit (h : c.isDigit) : StartsNone c := by
  constructor <;> rintro rfl <;> exact absurd h (by decide)

lemma startsNone_of_hex (h : (Digits.hex? c).isSome) : StartsNone c := by
  constructor <;> rintro rfl <;> exact absurd h (by decide)

lemma passes_skipBlanks (t : Text) : Passes t (skipBlanks t) :=
  ⟨t.takeWhile isBlank, List.takeWhile_append_dropWhile.symm,
    fun _ hc => startsNone_of_isBlank (List.mem_takeWhile_imp hc)⟩

lemma passes_afterDelimiter? (hc : StartsNone c) (h : afterDelimiter? c t = some rest) :
    Passes t rest := by
  unfold afterDelimiter? at h
  split at h
  next d r hskip =>
    split at h
    next hd =>
      obtain rfl := Option.some.inj h
      have hfront := passes_skipBlanks t
      rw [hskip, hd] at hfront
      exact (hfront.trans (.cons hc r)).trans (passes_skipBlanks r)
    · contradiction
  · contradiction

lemma passes_readChannel? {channel : Single} (h : readChannel? t = some (channel, rest)) :
    Passes t rest := by
  simp only [readChannel?] at h
  split at h
  · contradiction
  · obtain ⟨-, rfl⟩ := Prod.mk.inj (Option.some.inj h)
    exact .takeWhile (fun _ => startsNone_of_isDigit) t

lemma passes_readAlpha? {alpha : Single} (h : readAlpha? t = some (alpha, rest)) :
    Passes t rest := by
  have hwhole : Passes t (t.drop (t.takeWhile Char.isDigit).length) :=
    .takeWhile (fun _ => startsNone_of_isDigit) t
  simp only [readAlpha?] at h
  generalize t.drop (t.takeWhile Char.isDigit).length = u at h hwhole
  -- the rest is behind the whole digits, or behind a point and the places
  suffices hrest : u = rest ∨ ∃ r, u = '.' :: r ∧ r.drop (r.takeWhile Char.isDigit).length = rest by
    rcases hrest with rfl | ⟨r, rfl, rfl⟩
    · exact hwhole
    · exact (hwhole.trans (.cons (by decide) r)).trans
        (.takeWhile (fun _ => startsNone_of_isDigit) r)
  split at h <;> split_ifs at h
  · exact .inl (Prod.mk.inj (Option.some.inj h)).2
  · exact .inr ⟨_, rfl, (Prod.mk.inj (Option.some.inj h)).2⟩
  · exact .inl (Prod.mk.inj (Option.some.inj h)).2
  · exact absurd rfl ‹¬ List.isEmpty [] = true›

/-- The name of a function starts with the one character that its colour starts with. -/
lemma passes_afterFunctionName? (h : afterFunctionName? t = some rest) :
    ∃ u, t = 'r' :: u ∧ Passes u rest := by
  unfold afterFunctionName? at h
  split at h
  next r =>
    obtain rfl := Option.some.inj h
    exact ⟨_, rfl, ['g', 'b', 'a', '('], rfl, by simp [StartsNone]⟩
  next r =>
    obtain rfl := Option.some.inj h
    exact ⟨_, rfl, ['g', 'b', '('], rfl, by simp [StartsNone]⟩
  · contradiction

/-- A colour in decimal ends with a parenthesis, and only its first character starts a colour. -/
lemma passes_readRgbColor? (h : readRgbColor? t = some (color, rest)) :
    ∃ u, t = 'r' :: u ∧ Passes u (')' :: rest) := by
  simp only [readRgbColor?, Option.bind_eq_bind, Option.bind_eq_some_iff, Prod.exists] at h
  obtain ⟨t₀, hname, red, t₁, hred, t₂, hcomma, green, t₃, hgreen, t₄, hcomma', blue, t₅, hblue,
    hend⟩ := h
  obtain ⟨u, rfl, hu⟩ := passes_afterFunctionName? hname
  have hchannels : Passes u t₅ :=
    hu.trans <| (passes_skipBlanks t₀).trans <| (passes_readChannel? hred).trans <|
      (passes_afterDelimiter? (by decide) hcomma).trans <| (passes_readChannel? hgreen).trans <|
        (passes_afterDelimiter? (by decide) hcomma').trans <| passes_readChannel? hblue
  -- the parenthesis is read behind an opacity or without one
  obtain ⟨t₆, hopacity, hskip⟩ : ∃ t₆, Passes t₅ t₆ ∧ skipBlanks t₆ = ')' :: rest := by
    split at hend
    next t₆ hcomma'' =>
      obtain ⟨⟨alpha, t₇⟩, halpha, hend⟩ := Option.bind_eq_some_iff.1 hend
      split at hend
      next r hskip =>
        obtain rfl := (Prod.mk.inj (Option.some.inj hend)).2
        exact ⟨t₇, (passes_afterDelimiter? (by decide) hcomma'').trans (passes_readAlpha? halpha),
          hskip⟩
      · contradiction
    · obtain ⟨⟨alpha, t₇⟩, halpha, hend⟩ := Option.bind_eq_some_iff.1 hend
      obtain ⟨-, rfl⟩ := Prod.mk.inj (Option.some.inj halpha)
      split at hend
      next r hskip =>
        obtain rfl := (Prod.mk.inj (Option.some.inj hend)).2
        exact ⟨_, .refl _, hskip⟩
      · contradiction
  have hblanks := passes_skipBlanks t₆
  rw [hskip] at hblanks
  exact ⟨u, rfl, hchannels.trans (hopacity.trans hblanks)⟩

/-- The text of a colour that is written in the way that starts with a given character: no other of
its characters starts a colour, and it does not end with a space. -/
structure ColorText (first : Char) (w : Text) : Prop where
  starts : ¬ StartsNone first
  parts : ∃ mid last, w = first :: (mid ++ [last]) ∧ last ≠ ' ' ∧ ∀ c ∈ mid ++ [last], StartsNone c

/-- The readers of colours read texts of colours that start with a given character. -/
def ReadsColors (first : Char) (read? : Text → Option (Color × Text)) : Prop :=
  ∀ t color rest, read? t = some (color, rest) → ∃ w, t = w ++ rest ∧ ColorText first w

lemma readsColors_rgb : ReadsColors 'r' readRgbColor? := by
  intro t color rest h
  obtain ⟨u, rfl, mid, rfl, hmid⟩ := passes_readRgbColor? h
  refine ⟨'r' :: (mid ++ [')']), by simp, by decide, ⟨mid, ')', rfl, by decide, fun c hc => ?_⟩⟩
  rcases List.mem_append.1 hc with hc | hc
  · exact hmid c hc
  · rw [List.mem_singleton.1 hc]
    decide

lemma readsColors_hex : ReadsColors '#' readHexColor? := by
  intro t color rest h
  unfold readHexColor? at h
  split at h
  next r =>
    simp only at h
    split at h
    · contradiction
    obtain ⟨color', hcolor, hrest⟩ := Option.map_eq_some_iff.1 h
    obtain ⟨-, rfl⟩ := Prod.mk.inj hrest
    have hhex : ∀ c ∈ r.takeWhile fun c => (Digits.hex? c).isSome, (Digits.hex? c).isSome :=
      fun c hc => List.mem_takeWhile_imp (p := fun c => (Digits.hex? c).isSome) hc
    have hsplit := List.take_append_drop (r.takeWhile fun c => (Digits.hex? c).isSome).length r
    rw [← List.prefix_iff_eq_take.1 (List.takeWhile_prefix _)] at hsplit
    generalize r.takeWhile (fun c => (Digits.hex? c).isSome) = digits at hcolor hhex hsplit ⊢
    rcases List.eq_nil_or_concat digits with rfl | ⟨mid, last, rfl⟩
    · cases hcolor
    rw [List.concat_eq_append] at hhex hsplit ⊢
    refine ⟨'#' :: (mid ++ [last]), by rw [List.cons_append, hsplit], by decide,
      ⟨mid, last, rfl, ?_, fun c hc => startsNone_of_hex (hhex c hc)⟩⟩
    rintro rfl
    exact absurd (hhex ' ' (by simp)) (by decide)
  · contradiction

/-! ## Colours in a text -/

/-- The text of a colour stands in a span. -/
def ColorAt (first : Char) (t : Text) (span : Span) : Prop :=
  ∃ a w b, t = a ++ (w ++ b) ∧ ColorText first w ∧ span = Span.ofText (bytes a) w

namespace ColorAt

lemma standsAt (h : ColorAt first t span) : t.StandsAt first span.start := by
  obtain ⟨a, w, b, ht, ⟨-, mid, last, rfl, -, -⟩, rfl⟩ := h
  exact ⟨a, (mid ++ [last]) ++ b, by rw [ht]; simp, rfl⟩

/-- The last character of a colour is no space. -/
lemma standsAt_last (h : ColorAt first t span) :
    ∃ last k, last ≠ ' ' ∧ t.StandsAt last k ∧ k + last.utf8Size = span.stop := by
  obtain ⟨a, w, b, ht, ⟨-, mid, last, rfl, hlast, -⟩, rfl⟩ := h
  refine ⟨last, bytes (a ++ first :: mid), hlast, ⟨a ++ first :: mid, b, by rw [ht]; simp, rfl⟩, ?_⟩
  simp only [Span.ofText, bytes_append, bytes_cons, bytes_nil]
  omega

lemma start_lt_stop (h : ColorAt first t span) : span.start < span.stop := by
  obtain ⟨a, w, b, -, ⟨-, mid, last, rfl, -, -⟩, rfl⟩ := h
  exact Nat.lt_add_of_pos_right (bytes_pos (by simp))

/-- **A colour that starts behind the start of another starts behind its end.** -/
theorem stop_le {first' : Char} (h : ColorAt first t span) (h' : ColorAt first' t span')
    (hlt : span.start < span'.start) : span.stop ≤ span'.start := by
  have hstands := h'.standsAt
  obtain ⟨-, -, -, -, ⟨hstarts', -⟩, -⟩ := h'
  obtain ⟨a, w, b, ht, ⟨hstarts, mid, last, rfl, -, htail⟩, rfl⟩ := h
  have hsize : first.utf8Size = 1 := by
    rcases not_and_or.1 hstarts with hfirst | hfirst <;> rw [not_not.1 hfirst] <;> rfl
  by_contra hin
  -- the first character of the other colour would be one of the last ones of this colour
  have hsplit : t = (a ++ [first]) ++ ((mid ++ [last]) ++ b) := by rw [ht]; simp
  rw [hsplit] at hstands
  refine hstarts' (htail _ (hstands.mem_part ?_ ?_))
  · simp only [Span.ofText] at hlt
    simp only [bytes_append, bytes_cons, bytes_nil, hsize]
    omega
  · simp only [Span.ofText, bytes_cons, not_le] at hin
    simp only [bytes_append, bytes_cons, bytes_nil] at hin ⊢
    omega

end ColorAt

/-- What is found was read somewhere in the text. -/
lemma exists_of_mem_findColors {read? : Text → Option (Color × Text)} {x : Span × Color}
    (h : x ∈ findColors read? start v) :
    ∃ a u rest, v = a ++ u ∧ read? u = some (x.2, rest) ∧
      x.1 = ⟨start + bytes a, start + bytes a + (bytes u - bytes rest)⟩ := by
  induction v generalizing start with
  | nil => simp [findColors] at h
  | cons c r ih =>
    rcases List.mem_append.1 h with h | h
    · split at h
      next color rest hread =>
        rw [List.mem_singleton.1 h]
        exact ⟨[], c :: r, rest, rfl, hread, rfl⟩
      next => simp at h
    · obtain ⟨a, u, rest, rfl, hread, hspan⟩ := ih h
      exact ⟨c :: a, u, rest, rfl, hread, by rw [hspan, bytes_cons, Nat.add_assoc]⟩

/-- What is found in a part of a text is the text of a colour in that part. -/
lemma colorAt_of_mem_findColors {read? : Text → Option (Color × Text)} {x : Span × Color}
    {front back : Text} (hread : ReadsColors first read?) (ht : t = front ++ (v ++ back))
    (h : x ∈ findColors read? (bytes front) v) :
    ColorAt first t x.1 ∧ bytes front ≤ x.1.start ∧ x.1.stop ≤ bytes front + bytes v := by
  obtain ⟨a, u, rest, rfl, hu, hspan⟩ := exists_of_mem_findColors h
  obtain ⟨w, rfl, hw⟩ := hread u x.2 rest hu
  have hlength : bytes (w ++ rest) - bytes rest = bytes w := by
    rw [bytes_append, Nat.add_sub_cancel]
  rw [hlength] at hspan
  refine ⟨⟨front ++ a, w, rest ++ back, by rw [ht]; simp, hw, ?_⟩, ?_, ?_⟩ <;> rw [hspan]
  · rw [Span.ofText, bytes_append]
  · exact Nat.le_add_right ..
  · simp only [bytes_append]
    omega

/-- What is found is found in the order of the text. -/
lemma findColors_pairwise (read? : Text → Option (Color × Text)) (start : Nat) (v : Text) :
    (findColors read? start v).Pairwise fun x y => x.1.start < y.1.start := by
  induction v generalizing start with
  | nil => exact .nil
  | cons c r ih =>
    have hsize := c.utf8Size_pos
    refine List.pairwise_append.2 ⟨?_, ih _, fun x hx y hy => ?_⟩
    · split
      · exact List.pairwise_singleton _ _
      · exact .nil
    · have hstart : x.1.start = start := by
        split at hx
        · rw [List.mem_singleton.1 hx]
        · simp at hx
      obtain ⟨a, u, rest, -, -, hspan⟩ := exists_of_mem_findColors hy
      rw [hstart, hspan]
      dsimp only
      omega

/-- What is found in a part of a text in either way. -/
lemma mem_colorsIn {x : Span × Color} {front back : Text} (ht : t = front ++ (v ++ back))
    (h : x ∈ colorsIn (bytes front) v) :
    (∃ first, ColorAt first t x.1) ∧ bytes front ≤ x.1.start ∧
      x.1.stop ≤ bytes front + bytes v := by
  rcases List.mem_append.1 h with h | h
  · exact (colorAt_of_mem_findColors readsColors_hex ht h).imp_left fun hx => ⟨_, hx⟩
  · exact (colorAt_of_mem_findColors readsColors_rgb ht h).imp_left fun hx => ⟨_, hx⟩

/-- No two colours of a part of a text start at one place. -/
lemma colorsIn_pairwise {front back : Text} (ht : t = front ++ (v ++ back)) :
    (colorsIn (bytes front) v).Pairwise fun x y => x.1.start ≠ y.1.start := by
  refine List.pairwise_append.2 ⟨(findColors_pairwise _ _ _).imp ne_of_lt,
    (findColors_pairwise _ _ _).imp ne_of_lt, fun x hx y hy hsame => ?_⟩
  have hhex := (colorAt_of_mem_findColors readsColors_hex ht hx).1.standsAt
  have hrgb := (colorAt_of_mem_findColors readsColors_rgb ht hy).1.standsAt
  rw [hsame] at hhex
  exact absurd (hhex.unique hrgb) (by decide)

/-! ## Colours in values -/

/-- The value of a declaration stands in the text. -/
lemma Declaration.InStretch.value_split {d : Declaration} (h : d.InStretch t) :
    ∃ a v b, t = a ++ (v ++ b) ∧ d.value = Span.ofText (bytes a) v := by
  obtain ⟨start, w, b, hstretch, -, hchunk⟩ := h
  obtain ⟨a, ht, rfl, -⟩ := hstretch.stands
  obtain ⟨before, after, rfl, -, rfl⟩ := parts_of_ofChunk? hchunk
  refine ⟨a ++ (before ++ ':' :: after.takeWhile isBlank), trim after,
    (trimStart after).rtakeWhile isBlank ++ b, ?_, ?_⟩
  · rw [ht]
    conv_lhs => rw [← takeWhile_append_trim after]
    simp only [List.append_assoc, List.cons_append]
  · have hcolon : bytes (':' :: after.takeWhile isBlank) = 1 + bytes (after.takeWhile isBlank) := rfl
    simp only [Span.ofTrimmed_eq, bytes_append, hcolon, Nat.add_assoc]

/-- What a rule is for is apart from all values. -/
lemma Declaration.InStretch.value_apart {d : Declaration} {b : Text} (h : d.InStretch t)
    (hrule : Stretch t start w ('\x7b' :: b)) :
    d.value.stop ≤ start ∨ start + bytes w ≤ d.value.start := by
  obtain ⟨start', w', b', hstretch, hend, hchunk⟩ := h
  have hbounds := bounds_of_ofChunk? hchunk
  have hend' : ∀ c ∈ b'.head?, IsDelimiter c ∧ c ≠ '\x7b' := by
    intro c hc
    rcases hend c hc with rfl | rfl
    · exact ⟨.inr (.inl rfl), by decide⟩
    · exact ⟨.inr (.inr rfl), by decide⟩
  rcases hstretch.apart hrule (.inl rfl) hend' with hlt | hlt <;> omega

/-- No delimiter is in a declaration. -/
lemma Declaration.InStretch.outside {d : Declaration} {k : Nat} (h : d.InStretch t)
    (hk : t.StandsAt c k) (hc : IsDelimiter c) : ¬ d.property.Holds k ∧ ¬ d.value.Holds k := by
  obtain ⟨start, w, b, hstretch, -, hchunk⟩ := h
  have hbounds := bounds_of_ofChunk? hchunk
  have houtside := hstretch.outside hk hc
  constructor <;> rintro ⟨h1, h2⟩ <;> omega

/-- The parts of a declaration follow each other. -/
lemma Declaration.InStretch.bounds {d : Declaration} (h : d.InStretch t) :
    d.property.start < d.property.stop ∧ d.property.stop < d.value.start ∧
      d.value.start ≤ d.value.stop ∧ d.value.stop ≤ bytes t := by
  obtain ⟨start, w, b, hstretch, -, hchunk⟩ := h
  obtain ⟨-, h1, h2, h3, h4⟩ := bounds_of_ofChunk? hchunk
  exact ⟨h1, h2, h3, h4.trans hstretch.stop_le⟩

/-- The colours that are found in the values of a sheet. -/
def foundColors (t : Text) : List (Span × Color) :=
  (Sheet.ofText t).declarations.flatMap fun d =>
    colorsIn d.value.start (d.value.textIn (maskComments t))

/-- The text of a value is read where it stands. -/
lemma colorsIn_value {d : Declaration} (h : d.InStretch t) : ∃ a v b, t = a ++ (v ++ b) ∧
    d.value = Span.ofText (bytes a) v ∧
      colorsIn d.value.start (d.value.textIn t) = colorsIn (bytes a) v := by
  obtain ⟨a, v, b, rfl, hvalue⟩ := h.value_split
  refine ⟨a, v, b, rfl, hvalue, ?_⟩
  rw [hvalue, Span.textIn, Span.ofText, slice_parts]

/-- A colour is found in the value of a declaration. -/
lemma mem_colorsIn_value {d : Declaration} {x : Span × Color} (h : d.InStretch t)
    (hx : x ∈ colorsIn d.value.start (d.value.textIn t)) :
    (∃ first, ColorAt first t x.1) ∧ d.value.start ≤ x.1.start ∧ x.1.stop ≤ d.value.stop := by
  obtain ⟨a, v, b, ht, hvalue, hcolors⟩ := colorsIn_value h
  rw [hcolors] at hx
  rw [hvalue]
  exact mem_colorsIn ht hx

/-- No two colours start at one place. -/
lemma foundColors_pairwise (t : Text) :
    (foundColors t).Pairwise fun x y => x.1.start ≠ y.1.start := by
  obtain ⟨hin, hordered⟩ := declarations_placed t
  refine List.pairwise_flatMap.2 ⟨fun d hd => ?_, hordered.imp_of_mem ?_⟩
  · obtain ⟨a, v, b, ht, -, hcolors⟩ := colorsIn_value (hin d hd)
    rw [hcolors]
    exact colorsIn_pairwise ht
  · intro d d' hd hd' hbefore x hx y hy
    obtain ⟨⟨first, hcolor⟩, -, hstop⟩ := mem_colorsIn_value (hin d hd) hx
    obtain ⟨-, hstart, -⟩ := mem_colorsIn_value (hin d' hd') hy
    have hbounds := (hin d' hd').bounds
    have hlt := hcolor.start_lt_stop
    have hgap : d.value.stop < d'.property.start := hbefore
    omega

/-- No two colours have anything in common. -/
lemma foundColors_apart (t : Text) : (foundColors t).Pairwise fun x y =>
    x.1.stop ≤ y.1.start ∨ y.1.stop ≤ x.1.start := by
  refine (foundColors_pairwise t).imp_of_mem fun {x y} hx hy hne => ?_
  obtain ⟨hin, -⟩ := declarations_placed t
  obtain ⟨d, hd, hx⟩ := List.mem_flatMap.1 hx
  obtain ⟨d', hd', hy⟩ := List.mem_flatMap.1 hy
  obtain ⟨⟨first, hcolor⟩, -⟩ := mem_colorsIn_value (hin d hd) hx
  obtain ⟨⟨first', hcolor'⟩, -⟩ := mem_colorsIn_value (hin d' hd') hy
  exact (lt_or_gt_of_ne hne).imp (hcolor.stop_le hcolor') (hcolor'.stop_le hcolor)

/-! ## In the text with its comments -/

/-- The first and the last character in a span are outside comments. -/
structure EndsOutsideComments (t : Text) (span : Span) : Prop where
  first : ∃ c, t.StandsAt c span.start ∧ ¬ Commented t span.start
  last : ∃ c k, t.StandsAt c k ∧ k + c.utf8Size = span.stop ∧ ¬ Commented t k

lemma EndsOutsideComments.isBoundary (h : EndsOutsideComments t span) :
    IsBoundary t span.start ∧ IsBoundary t span.stop := by
  obtain ⟨⟨c, ⟨a, b, ht, ha⟩, -⟩, ⟨c', k, ⟨a', b', ht', rfl⟩, hstop, -⟩⟩ := h
  refine ⟨⟨a, c :: b, ht, ha⟩, ⟨a' ++ [c'], b', by rw [ht']; simp, ?_⟩⟩
  rw [bytes_append, ← hstop]
  rfl

/-- A colour of the masked text starts and ends outside comments. -/
lemma ColorAt.endsOutsideComments (h : ColorAt first (maskComments t) span) :
    EndsOutsideComments t span := by
  obtain ⟨last, k, hlast, hk, hstop⟩ := h.standsAt_last
  have hfirst := h.standsAt
  obtain ⟨-, -, -, -, ⟨hstarts, -⟩, -⟩ := h
  have hspace : first ≠ ' ' := by
    rintro rfl
    exact hstarts (by decide)
  refine ⟨⟨first, (standsAt_maskComments_iff hspace).1 hfirst⟩, ⟨last, k, ?_⟩⟩
  obtain ⟨hstands, hfree⟩ := (standsAt_maskComments_iff hlast).1 hk
  exact ⟨hstands, hstop, hfree⟩

/-- A span is in the value of a declaration. -/
def Declaration.Covers (d : Declaration) (span : Span) : Prop :=
  d.value.start ≤ span.start ∧ span.stop ≤ d.value.stop

/-- Nothing is in the values of two declarations. -/
lemma covers_unique {d d' : Declaration} (hd : d ∈ (Sheet.ofText t).declarations)
    (hd' : d' ∈ (Sheet.ofText t).declarations) (h : d.Covers span) (h' : d'.Covers span)
    (hlt : span.start < span.stop) : d = d' := by
  obtain ⟨hin, hordered⟩ := declarations_placed t
  have hapart : (Sheet.ofText t).declarations.Pairwise fun x y =>
      ¬ (x.Covers span ∧ y.Covers span) := by
    refine hordered.imp_of_mem fun {x y} _ hy hbefore => ?_
    rintro ⟨⟨-, hx⟩, ⟨hy', -⟩⟩
    have hbounds := (hin y hy).bounds
    have hgap : x.value.stop < y.property.start := hbefore
    omega
  have hsymm : Std.Symm fun x y : Declaration => ¬ (x.Covers span ∧ y.Covers span) :=
    ⟨fun _ _ hxy hyx => hxy hyx.symm⟩
  by_contra hne
  exact hapart.forall hd hd' hne ⟨h, h'⟩

/-- A span is that of a colour: in the value of one declaration, outside all that rules are for, and
not ending in comments. -/
structure ColorPlaced (t : Text) (declarations : List Declaration) (span : Span) : Prop where
  covered : ∃! d, d ∈ declarations ∧ d.Covers span
  ends : EndsOutsideComments t span
  /-- What an opening brace follows is apart from it. -/
  apart : ∀ start w b, Stretch (maskComments t) start w ('\x7b' :: b) →
    span.stop ≤ start ∨ start + bytes w ≤ span.start

/-- Where the declarations of a sheet are. -/
structure DeclarationsPlaced (t : Text) (declarations : List Declaration) : Prop where
  ordered : declarations.Pairwise Declaration.Before
  parts : ∀ d ∈ declarations, d.property.start < d.property.stop ∧
    d.property.stop < d.value.start ∧ d.value.start ≤ d.value.stop ∧ d.value.stop ≤ bytes t
  /-- A delimiter in a declaration is in a comment. -/
  free : ∀ d ∈ declarations, ∀ c k, IsDelimiter c → t.StandsAt c k → ¬ Commented t k →
    ¬ d.property.Holds k ∧ ¬ d.value.Holds k

/-- Where the colours of a sheet are. -/
structure ColorsPlaced (t : Text) (declarations : List Declaration)
    (colors : List ColorInformation) : Prop where
  ordered : colors.Pairwise fun x y => x.range.stop.upTo y.range.start
  proper : ∀ x ∈ colors, x.range.start.precedes x.range.stop
  placed : ∀ x ∈ colors, ∃ span, x.range = span.rangeIn t ∧ ColorPlaced t declarations span

lemma declarationsPlaced_ofText (t : Text) :
    DeclarationsPlaced t (Sheet.ofText t).declarations := by
  obtain ⟨hin, hordered⟩ := declarations_placed t
  refine ⟨hordered, fun d hd => ?_, fun d hd c k hc hk hfree => ?_⟩
  · rw [← (masks_maskComments t).bytes_eq]
    exact (hin d hd).bounds
  · exact (hin d hd).outside ((standsAt_maskComments_iff hc.ne_space).2 ⟨hk, hfree⟩) hc

lemma colorPlaced_of_mem_foundColors {x : Span × Color} (h : x ∈ foundColors t) :
    x.1.start < x.1.stop ∧ ColorPlaced t (Sheet.ofText t).declarations x.1 := by
  obtain ⟨hin, -⟩ := declarations_placed t
  obtain ⟨d, hd, hx⟩ := List.mem_flatMap.1 h
  obtain ⟨⟨first, hcolor⟩, hcovers⟩ := mem_colorsIn_value (hin d hd) hx
  have hlt := hcolor.start_lt_stop
  refine ⟨hlt, ⟨d, ⟨hd, hcovers⟩, fun d' hd' => ?_⟩, hcolor.endsOutsideComments, ?_⟩
  · exact covers_unique hd'.1 hd hd'.2 hcovers hlt
  · intro start w b hrule
    exact ((hin d hd).value_apart hrule).imp hcovers.2.trans fun hle => hle.trans hcovers.1

lemma colorsPlaced_colorsOf (t : Text) :
    ColorsPlaced t (Sheet.ofText t).declarations (colorsOf t) := by
  have hperm := List.mergeSort_perm
    ((foundColors t).map fun x => (⟨x.1.rangeIn t, x.2⟩ : ColorInformation))
    fun a b => a.range.start.upTo b.range.start
  have hmem : ∀ a ∈ colorsOf t, ∃ x ∈ foundColors t, ⟨x.1.rangeIn t, x.2⟩ = a :=
    fun a ha => List.mem_map.1 (hperm.mem_iff.1 ha)
  have hproper : ∀ a ∈ colorsOf t, a.range.start.precedes a.range.stop := by
    intro a ha
    obtain ⟨x, hx, rfl⟩ := hmem a ha
    obtain ⟨hlt, hplaced⟩ := colorPlaced_of_mem_foundColors hx
    exact positionAt_precedes hplaced.ends.isBoundary.1 hplaced.ends.isBoundary.2 hlt
  refine ⟨?_, hproper, fun a ha => ?_⟩
  · have hsorted : (colorsOf t).Pairwise fun a b => a.range.start.upTo b.range.start :=
      Position.pairwise_mergeSort (fun a : ColorInformation => a.range.start) _
    have hapart : (colorsOf t).Pairwise fun a b =>
        a.range.stop.upTo b.range.start ∨ b.range.stop.upTo a.range.start := by
      refine (hperm.pairwise_iff Or.symm).2 (List.pairwise_map.2 ((foundColors_apart t).imp ?_))
      exact fun hxy => hxy.imp (positionAt_upTo t) (positionAt_upTo t)
    refine (hsorted.and hapart).imp_of_mem fun {a b} _ hb hab => hab.2.resolve_right fun hback => ?_
    -- a colour that is not behind the other would end where it starts
    obtain ⟨hle, hne⟩ := Position.precedes_iff.1 (hproper b hb)
    exact hne (Position.upTo_antisymm hle (Position.upTo_trans hback hab.1))
  · obtain ⟨x, hx, rfl⟩ := hmem a ha
    exact ⟨x.1, rfl, (colorPlaced_of_mem_foundColors hx).2⟩

/-- **Declarations and colours of a style sheet are where they are said to be**, in positions that
can be sent if the sheet has less than 4 GiB; larger ones are out of scope. -/
theorem declarations_and_colors_placed (language : String) (e : Embedded) :
    DeclarationsPlaced e.text (Sheet.ofText e.text).declarations ∧
      ∃ colors, ((adapter language).colors e).answer = .ok colors ∧
        ColorsPlaced e.text (Sheet.ofText e.text).declarations colors :=
  ⟨declarationsPlaced_ofText e.text, _, rfl, colorsPlaced_colorsOf e.text⟩

end Mosaic.Style
