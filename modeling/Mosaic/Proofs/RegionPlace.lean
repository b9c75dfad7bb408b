import Mosaic.Proofs.TokenStream
import Mosaic.Region.Scan

/-!
# Where single regions stand

The spans of regions are computed from offsets: white space and dashes are counted off a run of
text, quotes off a token.  `Region.LiesIn` says what such a span amounts to, a part of the source
between two characters of it, and for the value of an attribute a part between two quotes.

* `Scan.trimmedBlock_liesIn` — the block of the template lies in the source and between its tags.
* `Scan.metadataBlock_liesIn` — the metadata block lies strictly inside its run of loose text.
* `Scan.attributeRegion_liesIn` — the region of an attribute value lies strictly inside its token.
-/

namespace Mosaic

open Text Markup

/-- A part of a text that stands on one line and between two equal quotes, and holds no such
quote. -/
structure Text.Quoted (before inner after : Text) : Prop where
  nonempty : inner ≠ []
  noLineFeed : '\n' ∉ inner
  noReturn : '\r' ∉ inner
  quotes : ∃ q, (q = '"' ∨ q = '\'') ∧ q ∉ inner ∧ [q] <:+ before ∧ [q] <+: after

namespace Region

/-- The region is a part of the source; if it is the value of an attribute, the quoted part. -/
def LiesIn (source : Text) (r : Region) : Prop :=
  ∃ before inner after, source = before ++ (inner ++ after) ∧ bytes before = r.start ∧
    bytes before + bytes inner = r.stop ∧ (r.inAttribute → Quoted before inner after)

variable {source : Text} {r : Region}

lemma LiesIn.start_le_stop (h : r.LiesIn source) : r.start ≤ r.stop := by
  obtain ⟨before, inner, after, -, hs, he, -⟩ := h
  omega

lemma LiesIn.isBoundary_start (h : r.LiesIn source) : IsBoundary source r.start := by
  obtain ⟨before, inner, after, rfl, hs, -, -⟩ := h
  exact ⟨before, inner ++ after, rfl, hs⟩

lemma LiesIn.isBoundary_stop (h : r.LiesIn source) : IsBoundary source r.stop := by
  obtain ⟨before, inner, after, rfl, -, he, -⟩ := h
  exact ⟨before ++ inner, after, by simp, by rw [bytes_append, he]⟩

/-- A block between two boundaries lies in the source. -/
lemma LiesIn.block {language : String} {m n : Nat} (hm : IsBoundary source m)
    (hn : IsBoundary source n) (h : m ≤ n) : (block language m n).LiesIn source := by
  obtain ⟨before, inner, after, hs, hb, he⟩ := hm.parts hn h
  exact ⟨before, inner, after, hs, hb, he, nofun⟩

end Region

/-! ## Counting off both ends of a text -/

namespace Text

lemma bytes_reverse (t : Text) : bytes t.reverse = bytes t := by
  induction t with
  | nil => rfl
  | cons c r ih => simp [ih, Nat.add_comm]

/-- Dashes are counted in characters and in bytes alike. -/
lemma bytes_of_dashes {t : Text} (h : ∀ c ∈ t, c == '-') : bytes t = t.length := by
  induction t with
  | nil => rfl
  | cons c r ih =>
    have hc : c = '-' := by simpa using h c (by simp)
    have hd : '-'.utf8Size = 1 := rfl
    rw [bytes_cons, ih fun x hx => h x (by simp [hx]), List.length_cons, hc, hd, Nat.add_comm]

/-- What is taken off the end of a text is not also taken off its front, unless it is the whole
text. -/
lemma rtakeWhile_dropWhile (p : Char → Bool) (t : Text)
    (h : (t.takeWhile p).length ≠ t.length) : t.rtakeWhile p = (t.dropWhile p).rtakeWhile p := by
  have hsplit := List.takeWhile_append_dropWhile (p := p) (l := t)
  have hne : ¬ ∀ x ∈ t.dropWhile p, p x := by
    intro hall
    cases hd : t.dropWhile p with
    | nil => rw [hd, List.append_nil] at hsplit; exact h (by rw [hsplit])
    | cons x r => exact head?_dropWhile p t x (by simp [hd]) (hall x (by simp [hd]))
  conv_lhs => rw [← hsplit]
  rw [List.rtakeWhile, List.reverse_append, List.takeWhile_append, if_neg, List.rtakeWhile]
  intro hlen
  refine hne fun x hx => ?_
  have := (List.takeWhile_prefix (l := (t.dropWhile p).reverse) p).eq_of_length hlen
  exact List.takeWhile_eq_self_iff.1 this x (by simpa using hx)

/-- What is taken off the two ends of a text never overlaps, unless it is the whole text. -/
lemma exists_between (p : Char → Bool) (t : Text) (h : (t.takeWhile p).length ≠ t.length) :
    ∃ mid, t = t.takeWhile p ++ (mid ++ t.rtakeWhile p) := by
  refine ⟨(t.dropWhile p).rdropWhile p, ?_⟩
  rw [rtakeWhile_dropWhile p t h, List.rdropWhile_append_rtakeWhile,
    List.takeWhile_append_dropWhile]

/-- A text is what it is trimmed to, and white space around that. -/
lemma takeWhile_append_trim (t : Text) :
    t.takeWhile isBlank ++ (trim t ++ (trimStart t).rtakeWhile isBlank) = t := by
  have htrail : trim t ++ (trimStart t).rtakeWhile isBlank = trimStart t :=
    List.rdropWhile_append_rtakeWhile
  rw [htrail, trimStart, List.takeWhile_append_dropWhile]

/-- Counting the white space off both ends of a text leaves the trimmed text. -/
theorem max_trimmed (start : Nat) (t : Text) :
    max (start + bytes (t.takeWhile isBlank))
        (start + bytes t - bytes (t.reverse.takeWhile isBlank))
      = start + bytes (t.takeWhile isBlank) + bytes (trim t) := by
  have hlength := congrArg bytes (takeWhile_append_trim t)
  simp only [bytes_append] at hlength
  by_cases hall : (t.takeWhile isBlank).length = t.length
  · -- nothing but white space
    rw [(List.takeWhile_prefix isBlank).eq_of_length hall] at hlength ⊢
    omega
  · have htrail : bytes (t.reverse.takeWhile isBlank) = bytes ((trimStart t).rtakeWhile isBlank) := by
      rw [trimStart, ← rtakeWhile_dropWhile isBlank t hall, List.rtakeWhile, bytes_reverse]
    omega

end Text

/-! ## The spans of single regions -/

namespace Scan

variable {source : Text}

/-- The block of the template stays between the two ends that were found for it. -/
theorem trimmedBlock_liesIn (language : String) {start stop : Nat} (hs : IsBoundary source start)
    (he : IsBoundary source stop) :
    (trimmedBlock source language start stop).LiesIn source ∧
      start ≤ (trimmedBlock source language start stop).start ∧
      (trimmedBlock source language start stop).stop ≤ max start stop := by
  obtain ⟨a, mid, b, rfl, rfl, hstop⟩ := hs.parts (hs.max he) (le_max_left ..)
  have hleft : IsBoundary mid (bytes (mid.takeWhile isBlank)) :=
    ⟨_, _, List.takeWhile_append_dropWhile.symm, rfl⟩
  have hright : IsBoundary mid (bytes (mid.rdropWhile isBlank)) :=
    ⟨_, _, List.rdropWhile_append_rtakeWhile.symm, rfl⟩
  have hlast : bytes a + bytes mid - bytes (mid.reverse.takeWhile isBlank)
      = bytes a + bytes (mid.rdropWhile isBlank) := by
    have := congrArg bytes (List.rdropWhile_append_rtakeWhile (p := isBlank) (l := mid))
    rw [bytes_append, List.rtakeWhile, bytes_reverse] at this
    omega
  have hblock : trimmedBlock (a ++ (mid ++ b)) language (bytes a) stop
      = .block language (bytes a + bytes (mid.takeWhile isBlank))
          (max (bytes a + bytes (mid.takeWhile isBlank))
            (bytes a + bytes (mid.rdropWhile isBlank))) := by
    simp only [trimmedBlock, ← hstop, slice_parts, hlast]
  rw [hblock]
  refine ⟨.block (hleft.shift a b) ((hleft.shift a b).max (hright.shift a b)) (le_max_left ..),
    Nat.le_add_right .., ?_⟩
  have h1 := hleft.le
  have h2 := hright.le
  exact max_le (by omega) (by omega)

/-- A metadata block has its dashes around it in the run in which it was found. -/
theorem metadataBlock_liesIn {before run after : Text} {start : Nat} {r : Region}
    (hsource : source = before ++ (run ++ after)) (hstart : bytes before = start)
    (h : metadataBlock? start run = some r) :
    r.LiesIn source ∧ start ≤ r.start ∧ r.stop < start + bytes run := by
  subst hsource hstart
  simp only [metadataBlock?] at h
  split at h
  · contradiction
  next hdash =>
    rw [not_or, not_or] at hdash
    obtain ⟨-, hclosing, hwhole⟩ := hdash
    obtain ⟨mid, hmid⟩ := exists_between (· == '-') (trim run) hwhole
    have hopen := bytes_of_dashes (forall_takeWhile (· == '-') (trim run))
    have hclose : bytes ((trim run).rtakeWhile (· == '-'))
        = ((trim run).reverse.takeWhile (· == '-')).length := by
      rw [bytes_of_dashes fun c hc => List.mem_rtakeWhile_imp (p := (· == '-')) hc,
        List.rtakeWhile, List.length_reverse]
    obtain rfl := Option.some.inj h
    rw [← hclose] at hclosing
    rw [← hopen, ← hclose]
    generalize (trim run).takeWhile (· == '-') = opening at hmid
    generalize (trim run).rtakeWhile (· == '-') = closing at hmid hclosing
    -- the run: white space, dashes, the block, dashes, white space
    have hrun : run = run.takeWhile isBlank ++ (opening ++ (mid ++ (closing ++
        (trimStart run).rtakeWhile isBlank))) := by
      have hstart : run.takeWhile isBlank ++ trimStart run = run :=
        List.takeWhile_append_dropWhile
      have hend : trim run ++ (trimStart run).rtakeWhile isBlank = trimStart run :=
        List.rdropWhile_append_rtakeWhile
      rw [hmid] at hend
      conv_lhs => rw [← hstart, ← hend]
      simp
    have hlen := congrArg bytes hrun
    simp only [bytes_append] at hlen
    rw [hmid, bytes_append, bytes_append]
    refine ⟨⟨before ++ (run.takeWhile isBlank ++ opening), mid,
      closing ++ ((trimStart run).rtakeWhile isBlank ++ after), ?_, ?_, ?_, nofun⟩, ?_, ?_⟩
    · conv_lhs => rw [hrun]
      simp
    · simp only [Region.block, bytes_append]
      omega
    · simp only [Region.block, bytes_append]
      omega
    · simp only [Region.block]
      omega
    · simp only [Region.block]
      omega

lemma quoted?_eq_some {t inner : Text} (h : quoted? t = some inner) :
    ∃ q, (q = '"' ∨ q = '\'') ∧ t = q :: (inner ++ [q]) := by
  cases t with
  | nil => simp [quoted?] at h
  | cons q r =>
    simp only [quoted?, Option.ite_none_right_eq_some, Option.some.injEq] at h
    obtain ⟨⟨hq, hlast⟩, rfl⟩ := h
    obtain ⟨front, rfl⟩ := List.getLast?_eq_some_iff.1 hlast
    exact ⟨q, hq, by rw [List.dropLast_concat]⟩

/-- What stands between the quotes of a value holds no such quote. -/
lemma not_mem_of_delimited {q : Char} {inner : Text} (hq : q = '"' ∨ q = '\'')
    (h : Delimited (q :: (inner ++ [q]))) : q ∉ inner := by
  generalize ht : q :: (inner ++ [q]) = t at h
  cases h with
  | quoted q' inner' _ hn =>
    obtain ⟨rfl, he⟩ := List.cons.inj ht
    rwa [List.append_cancel_right he]
  | unfinished q' inner' _ hn =>
    obtain ⟨rfl, rfl⟩ := List.cons.inj ht
    exact absurd (by simp) hn
  | bare x inner' h1 h2 =>
    obtain ⟨rfl, -⟩ := List.cons.inj ht
    rcases hq with rfl | rfl <;> contradiction

/-- The region of an attribute value has its quotes around it in the token. -/
theorem attributeRegion_liesIn {options : ScanOptions} {name : Text} {t : Token} {r : Region}
    (ht : t.LiesIn source) (hkind : t.kind = .attributeValue)
    (h : attributeRegion? options name t = some r) :
    r.LiesIn source ∧ t.start < r.start ∧ r.stop < t.stop := by
  simp only [attributeRegion?] at h
  split at h
  next language inner _ hquoted =>
    rw [Option.ite_none_left_eq_some] at h
    obtain ⟨hplain, he⟩ := h
    obtain rfl := Option.some.inj he
    rw [not_or, not_or, List.isEmpty_iff] at hplain
    obtain ⟨hne, hlf, hcr⟩ := hplain
    obtain ⟨q, hq, htext⟩ := quoted?_eq_some hquoted
    have hsize : q.utf8Size = 1 := by rcases hq with rfl | rfl <;> rfl
    have hno := not_mem_of_delimited hq (htext ▸ ht.delimited hkind)
    obtain ⟨before, after, hs, hb, -⟩ := ht.located
    have hbytes : bytes t.text = 1 + (bytes inner + 1) := by simp [htext, hsize]
    simp only [Token.stop, hbytes, Region.ofAttribute]
    refine ⟨⟨before ++ [q], inner, q :: after, ?_, ?_, ?_, fun _ => ?_⟩, by omega, by omega⟩
    · rw [hs, htext]
      simp
    · simp [hb, hsize]
    · simp only [bytes_append, bytes_cons, bytes_nil, hsize]
      omega
    · exact ⟨hne, hlf, hcr, q, hq, hno, ⟨before, rfl⟩, ⟨after, rfl⟩⟩
  next => contradiction

/-- A block that is a whole token. -/
lemma block_liesIn (language : String) {t : Token} (ht : t.LiesIn source) :
    (Region.block language t.start t.stop).LiesIn source := by
  obtain ⟨before, after, hs, hb, -⟩ := ht.located
  exact ⟨before, t.text, after, hs, hb, by rw [hb]; rfl, nofun⟩

end Scan

end Mosaic
