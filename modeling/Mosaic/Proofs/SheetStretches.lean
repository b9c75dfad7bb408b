import Mosaic.Proofs.CommentSpans
import Mosaic.Proofs.SheetReading

/-!
# Between two delimiters

Braces and semicolons cut a style sheet into stretches.  What a rule is for is the stretch in front of
its opening brace, and a declaration is a stretch that ends in another way; so no two declarations have
anything in common, and none has anything in common with what a rule is for.

* `Style.Stretch` — a stretch of a text, and what follows it.
* `Style.Stretch.outside`, `Style.Stretch.start_eq` — no delimiter is in a stretch, and its end tells
  its start.
* `Style.SheetState.stretch_step` — the reader keeps the stretch that it is in.
* `Style.Declaration.InStretch`, `Style.declarations_placed` — the declarations of a sheet, each in a
  stretch of its own.
-/

namespace Mosaic.Style

open Text

variable {t w w' b b' read rest : Text} {c d : Char} {n n' k start : Nat} {s : SheetState}

/-! ## Stretches -/

/-- The characters that end a stretch of a style sheet. -/
def IsDelimiter (c : Char) : Prop :=
  c = '\x7b' ∨ c = ';' ∨ c = '\x7d'

lemma IsDelimiter.utf8Size (h : IsDelimiter c) : c.utf8Size = 1 := by
  rcases h with rfl | rfl | rfl <;> rfl

lemma IsDelimiter.ne_space (h : IsDelimiter c) : c ≠ ' ' := by
  rcases h with rfl | rfl | rfl <;> decide

/-- A stretch of a text, from its start or a delimiter on, with no delimiter in it, and what follows
it. -/
structure Stretch (t : Text) (start : Nat) (w b : Text) : Prop where
  stands : ∃ a, t = a ++ (w ++ b) ∧ bytes a = start ∧ ∀ c ∈ a.getLast?, IsDelimiter c
  free : ∀ c ∈ w, ¬ IsDelimiter c

namespace Stretch

/-- A stretch starts with the text or behind a delimiter. -/
lemma start_cases (h : Stretch t n w b) :
    n = 0 ∨ ∃ d k, IsDelimiter d ∧ t.StandsAt d k ∧ n = k + 1 := by
  obtain ⟨a, ht, hn, hlast⟩ := h.stands
  rcases List.eq_nil_or_concat a with rfl | ⟨a, d, rfl⟩
  · exact .inl hn.symm
  · have hd : IsDelimiter d := hlast d (by simp)
    refine .inr ⟨d, bytes a, hd, ⟨a, w ++ b, by rw [ht]; simp, rfl⟩, ?_⟩
    rw [← hn, List.concat_eq_append, bytes_append, bytes_cons, hd.utf8Size]
    rfl

/-- **All delimiters are outside a stretch.** -/
lemma outside (h : Stretch t n w b) (hk : t.StandsAt d k) (hd : IsDelimiter d) :
    k < n ∨ n + bytes w ≤ k := by
  obtain ⟨a, rfl, rfl, -⟩ := h.stands
  by_contra hin
  rw [not_or, not_lt, not_le] at hin
  exact h.free d (hk.mem_part hin.1 hin.2) hd

lemma start_le (h : Stretch t n w b) (h' : Stretch t n' w' b')
    (hstop : n + bytes w = n' + bytes w') : n' ≤ n := by
  rcases h'.start_cases with rfl | ⟨d, k, hd, hk, rfl⟩
  · exact Nat.zero_le n
  · rcases h.outside hk hd with hlt | hle <;> omega

/-- **Where a stretch ends tells where it starts.** -/
theorem start_eq (h : Stretch t n w b) (h' : Stretch t n' w' b')
    (hstop : n + bytes w = n' + bytes w') : n = n' :=
  le_antisymm (h'.start_le h hstop.symm) (h.start_le h' hstop)

/-- What follows a stretch stands at its end. -/
lemma standsAt (h : Stretch t n w (d :: b)) : t.StandsAt d (n + bytes w) := by
  obtain ⟨a, ht, hn, -⟩ := h.stands
  exact ⟨a ++ w, b, by rw [ht, List.append_assoc], by rw [bytes_append, hn]⟩

lemma stop_le (h : Stretch t n w b) : n + bytes w ≤ bytes t := by
  obtain ⟨a, rfl, rfl, -⟩ := h.stands
  rw [bytes_append, bytes_append]
  omega

/-- Of two stretches that end at different delimiters, one is behind the other. -/
lemma apart (h : Stretch t n w b) (h' : Stretch t n' w' (d :: b')) (hd : IsDelimiter d)
    (hb : ∀ c ∈ b.head?, IsDelimiter c ∧ c ≠ d) : n' + bytes w' < n ∨ n + bytes w < n' := by
  have hstands' := h'.standsAt
  rcases h.outside hstands' hd with hlt | hle
  · exact .inl hlt
  right
  cases b with
  | nil =>
    -- nothing is behind a stretch that ends with the text
    obtain ⟨a, ht, hn, -⟩ := h.stands
    obtain ⟨x, y, ht', hx⟩ := hstands'
    have h1 := congrArg bytes ht
    have h2 := congrArg bytes ht'
    have hsize := d.utf8Size_pos
    simp only [bytes_append, bytes_cons, bytes_nil] at h1 h2
    omega
  | cons c b =>
    obtain ⟨hc, hne⟩ := hb c rfl
    rcases h'.outside h.standsAt hc with hlt | hle'
    · exact hlt
    · refine absurd (Text.StandsAt.unique h.standsAt ?_) hne
      rwa [le_antisymm hle hle']

end Stretch

/-! ## The stretch that is being read -/

namespace SheetState

lemma offset_of_stretch (h : Stretch read s.chunkStart s.chunk []) : s.offset = bytes read := by
  obtain ⟨a, rfl, ha, -⟩ := h.stands
  rw [SheetState.offset, List.append_nil, bytes_append, ha]

/-- The stretch that has been read, in the whole text. -/
lemma stretch_whole (h : Stretch read start w []) (ht : t = read ++ rest) :
    Stretch t start w rest := by
  obtain ⟨a, rfl, ha, hlast⟩ := h.stands
  exact ⟨⟨a, by rw [ht]; simp, ha, hlast⟩, h.free⟩

lemma stretch_delimit (hoffset : s.offset = bytes read) (hc : IsDelimiter c) :
    Stretch (read ++ [c]) s.delimit.chunkStart s.delimit.chunk [] := by
  refine ⟨⟨read ++ [c], by simp [delimit], ?_, by simpa using hc⟩, nofun⟩
  rw [bytes_append, bytes_cons, hc.utf8Size, ← hoffset]
  rfl

/-- **Each step keeps the stretch that is being read.** -/
theorem stretch_step (h : Stretch read s.chunkStart s.chunk []) (c : Char) :
    Stretch (read ++ [c]) (s.step c).chunkStart (s.step c).chunk [] := by
  have hoffset := offset_of_stretch h
  unfold step
  split_ifs with hopen hsemicolon hclose
  · exact stretch_delimit hoffset (.inl hopen)
  · exact stretch_delimit (by simpa using hoffset) (.inr (.inl hsemicolon))
  · exact stretch_delimit (by simpa using hoffset) (.inr (.inr hclose))
  · obtain ⟨a, rfl, ha, hlast⟩ := h.stands
    refine ⟨⟨a, by simp, ha, hlast⟩, fun x hx => ?_⟩
    rcases List.mem_append.1 hx with hx | hx
    · exact h.free x hx
    · rw [List.mem_singleton.1 hx]
      rintro (rfl | rfl | rfl) <;> contradiction

lemma stretch_start : Stretch [] ({} : SheetState).chunkStart ({} : SheetState).chunk [] :=
  ⟨⟨[], rfl, rfl, nofun⟩, nofun⟩

end SheetState

/-! ## Declarations -/

/-- The parts of a declaration follow each other in the text it was read from, and its property is not
empty. -/
lemma Declaration.bounds_of_ofChunk? {d : Declaration} (h : ofChunk? start w = some d) :
    start ≤ d.property.start ∧ d.property.start < d.property.stop ∧
      d.property.stop < d.value.start ∧ d.value.start ≤ d.value.stop ∧
      d.value.stop ≤ start + bytes w := by
  obtain ⟨before, after, rfl, hname, rfl⟩ := parts_of_ofChunk? h
  have hpos : 0 < bytes (trim before) := bytes_pos (chars_of_isPropertyName hname).1
  have hproperty : (Span.ofTrimmed start before).start < (Span.ofTrimmed start before).stop := by
    rw [Span.ofTrimmed_eq, Span.ofText]
    exact Nat.lt_add_of_pos_right hpos
  have h1 := Span.ofTrimmed_bounds start before
  have h2 := Span.ofTrimmed_bounds (start + bytes before + 1) after
  have hcolon : bytes (':' :: after) = 1 + bytes after := rfl
  rw [bytes_append, hcolon]
  refine ⟨h1.1, hproperty, ?_, h2.2.1, ?_⟩ <;> dsimp only <;> omega

/-- A declaration is in a stretch that no opening brace ends. -/
def Declaration.InStretch (t : Text) (d : Declaration) : Prop :=
  ∃ start w b, Stretch t start w b ∧ (∀ c ∈ b.head?, c = ';' ∨ c = '\x7d') ∧
    ofChunk? start w = some d

/-- One declaration is behind another. -/
def Declaration.Before (d d' : Declaration) : Prop :=
  d.value.stop < d'.property.start

namespace SheetState

/-- What has been declared so far stands in front of the stretch that is being read. -/
structure DeclaredBefore (t read : Text) (s : SheetState) : Prop where
  stretch : Stretch read s.chunkStart s.chunk []
  inStretch : ∀ d ∈ s.sheet.declarations, d.InStretch t ∧ d.value.stop < s.chunkStart
  ordered : s.sheet.declarations.Pairwise Declaration.Before

/-- The stretch that is being read makes one more declaration at most, behind all others. -/
lemma declaredBefore_declare (h : s.DeclaredBefore t read) (ht : t = read ++ rest)
    (hrest : ∀ c ∈ rest.head?, c = ';' ∨ c = '\x7d') :
    (∀ d ∈ s.declare.sheet.declarations, d.InStretch t ∧ d.value.stop ≤ s.offset) ∧
      s.declare.sheet.declarations.Pairwise Declaration.Before := by
  have hold : ∀ d ∈ s.sheet.declarations, d.InStretch t ∧ d.value.stop ≤ s.offset :=
    fun d hd => ⟨(h.inStretch d hd).1, (h.inStretch d hd).2.le.trans (Nat.le_add_right ..)⟩
  unfold declare
  cases hchunk : Declaration.ofChunk? s.chunkStart s.chunk with
  | none => exact ⟨hold, h.ordered⟩
  | some d =>
    obtain ⟨hstart, -, -, -, hstop⟩ := Declaration.bounds_of_ofChunk? hchunk
    refine ⟨fun d' hd' => ?_, List.pairwise_append.2 ⟨h.ordered, List.pairwise_singleton _ _, ?_⟩⟩
    · rcases List.mem_append.1 hd' with hd' | hd'
      · exact hold d' hd'
      · rw [List.mem_singleton.1 hd']
        exact ⟨⟨_, _, rest, stretch_whole h.stretch ht, hrest, hchunk⟩, hstop⟩
    · intro d' hd' x hx
      rw [List.mem_singleton.1 hx]
      exact (h.inStretch d' hd').2.trans_le hstart

/-- Behind a semicolon or a closing brace, what was declared up to there stands in front. -/
lemma DeclaredBefore.ended {s' : SheetState} (h : s.DeclaredBefore t read)
    (ht : t = read ++ c :: rest) (hc : c = ';' ∨ c = '\x7d')
    (hstretch : Stretch (read ++ [c]) s'.chunkStart s'.chunk [])
    (hsame : s'.sheet.declarations = s.declare.sheet.declarations)
    (hstart : s'.chunkStart = s.offset + 1) : s'.DeclaredBefore t (read ++ [c]) := by
  obtain ⟨hall, hordered⟩ := declaredBefore_declare h ht (by simpa using hc)
  refine ⟨hstretch, fun d hd => ?_, by rwa [hsame]⟩
  rw [hsame] at hd
  rw [hstart]
  exact ⟨(hall d hd).1, Nat.lt_succ_of_le (hall d hd).2⟩

/-- **Each step keeps the declarations in front of the stretch that is being read.** -/
theorem declaredBefore_step (ht : t = read ++ c :: rest) (h : s.DeclaredBefore t read) :
    (s.step c).DeclaredBefore t (read ++ [c]) := by
  have hstretch := stretch_step h.stretch c
  unfold step at hstretch ⊢
  split_ifs at hstretch ⊢ with hopen hsemicolon hclose
  · refine ⟨hstretch, fun d hd => ⟨(h.inStretch d hd).1, ?_⟩, h.ordered⟩
    exact (h.inStretch d hd).2.trans_le ((Nat.le_add_right ..).trans (Nat.le_succ _))
  · have hstart : s.declare.delimit.chunkStart = s.offset + 1 :=
      congrArg (· + 1) (offset_declare s)
    exact h.ended ht (.inl hsemicolon) hstretch rfl hstart
  · have hstart : s.declare.closeRule.delimit.chunkStart = s.offset + 1 :=
      congrArg (· + 1) ((offset_closeRule _).trans (offset_declare s))
    exact h.ended ht (.inr hclose) hstretch (declarations_closeRule _) hstart
  · exact ⟨hstretch, h.inStretch, h.ordered⟩

end SheetState

/-- **The declarations of a sheet are in order, each in a stretch of its own.** -/
theorem declarations_placed (t : Text) :
    (∀ d ∈ (Sheet.ofText t).declarations, d.InStretch (maskComments t)) ∧
      (Sheet.ofText t).declarations.Pairwise Declaration.Before := by
  have hplaced := SheetState.run_reading (P := fun read s => s.DeclaredBefore (maskComments t) read)
    (maskComments t) ⟨SheetState.stretch_start, by simp, .nil⟩
    fun read c rest s ht h => SheetState.declaredBefore_step ht h
  rw [Sheet.ofText, SheetState.declarations_finish]
  obtain ⟨hall, hordered⟩ :=
    SheetState.declaredBefore_declare hplaced (List.append_nil _).symm (by simp)
  exact ⟨fun d hd => (hall d hd).1, hordered⟩

end Mosaic.Style
