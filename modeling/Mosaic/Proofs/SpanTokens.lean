import Mosaic.Proofs.HighlightedNames
import Mosaic.Proofs.PositionLookup

/-!
# The token of a span

A semantic token is made from a span of bytes.  Its length is the difference of two characters,
which are 32-bit words; the difference is only taken where both are on one line, and so it is
never below zero, wherever the ends of the span fall.

* `SemanticToken.wordsOfSpan?` — the token computed with words, where a difference may fail.
* `SemanticToken.wordsOfSpan?_eq` — none fails.
* `SemanticToken.ofSpan?_cases` — which spans between characters have a token, and what it tells.
* `span_tokens_exact` — both.
-/

namespace Mosaic

open Text Utf8

/-- A position in 32-bit words.  What does not fit is lost. -/
def Position.inWords (p : Position) : Position :=
  ⟨p.line % wordLimit, p.character % wordLimit⟩

namespace SemanticToken

variable {t : Text} {start stop kind modifiers : Nat}

/-- The token of a span, its numbers being 32-bit words.  There is no result if a difference of
words would be below zero. -/
def wordsOfSpan? (t : Text) (start stop kind modifiers : Nat) : Option (Option SemanticToken) :=
  let first := (positionAt t start).inWords
  let last := (positionAt t stop).inWords
  if start < stop ∧ first.line = last.line then
    (sub? last.character first.character).map fun length =>
      some ⟨first.line, first.character, length, kind, modifiers⟩
  else some none

/-- The positions of a text below 4 GiB fit into words. -/
lemma inWords_positionAt (hsize : bytes t < wordLimit) (n : Nat) :
    (positionAt t n).inWords = positionAt t n := by
  obtain ⟨hline, hcharacter⟩ := positionAt_le_bytes t n
  rw [Position.inWords, Nat.mod_eq_of_lt (hline.trans_lt hsize),
    Nat.mod_eq_of_lt (hcharacter.trans_lt hsize)]

/-- Further on in one line the character is not less. -/
lemma character_le_of_line_eq (hlt : start < stop)
    (hline : (positionAt t start).line = (positionAt t stop).line) :
    (positionAt t start).character ≤ (positionAt t stop).character := by
  rcases Position.upTo_iff.1 (positionAt_upTo t hlt.le) with hless | ⟨-, hle⟩
  · exact absurd hline hless.ne
  · exact hle

/-- **The length of a token is never below zero**, whatever the span. -/
theorem wordsOfSpan?_eq (hsize : bytes t < wordLimit) :
    wordsOfSpan? t start stop kind modifiers = some (ofSpan? t start stop kind modifiers) := by
  simp only [wordsOfSpan?, ofSpan?, inWords_positionAt hsize]
  split
  next h => rw [sub?_of_le (character_le_of_line_eq h.1 h.2), Option.map_some]
  next => rfl

/-- A span over a line break has no token. -/
lemma ofSpan?_of_lineFeed (a b : Text) {mid : Text} (h : '\n' ∈ mid) :
    ofSpan? (a ++ (mid ++ b)) (bytes a) (bytes a + bytes mid) kind modifiers = none := by
  have hpos := List.count_pos_iff.2 h
  have hboth : takeBytes (bytes a + bytes mid) (a ++ (mid ++ b)) = a ++ mid := by
    rw [← bytes_append, ← List.append_assoc, takeBytes_bytes_append]
  have hfirst : (positionAt (a ++ (mid ++ b)) (bytes a)).line = a.count '\n' := by
    rw [positionAt, takeBytes_bytes_append, line_endPosition, Nat.zero_add]
  have hlast : (positionAt (a ++ (mid ++ b)) (bytes a + bytes mid)).line
      = a.count '\n' + mid.count '\n' := by
    rw [positionAt, hboth, line_endPosition, Nat.zero_add, List.count_append]
  rw [ofSpan?, if_neg]
  rintro ⟨-, hline⟩
  omega

/-- **A span between characters has a token exactly if it holds some text on one line.**  The
token is where that text starts, and as long. -/
theorem ofSpan?_cases (kind modifiers : Nat) (hstart : IsBoundary t start)
    (hstop : IsBoundary t stop) :
    (start < stop ∧ '\n' ∉ slice start stop t ∧
      ofSpan? t start stop kind modifiers
        = some ⟨(positionAt t start).line, (positionAt t start).character,
            units (slice start stop t), kind, modifiers⟩) ∨
    ((start < stop → '\n' ∈ slice start stop t) ∧
      ofSpan? t start stop kind modifiers = none) := by
  by_cases hlt : start < stop
  · obtain ⟨a, mid, b, rfl, rfl, rfl⟩ := hstart.parts hstop hlt.le
    rw [slice_parts]
    by_cases hline : '\n' ∈ mid
    · exact .inr ⟨fun _ => hline, ofSpan?_of_lineFeed a b hline⟩
    · have hne : mid ≠ [] := by
        rintro rfl
        exact absurd hlt (by simp)
      have htoken := (Span.onLine_ofText a b hne hline).ofSpan?_eq kind modifiers
      rw [Span.textIn, Span.ofText, slice_parts] at htoken
      exact .inl ⟨hlt, hline, htoken⟩
  · refine .inr ⟨fun h => absurd h hlt, ?_⟩
    rw [ofSpan?, if_neg fun h => hlt h.1]

end SemanticToken

/-- **The token of a span is exact.**  In a text below 4 GiB it is computed without a difference
below zero, whether the span is in order or not, between characters or not, in the text or not.  A
span between characters has a token exactly if it is not empty and stays on its line; the token
starts where the span does and is as long as its text in UTF-16 units. -/
theorem span_tokens_exact (t : Text) (hsize : bytes t < wordLimit)
    (start stop kind modifiers : Nat) :
    SemanticToken.wordsOfSpan? t start stop kind modifiers
        = some (SemanticToken.ofSpan? t start stop kind modifiers) ∧
      (IsBoundary t start → IsBoundary t stop →
        ((SemanticToken.ofSpan? t start stop kind modifiers).isSome ↔
            start < stop ∧ '\n' ∉ slice start stop t) ∧
          ∀ token, SemanticToken.ofSpan? t start stop kind modifiers = some token →
            token.position = positionAt t start ∧ token.length = units (slice start stop t) ∧
              token.kind = kind ∧ token.modifiers = modifiers) := by
  refine ⟨SemanticToken.wordsOfSpan?_eq hsize, fun hstart hstop => ?_⟩
  rcases SemanticToken.ofSpan?_cases kind modifiers hstart hstop with
    ⟨hlt, hline, htoken⟩ | ⟨hlines, hnone⟩
  · rw [htoken]
    refine ⟨iff_of_true rfl ⟨hlt, hline⟩, fun token h => ?_⟩
    obtain rfl := Option.some.inj h
    exact ⟨rfl, rfl, rfl, rfl⟩
  · rw [hnone]
    exact ⟨iff_of_false Bool.false_ne_true fun h => h.2 (hlines h.1), nofun⟩

/-- The second line of a text, with a character of two units in it, and the line break before it. -/
theorem span_tokens_exact_second_line :
    let t : Text := "a\n😀é".toList
    bytes t < wordLimit ∧ IsBoundary t 2 ∧ IsBoundary t 8 ∧
      SemanticToken.wordsOfSpan? t 8 3 0 0 = some (SemanticToken.ofSpan? t 8 3 0 0) ∧
      ((SemanticToken.ofSpan? t 2 8 3 0).isSome ↔ 2 < 8 ∧ '\n' ∉ slice 2 8 t) ∧
      ∀ token, SemanticToken.ofSpan? t 2 8 3 0 = some token → token.length = 3 := by
  intro t
  have hsize : bytes t < wordLimit := by decide +kernel
  have hstart : IsBoundary t 2 := ⟨"a\n".toList, "😀é".toList, by decide, by decide⟩
  have hstop : IsBoundary t 8 := ⟨t, [], by decide, by decide⟩
  obtain ⟨hsome, htoken⟩ := (span_tokens_exact t hsize 2 8 3 0).2 hstart hstop
  refine ⟨hsize, hstart, hstop, (span_tokens_exact t hsize 8 3 0 0).1, hsome, fun token h => ?_⟩
  rw [(htoken token h).2.1]
  decide +kernel

end Mosaic
