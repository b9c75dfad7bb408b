import Mosaic.Metadata.Outline
import Mosaic.Proofs.Boundary

/-!
# The keys of a metadata block

A key stands at the beginning of its line, and the next key is on a later line.

* `Metadata.Key.StandsIn` — the name of a key stands in the text, on one line.
* `Metadata.standsIn_of_mem_keys` — all keys of a text do.
* `Metadata.pairwise_keys` — the line of a key ends before the next key starts.
-/

namespace Mosaic.Metadata

open Text

variable {t line name : Text} {k : Key} {b : Bool} {n : Nat}

/-- The name of a key stands in a text, with the rest of its line behind it. -/
structure Key.StandsIn (t : Text) (k : Key) : Prop where
  occurs : ∃ a b c, t = a ++ (k.name ++ (b ++ c)) ∧ k.span = Span.ofText (bytes a) k.name ∧
    k.lineStop = k.span.stop + bytes b
  nonempty : k.name ≠ []
  noLineFeed : '\n' ∉ k.name

lemma Key.StandsIn.bounds (h : k.StandsIn t) :
    k.span.start ≤ k.span.stop ∧ k.span.stop ≤ k.lineStop := by
  obtain ⟨⟨a, b, c, -, hspan, hstop⟩, -, -⟩ := h
  rw [hstop, hspan]
  exact ⟨Nat.le_add_right .., Nat.le_add_right ..⟩

/-- A name at the start of a line is not empty and does not leave the line. -/
lemma keyAt?_eq_some (h : keyAt? line = some name) :
    name ≠ [] ∧ '\n' ∉ name ∧ name <+: line := by
  cases line with
  | nil => simp [keyAt?] at h
  | cons c r =>
    simp only [keyAt?] at h
    split at h
    · split at h
      next hc =>
        obtain rfl := Option.some.inj h
        simp only [Bool.and_eq_true, Bool.or_eq_true, beq_iff_eq] at hc
        refine ⟨by simp, fun hmem => ?_, List.cons_prefix_cons.2 ⟨rfl, List.takeWhile_prefix _⟩⟩
        rcases List.mem_cons.1 hmem with rfl | hmem
        · exact absurd hc.1 (by decide)
        · exact absurd (List.mem_takeWhile_imp hmem) (by decide)
      · contradiction
    · contradiction

/-- A key that was found at the start of a line stands there. -/
lemma standsIn_of_ofLine? (a : Text) (h : Key.ofLine? (bytes a) line = some k) :
    k.StandsIn (a ++ line) ∧ k.span.start = bytes a ∧
      k.lineStop = bytes a + bytes (line.takeWhile (· != '\n')) := by
  obtain ⟨name, hname, rfl⟩ := Option.map_eq_some_iff.1 h
  obtain ⟨hne, hline, rest, rfl⟩ := keyAt?_eq_some hname
  have hall : ∀ c ∈ name, (c != '\n') = true := by
    intro c hc
    rw [bne_iff_ne]
    rintro rfl
    exact hline hc
  have hfirst : (name ++ rest).takeWhile (· != '\n') = name ++ rest.takeWhile (· != '\n') :=
    List.takeWhile_append_of_pos hall
  refine ⟨⟨⟨a, rest.takeWhile (· != '\n'), rest.dropWhile (· != '\n'), ?_, rfl, ?_⟩, hne, hline⟩,
    rfl, rfl⟩
  · rw [List.takeWhile_append_dropWhile]
  · show bytes a + bytes ((name ++ rest).takeWhile (· != '\n')) = _
    rw [hfirst, bytes_append, Span.ofText, Nat.add_assoc]

/-- No key is found at the start of an empty line. -/
lemma ne_lineFeed_of_ofLine? {c : Char} {r : Text} (h : Key.ofLine? n (c :: r) = some k) :
    c ≠ '\n' := by
  obtain ⟨name, hname, -⟩ := Option.map_eq_some_iff.1 h
  obtain ⟨hne, hline, hprefix⟩ := keyAt?_eq_some hname
  obtain ⟨d, name, rfl⟩ := List.exists_cons_of_ne_nil hne
  obtain ⟨rfl, -⟩ := List.cons_prefix_cons.1 hprefix
  rintro rfl
  exact hline List.mem_cons_self

/-- All keys found from some offset on stand in the text. -/
lemma standsIn_of_mem_keysFrom (a : Text) (h : k ∈ keysFrom b (bytes a) line) :
    k.StandsIn (a ++ line) ∧ bytes a ≤ k.span.start := by
  induction line generalizing a b with
  | nil => exact absurd h (by simp [keysFrom])
  | cons c r ih =>
    rw [keysFrom] at h
    rcases List.mem_append.1 h with h | h
    · split at h
      · obtain ⟨hstands, hstart, -⟩ := standsIn_of_ofLine? a (Option.mem_toList.1 h)
        exact ⟨hstands, hstart.ge⟩
      · exact absurd h (by simp)
    · have hsize : bytes a + c.utf8Size = bytes (a ++ [c]) := by simp
      rw [hsize] at h
      obtain ⟨hstands, hle⟩ := ih (a ++ [c]) h
      rw [← hsize] at hle
      exact ⟨by simpa using hstands, (Nat.le_add_right ..).trans hle⟩

/-- In the middle of a line no key is found before the line ends. -/
lemma lineStop_le_of_mem_keysFrom (a : Text) (h : k ∈ keysFrom false (bytes a) line) :
    bytes a + bytes (line.takeWhile (· != '\n')) ≤ k.span.start := by
  induction line generalizing a with
  | nil => exact absurd h (by simp [keysFrom])
  | cons c r ih =>
    have hsize : bytes a + c.utf8Size = bytes (a ++ [c]) := by simp
    rw [keysFrom, if_neg Bool.false_ne_true, List.nil_append, hsize] at h
    by_cases hc : c = '\n'
    · have hle := (standsIn_of_mem_keysFrom (a ++ [c]) h).2
      rw [← hsize] at hle
      simp only [hc, bne_self_eq_false, Bool.false_eq_true, not_false_eq_true,
        List.takeWhile_cons_of_neg, bytes_nil]
      omega
    · rw [beq_false_of_ne hc] at h
      have hle := ih (a ++ [c]) h
      rw [← hsize] at hle
      rw [List.takeWhile_cons_of_pos (by simpa using hc), bytes_cons]
      omega

lemma pairwise_keysFrom (a : Text) :
    (keysFrom b (bytes a) line).Pairwise fun k next => k.lineStop ≤ next.span.start := by
  induction line generalizing a b with
  | nil => exact List.Pairwise.nil
  | cons c r ih =>
    have hsize : bytes a + c.utf8Size = bytes (a ++ [c]) := by simp
    rw [keysFrom, hsize]
    refine List.pairwise_append.2 ⟨?_, ih (a ++ [c]), fun k hk next hnext => ?_⟩
    · split
      · cases Key.ofLine? (bytes a) (c :: r) <;> simp
      · exact List.Pairwise.nil
    · split at hk
      · -- the line goes on behind its first character, and so does the search
        have hkey : Key.ofLine? (bytes a) (c :: r) = some k := Option.mem_toList.1 hk
        have hc := ne_lineFeed_of_ofLine? hkey
        rw [beq_false_of_ne hc] at hnext
        have hle := lineStop_le_of_mem_keysFrom (a ++ [c]) hnext
        rw [(standsIn_of_ofLine? a hkey).2.2, List.takeWhile_cons_of_pos (by simpa using hc),
          bytes_cons]
        rw [← hsize] at hle
        omega
      · exact absurd hk (by simp)

/-- **The keys of a metadata block stand in it.** -/
theorem standsIn_of_mem_keys (h : k ∈ keys t) : k.StandsIn t :=
  (standsIn_of_mem_keysFrom [] h).1

/-- **The keys of a metadata block follow each other**: the line of one ends before the next one
starts. -/
theorem pairwise_keys (t : Text) :
    (keys t).Pairwise fun k next => k.lineStop ≤ next.span.start :=
  pairwise_keysFrom []

end Mosaic.Metadata
