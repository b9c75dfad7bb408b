import Mosaic.Proofs.Boundary
import Mosaic.Text.Blank

/-!
# Texts as bytes

A text that is read byte by byte can be cut within a character, and subtracting offsets can go below
zero.  Here is a text in UTF-8 with the operations that fail in such a case: `from?`, `between?`
and `cut?` on bytes, `sub?` on numbers.

Searches go byte by byte, and they still stop at boundaries: bytes beyond ASCII are all treated
alike, so that no search can tell the first byte of a character from the others.

* `isCharBoundary_utf8` — boundaries can be told from the bytes.
* `from?_utf8`, `between?_utf8` — slices at boundaries succeed.
* `takeWhile_utf8`, `isPrefixOf_utf8`, `search?_utf8` — what is done to the bytes is done to the
  text.
* `findIgnoringCase?_eq` — the search for an end tag takes no bytes that are not there.
-/

namespace Mosaic

open Text

/-! ## UTF-8 -/

/-- The text in UTF-8. -/
def Text.utf8 (t : Text) : List UInt8 :=
  t.flatMap String.utf8EncodeChar

namespace Text

@[simp] lemma utf8_nil : utf8 [] = [] := rfl

lemma utf8_cons (c : Char) (r : Text) : utf8 (c :: r) = String.utf8EncodeChar c ++ utf8 r := rfl

@[simp] lemma utf8_append (a b : Text) : utf8 (a ++ b) = utf8 a ++ utf8 b := List.flatMap_append

@[simp] lemma length_utf8 (t : Text) : (utf8 t).length = bytes t := by
  induction t with
  | nil => rfl
  | cons c r ih => rw [utf8_cons, List.length_append, String.length_utf8EncodeChar, ih, bytes_cons]

lemma length_le_bytes (t : Text) : t.length ≤ bytes t := by
  induction t with
  | nil => exact Nat.le_refl 0
  | cons c r ih =>
    have := c.utf8Size_pos
    rw [List.length_cons, bytes_cons]
    omega

end Text

namespace Utf8

lemma encode_ascii {c : Char} (h : c.toNat < 128) :
    String.utf8EncodeChar c = [UInt8.ofNat c.toNat] := by
  have hv : c.toNat ≤ 127 := Nat.le_of_lt_succ h
  simp only [String.utf8EncodeChar]
  exact if_pos hv

lemma utf8Size_ascii {c : Char} (h : c.toNat < 128) : c.utf8Size = 1 := by
  rw [← String.length_utf8EncodeChar, encode_ascii h, List.length_singleton]

/-- All bytes of a character beyond ASCII are 128 or more. -/
lemma le_of_mem_encode {c : Char} (h : ¬ c.toNat < 128) {b : UInt8}
    (hb : b ∈ String.utf8EncodeChar c) : 128 ≤ b.toNat := by
  have hv : ¬ c.val.toNat ≤ 127 := fun hle => h (Nat.lt_succ_of_le hle)
  simp only [String.utf8EncodeChar, if_neg hv] at hb
  split_ifs at hb <;> simp only [List.mem_cons, List.not_mem_nil, or_false] at hb <;>
    rcases hb with rfl | rfl | rfl | rfl <;> simp only [UInt8.toNat_ofNat'] <;> omega

/-- Whether a byte is the first one of a character. -/
def startsChar (b : UInt8) : Bool :=
  b.toNat < 128 || 192 ≤ b.toNat

lemma encode_eq_cons (c : Char) :
    ∃ b l, String.utf8EncodeChar c = b :: l ∧ startsChar b ∧ ∀ x ∈ l, ¬ startsChar x := by
  have hv : c.toNat = c.val.toNat := rfl
  simp only [String.utf8EncodeChar]
  split_ifs <;> refine ⟨_, _, rfl, ?_, ?_⟩ <;>
    simp [startsChar, UInt8.toNat_ofNat'] <;> omega

/-! ## Boundaries in bytes -/

/-- Whether an offset does not point into a character. -/
def isCharBoundary (bs : List UInt8) (n : Nat) : Bool :=
  n == 0 || match bs[n]? with
    | some b => startsChar b
    | none => n == bs.length

lemma isBoundary_cons {c : Char} {r : Text} {n : Nat} :
    IsBoundary (c :: r) n ↔ n = 0 ∨ ∃ m, IsBoundary r m ∧ n = c.utf8Size + m := by
  constructor
  · rintro ⟨a, b, he, rfl⟩
    cases a with
    | nil => exact Or.inl rfl
    | cons x a =>
      obtain ⟨rfl, rfl⟩ := List.cons.inj he
      exact Or.inr ⟨bytes a, ⟨a, b, rfl, rfl⟩, rfl⟩
  · rintro (rfl | ⟨m, ⟨a, b, rfl, rfl⟩, rfl⟩)
    · exact .zero _
    · exact ⟨c :: a, b, rfl, rfl⟩

/-- Behind a first character the bytes are those of the rest. -/
lemma isCharBoundary_cons (c : Char) (r : Text) (m : Nat) :
    isCharBoundary (utf8 (c :: r)) (c.utf8Size + m) = isCharBoundary (utf8 r) m := by
  have hpos := c.utf8Size_pos
  have hget : (utf8 (c :: r))[c.utf8Size + m]? = (utf8 r)[m]? := by
    rw [utf8_cons, List.getElem?_append_right (by rw [String.length_utf8EncodeChar]; omega),
      String.length_utf8EncodeChar, Nat.add_sub_cancel_left]
  have hlen : (c.utf8Size + m == (utf8 (c :: r)).length) = (m == (utf8 r).length) := by
    rw [length_utf8, length_utf8, bytes_cons, Bool.eq_iff_iff, beq_iff_eq, beq_iff_eq]
    omega
  have hne : (c.utf8Size + m == 0) = false := by
    rw [beq_eq_false_iff_ne]
    omega
  simp only [isCharBoundary, hget, hlen, hne, Bool.false_or]
  cases m with
  | succ k => rfl
  | zero =>
    -- the rest begins with the first byte of a character
    cases r with
    | nil => rfl
    | cons x r =>
      obtain ⟨b, l, he, hb, -⟩ := encode_eq_cons x
      simp [utf8_cons, he, hb]

/-- **Boundaries can be told from the bytes.** -/
theorem isCharBoundary_utf8 (t : Text) (n : Nat) : isCharBoundary (utf8 t) n ↔ IsBoundary t n := by
  induction t generalizing n with
  | nil =>
    constructor
    · intro h
      obtain rfl : n = 0 := by simpa [isCharBoundary] using h
      exact .zero []
    · intro h
      obtain rfl : n = 0 := Nat.le_zero.1 h.le
      rfl
  | cons c r ih =>
    obtain ⟨b, l, he, hb, hl⟩ := encode_eq_cons c
    have hsize : c.utf8Size = l.length + 1 := by
      rw [← String.length_utf8EncodeChar, he, List.length_cons]
    rw [isBoundary_cons]
    rcases Nat.lt_or_ge n c.utf8Size with hn | hn
    · -- within the bytes of the first character
      cases n with
      | zero => simp [isCharBoundary]
      | succ k =>
        have hk : k < l.length := by omega
        have hget : (utf8 (c :: r))[k + 1]? = some l[k] := by
          rw [utf8_cons, he, List.cons_append, List.getElem?_cons_succ,
            List.getElem?_append_left hk, List.getElem?_eq_getElem hk]
        have hnot := hl l[k] (List.getElem_mem hk)
        simp only [isCharBoundary, hget]
        constructor
        · intro h
          exact absurd (by simpa using h) hnot
        · rintro (h | ⟨m, -, h⟩)
          · omega
          · omega
    · obtain ⟨m, rfl⟩ := Nat.exists_eq_add_of_le hn
      have hpos := c.utf8Size_pos
      rw [isCharBoundary_cons, ih]
      constructor
      · intro h
        exact Or.inr ⟨m, h, rfl⟩
      · rintro (h | ⟨m', h, he⟩)
        · omega
        · rwa [Nat.add_left_cancel he]

/-! ## Slices that may fail -/

/-- The bytes from an offset on; there are none from an offset behind the end or within a
character. -/
def from? (bs : List UInt8) (n : Nat) : Option (List UInt8) :=
  if isCharBoundary bs n then some (bs.drop n) else none

/-- The bytes between two offsets, which have to be boundaries in order. -/
def between? (bs : List UInt8) (m n : Nat) : Option (List UInt8) :=
  if m ≤ n ∧ isCharBoundary bs m ∧ isCharBoundary bs n then some ((bs.drop m).take (n - m))
  else none

lemma drop_utf8 (a b : Text) : (utf8 (a ++ b)).drop (bytes a) = utf8 b := by
  rw [utf8_append, ← length_utf8, List.drop_left]

lemma take_utf8 (a b : Text) : (utf8 (a ++ b)).take (bytes a) = utf8 a := by
  rw [utf8_append, ← length_utf8, List.take_left]

lemma from?_utf8 (a b : Text) : from? (utf8 (a ++ b)) (bytes a) = some (utf8 b) := by
  rw [from?, if_pos ((isCharBoundary_utf8 _ _).2 ⟨a, b, rfl, rfl⟩), drop_utf8]

lemma between?_utf8 (a b c : Text) :
    between? (utf8 (a ++ (b ++ c))) (bytes a) (bytes a + bytes b) = some (utf8 b) := by
  have hm : IsBoundary (a ++ (b ++ c)) (bytes a) := ⟨a, b ++ c, rfl, rfl⟩
  have hn : IsBoundary (a ++ (b ++ c)) (bytes a + bytes b) := ⟨a ++ b, c, by simp, bytes_append a b⟩
  rw [between?, if_pos ⟨Nat.le_add_right .., (isCharBoundary_utf8 _ _).2 hm,
    (isCharBoundary_utf8 _ _).2 hn⟩, drop_utf8, Nat.add_sub_cancel_left, take_utf8]

/-! ## Tests of single bytes -/

/-- The test of bytes that takes those below 128 as characters and answers `high` to all others. -/
def onByte (p : Char → Bool) (high : Bool) (b : UInt8) : Bool :=
  if b.toNat < 128 then p (Char.ofNat b.toNat) else high

variable {p : Char → Bool} {high : Bool}

/-- A test that does not tell characters beyond ASCII apart can be made byte by byte. -/
lemma onByte_of_mem_encode (hp : ∀ c : Char, 128 ≤ c.toNat → p c = high) {c : Char} {b : UInt8}
    (hb : b ∈ String.utf8EncodeChar c) : onByte p high b = p c := by
  by_cases hc : c.toNat < 128
  · rw [encode_ascii hc, List.mem_singleton] at hb
    have hn : b.toNat = c.toNat := by rw [hb, UInt8.toNat_ofNat']; omega
    rw [onByte, hn, if_pos hc, Char.ofNat_toNat]
  · rw [onByte, if_neg (Nat.not_lt.2 (le_of_mem_encode hc hb)), hp c (Nat.le_of_not_lt hc)]

lemma takeWhile_utf8 (hp : ∀ c : Char, 128 ≤ c.toNat → p c = high) (t : Text) :
    (utf8 t).takeWhile (onByte p high) = utf8 (t.takeWhile p) := by
  induction t with
  | nil => rfl
  | cons c r ih =>
    have hc : ∀ b ∈ String.utf8EncodeChar c, onByte p high b = p c :=
      fun b hb => onByte_of_mem_encode hp hb
    rw [utf8_cons]
    by_cases h : p c
    · rw [List.takeWhile_append_of_pos (fun b hb => by rw [hc b hb, h]), ih,
        List.takeWhile_cons_of_pos h, utf8_cons]
    · obtain ⟨b, l, he, -⟩ := encode_eq_cons c
      have hb : ¬ onByte p high b := by rwa [hc b (by simp [he])]
      rw [he, List.cons_append, List.takeWhile_cons_of_neg hb, List.takeWhile_cons_of_neg h,
        utf8_nil]

/-! ## Searches -/

lemma encode_isPrefixOf {x c : Char} {p r : List UInt8} (hx : x.toNat < 128) :
    (String.utf8EncodeChar x ++ p).isPrefixOf (String.utf8EncodeChar c ++ r)
      = (x == c && p.isPrefixOf r) := by
  rw [encode_ascii hx]
  by_cases hc : c.toNat < 128
  · have heq : (UInt8.ofNat x.toNat == UInt8.ofNat c.toNat) = (x == c) := by
      rw [Bool.eq_iff_iff, beq_iff_eq, beq_iff_eq]
      constructor
      · intro h
        have hn := congrArg UInt8.toNat h
        simp only [UInt8.toNat_ofNat'] at hn
        have hnat : x.toNat = c.toNat := by omega
        rw [← Char.ofNat_toNat x, hnat, Char.ofNat_toNat]
      · rintro rfl
        rfl
    rw [encode_ascii hc, List.singleton_append, List.singleton_append, List.isPrefixOf, heq]
  · obtain ⟨b, l, he, -⟩ := encode_eq_cons c
    have hb : 128 ≤ b.toNat := le_of_mem_encode hc (by simp [he])
    have hne : (UInt8.ofNat x.toNat == b) = false := by
      rw [beq_eq_false_iff_ne]
      rintro rfl
      rw [UInt8.toNat_ofNat'] at hb
      omega
    have hxc : (x == c) = false := by
      rw [beq_eq_false_iff_ne]
      rintro rfl
      exact hc hx
    rw [he, List.singleton_append, List.cons_append, List.isPrefixOf, hne, hxc, Bool.false_and,
      Bool.false_and]

/-- A text in ASCII stands at the front of the bytes exactly if it does so in the text. -/
lemma isPrefixOf_utf8 {p : Text} (hp : ∀ x ∈ p, x.toNat < 128) (t : Text) :
    (utf8 p).isPrefixOf (utf8 t) = p.isPrefixOf t := by
  induction p generalizing t with
  | nil => simp
  | cons x p ih =>
    rw [List.forall_mem_cons] at hp
    cases t with
    | nil => rw [utf8_cons, encode_ascii hp.1]; rfl
    | cons c r =>
      rw [utf8_cons, utf8_cons, encode_isPrefixOf hp.1, ih hp.2, List.isPrefixOf]

/-- The first offset from which on the bytes pass a test. -/
def search? (found : List UInt8 → Bool) (bs : List UInt8) : Option Nat :=
  (List.range bs.length).find? fun i => found (bs.drop i)

variable {found : List UInt8 → Bool}

lemma search?_cons (b : UInt8) (bs : List UInt8) :
    search? found (b :: bs)
      = if found (b :: bs) then some 0 else (search? found bs).map (· + 1) := by
  rw [search?, List.length_cons, List.range_succ_eq_map, List.find?_cons, List.drop_zero]
  split
  next h => rw [h]; rfl
  next h => rw [h, List.find?_map]; rfl

/-- Bytes at which nothing is found are passed over. -/
lemma search?_append {a b : List UInt8} (h : ∀ x ∈ a, ∀ l, found (x :: l) = false) :
    search? found (a ++ b) = (search? found b).map (a.length + ·) := by
  induction a with
  | nil => simp
  | cons x a ih =>
    rw [List.forall_mem_cons] at h
    rw [List.cons_append, search?_cons, h.1, ih h.2, Option.map_map]
    simp only [Bool.false_eq_true, if_false, List.length_cons]
    exact congrArg (fun f => (search? found b).map f) (funext fun n => by simp; omega)

/-- **A search for a character of ASCII** finds in the bytes what breaks the text. -/
theorem search?_utf8 {breaks : Text → Bool} (hsame : ∀ t, found (utf8 t) = breaks t)
    (hascii : ∀ b l, 128 ≤ b.toNat → found (b :: l) = false) (t : Text) :
    search? found (utf8 t)
      = if (breakAt breaks t).2 = [] then none else some (bytes (breakAt breaks t).1) := by
  induction t with
  | nil => rfl
  | cons c r ih =>
    by_cases h : breaks (c :: r)
    · obtain ⟨b, l, he, -⟩ := encode_eq_cons c
      have hf : found (b :: (l ++ utf8 r)) := by
        rw [← List.cons_append, ← he, ← utf8_cons, hsame, h]
      rw [utf8_cons, he, List.cons_append, search?_cons, if_pos hf, breakAt, if_pos h]
      simp
    · have hmap : search? found (utf8 (c :: r))
          = (search? found (utf8 r)).map (c.utf8Size + ·) := by
        by_cases hc : c.toNat < 128
        · have hf : ¬ found (UInt8.ofNat c.toNat :: utf8 r) := by
            rwa [← List.singleton_append, ← encode_ascii hc, ← utf8_cons, hsame]
          rw [utf8_cons, encode_ascii hc, List.singleton_append, search?_cons, if_neg hf,
            utf8Size_ascii hc]
          exact congrArg (fun f => (search? found (utf8 r)).map f)
            (funext fun n => Nat.add_comm n 1)
        · rw [utf8_cons, search?_append fun b hb l => hascii b l (le_of_mem_encode hc hb),
            String.length_utf8EncodeChar]
      rw [hmap, ih, breakAt, if_neg h]
      by_cases hnil : (breakAt breaks r).2 = []
      · simp [hnil]
      · simp [hnil]

/-! ## Letter case -/

/-- An upper-case letter of ASCII in lower case. -/
def lowerByte (b : UInt8) : UInt8 :=
  if 65 ≤ b.toNat ∧ b.toNat ≤ 90 then UInt8.ofNat (b.toNat + 32) else b

lemma toNat_toLower (c : Char) :
    c.toLower.toNat = if 65 ≤ c.toNat ∧ c.toNat ≤ 90 then c.toNat + 32 else c.toNat := by
  have hv : c.toNat = c.val.toNat := rfl
  unfold Char.toLower
  split
  next h =>
    obtain ⟨h1, h2⟩ := h
    rw [ge_iff_le, UInt32.le_iff_toNat_le] at h1
    rw [UInt32.le_iff_toNat_le] at h2
    have hA : 'A'.val.toNat = 65 := rfl
    have hZ : 'Z'.val.toNat = 90 := rfl
    have hd : ('a'.val - 'A'.val).toNat = 32 := rfl
    rw [if_pos (by omega)]
    show (c.val + ('a'.val - 'A'.val)).toNat = _
    rw [UInt32.toNat_add]
    omega
  next h =>
    rw [ge_iff_le, UInt32.le_iff_toNat_le, UInt32.le_iff_toNat_le] at h
    have hA : 'A'.val.toNat = 65 := rfl
    have hZ : 'Z'.val.toNat = 90 := rfl
    rw [if_neg (by omega)]

lemma ascii_of_toLower {c : Char} (h : c.toLower.toNat < 128) : c.toNat < 128 := by
  have hc := toNat_toLower c
  split at hc <;> omega

lemma utf8_lower (t : Text) : utf8 (lower t) = (utf8 t).map lowerByte := by
  induction t with
  | nil => rfl
  | cons c r ih =>
    have hcons : lower (c :: r) = c.toLower :: lower r := rfl
    rw [hcons, utf8_cons, utf8_cons, List.map_append, ih]
    congr 1
    have hn := toNat_toLower c
    by_cases hc : c.toNat < 128
    · have hl : c.toLower.toNat < 128 := by
        rw [hn]
        split <;> omega
      have hb : (UInt8.ofNat c.toNat).toNat = c.toNat := by rw [UInt8.toNat_ofNat']; omega
      rw [encode_ascii hc, encode_ascii hl, List.map_singleton, lowerByte, hb, hn]
      split <;> rfl
    · have hsame : c.toLower = c := by
        rw [if_neg (by omega)] at hn
        rw [← Char.ofNat_toNat c.toLower, hn, Char.ofNat_toNat]
      have hid : ∀ b ∈ String.utf8EncodeChar c, lowerByte b = b := by
        intro b hb
        have := le_of_mem_encode hc hb
        rw [lowerByte, if_neg (by omega)]
      rw [hsame, List.map_congr_left hid, List.map_id']

/-- Whether bytes differ at most in the case of ASCII letters. -/
def sameBytes (a b : List UInt8) : Bool :=
  a.map lowerByte == b.map lowerByte

/-- A text in ASCII stands at the front of the bytes, in whatever case. -/
lemma sameBytes_take_utf8 {p : Text} (hp : ∀ x ∈ lower p, x.toNat < 128) (t : Text) :
    sameBytes ((utf8 t).take (utf8 p).length) (utf8 p) = startsIgnoringCase p t := by
  have hlen : (utf8 p).length = (utf8 (lower p)).length := by rw [utf8_lower, List.length_map]
  have hplen : p.length = (lower p).length := (List.length_map ..).symm
  rw [Bool.eq_iff_iff, sameBytes, startsIgnoringCase, sameIgnoringCase, beq_iff_eq, beq_iff_eq,
    List.map_take, ← utf8_lower, ← utf8_lower, hlen]
  have hb : (utf8 (lower p)).isPrefixOf (utf8 (lower t)) ↔ (lower p).isPrefixOf (lower t) := by
    rw [isPrefixOf_utf8 hp]
  rw [List.isPrefixOf_iff_prefix, List.isPrefixOf_iff_prefix, List.prefix_iff_eq_take,
    List.prefix_iff_eq_take] at hb
  have htake : lower (t.take p.length) = (lower t).take (lower p).length := by
    rw [← hplen]
    exact List.map_take ..
  rw [htake, eq_comm]
  exact hb

/-- No text in ASCII starts with a byte beyond ASCII, in whatever case. -/
lemma sameBytes_take_of_le {x : Char} {p : Text} (hp : ∀ y ∈ lower (x :: p), y.toNat < 128)
    {b : UInt8} (hb : 128 ≤ b.toNat) (l : List UInt8) :
    sameBytes ((b :: l).take (utf8 (x :: p)).length) (utf8 (x :: p)) = false := by
  have hcons : lower (x :: p) = x.toLower :: lower p := rfl
  have hx : x.toLower.toNat < 128 := hp _ (by rw [hcons]; exact List.mem_cons_self)
  obtain ⟨n, hn⟩ : ∃ n, (utf8 (x :: p)).length = n + 1 := by
    have := bytes_pos (List.cons_ne_nil x p)
    exact ⟨bytes (x :: p) - 1, by rw [length_utf8]; omega⟩
  rw [sameBytes, beq_eq_false_iff_ne, hn, List.take_succ_cons, List.map_cons, ← utf8_lower, hcons,
    utf8_cons, encode_ascii hx, List.singleton_append, lowerByte, if_neg (by omega)]
  intro h
  rw [(List.cons.inj h).1, UInt8.toNat_ofNat'] at hb
  omega

lemma sameBytes_utf8 {p : Text} (hp : ∀ x ∈ lower p, x.toNat < 128) (t : Text) :
    sameBytes (utf8 t) (utf8 p) = sameIgnoringCase t p := by
  rw [Bool.eq_iff_iff, sameBytes, sameIgnoringCase, beq_iff_eq, beq_iff_eq, ← utf8_lower,
    ← utf8_lower]
  constructor
  · intro h
    have hpre : (lower p).isPrefixOf (lower t) := by
      rw [← isPrefixOf_utf8 hp, h, List.isPrefixOf_iff_prefix]
    obtain ⟨r, hr⟩ := List.isPrefixOf_iff_prefix.1 hpre
    have hlen := congrArg List.length h
    rw [length_utf8, length_utf8, ← hr, bytes_append] at hlen
    rw [← hr, eq_nil_of_bytes (t := r) (by omega), List.append_nil]
  · intro h
    rw [h]

/-! ## Arithmetic that may fail -/

/-- The difference of two numbers, of which the first must not be less. -/
def sub? (m n : Nat) : Option Nat :=
  if n ≤ m then some (m - n) else none

lemma sub?_of_le {m n : Nat} (h : n ≤ m) : sub? m n = some (m - n) := if_pos h

/-- The bytes between two offsets in order. -/
def cut? (bs : List UInt8) (m n : Nat) : Option (List UInt8) :=
  if m ≤ n ∧ n ≤ bs.length then some ((bs.drop m).take (n - m)) else none

/-- The first offset at which some bytes stand, in whatever case. -/
def findIgnoringCase? (needle bs : List UInt8) : Option (Option Nat) :=
  if bs.length < needle.length then some none
  else do
    let last ← sub? bs.length needle.length
    (List.range (last + 1)).findM? fun i => do
      return sameBytes (← cut? bs i (i + needle.length)) needle

lemma findM?_eq_some {α : Type} {l : List α} {f : α → Option Bool} {g : α → Bool}
    (h : ∀ a ∈ l, f a = some (g a)) : l.findM? f = some (l.find? g) := by
  induction l with
  | nil => rfl
  | cons a l ih =>
    rw [List.forall_mem_cons] at h
    rw [List.findM?, h.1, List.find?_cons]
    cases g a with
    | true => rfl
    | false => exact ih h.2

/-- Nothing can stand where too few bytes are left. -/
lemma find?_range_of_le {q : Nat → Bool} {m n : Nat} (h : m ≤ n)
    (hq : ∀ i, m ≤ i → i < n → q i = false) : (List.range n).find? q = (List.range m).find? q := by
  obtain ⟨k, rfl⟩ := Nat.exists_eq_add_of_le h
  rw [List.range_add, List.find?_append]
  have hnone : ((List.range k).map (m + ·)).find? q = none := by
    rw [List.find?_eq_none]
    intro i hi
    obtain ⟨j, hj, rfl⟩ := List.mem_map.1 hi
    rw [List.mem_range] at hj
    simp [hq (m + j) (by omega) (by omega)]
  rw [hnone, Option.or_none]

/-- **The search for an end tag** takes no bytes that are not there. -/
theorem findIgnoringCase?_eq {needle : List UInt8} (hne : needle ≠ []) (bs : List UInt8) :
    findIgnoringCase? needle bs
      = some (search? (fun l => sameBytes (l.take needle.length) needle) bs) := by
  have hpos := List.length_pos_iff.2 hne
  have hshort : ∀ i, bs.length < i + needle.length →
      sameBytes ((bs.drop i).take needle.length) needle = false := by
    intro i hi
    rw [sameBytes, beq_eq_false_iff_ne]
    intro h
    have := congrArg List.length h
    simp only [List.length_map, List.length_take, List.length_drop] at this
    omega
  unfold findIgnoringCase? search?
  split
  next h =>
    rw [find?_range_of_le (Nat.zero_le _) fun i _ _ => hshort i (by omega)]
    rfl
  next h =>
    have hle : needle.length ≤ bs.length := Nat.le_of_not_lt h
    rw [sub?_of_le hle, find?_range_of_le (m := bs.length - needle.length + 1) (by omega)
      fun i _ _ => hshort i (by omega)]
    refine findM?_eq_some fun i hi => ?_
    rw [List.mem_range] at hi
    rw [cut?, if_pos ⟨Nat.le_add_right .., by omega⟩, Nat.add_sub_cancel_left]
    rfl

end Utf8

end Mosaic
