/-!
# Texts and how they are measured

A text is a list of characters.  Two measures matter to an editor: its length in UTF-8 bytes,
in which every offset of this library is counted, and its length in UTF-16 units, in which a
protocol counts the characters of a line.

* `Text.bytes` and `Text.units` are the two measures.
* `Text.takeBytes` and `Text.dropBytes` cut a text at a byte offset.  A character belongs to the
  front part as soon as it *starts* before the cut, so an offset inside a character cuts after it
  and nothing is ever lost (`Text.takeBytes_append_dropBytes`).
* `Text.slice` and `Text.splice` read and replace a span of bytes.
-/

namespace Mosaic

/-- A text, as the list of its characters. -/
abbrev Text := List Char

/-- How many UTF-16 units a character takes: two beyond the basic plane. -/
def charUnits (c : Char) : Nat :=
  if c.toNat < 0x10000 then 1 else 2

namespace Text

/-- Length in UTF-8 bytes. -/
def bytes : Text → Nat
  | [] => 0
  | c :: r => c.utf8Size + bytes r

/-- Length in UTF-16 units. -/
def units : Text → Nat
  | [] => 0
  | c :: r => charUnits c + units r

/-- The characters that start before byte `n`. -/
def takeBytes : Nat → Text → Text
  | 0, _ => []
  | _ + 1, [] => []
  | n + 1, c :: r => c :: takeBytes (n + 1 - c.utf8Size) r

/-- The characters that start at byte `n` or later. -/
def dropBytes : Nat → Text → Text
  | 0, t => t
  | _ + 1, [] => []
  | n + 1, c :: r => dropBytes (n + 1 - c.utf8Size) r

/-- The text between two byte offsets. -/
def slice (start stop : Nat) (t : Text) : Text :=
  takeBytes (stop - start) (dropBytes start t)

/-- The text with the bytes from `start` to `stop` replaced by `new`. -/
def splice (start stop : Nat) (new t : Text) : Text :=
  takeBytes start t ++ new ++ dropBytes stop t

/-! ## Small laws of the measures -/

@[simp] theorem bytes_nil : bytes [] = 0 := rfl

@[simp] theorem bytes_cons (c : Char) (r : Text) : bytes (c :: r) = c.utf8Size + bytes r := rfl

@[simp] theorem bytes_append (a b : Text) : bytes (a ++ b) = bytes a + bytes b := by
  induction a with
  | nil => simp
  | cons c r ih => simp [ih, Nat.add_assoc]

@[simp] theorem units_nil : units [] = 0 := rfl

@[simp] theorem units_cons (c : Char) (r : Text) : units (c :: r) = charUnits c + units r := rfl

@[simp] theorem units_append (a b : Text) : units (a ++ b) = units a + units b := by
  induction a with
  | nil => simp
  | cons c r ih => simp [ih, Nat.add_assoc]

/-- **Cutting loses nothing**, wherever the offset falls. -/
theorem takeBytes_append_dropBytes (n : Nat) (t : Text) :
    takeBytes n t ++ dropBytes n t = t := by
  fun_induction takeBytes n t with
  | case1 => simp [dropBytes]
  | case2 => simp [dropBytes]
  | case3 n c r ih => simpa [dropBytes] using ih

/-- A cut at the end of a front part returns that part. -/
theorem takeBytes_bytes_append (a b : Text) : takeBytes (bytes a) (a ++ b) = a := by
  induction a with
  | nil => simp [takeBytes]
  | cons c r ih =>
    obtain ⟨n, hn⟩ : ∃ n, c.utf8Size + bytes r = n + 1 :=
      ⟨c.utf8Size + bytes r - 1, by have := c.utf8Size_pos; omega⟩
    have hr : n + 1 - c.utf8Size = bytes r := by omega
    rw [bytes_cons, hn, List.cons_append, takeBytes, hr, ih]

/-- A cut at the end of a front part leaves the other part. -/
theorem dropBytes_bytes_append (a b : Text) : dropBytes (bytes a) (a ++ b) = b := by
  have h := takeBytes_append_dropBytes (bytes a) (a ++ b)
  rw [takeBytes_bytes_append] at h
  exact List.append_cancel_left h

end Text

end Mosaic
