import Mosaic.Proofs.Boundary

/-!
# Positions and offsets

Positions add up: the position at the end of a text is the position at the end of its front part,
and from there on that of the rest (`Position.plus`, `Text.endPosition_append_eq`).  Looking up such
a sum skips the front part (`Text.offsetAt?_plus`).  What the development needs follows from these
two:

* `Text.offsetAt?_positionAt` — going to a position and back gives the cut at that offset, hence the
  offset itself where it is a boundary (`Text.offsetAt_positionAt_of_boundary`).
* `Text.lineFrom_spec` — a line starts where its position says, and `Text.columnBytes_spec` what
  stands on it in front of a column.
* `Text.isBoundary_offsetAt` — so every position is looked up at a boundary.
* `Text.positionAt_same_line` — on one line only the character moves, by the UTF-16 units read.
-/

namespace Mosaic

/-- The position reached by going as far from `p` as `q` is from the start of a text. -/
def Position.plus (p q : Position) : Position :=
  if q.line = 0 then ⟨p.line, p.character + q.character⟩ else ⟨p.line + q.line, q.character⟩

namespace Position

@[simp] lemma plus_start (p : Position) : p.plus ⟨0, 0⟩ = p := by simp [plus]

@[simp] lemma start_plus (p : Position) : (⟨0, 0⟩ : Position).plus p = p := by
  by_cases h : p.line = 0
  · rw [plus, if_pos h, Nat.zero_add, ← h]
  · rw [plus, if_neg h, Nat.zero_add]

lemma plus_assoc (p q r : Position) : (p.plus q).plus r = p.plus (q.plus r) := by
  by_cases hr : r.line = 0 <;> by_cases hq : q.line = 0 <;>
    simp [plus, hr, hq, Nat.add_assoc]

/-- Reading a character goes as far as it goes from the start. -/
lemma advance_eq_plus (p : Position) (c : Char) :
    p.advance c = p.plus ((⟨0, 0⟩ : Position).advance c) := by
  by_cases h : c = '\n' <;> simp [advance, plus, h]

end Position

namespace Text

lemma endPosition_cons (p : Position) (c : Char) (r : Text) :
    endPosition p (c :: r) = endPosition (p.advance c) r := rfl

/-- Reading a text goes as far as it goes from the start. -/
theorem endPosition_eq_plus (p : Position) (t : Text) :
    endPosition p t = p.plus (endPosition ⟨0, 0⟩ t) := by
  induction t generalizing p with
  | nil => simp [endPosition]
  | cons c r ih =>
    rw [endPosition_cons, endPosition_cons, ih, ih (Position.advance _ c), p.advance_eq_plus, Position.plus_assoc]

theorem endPosition_append_eq (p : Position) (a b : Text) :
    endPosition p (a ++ b) = (endPosition p a).plus (endPosition ⟨0, 0⟩ b) := by
  rw [← endPosition_eq_plus]
  exact List.foldl_append

/-! ## Looking positions up -/

lemma lineFrom_cons (c : Char) (r : Text) (n : Nat) :
    lineFrom (n + 1) (c :: r)
      = (lineFrom (if c = '\n' then n else n + 1) r).map fun (o, t) => (c.utf8Size + o, t) := rfl

/-- A character at the front is passed over. -/
lemma offsetAt?_cons (c : Char) (r : Text) (q : Position) :
    offsetAt? (c :: r) (((⟨0, 0⟩ : Position).advance c).plus q)
      = (offsetAt? r q).map (c.utf8Size + ·) := by
  obtain ⟨line, character⟩ := q
  by_cases hc : c = '\n'
  · -- the line break makes one more line
    have hq : ((⟨0, 0⟩ : Position).advance c).plus ⟨line, character⟩ = ⟨line + 1, character⟩ := by
      by_cases hl : line = 0 <;> simp [Position.advance, Position.plus, hc, hl, Nat.add_comm]
    rw [hq]
    simp only [offsetAt?, lineFrom_cons, if_pos hc, Option.map_map]
    exact congrArg (fun f => (lineFrom line r).map f) (funext fun x => Nat.add_assoc ..)
  · cases line with
    | zero =>
      have hunits : charUnits c ≠ 0 := by unfold charUnits; split <;> decide
      obtain ⟨k, hk⟩ : ∃ k, charUnits c + character = k + 1 :=
        ⟨charUnits c + character - 1, by omega⟩
      have hrest : k + 1 - charUnits c = character := by omega
      simp [offsetAt?, lineFrom, Position.advance, Position.plus, hc, hk, columnBytes, hrest]
    | succ n =>
      have hq : ((⟨0, 0⟩ : Position).advance c).plus ⟨n + 1, character⟩ = ⟨n + 1, character⟩ := by
        simp [Position.advance, Position.plus, hc]
      rw [hq]
      simp only [offsetAt?, lineFrom_cons, if_neg hc, Option.map_map]
      exact congrArg (fun f => (lineFrom (n + 1) r).map f) (funext fun x => Nat.add_assoc ..)

/-- **A front part is passed over**: a position beyond its end is looked up in the rest. -/
theorem offsetAt?_plus (a b : Text) (q : Position) :
    offsetAt? (a ++ b) ((endPosition ⟨0, 0⟩ a).plus q) = (offsetAt? b q).map (bytes a + ·) := by
  induction a with
  | nil => simp [endPosition]
  | cons c r ih =>
    rw [endPosition_cons, endPosition_eq_plus, Position.plus_assoc, List.cons_append, offsetAt?_cons, ih, Option.map_map]
    exact congrArg (fun f => (offsetAt? b q).map f) (funext fun x => (Nat.add_assoc ..).symm)

/-- The end of a front part is found where it is. -/
theorem offsetAt?_endPosition (a b : Text) :
    offsetAt? (a ++ b) (endPosition ⟨0, 0⟩ a) = some (bytes a) := by
  have h := offsetAt?_plus a b ⟨0, 0⟩
  rw [Position.plus_start] at h
  rw [h]
  simp [offsetAt?, lineFrom, columnBytes]

/-- **To a position and back** is the end of the cut at the offset. -/
theorem offsetAt?_positionAt (t : Text) (n : Nat) :
    offsetAt? t (positionAt t n) = some (bytes (takeBytes n t)) := by
  have h := offsetAt?_endPosition (takeBytes n t) (dropBytes n t)
  rwa [takeBytes_append_dropBytes] at h

lemma offsetAt_positionAt (t : Text) (n : Nat) :
    offsetAt t (positionAt t n) = bytes (takeBytes n t) := by
  rw [offsetAt, offsetAt?_positionAt, Option.getD_some]

lemma offsetAt_positionAt_of_boundary {t : Text} {n : Nat} (h : IsBoundary t n) :
    offsetAt t (positionAt t n) = n := by
  rw [offsetAt_positionAt, isBoundary_iff.1 h]

/-! ## Positions stand between characters -/

/-- A line starts where the position says. -/
lemma lineFrom_spec {n o : Nat} {t rest : Text} (h : lineFrom n t = some (o, rest)) :
    ∃ a, t = a ++ rest ∧ bytes a = o ∧ endPosition ⟨0, 0⟩ a = ⟨n, 0⟩ := by
  induction t generalizing n o with
  | nil =>
    cases n with
    | zero =>
      obtain ⟨rfl, rfl⟩ : 0 = o ∧ [] = rest := by simpa [lineFrom] using h
      exact ⟨[], rfl, rfl, rfl⟩
    | succ n => contradiction
  | cons c r ih =>
    cases n with
    | zero =>
      obtain ⟨rfl, rfl⟩ : 0 = o ∧ c :: r = rest := by simpa [lineFrom] using h
      exact ⟨[], rfl, rfl, rfl⟩
    | succ n =>
      rw [lineFrom_cons] at h
      obtain ⟨⟨o', rest'⟩, hr, he⟩ := Option.map_eq_some_iff.1 h
      obtain ⟨rfl, rfl⟩ : c.utf8Size + o' = o ∧ rest' = rest := by simpa using he
      obtain ⟨a, rfl, rfl, hend⟩ := ih hr
      refine ⟨c :: a, rfl, rfl, ?_⟩
      rw [endPosition_cons, endPosition_eq_plus, hend]
      by_cases hc : c = '\n'
      · by_cases hn : n = 0 <;> simp [Position.advance, Position.plus, hc, hn, Nat.add_comm]
      · simp [Position.advance, Position.plus, hc]

/-- What stands on a line in front of a column: all that starts before it, and all of the line if it
is not so long. -/
lemma columnBytes_spec (n : Nat) (t : Text) :
    ∃ x y, t = x ++ y ∧ bytes x = columnBytes n t ∧ '\n' ∉ x ∧
      (n ≤ units x ∨ units x < n ∧ ∀ c ∈ y.head?, c = '\n') := by
  induction t generalizing n with
  | nil =>
    cases n with
    | zero => exact ⟨[], [], rfl, rfl, by simp, Or.inl (Nat.zero_le _)⟩
    | succ n => exact ⟨[], [], rfl, rfl, by simp, Or.inr ⟨Nat.succ_pos n, by simp⟩⟩
  | cons c r ih =>
    cases n with
    | zero => exact ⟨[], c :: r, rfl, rfl, by simp, Or.inl (Nat.zero_le _)⟩
    | succ n =>
      rw [columnBytes]
      split
      next hc => exact ⟨[], c :: r, rfl, rfl, by simp, Or.inr ⟨Nat.succ_pos n, by simp [hc]⟩⟩
      next hc =>
        obtain ⟨x, y, hr, hx, hline, hcolumn⟩ := ih (n + 1 - charUnits c)
        refine ⟨c :: x, y, by rw [hr]; rfl, by rw [bytes_cons, hx], ?_, ?_⟩
        · simp [Ne.symm hc, hline]
        · rw [units_cons]
          exact hcolumn.imp (fun h => by omega) fun h => ⟨by omega, h.2⟩

/-- Every position is looked up at a boundary. -/
theorem isBoundary_offsetAt (t : Text) (p : Position) : IsBoundary t (offsetAt t p) := by
  unfold offsetAt offsetAt?
  cases h : lineFrom p.line t with
  | none => exact .full t
  | some x =>
    obtain ⟨a, rfl, hstart, -⟩ := lineFrom_spec (show _ = some (x.1, x.2) from h)
    obtain ⟨y, z, hrest, hcolumn, -⟩ := columnBytes_spec p.character x.2
    refine ⟨a ++ y, z, by rw [hrest, List.append_assoc], ?_⟩
    rw [bytes_append, hstart, hcolumn]
    rfl

/-! ## Within a line -/

lemma endPosition_of_no_break {t : Text} (h : '\n' ∉ t) (p : Position) :
    endPosition p t = ⟨p.line, p.character + units t⟩ := by
  induction t generalizing p with
  | nil => simp [endPosition]
  | cons c r ih =>
    obtain ⟨hc, hr⟩ : '\n' ≠ c ∧ '\n' ∉ r := by simpa using h
    rw [endPosition_cons, ih hr]
    simp [Position.advance, hc.symm, Nat.add_assoc]

/-- **On one line only the character moves**, by the units of what is read. -/
theorem positionAt_same_line (a mid b : Text) (h : '\n' ∉ mid) :
    positionAt (a ++ (mid ++ b)) (bytes a + bytes mid)
      = ⟨(positionAt (a ++ (mid ++ b)) (bytes a)).line,
          (positionAt (a ++ (mid ++ b)) (bytes a)).character + units mid⟩ := by
  have hfront : positionAt (a ++ (mid ++ b)) (bytes a) = endPosition ⟨0, 0⟩ a := by
    rw [positionAt, takeBytes_bytes_append]
  have hboth : takeBytes (bytes a + bytes mid) (a ++ (mid ++ b)) = a ++ mid := by
    rw [← bytes_append, ← List.append_assoc, takeBytes_bytes_append]
  rw [hfront, positionAt, hboth, endPosition_append_eq, ← endPosition_eq_plus,
    endPosition_of_no_break h]

end Text

end Mosaic
