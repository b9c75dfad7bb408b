import Mosaic.Metadata.Adapter
import Mosaic.Proofs.LinePosition
import Mosaic.Proofs.MetadataKeys

/-!
# Metadata with other line endings

A text with its line feeds as pairs of a carriage return and a line feed has all its characters
at the same positions.  A carriage return is no blank, though, and so a key whose colon is the
last character of its line is no key any more.

* `Text.withCrLf`, `Text.positionAt_withCrLf` — the text, and its positions.
* `Metadata.keyAt?_withCrLf` — which keys are found at the start of a line.
* `Metadata.Key.withCrLf`, `Metadata.keys_withCrLf` — the keys of both texts.
* `outline_with_crlf`, `key_lost_with_crlf` — the outline of a metadata block.
-/

namespace Mosaic

open Text

/-! ## Carriage returns -/

/-- The text with a carriage return in front of each line feed. -/
def Text.withCrLf (t : Text) : Text :=
  t.flatMap fun c => if c = '\n' then ['\r', '\n'] else [c]

namespace Text

variable {p : Char → Bool} {c : Char} {r t : Text}

@[simp] lemma withCrLf_lineFeed (r : Text) :
    withCrLf ('\n' :: r) = '\r' :: '\n' :: withCrLf r := rfl

lemma withCrLf_cons (h : c ≠ '\n') (r : Text) : withCrLf (c :: r) = c :: withCrLf r := by
  rw [withCrLf, List.flatMap_cons, if_neg h]
  rfl

lemma withCrLf_append (a b : Text) : withCrLf (a ++ b) = withCrLf a ++ withCrLf b :=
  List.flatMap_append

lemma withCrLf_eq_self (h : '\n' ∉ t) : withCrLf t = t := by
  induction t with
  | nil => rfl
  | cons c r ih =>
    obtain ⟨hc, hr⟩ : ¬ '\n' = c ∧ '\n' ∉ r := by simpa using h
    rw [withCrLf_cons (Ne.symm hc), ih hr]

/-- A carriage return in front of a line feed changes no position behind it. -/
lemma endPosition_withCrLf (p : Position) (t : Text) :
    endPosition p (withCrLf t) = endPosition p t := by
  induction t generalizing p with
  | nil => rfl
  | cons c r ih =>
    by_cases h : c = '\n'
    · subst h
      rw [withCrLf_lineFeed, endPosition_cons, endPosition_cons, endPosition_cons, ih]
      rfl
    · rw [withCrLf_cons h, endPosition_cons, endPosition_cons, ih]

section While

variable (hfeed : p '\n' = false) (hreturn : p '\r' = false)

include hfeed hreturn

/-- What is read within a line stays the same. -/
lemma takeWhile_withCrLf (t : Text) : (withCrLf t).takeWhile p = t.takeWhile p := by
  induction t with
  | nil => rfl
  | cons c r ih =>
    by_cases h : c = '\n'
    · simp [h, hfeed, hreturn]
    · simp only [withCrLf_cons h, List.takeWhile_cons, ih]

/-- And so does what follows, but for its line feeds. -/
lemma dropWhile_withCrLf (t : Text) : (withCrLf t).dropWhile p = withCrLf (t.dropWhile p) := by
  induction t with
  | nil => rfl
  | cons c r ih =>
    by_cases h : c = '\n'
    · simp [h, hfeed, hreturn]
    · rw [withCrLf_cons h, List.dropWhile_cons, List.dropWhile_cons, ih]
      split
      · rfl
      · rw [withCrLf_cons h]

end While

/-- The line in front of a line feed gets the carriage return. -/
lemma takeWhile_line_withCrLf (t : Text) :
    (withCrLf t).takeWhile (· != '\n')
      = t.takeWhile (· != '\n') ++ if '\n' ∈ t then ['\r'] else [] := by
  induction t with
  | nil => rfl
  | cons c r ih =>
    by_cases h : c = '\n'
    · simp [h]
    · have hmem : '\n' ∈ c :: r ↔ '\n' ∈ r := by simp [Ne.symm h]
      rw [withCrLf_cons h, List.takeWhile_cons, List.takeWhile_cons, if_pos (by simpa using h),
        if_pos (by simpa using h), ih, List.cons_append]
      simp only [hmem]

/-- Where an offset of the text is in the text with carriage returns. -/
def offsetWithCrLf (t : Text) (n : Nat) : Nat :=
  bytes (withCrLf (takeBytes n t))

lemma offsetWithCrLf_append (a b : Text) :
    offsetWithCrLf (a ++ b) (bytes a) = bytes (withCrLf a) := by
  rw [offsetWithCrLf, takeBytes_bytes_append]

/-- Within a line offsets are as far apart as before. -/
lemma offsetWithCrLf_add (a b : Text) {mid : Text} (h : '\n' ∉ mid) :
    offsetWithCrLf (a ++ (mid ++ b)) (bytes a + bytes mid) = bytes (withCrLf a) + bytes mid := by
  rw [← bytes_append, ← List.append_assoc, offsetWithCrLf_append, withCrLf_append, bytes_append,
    withCrLf_eq_self h]

/-- A line ends behind its carriage return. -/
lemma lineStop_withCrLf (a line : Text) :
    let n := bytes a + bytes (line.takeWhile (· != '\n'))
    bytes (withCrLf a) + bytes ((withCrLf line).takeWhile (· != '\n'))
      = offsetWithCrLf (a ++ line) n
        + if (dropBytes n (a ++ line)).head? = some '\n' then 1 else 0 := by
  intro n
  have hfirst : '\n' ∉ line.takeWhile (· != '\n') := fun h =>
    absurd (List.mem_takeWhile_imp h) (by simp)
  have hrest := List.head?_dropWhile_not (· != '\n') line
  have hline := List.takeWhile_append_dropWhile (p := (· != '\n')) (l := line)
  rw [takeWhile_line_withCrLf]
  unfold n
  generalize line.takeWhile (· != '\n') = first at hfirst hline ⊢
  generalize line.dropWhile (· != '\n') = rest at hrest hline
  subst hline
  have hmem : '\n' ∈ first ++ rest ↔ rest.head? = some '\n' := by
    cases rest with
    | nil => simpa using hfirst
    | cons x r =>
      obtain rfl : x = '\n' := by simpa using hrest
      simp
  have hdrop : dropBytes (bytes a + bytes first) (a ++ (first ++ rest)) = rest := by
    rw [← bytes_append, ← List.append_assoc, dropBytes_bytes_append]
  rw [offsetWithCrLf_add a rest hfirst, hdrop, bytes_append, ← Nat.add_assoc]
  simp only [hmem]
  split <;> rfl

/-- **Characters stay at their positions.** -/
theorem positionAt_withCrLf (t : Text) (n : Nat) :
    positionAt (withCrLf t) (offsetWithCrLf t n) = positionAt t n := by
  have h := takeBytes_append_dropBytes n t
  conv_lhs => rw [← h, withCrLf_append, h]
  rw [offsetWithCrLf, positionAt, takeBytes_bytes_append, endPosition_withCrLf, positionAt]

end Text

namespace Metadata

variable {t line name : Text} {k : Key} {b : Bool} {n : Nat}

/-! ## The key at the start of a line -/

/-- The characters of a name behind its first one. -/
def isNameChar (c : Char) : Bool :=
  isWordChar c || c == '-'

/-- A colon follows the name that stands before this text, and a blank or the end of the line
follows the colon. -/
def colonFollows (rest : Text) : Bool :=
  match rest.dropWhile isSpace with
  | ':' :: after => after.head?.all fun x => isSpace x || x == '\n'
  | _ => false

/-- That colon is the last character of its line, and not of the text. -/
def colonEnds (rest : Text) : Bool :=
  (rest.dropWhile isSpace).tail.head? == some '\n'

/-- What stands behind the name at the start of a line. -/
lemma drop_name (c : Char) (r : Text) :
    (c :: r).drop (c :: r.takeWhile isNameChar).length = r.dropWhile isNameChar := by
  have h : c :: r = (c :: r.takeWhile isNameChar) ++ r.dropWhile isNameChar := by
    rw [List.cons_append, List.takeWhile_append_dropWhile]
  conv_lhs => rw [h, List.drop_left]

lemma keyAt?_cons (c : Char) (r : Text) :
    keyAt? (c :: r) = if (c.isAlpha || c == '_') && colonFollows (r.dropWhile isNameChar)
      then some (c :: r.takeWhile isNameChar) else none := by
  show (match ((c :: r).drop (c :: r.takeWhile isNameChar).length).dropWhile isSpace with
    | ':' :: after =>
      if (c.isAlpha || c == '_') && after.head?.all (fun x => isSpace x || x == '\n')
        then some (c :: r.takeWhile isNameChar) else none
    | _ => none) = _
  rw [drop_name, colonFollows]
  split <;> simp

/-- A carriage return is neither a blank nor the end of its line. -/
lemma colonFollows_withCrLf (rest : Text) :
    colonFollows (withCrLf rest) = (colonFollows rest && !colonEnds rest) := by
  rw [colonFollows, colonFollows, colonEnds, dropWhile_withCrLf (by decide) (by decide)]
  generalize rest.dropWhile isSpace = w
  match w with
  | [] => rfl
  | d :: after =>
    by_cases hfeed : d = '\n'
    · rw [hfeed]
      rfl
    · rw [withCrLf_cons hfeed]
      by_cases hcolon : d = ':'
      · subst hcolon
        match after with
        | [] => rfl
        | x :: _ =>
          by_cases hx : x = '\n'
          · rw [hx]
            rfl
          · simp [withCrLf_cons hx, hx]
      · simp [hcolon]

/-- **A key is found in front of carriage returns too, unless its colon ends the line.** -/
theorem keyAt?_withCrLf (line : Text) :
    keyAt? (withCrLf line)
      = (keyAt? line).filter fun name => !colonEnds (line.drop name.length) := by
  cases line with
  | nil => rfl
  | cons c r =>
    by_cases hc : c = '\n'
    · rw [hc, withCrLf_lineFeed, keyAt?_cons, keyAt?_cons, if_neg (by simp), if_neg (by simp)]
      rfl
    · rw [withCrLf_cons hc, keyAt?_cons, keyAt?_cons, takeWhile_withCrLf (by decide) (by decide),
        dropWhile_withCrLf (by decide) (by decide), colonFollows_withCrLf]
      by_cases hkey : (c.isAlpha || c == '_') && colonFollows (r.dropWhile isNameChar)
      · rw [if_pos hkey, Option.filter_some, drop_name, ← Bool.and_assoc, hkey, Bool.true_and]
      · rw [if_neg hkey, Option.filter_none, ← Bool.and_assoc, Bool.eq_false_iff.2 hkey,
          Bool.false_and, if_neg Bool.false_ne_true]

/-! ## The keys of a text -/

/-- The colon of a key is the last character of its line, and the text goes on behind it. -/
def Key.colonEndsLine (t : Text) (k : Key) : Bool :=
  colonEnds (dropBytes k.span.stop t)

/-- A key in the text with carriage returns.  Its line ends behind the carriage return. -/
def Key.withCrLf (t : Text) (k : Key) : Key :=
  ⟨k.name, ⟨offsetWithCrLf t k.span.start, offsetWithCrLf t k.span.stop⟩,
    offsetWithCrLf t k.lineStop + if (dropBytes k.lineStop t).head? = some '\n' then 1 else 0⟩

/-- The key at the start of a line in front of carriage returns. -/
lemma ofLine?_withCrLf (a line : Text) :
    Key.ofLine? (bytes (Text.withCrLf a)) (Text.withCrLf line)
      = ((Key.ofLine? (bytes a) line).filter fun k => !k.colonEndsLine (a ++ line)).map
          (·.withCrLf (a ++ line)) := by
  rw [Key.ofLine?, keyAt?_withCrLf, Key.ofLine?]
  cases hname : keyAt? line with
  | none => rfl
  | some name =>
    obtain ⟨-, hfeed, rest, rfl⟩ := keyAt?_eq_some hname
    have hrest : Key.colonEndsLine (a ++ (name ++ rest)) ⟨name, Span.ofText (bytes a) name,
        bytes a + bytes ((name ++ rest).takeWhile (· != '\n'))⟩
        = colonEnds ((name ++ rest).drop name.length) := by
      rw [Key.colonEndsLine, Span.ofText, ← bytes_append, ← List.append_assoc,
        dropBytes_bytes_append, List.drop_left]
    rw [Option.map_some, Option.filter_some, Option.filter_some, hrest]
    split
    · rw [Option.map_some, Option.map_some, Key.withCrLf, ← lineStop_withCrLf, Span.ofText,
        Span.ofText, offsetWithCrLf_append, offsetWithCrLf_add a rest hfeed]
    · rfl

/-- The carriage returns in a text change nothing in where its lines start. -/
lemma keysFrom_withCrLf_cons (b : Bool) (n : Nat) (c : Char) (r : Text) :
    keysFrom b n (Text.withCrLf (c :: r))
      = (if b then (Key.ofLine? n (Text.withCrLf (c :: r))).toList else []) ++
          keysFrom (c == '\n') (n + bytes (Text.withCrLf [c])) (Text.withCrLf r) := by
  by_cases hc : c = '\n'
  · subst hc
    have hfeed (m : Nat) : keysFrom false m ('\n' :: Text.withCrLf r)
        = keysFrom true (m + 1) (Text.withCrLf r) := rfl
    rw [withCrLf_lineFeed, keysFrom, beq_false_of_ne (by decide), hfeed]
    rfl
  · rw [withCrLf_cons hc, withCrLf_cons hc, keysFrom]
    rfl

lemma keysFrom_withCrLf (a line : Text) (b : Bool) :
    keysFrom b (bytes (Text.withCrLf a)) (Text.withCrLf line)
      = ((keysFrom b (bytes a) line).filter fun k => !k.colonEndsLine (a ++ line)).map
          (·.withCrLf (a ++ line)) := by
  induction line generalizing a b with
  | nil => rfl
  | cons c r ih =>
    have hsize : bytes a + c.utf8Size = bytes (a ++ [c]) := by simp
    have htext : a ++ c :: r = a ++ [c] ++ r := by simp
    rw [keysFrom_withCrLf_cons, keysFrom, List.filter_append, List.map_append, hsize, ← bytes_append,
      ← withCrLf_append, ih, ← htext]
    congr 1
    split
    · rw [ofLine?_withCrLf, Option.toList_map, Option.toList_filter]
    · rfl

/-- **With carriage returns the keys are the same**, but for those whose colon ends their line. -/
theorem keys_withCrLf (t : Text) :
    keys (Text.withCrLf t)
      = ((keys t).filter fun k => !k.colonEndsLine t).map (·.withCrLf t) :=
  keysFrom_withCrLf [] t true

/-! ## What the adapter says of them -/

/-- Where the line of a key ends with its carriage return. -/
def Key.lineEndWithCrLf (t : Text) (k : Key) : Position :=
  if (dropBytes k.lineStop t).head? = some '\n' then (positionAt t k.lineStop).advance '\r'
  else positionAt t k.lineStop

lemma positionAt_lineStop_withCrLf (t : Text) (k : Key) :
    positionAt (Text.withCrLf t) (k.withCrLf t).lineStop = k.lineEndWithCrLf t := by
  rw [Key.withCrLf, Key.lineEndWithCrLf]
  split
  next h =>
    obtain ⟨rest, hrest⟩ : ∃ rest, dropBytes k.lineStop t = '\n' :: rest := by
      cases hdrop : dropBytes k.lineStop t with
      | nil => simp [hdrop] at h
      | cons x rest => exact ⟨rest, by simpa [hdrop] using h⟩
    have htext : Text.withCrLf t
        = Text.withCrLf (takeBytes k.lineStop t) ++ ['\r'] ++ '\n' :: Text.withCrLf rest := by
      conv_lhs => rw [← takeBytes_append_dropBytes k.lineStop t, hrest, withCrLf_append]
      rw [withCrLf_lineFeed, List.append_assoc, List.singleton_append]
    have hsize : offsetWithCrLf t k.lineStop + 1
        = bytes (Text.withCrLf (takeBytes k.lineStop t) ++ ['\r']) := by
      rw [bytes_append]
      rfl
    rw [hsize, htext, positionAt, takeBytes_bytes_append, endPosition, List.foldl_append]
    show (endPosition _ _).advance '\r' = _
    rw [endPosition_withCrLf, positionAt]
  next => rw [Nat.add_zero, positionAt_withCrLf]

/-- The outline says the same of a key, but that its line is longer. -/
lemma symbol_withCrLf (t : Text) (k : Key) :
    (k.withCrLf t).symbol (Text.withCrLf t)
      = .leaf
          { name := String.ofList k.name
            kind := keyKind
            range := ⟨positionAt t k.span.start, k.lineEndWithCrLf t⟩
            selection := k.span.rangeIn t } := by
  rw [Key.symbol, rangeOf, positionAt_lineStop_withCrLf, Span.rangeIn, rangeOf]
  simp only [Key.withCrLf, positionAt_withCrLf]
  rfl

/-- A key has the same token. -/
lemma token?_withCrLf (h : k ∈ keys t) :
    (k.withCrLf t).token? (Text.withCrLf t) = k.token? t := by
  obtain ⟨⟨a, b, c, htext, hspan, -⟩, hne, hline⟩ := standsIn_of_mem_keys h
  have hlt : (k.withCrLf t).span.start < (k.withCrLf t).span.stop := by
    have hpos := bytes_pos hne
    rw [Key.withCrLf, hspan, Span.ofText, htext, offsetWithCrLf_append,
      offsetWithCrLf_add a _ hline]
    exact Nat.lt_add_of_pos_right hpos
  have hlt' : k.span.start < k.span.stop := by
    have hpos := bytes_pos hne
    rw [hspan, Span.ofText]
    exact Nat.lt_add_of_pos_right hpos
  rw [Key.token?, Key.token?, SemanticToken.ofSpan?, SemanticToken.ofSpan?]
  simp only [hlt, hlt', true_and]
  simp only [Key.withCrLf, positionAt_withCrLf]

end Metadata

open Metadata

/-- **The outline of a metadata block with carriage returns.**  If each line feed of a block
becomes a carriage return and a line feed, then the outline and the tokens of the block tell the
same keys at the same positions, in the same order, except for the keys whose colon is the last
character of their line: no one of these is a key any more.  The line of a key ends behind its
carriage return. -/
theorem outline_with_crlf (yaml : Reader) (e e' : Embedded) (htext : e'.text = e.text.withCrLf) :
    let kept := (keys e.text).filter fun k => !k.colonEndsLine e.text
    ((adapter yaml).symbols e').answer = .ok (kept.map fun k =>
        .leaf
          { name := String.ofList k.name
            kind := keyKind
            range := ⟨positionAt e.text k.span.start, k.lineEndWithCrLf e.text⟩
            selection := k.span.rangeIn e.text }) ∧
      ((adapter yaml).tokens e').answer = .ok (kept.filterMap (·.token? e.text)) := by
  intro kept
  have hkeys : keys e'.text = kept.map (·.withCrLf e.text) := by rw [htext, keys_withCrLf]
  refine ⟨?_, ?_⟩
  · show Except.ok ((keys e'.text).map (·.symbol e'.text)) = _
    rw [hkeys, htext, List.map_map]
    exact congrArg Except.ok (List.map_congr_left fun k _ => symbol_withCrLf e.text k)
  · show Except.ok ((keys e'.text).filterMap (·.token? e'.text)) = _
    rw [hkeys, htext, List.filterMap_map]
    exact congrArg Except.ok
      (List.filterMap_congr fun k hk => token?_withCrLf (List.mem_filter.1 hk).1)

/-- The outline of a block with a key whose value follows on its line and one whose value starts
on the next line. -/
theorem outline_with_crlf_value_below :
    let yaml : Reader := fun _ => .ok .mapping
    let source : Text := "---\na: 1\nb:\n c: 2\n---".toList
    let e := Embedded.ofLanguage (Snapshot.ofText {} "file:///a" "sfc" 1 source) "yml"
    let e' := Embedded.ofLanguage (Snapshot.ofText {} "file:///a" "sfc" 1 source.withCrLf) "yml"
    e'.text = e.text.withCrLf ∧ ((adapter yaml).tokens e').answer = .ok [⟨1, 0, 1, 3, 1⟩] := by
  intro yaml source e e'
  have htext : e'.text = e.text.withCrLf := by decide +kernel
  have htokens : (((keys e.text).filter fun k => !k.colonEndsLine e.text).filterMap
      (·.token? e.text)) = [⟨1, 0, 1, 3, 1⟩] := by decide +kernel
  refine ⟨htext, ?_⟩
  rw [(outline_with_crlf yaml e e' htext).2, htokens]

/-- **A key is lost with carriage returns**, because its value starts on the next line. -/
theorem key_lost_with_crlf :
    let yaml : Reader := fun _ => .ok .mapping
    let source : Text := "---\nlayout:\n  nested: 1\n---\n<html></html>".toList
    let e := Embedded.ofLanguage (Snapshot.ofText {} "file:///a" "sfc" 1 source) "yml"
    let e' := Embedded.ofLanguage (Snapshot.ofText {} "file:///a" "sfc" 1 source.withCrLf) "yml"
    '\r' ∉ e.text ∧ e'.text = e.text.withCrLf ∧
      ((adapter yaml).tokens e).answer = .ok [⟨1, 0, 6, 3, 1⟩] ∧
      ((adapter yaml).tokens e').answer = .ok [] ∧
      ((adapter yaml).symbols e).answer = .ok [.leaf
        { name := "layout", kind := keyKind, range := ⟨⟨1, 0⟩, ⟨1, 7⟩⟩,
          selection := ⟨⟨1, 0⟩, ⟨1, 6⟩⟩ }] ∧
      ((adapter yaml).symbols e').answer = .ok [] := by
  intro yaml source e e'
  have htext : e.text = "\nlayout:\n  nested: 1\n".toList := by decide +kernel
  have htext' : e'.text = "\r\nlayout:\r\n  nested: 1\r\n".toList := by decide +kernel
  have hkeys : keys e.text = [⟨"layout".toList, ⟨1, 7⟩, 8⟩] := by rw [htext]; decide +kernel
  have hkeys' : keys e'.text = [] := by rw [htext']; decide +kernel
  refine ⟨by rw [htext]; decide +kernel, by rw [htext, htext']; decide +kernel, ?_, ?_, ?_, ?_⟩
  · show Except.ok ((keys e.text).filterMap (·.token? e.text)) = _
    rw [hkeys, htext]
    rfl
  · show Except.ok ((keys e'.text).filterMap (·.token? e'.text)) = _
    rw [hkeys']
    rfl
  · show Except.ok ((keys e.text).map (·.symbol e.text)) = _
    rw [hkeys, htext]
    rfl
  · show Except.ok ((keys e'.text).map (·.symbol e'.text)) = _
    rw [hkeys']
    rfl

end Mosaic
