import Mosaic.Proofs.LinePosition
import Mosaic.Proofs.OpenFiles

/-!
# An editor and the store

An editor replaces parts of its buffer and reports each replacement by the range of what was
replaced.  `Edits` is one such step with its report; it knows the buffer as a list of parts and the
store's arithmetic not at all.  The store only sees the reports.

* `Edits.between` — whatever stands between two boundaries of the buffer can be replaced.
* `Edits.apply_eq`, `EditsAll.applyChanges_eq` — applying the reports gives the buffer.
* `Store.changeAll_of_session` — over a session an open file stays open and holds the buffer.
* `editor_and_store_agree` — an edit session never fails, and after it the store holds what it would
  hold if the file had just been opened with the editor's buffer.
-/

namespace Mosaic

open Text

/-! ## Edits and their reports -/

/-- One step of an editor: the buffer before it, the change that is reported, and the buffer after
it. -/
inductive Edits : Text → Change → Text → Prop
  /-- A part of the buffer is replaced, and its range is sent. -/
  | replace (before old after new : Text) :
    Edits (before ++ (old ++ after))
      ⟨some (rangeOf (before ++ (old ++ after)) (bytes before) (bytes before + bytes old)), new⟩
      (before ++ (new ++ after))
  /-- The whole buffer is replaced. -/
  | replaceAll (old new : Text) : Edits old ⟨none, new⟩ new

/-- The steps that are reported together. -/
inductive EditsAll : Text → List Change → Text → Prop
  | nil (t : Text) : EditsAll t [] t
  | cons {t t' t'' : Text} {c : Change} {cs : List Change} (first : Edits t c t')
    (rest : EditsAll t' cs t'') : EditsAll t (c :: cs) t''

/-- Changes that are reported together, with the version they lead to. -/
structure Batch where
  version : Int
  changes : List Change

/-- The text in an editor, and the version that was sent last. -/
structure Buffer where
  version : Int
  text : Text

/-- An edit session, from one state of the buffer to another. -/
inductive Session : Buffer → List Batch → Buffer → Prop
  | nil (b : Buffer) : Session b [] b
  | cons {b b' : Buffer} {t : Text} {batch : Batch} {batches : List Batch}
    (first : EditsAll b.text batch.changes t) (rest : Session ⟨batch.version, t⟩ batches b') :
    Session b (batch :: batches) b'

section Reports

variable {t t' new : Text} {c : Change} {cs : List Change} {m n : Nat}

lemma dropBytes_parts (before old after : Text) :
    dropBytes (bytes before + bytes old) (before ++ (old ++ after)) = after := by
  rw [← bytes_append, ← List.append_assoc, dropBytes_bytes_append]

/-- **What stands between any two boundaries** can be replaced. -/
theorem Edits.between (hm : IsBoundary t m) (hn : IsBoundary t n) (h : m ≤ n) (new : Text) :
    Edits t ⟨some (rangeOf t m n), new⟩ (takeBytes m t ++ (new ++ dropBytes n t)) := by
  obtain ⟨before, old, after, rfl, rfl, rfl⟩ := hm.parts hn h
  rw [takeBytes_bytes_append, dropBytes_parts]
  exact .replace before old after new

/-- The range of a span denotes that span. -/
lemma spanOf_rangeOf (hm : IsBoundary t m) (hn : IsBoundary t n) (h : m ≤ n) :
    spanOf t (rangeOf t m n) = (m, n) := by
  simp only [spanOf, rangeOf]
  rw [offsetAt_positionAt_of_boundary hm, offsetAt_positionAt_of_boundary hn, min_eq_left h,
    max_eq_right h]

lemma splice_parts (before old after new : Text) :
    splice (bytes before) (bytes before + bytes old) new (before ++ (old ++ after))
      = before ++ (new ++ after) := by
  rw [splice, takeBytes_bytes_append, dropBytes_parts, List.append_assoc]

/-- **A report says what was done.** -/
theorem Edits.apply_eq (h : Edits t c t') : c.apply t = t' := by
  cases h with
  | replaceAll => rfl
  | replace before old after new =>
    have hm : IsBoundary (before ++ (old ++ after)) (bytes before) :=
      ⟨before, old ++ after, rfl, rfl⟩
    have hn : IsBoundary (before ++ (old ++ after)) (bytes before + bytes old) :=
      ⟨before ++ old, after, by simp, bytes_append before old⟩
    simp only [Change.apply]
    rw [spanOf_rangeOf hm hn (Nat.le_add_right ..)]
    exact splice_parts before old after new

/-- Each report is read in the text that the ones before it lead to. -/
theorem EditsAll.applyChanges_eq (h : EditsAll t cs t') : t.applyChanges cs = t' := by
  induction h with
  | nil => rfl
  | cons first _ ih =>
    rw [applyChanges, List.foldl_cons, first.apply_eq]
    exact ih

end Reports

/-! ## Sessions -/

namespace Store

/-- The changes of a session, one batch after the other. -/
def changeAll (uri : String) (batches : List Batch) (s : Store) : Except Error Store :=
  batches.foldlM (fun s batch => s.change uri batch.version batch.changes) s

variable {s : Store} {uri : String} {file : Snapshot}

/-- A change of an open file succeeds. -/
lemma change_of_open (hget : s.get? uri = some file) (version : Int) (changes : List Change) :
    s.change uri version changes = .ok (s.put (file.edit s.scanOptions version changes)) := by
  simp only [change, require, hget]
  rfl

/-- **Over a session an open file stays open and holds the buffer**, in each of its versions. -/
theorem changeAll_of_session (language : String) {b b' : Buffer} {batches : List Batch}
    (h : Session b batches b')
    (hget : s.get? uri = some (.ofText s.scanOptions uri language b.version b.text)) :
    ∃ s', s.changeAll uri batches = .ok s' ∧ s'.scanOptions = s.scanOptions ∧
      s'.get? uri = some (.ofText s.scanOptions uri language b'.version b'.text) ∧
      ∀ other, other ≠ uri → s'.get? other = s.get? other := by
  induction h generalizing s with
  | nil b => exact ⟨s, rfl, rfl, hget, fun _ _ => rfl⟩
  | @cons b b' t batch batches first rest ih =>
    have hedit : (Snapshot.ofText s.scanOptions uri language b.version b.text).edit s.scanOptions
        batch.version batch.changes = .ofText s.scanOptions uri language batch.version t :=
      congrArg (Snapshot.ofText s.scanOptions uri language batch.version) first.applyChanges_eq
    have hchange := change_of_open hget batch.version batch.changes
    rw [hedit] at hchange
    generalize hnext : s.put (.ofText s.scanOptions uri language batch.version t) = next at hchange
    have hoptions : next.scanOptions = s.scanOptions := by rw [← hnext]; rfl
    have hget' (u : String) : next.get? u =
        if uri = u then some (.ofText s.scanOptions uri language batch.version t)
        else s.get? u := by
      rw [← hnext, get?_put]
      rfl
    obtain ⟨s', hrun, hoptions', hfile, hothers⟩ := ih (s := next) (by
      rw [hget', if_pos rfl, hoptions])
    refine ⟨s', ?_, hoptions'.trans hoptions, by rw [hfile, hoptions], fun other hne => ?_⟩
    · rw [changeAll, List.foldlM_cons, hchange]
      exact hrun
    · rw [hothers other hne, hget', if_neg hne.symm]

end Store

/-- **Editor and store never drift apart.**  Whatever an editor does after it has opened a file,
none of its reports is refused, and at the end the store holds the editor's buffer in the last
version sent, with the regions of that text, as if the file had just been opened with it.  Nothing
happens to other files. -/
theorem editor_and_store_agree (s : Store) (uri language : String) (opened last : Buffer)
    (batches : List Batch) (h : Session opened batches last) :
    ∃ s', (s.openFile uri language opened.version opened.text).changeAll uri batches = .ok s' ∧
      (∃ file, s'.get? uri = some file ∧ file.text = last.text ∧ file.version = last.version ∧
        file.regions = scan s'.scanOptions last.text ∧
        file = .ofText s.scanOptions uri language last.version last.text) ∧
      s'.scanOptions = s.scanOptions ∧
      ∀ other, other ≠ uri → s'.get? other = s.get? other := by
  have hget (u : String) : (s.openFile uri language opened.version opened.text).get? u =
      if uri = u then some (.ofText s.scanOptions uri language opened.version opened.text)
      else s.get? u := Store.get?_put ..
  obtain ⟨s', hrun, hoptions, hfile, hothers⟩ := Store.changeAll_of_session language h
    (by rw [hget, if_pos rfl]; rfl)
  refine ⟨s', hrun, ⟨_, hfile, rfl, rfl, ?_, rfl⟩, hoptions, fun other hne => ?_⟩
  · rw [hoptions]
    rfl
  · rw [hothers other hne, hget, if_neg hne.symm]

/-- Two batches: in the first one a letter beyond the basic plane is replaced and then the text
behind it, in the second one everything. -/
theorem editor_and_store_agree_two_batches :
    let t : Text := "a𝔅\nü".toList
    let batches : List Batch :=
      [⟨2, [⟨some ⟨⟨0, 1⟩, ⟨0, 3⟩⟩, "é".toList⟩, ⟨some ⟨⟨0, 2⟩, ⟨1, 1⟩⟩, "<style>".toList⟩]⟩,
        ⟨3, [⟨none, "x".toList⟩, ⟨some ⟨⟨0, 1⟩, ⟨0, 1⟩⟩, "y".toList⟩]⟩]
    Session ⟨1, t⟩ batches ⟨3, "xy".toList⟩ ∧
      ∃ s', (({} : Store).openFile "file:///a" "sfc" 1 t).changeAll "file:///a" batches = .ok s' ∧
        ∃ file, s'.get? "file:///a" = some file ∧ file.text = "xy".toList := by
  intro t batches
  have h : Session ⟨1, t⟩ batches ⟨3, "xy".toList⟩ := by
    have h1 : Edits t ⟨some ⟨⟨0, 1⟩, ⟨0, 3⟩⟩, "é".toList⟩ "aé\nü".toList :=
      .replace ['a'] ['𝔅'] ['\n', 'ü'] ['é']
    have h2 : Edits "aé\nü".toList ⟨some ⟨⟨0, 2⟩, ⟨1, 1⟩⟩, "<style>".toList⟩
        "aé<style>".toList := .replace ['a', 'é'] ['\n', 'ü'] [] "<style>".toList
    have h3 : Edits "aé<style>".toList ⟨none, "x".toList⟩ "x".toList := .replaceAll ..
    have h4 : Edits "x".toList ⟨some ⟨⟨0, 1⟩, ⟨0, 1⟩⟩, "y".toList⟩ "xy".toList :=
      .replace ['x'] [] [] ['y']
    exact .cons (.cons h1 (.cons h2 (.nil _))) (.cons (.cons h3 (.cons h4 (.nil _))) (.nil _))
  obtain ⟨s', hrun, ⟨file, hfile, htext, -⟩, -⟩ :=
    editor_and_store_agree {} "file:///a" "sfc" ⟨1, t⟩ ⟨3, "xy".toList⟩ batches h
  exact ⟨h, s', hrun, file, hfile, htext⟩

end Mosaic
