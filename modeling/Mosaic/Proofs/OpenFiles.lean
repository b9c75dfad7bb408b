import Mathlib
import Mosaic.Store

/-!
# What a store knows of each file

The operations of a store, read through `Store.get?`: each one changes what is known of the file it
names and leaves every other file as it was.

* `Store.get?_put`, `Store.get?_close` — the two operations that change what is open.
* `Store.change_ok`, `Store.save_ok` — a change or a save that succeeds is of an open file.
* `Store.Filed` — every open file is kept under its own name with the regions of its text, and this
  stays so (`Store.Filed.put`, `Store.Filed.close`).
-/

namespace Mosaic.Store

variable {s s' : Store} {file : Snapshot} {uri u : String}

lemma get?_put (file : Snapshot) (s : Store) (u : String) :
    (s.put file).get? u = if file.uri = u then some file else s.get? u := by
  simp only [get?, put, Std.TreeMap.getElem?_insert, compare_eq_iff_eq]

lemma get?_close (s : Store) (uri u : String) :
    (s.close uri).2.get? u = if uri = u then none else s.get? u := by
  simp only [get?, close, Std.TreeMap.getElem?_erase, compare_eq_iff_eq]

/-- A change that succeeds puts the edited snapshot in the place of the open one. -/
lemma change_ok {version : Int} {changes : List Change}
    (h : s.change uri version changes = .ok s') :
    ∃ file, s.get? uri = some file ∧ s' = s.put (file.edit s.scanOptions version changes) := by
  unfold change require at h
  cases hget : s.get? uri with
  | none => simp [hget, bind, Except.bind] at h
  | some file =>
    simp only [hget, bind, Except.bind, pure, Except.pure, Except.ok.injEq] at h
    exact ⟨file, rfl, h.symm⟩

/-- A save that succeeds leaves all snapshots as they are. -/
lemma save_ok (h : s.save uri = .ok s') : s'.get? = s.get? := by
  unfold save require at h
  cases hget : s.get? uri with
  | none => simp [hget, bind, Except.bind] at h
  | some file =>
    simp only [hget, bind, Except.bind, pure, Except.pure, Except.ok.injEq] at h
    subst h
    rfl

lemma mem_uris : uri ∈ s.uris ↔ ∃ file, s.get? uri = some file := by
  rw [uris, Std.TreeMap.mem_keys, Std.TreeMap.mem_iff_isSome_getElem?, Option.isSome_iff_exists]
  rfl

/-! ## Files under their names -/

/-- Every open file is kept under its own name, with the regions of its text. -/
def Filed (s : Store) : Prop :=
  ∀ uri file, s.get? uri = some file →
    ∃ options language version text, file = .ofText options uri language version text

lemma Filed.uri_eq (h : s.Filed) (hget : s.get? uri = some file) : file.uri = uri := by
  obtain ⟨options, language, version, text, rfl⟩ := h uri file hget
  rfl

lemma Filed.put {options : ScanOptions} {language : String} {version : Int} {text : Text}
    (h : s.Filed) (hfile : file = .ofText options uri language version text) :
    (s.put file).Filed := by
  intro u other hget
  have huri : file.uri = uri := by rw [hfile]; rfl
  rw [get?_put, huri] at hget
  split at hget
  next heq =>
    obtain rfl := Option.some.inj hget
    exact ⟨options, language, version, text, heq ▸ hfile⟩
  · exact h u other hget

lemma Filed.close (h : s.Filed) (uri : String) : (s.close uri).2.Filed := by
  intro u file hget
  rw [get?_close] at hget
  split at hget
  · contradiction
  · exact h u file hget

lemma Filed.of_get? (h : s.Filed) (hget : s'.get? = s.get?) : s'.Filed := by
  intro u file hu
  rw [hget] at hu
  exact h u file hu

end Mosaic.Store
