import Mosaic.Proofs.OpenFiles

/-!
# Operations on a store

The operations of a store as one type, so that a list of them can be followed.  One that fails
changes nothing.

* `Store.Filed.get?_perform` — an operation changes what is open under the name of the file it
  names, and nothing else.
* `Store.Filed.perform` — files stay under their own names.
-/

namespace Mosaic

/-- An operation on a store. -/
inductive Store.Op where
  | configure (options : ScanOptions)
  | openFile (uri language : String) (version : Int) (text : Text)
  | change (uri : String) (version : Int) (changes : List Change)
  | save (uri : String)
  | close (uri : String)
  | externalChange (uri : String) (kind : Int)

/-- The store after an operation.  One that fails changes nothing. -/
def Store.perform (s : Store) : Store.Op → Store
  | .configure options => s.configure options
  | .openFile uri language version text => s.openFile uri language version text
  | .change uri version changes => (s.change uri version changes).toOption.getD s
  | .save uri => (s.save uri).toOption.getD s
  | .close uri => (s.close uri).2
  | .externalChange uri kind => (s.externalChange uri kind).2

/-- The file that an operation names. -/
def Store.Op.uri? : Store.Op → Option String
  | .configure _ => none
  | .openFile uri _ _ _ | .change uri _ _ | .save uri | .close uri | .externalChange uri _ =>
    some uri

/-- What is open under the name of a file after an operation that names it. -/
def Store.Op.apply (options : ScanOptions) (old : Option Snapshot) : Store.Op → Option Snapshot
  | .openFile uri language version text => some (.ofText options uri language version text)
  | .change _ version changes => old.map (·.edit options version changes)
  | .close _ => none
  | .configure _ | .save _ | .externalChange _ _ => old

namespace Store

variable {s : Store} {uri : String}

lemma change_toOption (s : Store) (uri : String) (version : Int) (changes : List Change) :
    (s.change uri version changes).toOption
      = (s.get? uri).map fun file => s.put (file.edit s.scanOptions version changes) := by
  unfold change require
  cases s.get? uri <;> rfl

/-- **An operation changes what is open under the name of the file it names**, and nothing else. -/
theorem Filed.get?_perform (h : s.Filed) (op : Op) (u : String) :
    (s.perform op).get? u
      = if op.uri? = some u then op.apply s.scanOptions (s.get? u) else s.get? u := by
  cases op with
  | configure options => rfl
  | openFile uri language version text =>
    simp only [Op.uri?, Option.some.injEq, Op.apply]
    exact get?_put _ s u
  | change uri version changes =>
    simp only [Op.uri?, Option.some.injEq, Op.apply, perform, change_toOption]
    cases hfile : s.get? uri with
    | none =>
      split
      next hu => rw [← hu, Option.map_none, Option.getD_none, hfile, Option.map_none]
      · rfl
    | some file =>
      have huri : file.uri = uri := h.uri_eq hfile
      rw [Option.map_some, Option.getD_some, get?_put,
        show (file.edit s.scanOptions version changes).uri = uri from huri]
      split
      next hu => rw [← hu, hfile, Option.map_some]
      · rfl
  | save uri =>
    have hget : (s.perform (.save uri)).get? u = s.get? u := by
      rw [perform]
      cases hsave : s.save uri with
      | error e => rfl
      | ok s' => exact congrFun (save_ok hsave) u
    simp only [hget, Op.apply, ite_self]
  | close uri =>
    simp only [Op.uri?, Option.some.injEq, Op.apply]
    exact get?_close s uri u
  | externalChange uri kind =>
    simp only [Op.apply, ite_self]
    rfl

/-- Files stay under their own names. -/
lemma Filed.perform (h : s.Filed) (op : Op) : (s.perform op).Filed := by
  cases op with
  | configure options => exact h
  | openFile uri language version text => exact h.put rfl
  | change uri version changes =>
    rw [Store.perform, change_toOption]
    cases s.get? uri with
    | none => exact h
    | some file => exact h.put rfl
  | save uri =>
    rw [Store.perform]
    cases hsave : s.save uri with
    | error e => exact h
    | ok s' => exact h.of_get? (save_ok hsave)
  | close uri => exact h.close uri
  | externalChange uri kind => exact h

lemma options_perform (s : Store) (op : Op) : (s.perform op).options
    = match op with
      | .configure options => some (s.options.getD options)
      | _ => s.options := by
  cases op with
  | change uri version changes =>
    rw [perform, change_toOption]
    cases s.get? uri <;> rfl
  | save uri =>
    rw [perform, save, require]
    cases s.get? uri <;> rfl
  | _ => rfl

end Store

end Mosaic
