import Mosaic.Proofs.StoreOperations

/-!
# The ledgers of a store

Besides the open files a store keeps the version in which each of them was saved last, how often
each file outside has changed, and how often any has.  These ledgers are told by the operations that
were performed: which save was the last one, and how many changes outside there were.

* `Store.savedVersion?_perform`, `Store.externalRevision_perform`,
  `Store.projectRevision_perform` — what one operation does to each ledger.
* `Store.savedVersion?_eq_some_iff`, `Store.externalRevision_after`,
  `Store.sum_externalRevision_after` — what the ledgers say after any operations.
* `Store.revisions_le` — how great the counters become.
* `ledgers_follow_operations` — all of it together, with what the operations answer.
-/

namespace Mosaic

namespace Store

variable {s : Store} {op : Op} {ops : List Op} {uri u : String} {version : Int}

/-! ## One operation -/

/-- The version of a file when it was last saved, after an operation that names the file. -/
def Op.savedVersion? (file : Option Snapshot) (old : Option Int) : Op → Option Int
  | .save _ => (file.map Snapshot.version).or old
  | .close _ => none
  | .configure _ | .openFile .. | .change .. | .externalChange .. => old

/-- The file outside whose change the operation counts. -/
def Op.outside? : Op → Option String
  | .externalChange uri _ => some uri
  | .configure _ | .openFile .. | .change .. | .save _ | .close _ => none

lemma save_toOption (s : Store) (uri : String) :
    (s.save uri).toOption
      = (s.get? uri).map fun file => { s with saved := s.saved.insert uri file.version } := by
  unfold save require
  cases s.get? uri <;> rfl

/-- **An operation changes the saved version of the file it names**, and of no other. -/
theorem savedVersion?_perform (s : Store) (op : Op) (u : String) :
    (s.perform op).savedVersion? u
      = if op.uri? = some u then op.savedVersion? (s.get? u) (s.savedVersion? u)
        else s.savedVersion? u := by
  cases op with
  | configure | openFile | externalChange => exact (ite_self _).symm
  | change uri version changes =>
    rw [perform, change_toOption]
    cases s.get? uri <;> exact (ite_self _).symm
  | save uri =>
    simp only [Op.uri?, Option.some.injEq, perform, save_toOption, Op.savedVersion?]
    by_cases hu : uri = u
    · subst hu
      cases s.get? uri with
      | none => simp
      | some file => simp [Store.savedVersion?]
    · cases s.get? uri with
      | none => simp [hu]
      | some file => simp [Store.savedVersion?, Std.TreeMap.getElem?_insert, hu]
  | close uri =>
    simp only [Op.uri?, Option.some.injEq, perform, close, Op.savedVersion?, Store.savedVersion?,
      Std.TreeMap.getElem?_erase, compare_eq_iff_eq]

/-- **Only a change outside counts**, and only for the file that changed. -/
theorem externalRevision_perform (s : Store) (op : Op) (u : String) :
    (s.perform op).externalRevision u
      = s.externalRevision u + op.outside?.toList.count u := by
  cases op with
  | configure | openFile | close => rfl
  | change uri version changes =>
    rw [perform, change_toOption]
    cases s.get? uri <;> rfl
  | save uri =>
    rw [perform, save_toOption]
    cases s.get? uri <;> rfl
  | externalChange uri kind =>
    simp only [perform, externalChange, externalRevision, Std.TreeMap.getD_insert,
      compare_eq_iff_eq, Op.outside?, Option.toList_some, List.count_singleton, beq_iff_eq]
    split
    next hu => rw [hu]
    next => rfl

/-- The project counts the changes of all files. -/
theorem projectRevision_perform (s : Store) (op : Op) :
    (s.perform op).projectRevision = s.projectRevision + op.outside?.toList.length := by
  cases op with
  | configure | openFile | close | externalChange => rfl
  | change uri version changes =>
    rw [perform, change_toOption]
    cases s.get? uri <;> rfl
  | save uri =>
    rw [perform, save_toOption]
    cases s.get? uri <;> rfl

/-- Where no file is open, there is none to be changed or saved, and nothing is. -/
lemma refused_of_get?_eq_none (h : s.get? uri = none) (version : Int) (changes : List Change) :
    s.change uri version changes = .error (.documentNotFound uri) ∧
      s.perform (.change uri version changes) = s ∧
      s.save uri = .error (.documentNotFound uri) ∧ s.perform (.save uri) = s := by
  have hrequire : s.require uri = .error (.documentNotFound uri) := by rw [require, h]
  have hchange : s.change uri version changes = .error (.documentNotFound uri) := by
    rw [change, hrequire]
    rfl
  have hsave : s.save uri = .error (.documentNotFound uri) := by
    rw [save, hrequire]
    rfl
  exact ⟨hchange, by rw [perform, hchange]; rfl, hsave, by rw [perform, hsave]; rfl⟩

/-! ## Any operations -/

/-- The store after some operations on a fresh one. -/
def after (ops : List Op) : Store :=
  ops.foldl perform {}

/-- The files outside that have changed, one entry for each change. -/
def outsideChanges (ops : List Op) : List String :=
  ops.filterMap Op.outside?

/-- The file was open with this version at the last save among the operations, and it has not been
closed since. -/
def LastSaved (ops : List Op) (u : String) (version : Int) : Prop :=
  ∃ before later file, ops = before ++ .save u :: later ∧ (after before).get? u = some file ∧
    file.version = version ∧ .save u ∉ later ∧ .close u ∉ later

lemma after_concat (ops : List Op) (op : Op) : after (ops ++ [op]) = (after ops).perform op :=
  List.foldl_concat ..

lemma outsideChanges_concat (ops : List Op) (op : Op) :
    outsideChanges (ops ++ [op]) = outsideChanges ops ++ op.outside?.toList := by
  rw [outsideChanges, List.filterMap_append]
  cases h : op.outside? <;> simp [outsideChanges, h]

/-- Every open file is kept under its own name. -/
lemma filed_after (ops : List Op) : (after ops).Filed := by
  induction ops using List.reverseRecOn with
  | nil =>
    intro uri file h
    simp [after, Store.get?] at h
  | append_singleton ops op ih =>
    rw [after_concat]
    exact ih.perform op

/-- What is known of a saved version is known of an open file. -/
theorem isSome_get?_of_savedVersion? (ops : List Op) {u : String}
    (h : ((after ops).savedVersion? u).isSome) : ((after ops).get? u).isSome := by
  induction ops using List.reverseRecOn with
  | nil => simp [after, Store.savedVersion?] at h
  | append_singleton ops op ih =>
    rw [after_concat] at h ⊢
    rw [savedVersion?_perform] at h
    rw [(filed_after ops).get?_perform]
    split at h
    next hu =>
      rw [if_pos hu]
      cases op with
      | close uri => simp [Op.savedVersion?] at h
      | openFile uri language version text => rfl
      | change uri version changes => simpa [Op.apply] using ih h
      | configure options => exact ih h
      | externalChange uri kind => exact ih h
      | save uri =>
        by_contra hnone
        obtain hnone : (after ops).get? u = none := by simpa [Op.apply] using hnone
        rw [Op.savedVersion?, hnone, Option.map_none, Option.none_or] at h
        exact absurd (ih h) (by simp [hnone])
    next hu => rw [if_neg hu]; exact ih h

/-- Whether a save was the last one is decided by the last operation, or by those before it. -/
lemma lastSaved_concat :
    LastSaved (ops ++ [op]) u version ↔
      (op = .save u ∧ ∃ file, (after ops).get? u = some file ∧ file.version = version) ∨
        op ≠ .save u ∧ op ≠ .close u ∧ LastSaved ops u version := by
  constructor
  · rintro ⟨before, later, file, hops, hfile, hversion, hsave, hclose⟩
    rcases List.eq_nil_or_concat' later with rfl | ⟨later, op', rfl⟩
    · obtain ⟨rfl, hop⟩ := List.append_inj' hops rfl
      exact .inl ⟨List.singleton_inj.1 hop, file, hfile, hversion⟩
    · rw [← List.cons_append, ← List.append_assoc] at hops
      obtain ⟨rfl, hop⟩ := List.append_inj' hops rfl
      obtain rfl := List.singleton_inj.1 hop
      refine .inr ⟨?_, ?_, before, later, file, rfl, hfile, hversion, ?_, ?_⟩
      · rintro rfl; simp at hsave
      · rintro rfl; simp at hclose
      · exact fun hmem => hsave (by simp [hmem])
      · exact fun hmem => hclose (by simp [hmem])
  · rintro (⟨rfl, file, hfile, hversion⟩ | ⟨hsave, hclose, before, later, file, rfl, hfile, hversion,
      hsaves, hcloses⟩)
    · exact ⟨ops, [], file, rfl, hfile, hversion, by simp, by simp⟩
    · refine ⟨before, later ++ [op], file, by simp, hfile, hversion, ?_, ?_⟩
      · simpa [hsaves] using Ne.symm hsave
      · simpa [hcloses] using Ne.symm hclose

/-- **The saved version of a file is the one that it had when it was last saved**, if it has not been
closed since. -/
theorem savedVersion?_eq_some_iff (ops : List Op) (u : String) (version : Int) :
    (after ops).savedVersion? u = some version ↔ LastSaved ops u version := by
  induction ops using List.reverseRecOn with
  | nil =>
    constructor
    · simp [after, Store.savedVersion?]
    · rintro ⟨before, later, file, hops, -⟩
      simp at hops
  | append_singleton ops op ih =>
    rw [lastSaved_concat, ← ih, after_concat, savedVersion?_perform]
    by_cases hsave : op = .save u
    · subst hsave
      cases hfile : (after ops).get? u with
      | some file => simp [Op.uri?, Op.savedVersion?]
      | none =>
        -- nothing is known of a file that is not open
        have hnone : (after ops).savedVersion? u = none := by
          by_contra hne
          have hopen := isSome_get?_of_savedVersion? ops (Option.isSome_iff_ne_none.2 hne)
          simp [hfile] at hopen
        simp [Op.uri?, Op.savedVersion?, hnone]
    · by_cases hclose : op = .close u
      · simp [hclose, Op.uri?, Op.savedVersion?]
      · have hkeep : (if op.uri? = some u then
            op.savedVersion? ((after ops).get? u) ((after ops).savedVersion? u)
            else (after ops).savedVersion? u) = (after ops).savedVersion? u := by
          split
          next hu =>
            cases op with
            | save uri => exact absurd (congrArg Op.save (Option.some.inj hu)) hsave
            | close uri => exact absurd (congrArg Op.close (Option.some.inj hu)) hclose
            | configure | openFile | change | externalChange => rfl
          next => rfl
        simp [hkeep, hsave, hclose]

theorem externalRevision_after (ops : List Op) (u : String) :
    (after ops).externalRevision u = (outsideChanges ops).count u := by
  induction ops using List.reverseRecOn with
  | nil => rfl
  | append_singleton ops op ih =>
    rw [after_concat, externalRevision_perform, ih, outsideChanges_concat, List.count_append]

theorem projectRevision_after (ops : List Op) :
    (after ops).projectRevision = (outsideChanges ops).length := by
  induction ops using List.reverseRecOn with
  | nil => rfl
  | append_singleton ops op ih =>
    rw [after_concat, projectRevision_perform, ih, outsideChanges_concat, List.length_append]

/-- **The revision of the project is the sum of the revisions of all files.** -/
theorem sum_externalRevision_after (ops : List Op) :
    ∑ u ∈ (outsideChanges ops).toFinset, (after ops).externalRevision u
      = (after ops).projectRevision := by
  simp only [externalRevision_after, projectRevision_after]
  exact List.sum_toFinset_count_eq_length _

/-- **No revision is greater than the number of operations**: counters of 64 bits hold them all as
long as there are fewer than `2 ^ 64` operations. -/
theorem revisions_le (ops : List Op) :
    (after ops).projectRevision ≤ ops.length ∧
      ∀ u, (after ops).externalRevision u ≤ (after ops).projectRevision := by
  refine ⟨?_, fun u => ?_⟩
  · rw [projectRevision_after, outsideChanges]
    exact List.length_filterMap_le _ _
  · rw [externalRevision_after, projectRevision_after]
    exact List.count_le_length

end Store

/-- **The ledgers of a store follow its operations.**  After any operations on a fresh store, a file
has a saved version exactly if it was saved since it was last closed, and then it is open and had that
version at the last save; each file outside has the revision that tells how often it has changed, each
change tells the revision it leads to, and the project counts them all.  Closing a file tells of it
exactly if it was open; a file that is not open can be neither changed nor saved.  No operation touches
what is known of another file. -/
theorem ledgers_follow_operations (ops : List Store.Op) :
    let s := Store.after ops
    (∀ u version, s.savedVersion? u = some version ↔ Store.LastSaved ops u version) ∧
    (∀ u, (s.savedVersion? u).isSome → (s.get? u).isSome) ∧
    (∀ u, s.externalRevision u = (Store.outsideChanges ops).count u) ∧
    (∀ u kind, (s.externalChange u kind).1 = .externalChanged u kind
      ((Store.after (ops ++ [.externalChange u kind])).externalRevision u)) ∧
    s.projectRevision = ∑ u ∈ (Store.outsideChanges ops).toFinset, s.externalRevision u ∧
    (∀ u, (s.close u).1 = if (s.get? u).isSome then some (.removed u) else none) ∧
    (∀ u version changes, s.get? u = none →
      s.change u version changes = .error (.documentNotFound u) ∧
        s.perform (.change u version changes) = s ∧
        s.save u = .error (.documentNotFound u) ∧ s.perform (.save u) = s) ∧
    ∀ op u, op.uri? ≠ some u → (s.perform op).get? u = s.get? u ∧
      (s.perform op).savedVersion? u = s.savedVersion? u ∧
      (s.perform op).externalRevision u = s.externalRevision u := by
  intro s
  refine ⟨Store.savedVersion?_eq_some_iff ops, fun u => Store.isSome_get?_of_savedVersion? ops,
    Store.externalRevision_after ops, fun u kind => ?_, (Store.sum_externalRevision_after ops).symm,
    fun u => ?_, fun u version changes h => Store.refused_of_get?_eq_none h version changes,
    fun op u hu => ⟨?_, ?_, ?_⟩⟩
  · rw [Store.after_concat, Store.externalRevision_perform]
    simp [Store.externalChange, Store.Op.outside?, s]
  · cases hget : s.get? u <;> simp [Store.close, hget]
  · rw [(Store.filed_after ops).get?_perform, if_neg hu]
  · rw [Store.savedVersion?_perform, if_neg hu]
  · rw [Store.externalRevision_perform, List.count_eq_zero_of_not_mem, Nat.add_zero]
    cases op with
    | externalChange uri kind => simpa [Store.Op.outside?, Store.Op.uri?, eq_comm] using hu
    | configure | openFile | change | save | close => simp [Store.Op.outside?]

end Mosaic
