import Mosaic.Proofs.ByteText
import Mosaic.Proofs.PositionOrder
import Mosaic.SemanticToken

/-!
# Semantic tokens on their way to a client

Tokens of several languages come in any order and may stand at one place.  They are sorted, the
first one of each place stays, and each tells its distance from the one before.  A distance is a
difference of numbers that cannot be negative, so the order has to be right for it to be told at all
(`SemanticToken.deltas?`).

* `SemanticToken.mem_dropRepeats` — of sorted tokens those stay that come first at their places.
* `SemanticToken.mem_merge` — and of any tokens those that came first before they were sorted.
* `SemanticToken.ofDeltasFrom_deltasFrom` — distances in an ordered list tell the list.
* `merged_tokens_decode` — what merging keeps, and that nothing of it is lost on the way.
-/

namespace Mosaic

namespace SemanticToken

open Utf8 (sub? sub?_of_le)

variable {ts : List SemanticToken} {t : SemanticToken} {p : Position} {last : Option Position}

/-! ## Order -/

/-- The token is at the position or behind it. -/
def From (p : Position) (t : SemanticToken) : Prop :=
  p.upTo t.position

/-- The first token in a list that stands at a position. -/
def firstAt? (p : Position) (ts : List SemanticToken) : Option SemanticToken :=
  ts.find? (·.position = p)

lemma firstAt?_cons (p : Position) (t : SemanticToken) (ts : List SemanticToken) :
    firstAt? p (t :: ts) = if t.position = p then some t else firstAt? p ts := by
  by_cases h : t.position = p <;> simp [firstAt?, h]

lemma mem_of_firstAt? (h : firstAt? p ts = some t) : t ∈ ts ∧ t.position = p :=
  ⟨List.mem_of_find?_eq_some h, by simpa using List.find?_some h⟩

/-- Sorting leaves tokens at one position in their order, and so the first one stays the first. -/
lemma firstAt?_mergeSort (p : Position) (ts : List SemanticToken) :
    firstAt? p (ts.mergeSort fun a b => a.position.upTo b.position) = firstAt? p ts := by
  let same : List SemanticToken := ts.filter (·.position = p)
  have hsorted : same.Pairwise fun a b => a.position.upTo b.position := by
    refine List.pairwise_of_forall_mem_list fun a ha b hb => ?_
    obtain ⟨rfl, hb⟩ : a.position = p ∧ b.position = p := by
      simpa using And.intro (List.mem_filter.1 ha).2 (List.mem_filter.1 hb).2
    rw [hb]
    exact Position.upTo_refl _
  have hsub : same.Sublist (ts.mergeSort fun a b => a.position.upTo b.position) :=
    Position.sublist_mergeSort position hsorted List.filter_sublist
  have hlength := ((List.mergeSort_perm ts fun a b => a.position.upTo b.position).filter
    fun t => decide (t.position = p)).length_eq
  have heq := (hsub.filter fun t => decide (t.position = p)).eq_of_length
    (by rw [hlength, List.filter_filter]; simp)
  rw [firstAt?, firstAt?, ← List.head?_filter, ← List.head?_filter, ← heq, List.filter_filter]
  simp

/-! ## Merging -/

/-- **Of sorted tokens those stay that come first at their places**, except at the place just
kept. -/
theorem mem_dropRepeats (hsorted : ts.Pairwise fun a b => a.position.upTo b.position)
    (hlast : ∀ p, last = some p → ∀ s ∈ ts, s.From p) :
    t ∈ dropRepeats last ts ↔ last ≠ some t.position ∧ firstAt? t.position ts = some t := by
  induction ts generalizing last with
  | nil => simp [dropRepeats, firstAt?]
  | cons a ts ih =>
    obtain ⟨hfirst, hrest⟩ := List.pairwise_cons.1 hsorted
    rw [firstAt?_cons, dropRepeats]
    by_cases hrepeat : last = some a.position
    · rw [if_pos hrepeat, ih hrest fun p hp s hs => hlast p hp s (by simp [hs])]
      refine and_congr_right fun hne => ?_
      rw [if_neg fun he : a.position = t.position => hne (he ▸ hrepeat)]
    · rw [if_neg hrepeat, List.mem_cons, ih hrest fun p hp s hs => by
        obtain rfl := Option.some.inj hp
        exact hfirst s hs]
      by_cases hpos : a.position = t.position
      · rw [if_pos hpos, ← hpos]
        simp [hrepeat, eq_comm]
      · rw [if_neg hpos]
        constructor
        · rintro (rfl | ⟨-, hfound⟩)
          · exact absurd rfl hpos
          · refine ⟨fun he => hpos ?_, hfound⟩
            -- the place just kept is not behind the token that follows it
            have hback : a.From t.position := hlast _ he a (by simp)
            exact Position.upTo_antisymm (hfirst t (mem_of_firstAt? hfound).1) hback
        · rintro ⟨-, hfound⟩
          exact Or.inr ⟨fun he => hpos (Option.some.inj he), hfound⟩

/-- What stays of sorted tokens is strictly ordered, and behind the place just kept. -/
theorem pairwise_dropRepeats (hsorted : ts.Pairwise fun a b => a.position.upTo b.position)
    (hlast : ∀ p, last = some p → ∀ s ∈ ts, s.From p) :
    (dropRepeats last ts).Pairwise fun a b => a.position.precedes b.position := by
  induction ts generalizing last with
  | nil => exact List.Pairwise.nil
  | cons a ts ih =>
    obtain ⟨hfirst, hrest⟩ := List.pairwise_cons.1 hsorted
    rw [dropRepeats]
    split
    · exact ih hrest fun p hp s hs => hlast p hp s (by simp [hs])
    · have hkept : ∀ p, some a.position = some p → ∀ s ∈ ts, s.From p := by
        intro p hp s hs
        obtain rfl := Option.some.inj hp
        exact hfirst s hs
      refine List.Pairwise.cons (fun b hb => ?_) (ih hrest hkept)
      obtain ⟨hne, hfound⟩ := (mem_dropRepeats hrest hkept).1 hb
      exact Position.precedes_iff.2 ⟨hfirst b (mem_of_firstAt? hfound).1, fun he => hne (he ▸ rfl)⟩

/-- Merged tokens are strictly ordered. -/
lemma pairwise_merge (ts : List SemanticToken) :
    (merge ts).Pairwise fun a b => a.position.precedes b.position :=
  pairwise_dropRepeats (Position.pairwise_mergeSort position ts) (by simp)

/-- **Merging keeps the tokens that come first at their places.** -/
theorem mem_merge : t ∈ merge ts ↔ firstAt? t.position ts = some t := by
  rw [merge, mem_dropRepeats (Position.pairwise_mergeSort position ts) (by simp),
    firstAt?_mergeSort]
  exact and_iff_right (Option.some_ne_none _).symm

lemma mem_of_mem_merge (h : t ∈ merge ts) : t ∈ ts :=
  (mem_of_firstAt? (mem_merge.1 h)).1

/-! ## Distances -/

/-- The distance of a token from a position, if the token is not before it. -/
def deltaFrom? (p : Position) (t : SemanticToken) : Option TokenDelta := do
  let lines ← sub? t.line p.line
  let start ← if lines = 0 then sub? t.start p.character else some t.start
  some ⟨lines, start, t.length, t.kind, t.modifiers⟩

/-- The distances in a list of tokens that follows a token at `p`, if it is ordered. -/
def deltasFrom? : Position → List SemanticToken → Option (List TokenDelta)
  | _, [] => some []
  | p, t :: ts => do
    let d ← deltaFrom? p t
    let ds ← deltasFrom? t.position ts
    some (d :: ds)

/-- The distances in a list of tokens, if it is ordered. -/
def deltas? (ts : List SemanticToken) : Option (List TokenDelta) :=
  deltasFrom? ⟨0, 0⟩ ts

/-- The distance of a token that is not before the position can be told. -/
lemma deltaFrom?_eq (h : t.From p) : deltaFrom? p t = some (deltaFrom p t) := by
  obtain ⟨hline, hstart⟩ : p.line ≤ t.line ∧ (t.line = p.line → p.character ≤ t.start) := by
    have := Position.upTo_iff.1 h
    simp only [position] at this
    omega
  rw [deltaFrom?, sub?_of_le hline, Option.bind_eq_bind, Option.bind_some]
  by_cases hsame : t.line = p.line
  · have hzero : t.line - p.line = 0 := by omega
    rw [if_pos hzero, sub?_of_le (hstart hsame), Option.bind_some, deltaFrom, if_pos hsame]
  · have hpos : t.line - p.line ≠ 0 := by omega
    rw [if_neg hpos, Option.bind_some, deltaFrom, if_neg hsame]

/-- And it tells the token. -/
lemma ofDelta_deltaFrom (h : t.From p) : ofDelta p (deltaFrom p t) = t := by
  obtain ⟨line, start, length, kind, modifiers⟩ := t
  have := Position.upTo_iff.1 h
  simp only [position] at this
  simp only [ofDelta, deltaFrom, mk.injEq, and_true]
  split_ifs <;> omega

/-- **Distances in an ordered list can be told and tell the list.** -/
theorem ofDeltasFrom_deltasFrom (hp : ∀ t ∈ ts, t.From p)
    (hsorted : ts.Pairwise fun a b => a.position.precedes b.position) :
    deltasFrom? p ts = some (deltasFrom p ts) ∧ ofDeltasFrom p (deltasFrom p ts) = ts := by
  induction ts generalizing p with
  | nil => exact ⟨rfl, rfl⟩
  | cons t ts ih =>
    obtain ⟨hfirst, hrest⟩ := List.pairwise_cons.1 hsorted
    have ht := hp t (by simp)
    obtain ⟨htold, hback⟩ := ih (p := t.position)
      (fun s hs => (Position.precedes_iff.1 (hfirst s hs)).1) hrest
    refine ⟨?_, ?_⟩
    · simp [deltasFrom?, deltasFrom, deltaFrom?_eq ht, htold]
    · rw [deltasFrom, ofDeltasFrom, ofDelta_deltaFrom ht, hback]

/-- Every token is at the start of a file or behind it. -/
lemma from_start (t : SemanticToken) : t.From ⟨0, 0⟩ := by
  rw [From, Position.upTo_iff]
  simp only
  omega

/-- Merged tokens can be told, and are the same again when they are read. -/
theorem ofDeltas_merge (ts : List SemanticToken) :
    deltas? (merge ts) = some (deltas (merge ts)) ∧ ofDeltas (deltas (merge ts)) = merge ts :=
  ofDeltasFrom_deltasFrom (fun t _ => from_start t) (pairwise_merge ts)

end SemanticToken

open SemanticToken in
/-- **Merging keeps one token for each place, and nothing of it is lost on the way.**  Merged tokens
are strictly ordered, stand at the places at which there were any, and are the first ones there;
their distances are differences that never go below zero, and a client that adds them up has the
merged tokens. -/
theorem merged_tokens_decode (ts : List SemanticToken) :
    (merge ts).Pairwise (fun a b => a.position.precedes b.position) ∧
    (∀ p, p ∈ (merge ts).map position ↔ p ∈ ts.map position) ∧
    (∀ t, t ∈ merge ts ↔ firstAt? t.position ts = some t) ∧
    deltas? (merge ts) = some (deltas (merge ts)) ∧
    ofDeltas (deltas (merge ts)) = merge ts := by
  obtain ⟨htold, hback⟩ := ofDeltas_merge ts
  refine ⟨pairwise_merge ts, fun p => ⟨fun h => ?_, fun h => ?_⟩, fun t => mem_merge, htold, hback⟩
  · obtain ⟨t, ht, rfl⟩ := List.mem_map.1 h
    exact List.mem_map_of_mem (mem_of_mem_merge ht)
  · obtain ⟨t, ht, rfl⟩ := List.mem_map.1 h
    obtain ⟨first, hfirst⟩ : ∃ first, firstAt? t.position ts = some first := by
      rw [← Option.isSome_iff_exists, firstAt?, List.find?_isSome]
      exact ⟨t, ht, by simp⟩
    have hplace := (mem_of_firstAt? hfirst).2
    exact List.mem_map.2 ⟨first, mem_merge.2 (by rw [hplace, hfirst]), hplace⟩

end Mosaic
