import Mosaic.Proofs.FanIn
import Mosaic.Proofs.RegionSpacing

/-!
# The regions that services are for

A request on a whole file is put to services for its blocks, and for most requests to services for
its attribute values too.  Together they are for every region whose language has an adapter, and no
region is served twice.

* `Snapshot.blockLanguages_eq` — the block languages of a file, each at its first block.
* `perm_flatMap_filter` — groups, one for each key, hold what there was.
* `Router.covers` — the services for a file, and its regions.
-/

namespace Mosaic

/-! ## Groups -/

/-- To note what was not noted before is to drop what is repeated. -/
lemma foldl_noted (ls : List String) :
    ls.foldl (fun seen l => if seen.contains l then seen else seen ++ [l]) [] = ls.eraseDups := by
  induction ls using List.reverseRecOn with
  | nil => simp
  | append_singleton ls l ih =>
    rw [List.foldl_concat, ih, List.eraseDups_append, List.cons_removeAll]
    by_cases h : l ∈ ls
    · simp [h]
    · simp [h, List.eraseDups_cons]

/-- Groups, one for each key, hold what there was. -/
theorem perm_flatMap_filter {α : Type} (key : α → String) (xs : List α) :
    ((xs.map key).eraseDups.flatMap fun k => xs.filter fun x => key x == k).Perm xs := by
  induction hn : xs.length using Nat.strong_induction_on generalizing xs with
  | _ n ih =>
    cases xs with
    | nil => simp
    | cons x xs =>
      -- the group of the first key, and the groups of what is left
      let rest := xs.filter fun y => !(key y == key x)
      have hkeys : (xs.map key).filter (fun k => !(k == key x)) = rest.map key := by
        rw [List.filter_map]
        rfl
      have hrest := ih rest.length
        (hn ▸ Nat.lt_succ_of_le (List.length_filter_le ..)) rest rfl
      have hgroups : ((rest.map key).eraseDups.flatMap fun k =>
            (x :: xs).filter fun y => key y == k)
          = (rest.map key).eraseDups.flatMap fun k => rest.filter fun y => key y == k := by
        refine List.flatMap_congr fun k hk => ?_
        obtain ⟨y, hy, rfl⟩ := List.mem_map.1 (List.mem_eraseDups.1 hk)
        have hne : key y ≠ key x := by simpa using (List.mem_filter.1 hy).2
        rw [List.filter_cons_of_neg (by simpa using hne.symm), List.filter_filter]
        refine List.filter_congr fun z _ => ?_
        by_cases hz : key z = key y
        · simp [hz, hne]
        · simp [hz]
      have hrestOf : (x :: xs).filter (fun y => !(key y == key x)) = rest :=
        List.filter_cons_of_neg (by simp)
      rw [List.map_cons, List.eraseDups_cons, hkeys, List.flatMap_cons, hgroups]
      exact (hrest.append_left _).trans
        (hrestOf ▸ List.filter_append_perm (fun y => key y == key x) (x :: xs))

/-- Groups whose key is as wanted hold all with such a key. -/
lemma filter_flatMap_filter {α : Type} (key : α → String) (p : String → Bool) (xs : List α)
    (ks : List String) :
    (ks.flatMap fun k => xs.filter fun x => key x == k).filter (fun x => p (key x))
      = (ks.filter p).flatMap fun k => xs.filter fun x => key x == k := by
  have hgroup (k : String) : (xs.filter fun x => key x == k).filter (fun x => p (key x))
      = if p k then xs.filter fun x => key x == k else [] := by
    rw [List.filter_filter]
    split
    next hp =>
      refine List.filter_congr fun x _ => ?_
      by_cases hx : key x = k <;> simp [hx, hp]
    next hp =>
      refine List.filter_eq_nil_iff.2 fun x _ => ?_
      by_cases hx : key x = k <;> simp [hx, hp]
  induction ks with
  | nil => rfl
  | cons k ks ih =>
    rw [List.flatMap_cons, List.filter_append, ih, hgroup]
    cases hp : p k
    · rw [List.filter_cons_of_neg (by simp [hp]), if_neg Bool.false_ne_true, List.nil_append]
    · rw [List.filter_cons_of_pos hp, if_pos rfl, List.flatMap_cons]

/-- What is made of those that have a value, if it depends on the value no more. -/
lemma map_filterMap_isSome {α β γ δ : Type} {get : α → Option β} {make : α → β → γ} {f : γ → δ}
    {g : α → δ} (hf : ∀ a b, f (make a b) = g a) (as : List α) :
    (as.filterMap fun a => (get a).map (make a)).map f
      = (as.filter fun a => (get a).isSome).map g := by
  induction as with
  | nil => rfl
  | cons a as ih => cases h : get a <;> simp [h, ih, hf]

/-- The block languages of a file, each at its first block. -/
lemma Snapshot.blockLanguages_eq (file : Snapshot) :
    file.blockLanguages
      = ((file.regions.filter fun r => !r.inAttribute).map Region.language).eraseDups :=
  foldl_noted _

/-! ## The services for a file -/

/-- The regions that a service is for. -/
def Service.regions (s : Service) : List Region :=
  s.document.segments.map Segment.region

namespace Router

variable {r : Router} {file : Snapshot}

/-- A region of a kind is to be served if its language has an adapter. -/
def toServe (r : Router) (inAttribute : Bool) (region : Region) : Bool :=
  region.inAttribute == inAttribute && (r.adapters.get? region.language).isSome

/-- The services for a file are for all regions whose language has an adapter, each once. -/
structure CoversFile (r : Router) (file : Snapshot) : Prop where
  /-- One service for each block language, in the order of their first blocks. -/
  languages : (r.blockServices file).map (·.document.language)
    = ((file.regions.filter fun region => !region.inAttribute).map Region.language).eraseDups.filter
        fun language => (r.adapters.get? language).isSome
  blocks : ((r.blockServices file).flatMap Service.regions).Perm
    (file.regions.filter (r.toServe false))
  /-- After the blocks, one service for each attribute value, in their order. -/
  fragments : (r.fragmentServices file).map Service.regions
    = (file.regions.filter (r.toServe true)).map ([·])
  /-- Each is by the adapter for its language. -/
  adapters : ∀ s ∈ r.services file, r.adapters.get? s.document.language = some s.adapter

lemma fragmentServices_regions : (r.fragmentServices file).map Service.regions
    = (file.regions.filter (r.toServe true)).map ([·]) := by
  have hmake (region : Region) (adapter : Adapter) :
      Service.regions ⟨adapter, .ofRegion file region⟩ = [region] := rfl
  rw [fragmentServices, map_filterMap_isSome hmake, List.filter_filter]
  refine congrArg _ (List.filter_congr fun region _ => ?_)
  rw [toServe, Bool.and_comm, beq_true]

lemma blockServices_regions : ((r.blockServices file).flatMap Service.regions).Perm
    (file.regions.filter (r.toServe false)) := by
  have hmake (language : String) (adapter : Adapter) :
      Service.regions ⟨adapter, .ofLanguage file language⟩
        = (file.regions.filter fun region => !region.inAttribute).filter
          fun region => region.language == language := by
    rw [List.filter_filter]
    exact (Embedded.map_region_segmentsFrom _ _ _).trans
      (List.filter_congr fun _ _ => Bool.and_comm ..)
  have hserved : (file.regions.filter fun region => !region.inAttribute).filter
      (fun region => (r.adapters.get? region.language).isSome)
        = file.regions.filter (r.toServe false) := by
    rw [List.filter_filter]
    refine List.filter_congr fun region _ => ?_
    rw [toServe, Bool.and_comm, beq_false]
  rw [List.flatMap_def, blockServices, map_filterMap_isSome hmake, file.blockLanguages_eq,
    ← List.flatMap_def, ← filter_flatMap_filter, ← hserved]
  exact (perm_flatMap_filter Region.language _).filter _

lemma adapter_of_language {s : Service} (h : s ∈ r.services file) :
    r.adapters.get? s.document.language = some s.adapter := by
  rcases List.mem_append.1 h with h | h
  · obtain ⟨language, ha, hdoc, -⟩ := mem_blockServices h
    rwa [hdoc]
  · obtain ⟨region, -, hs⟩ := List.mem_filterMap.1 h
    obtain ⟨adapter, ha, rfl⟩ := Option.map_eq_some_iff.1 hs
    exact ha

/-- **The services for a file are for all regions whose language has an adapter**, each once. -/
theorem covers (r : Router) (file : Snapshot) : r.CoversFile file where
  languages := by
    rw [← file.blockLanguages_eq, blockServices]
    refine (map_filterMap_isSome (g := id) ?_ file.blockLanguages).trans (List.map_id _)
    exact fun _ _ => rfl
  blocks := blockServices_regions
  fragments := fragmentServices_regions
  adapters := fun _ => adapter_of_language

end Router

end Mosaic
