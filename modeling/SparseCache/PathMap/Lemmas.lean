import SparseCache.Path.Lemmas
import SparseCache.PathMap

namespace SparseCache.PathMap

/-! What a path map answers after a change, whatever the spelling. -/

variable {α : Type} {map : PathMap α} {path other : Path} {value : α}

theorem get?_congr (same : path.Same other) : map.get? path = map.get? other := by
  have agree : (fun item : Path × α => decide (item.1.Same path))
      = fun item => decide (item.1.Same other) := by
    funext item
    exact decide_eq_decide.mpr ⟨fun found => found.trans same, fun found => found.trans same.symm⟩
  simp only [get?, agree]

theorem contains_eq_isSome : map.contains path = (map.get? path).isSome := by
  simp [contains, get?, List.isSome_find?]

theorem get?_erase_of_same (same : path.Same other) : (map.erase path).get? other = none := by
  simp only [get?, erase, Option.map_eq_none_iff, List.find?_eq_none, List.mem_filter,
    Bool.not_eq_true', decide_eq_false_iff_not, decide_eq_true_eq]
  rintro item ⟨-, apart⟩ found
  exact apart (found.trans same.symm)

theorem get?_erase_of_not_same (apart : ¬ path.Same other) :
    (map.erase path).get? other = map.get? other := by
  simp only [get?, erase]
  induction map with
  | nil => rfl
  | cons item map ih =>
    by_cases here : item.1.Same path
    · have elsewhere : ¬ item.1.Same other := fun found => apart (here.symm.trans found)
      simp only [List.filter_cons, here, decide_true, Bool.not_true, Bool.false_eq_true,
        if_false, List.find?_cons, elsewhere, decide_false]
      exact ih
    · simp only [List.filter_cons, here, decide_false, Bool.not_false, if_true, List.find?_cons]
      split
      · rfl
      · exact ih

theorem get?_erase :
    (map.erase path).get? other = if path.Same other then none else map.get? other := by
  split
  · rename_i same
    exact get?_erase_of_same same
  · rename_i apart
    exact get?_erase_of_not_same apart

theorem erase_of_get?_none (missing : map.get? path = none) : map.erase path = map := by
  refine List.filter_eq_self.mpr fun item member => ?_
  simp only [get?, Option.map_eq_none_iff, List.find?_eq_none] at missing
  simpa using missing item member

theorem get?_erase_eq_some_iff :
    (map.erase path).get? other = some value ↔ ¬ path.Same other ∧ map.get? other = some value := by
  rw [get?_erase]
  split
  · rename_i same
    simp [same]
  · rename_i apart
    simp [apart]

/-- A replaced value is found from every spelling of its key, and only from those. -/
theorem get?_replaced (items : List (Path × α)) :
    get? (items.map fun item => if item.1.Same path then (item.1, value) else item) other
      = if path.Same other then (get? items other).map fun _ => value else get? items other := by
  induction items with
  | nil => simp [get?]
  | cons item items ih =>
      by_cases here : item.1.Same path
      · by_cases asked : path.Same other
        · simp [get?, here, asked, here.trans asked]
        · have elsewhere : ¬ item.1.Same other := fun found => asked (here.symm.trans found)
          simpa [get?, here, asked, elsewhere] using ih
      · by_cases found : item.1.Same other
        · have elsewhere : ¬ path.Same other := fun asked => here (found.trans asked.symm)
          simp [get?, here, found, elsewhere]
        · simpa [get?, here, found] using ih

theorem get?_set :
    (map.set path value).get? other = if path.Same other then some value else map.get? other := by
  unfold set
  split
  · rename_i present
    rw [get?_replaced]
    split
    · rename_i asked
      rw [contains_eq_isSome, get?_congr asked] at present
      obtain ⟨old, found⟩ := Option.isSome_iff_exists.mp present
      rw [found, Option.map_some]
    · rfl
  · rename_i absent
    by_cases asked : path.Same other
    · have missing : map.get? other = none := by
        rw [contains_eq_isSome, get?_congr asked] at absent
        simpa using absent
      simp only [get?, Option.map_eq_none_iff] at missing
      simp [get?, List.find?_append, missing, asked]
    · simp [get?, List.find?_append, asked]

theorem exists_mem_of_get? (found : map.get? path = some value) :
    ∃ key, (key, value) ∈ map ∧ key.Same path := by
  simp only [get?, Option.map_eq_some_iff] at found
  obtain ⟨⟨key, stored⟩, first, rfl⟩ := found
  exact ⟨key, List.mem_of_find?_eq_some first, by simpa using List.find?_some first⟩

/-- No two keys name one location. -/
def Distinct (map : PathMap α) : Prop := map.Pairwise fun left right => ¬ left.1.Same right.1

theorem Distinct.set (distinct : map.Distinct) : (map.set path value).Distinct := by
  unfold PathMap.set
  split
  · have keys : ∀ item : Path × α,
        (if item.1.Same path then (item.1, value) else item).1 = item.1 := by
      intro item
      split <;> rfl
    exact List.pairwise_map.mpr (distinct.imp fun apart => by rwa [keys, keys])
  · rename_i absent
    refine List.pairwise_append.mpr ⟨distinct, List.pairwise_singleton _ _, ?_⟩
    intro item member other last
    obtain rfl := List.mem_singleton.mp last
    intro same
    exact absent (List.any_eq_true.mpr ⟨item, member, decide_eq_true same⟩)

theorem Distinct.get?_of_mem {key : Path} (distinct : map.Distinct) (member : (key, value) ∈ map)
    (same : key.Same path) : map.get? path = some value := by
  induction map with
  | nil => cases member
  | cons item map ih =>
      obtain ⟨apart, rest⟩ := List.pairwise_cons.mp distinct
      rcases List.mem_cons.mp member with rfl | later
      · simp [get?, same]
      · have elsewhere : ¬ item.1.Same path := fun found =>
          apart _ later (found.trans same.symm)
        simpa [get?, elsewhere] using ih rest later

/-- No two keys name one location, and no two hold one value. -/
structure OneToOne (map : PathMap α) : Prop where
  distinct : map.Distinct
  single : map.Pairwise fun left right => left.2 ≠ right.2

namespace OneToOne

theorem eq_of_mem {left right : Path × α} (oneToOne : map.OneToOne) (member : left ∈ map)
    (member' : right ∈ map) (alike : left.2 = right.2) : left = right := by
  obtain ⟨i, inside, at_i⟩ := List.getElem_of_mem member
  obtain ⟨j, inside', at_j⟩ := List.getElem_of_mem member'
  have unlike := List.pairwise_iff_getElem.mp oneToOne.single
  rcases Nat.lt_trichotomy i j with before | rfl | after
  · have different := unlike i j inside inside' before
    rw [at_i, at_j] at different
    exact absurd alike different
  · exact at_i.symm.trans at_j
  · have different := unlike j i inside' inside after
    rw [at_i, at_j] at different
    exact absurd alike.symm different

theorem same (oneToOne : map.OneToOne) (first : map.get? path = some value)
    (second : map.get? other = some value) : path.Same other := by
  obtain ⟨one, member, here⟩ := exists_mem_of_get? first
  obtain ⟨two, member', there⟩ := exists_mem_of_get? second
  cases oneToOne.eq_of_mem member member' rfl
  exact here.symm.trans there

theorem filter (oneToOne : map.OneToOne) (keep : Path × α → Bool) :
    OneToOne (List.filter keep map) :=
  ⟨oneToOne.distinct.filter keep, oneToOne.single.filter keep⟩

theorem erase (oneToOne : map.OneToOne) : (map.erase path).OneToOne := oneToOne.filter _

theorem get?_erase_ne (oneToOne : map.OneToOne) (found : map.get? path = some value) :
    (map.erase path).get? other ≠ some value := by
  intro kept
  obtain ⟨apart, elsewhere⟩ := get?_erase_eq_some_iff.mp kept
  exact apart (oneToOne.same found elsewhere)

/-- What is mapped nowhere may be mapped anywhere. -/
theorem set (oneToOne : map.OneToOne) (unmapped : ∀ other, map.get? other ≠ some value) :
    (map.set path value).OneToOne := by
  have absent : ∀ item ∈ map, item.2 ≠ value := by
    intro item member here
    have found := oneToOne.distinct.get?_of_mem member (Path.Same.refl item.1)
    rw [here] at found
    exact unmapped item.1 found
  refine ⟨oneToOne.distinct.set, ?_⟩
  unfold PathMap.set
  split
  · refine List.pairwise_map.mpr ((oneToOne.distinct.and oneToOne.single).imp_of_mem ?_)
    intro left right first second ⟨apart, unlike⟩
    by_cases here : left.1.Same path
    · have elsewhere : ¬ right.1.Same path := fun there => apart (here.trans there.symm)
      simp only [if_pos here, if_neg elsewhere]
      exact Ne.symm (absent right second)
    · rw [if_neg here]
      split
      · exact absent left first
      · exact unlike
  · refine List.pairwise_append.mpr ⟨oneToOne.single, List.pairwise_singleton _ _, ?_⟩
    intro item member last new
    obtain rfl := List.mem_singleton.mp new
    exact absent item member

end OneToOne

/-- What is left of the keys to be kept, where no spelling makes a difference. -/
theorem get?_filter {keep : Path → Bool}
    (whole : ∀ {key : Path}, key.Same path → keep key = keep path) :
    get? (map.filter fun item => keep item.1) path
      = if keep path = true then map.get? path else none := by
  induction map with
  | nil => simp [get?]
  | cons item map ih =>
      by_cases here : item.1.Same path
      · cases kept : keep path with
        | true => simp [get?, whole here, kept, here]
        | false => simpa [whole here, kept] using ih
      · cases keep item.1 with
        | true => simpa [get?, here] using ih
        | false => simpa [get?, here] using ih

/-- What is left once everything within `tree` is taken out. -/
theorem get?_filter_not_within {tree : Path} :
    get? (map.filter fun item => !decide (item.1.Within tree)) path
      = if path.Within tree then none else map.get? path := by
  have whole : ∀ {key : Path}, key.Same path →
      (!decide (key.Within tree)) = !decide (path.Within tree) := by
    intro key same
    simp only [Path.within_congr same]
  rw [@get?_filter _ map path (fun key => !decide (key.Within tree)) whole]
  by_cases inside : path.Within tree
  · simp [inside]
  · simp [inside]

end SparseCache.PathMap
