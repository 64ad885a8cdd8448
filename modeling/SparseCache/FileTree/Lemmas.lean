import SparseCache.FileTree.Basic

namespace SparseCache.FileTree

/-! What the changes to a file tree do to each of its places. -/

variable {tree : FileTree} {location other : Location} {node : Node} {place : Place}

theorem place?_add_self (absent : tree.place? location = none) :
    (tree.add location node).place? location = some ⟨location, tree.next, node⟩ := by
  have below : location ≠ [] := by
    rintro rfl
    cases absent
  simp only [place?, below, if_false] at absent ⊢
  rw [add, List.find?_append, absent]
  simp

theorem place?_add_of_ne (apart : other ≠ location) :
    (tree.add location node).place? other = tree.place? other := by
  have elsewhere : (location == other) = false := beq_eq_false_iff_ne.mpr apart.symm
  simp only [place?, add, List.find?_append, List.find?_cons, elsewhere, List.find?_nil,
    Option.or_none]

theorem find?_filter_of_forall {places : List Place} {keep wanted : Place → Bool}
    (kept : ∀ place, wanted place = true → keep place = true) :
    (places.filter keep).find? wanted = places.find? wanted := by
  induction places with
  | nil => rfl
  | cons place places ih =>
    by_cases stays : keep place = true
    · rw [List.filter_cons_of_pos stays, List.find?_cons, List.find?_cons, ih]
    · have other : wanted place = false := by
        cases found : wanted place
        · rfl
        · exact absurd (kept place found) stays
      rw [List.filter_cons_of_neg stays, List.find?_cons, other]
      exact ih

/-- Nothing outside a place that is taken away changes. -/
theorem place?_remove_of_not_prefix (outside : ¬ location <+: other) :
    (tree.remove location).place? other = tree.place? other := by
  simp only [place?, remove]
  split
  · rfl
  · refine find?_filter_of_forall fun place found => ?_
    rw [beq_iff_eq.mp found, Bool.not_eq_true', ← Bool.not_eq_true, List.isPrefixOf_iff_prefix]
    exact outside

theorem place?_remove_of_prefix (below : location ≠ []) (beneath : location <+: other) :
    (tree.remove location).place? other = none := by
  have proper : other ≠ [] := by
    rintro rfl
    exact below (List.prefix_nil.mp beneath)
  simp only [place?, remove, proper, if_false, List.find?_eq_none, List.mem_filter,
    Bool.not_eq_true', beq_iff_eq]
  rintro place ⟨-, outside⟩ found
  rw [found, ← Bool.not_eq_true, List.isPrefixOf_iff_prefix] at outside
  exact outside beneath

theorem nameIn?_eq_some_iff {name : Bytes} :
    nameIn? location other = some name ↔ other = location ++ [name] := by
  unfold nameIn?
  rcases List.eq_nil_or_concat other with rfl | ⟨initial, last, rfl⟩
  · simp
  · rw [List.concat_eq_append, List.getLast?_concat, List.dropLast_concat]
    by_cases within : initial = location
    · simp [within]
    · simp [within]

theorem mem_children_iff {name : Bytes} :
    name ∈ tree.children location ↔ ∃ place ∈ tree.places, place.location = location ++ [name] := by
  simp only [children, List.mem_filterMap, nameIn?_eq_some_iff]

end SparseCache.FileTree
