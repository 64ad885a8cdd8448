import Mathlib.Data.List.Induction
import SparseCache.FileTree.Change
import SparseCache.FileTree.Lemmas

namespace SparseCache.FileTree

/-! What every file tree keeps to, and what a path can lead to in one that does. -/

/-- Each place has a location and an identity of its own and lies in a directory. -/
structure Sound (tree : FileTree) : Prop where
  below : ∀ place ∈ tree.places, place.location ≠ []
  apart : tree.places.Pairwise fun left right => left.location ≠ right.location
  distinct : tree.places.Pairwise fun left right => left.id ≠ right.id
  numbered : ∀ place ∈ tree.places, 0 < place.id ∧ place.id < tree.next
  positive : 0 < tree.next
  rooted : ∀ place ∈ tree.places, tree.node? place.location.dropLast = some .directory
  named : ∀ place ∈ tree.places, ∀ name ∈ place.location, name ≠ current ∧ name ≠ parent

variable {tree made : FileTree} {location other here directory : Location} {node : Node}
  {place : Place} {name : Bytes} {names : List Bytes} {near : Location → Bool} {links : Nat}

theorem sound_empty : ({} : FileTree).Sound where
  below _ absent := by cases absent
  apart := .nil
  distinct := .nil
  numbered _ absent := by cases absent
  positive := Nat.zero_lt_one
  rooted _ absent := by cases absent
  named _ absent := by cases absent

theorem node?_of_place? (found : tree.place? location = some place) :
    tree.node? location = some place.node := by
  rw [node?, found, Option.map_some]

theorem node?_eq_none_iff : tree.node? location = none ↔ tree.place? location = none := by
  rw [node?, Option.map_eq_none_iff]

theorem mem_of_place? (found : tree.place? location = some place) (inner : location ≠ []) :
    place ∈ tree.places ∧ place.location = location := by
  rw [place?, if_neg inner] at found
  exact ⟨List.mem_of_find?_eq_some found, by simpa using List.find?_some found⟩

theorem isSome_of_node? (found : tree.node? location = some node) :
    (tree.place? location).isSome := by
  rw [← Option.isSome_map, ← node?, found]
  rfl

theorem find?_of_mem_apart {places : List Place}
    (apart : places.Pairwise fun left right => left.location ≠ right.location)
    (member : place ∈ places) :
    places.find? (fun other => other.location == place.location) = some place := by
  induction places with
  | nil => cases member
  | cons first rest ih =>
      obtain ⟨elsewhere, apart⟩ := List.pairwise_cons.mp apart
      rcases List.mem_cons.mp member with rfl | later
      · simp
      · have other : (first.location == place.location) = false := by
          simpa using elsewhere place later
        rw [List.find?_cons, other]
        exact ih apart later

namespace Sound

theorem place?_of_mem (sound : tree.Sound) (member : place ∈ tree.places) :
    tree.place? place.location = some place := by
  rw [place?, if_neg (sound.below place member)]
  exact find?_of_mem_apart sound.apart member

theorem id_lt (sound : tree.Sound) (found : tree.place? location = some place) :
    place.id < tree.next := by
  by_cases top : location = []
  · subst top
    cases found
    exact sound.positive
  · exact (sound.numbered place (mem_of_place? found top).1).2

theorem directory_above (sound : tree.Sound) (found : (tree.place? location).isSome)
    (above : other <+: location) (proper : other ≠ location) :
    tree.node? other = some .directory := by
  obtain ⟨rest, rfl⟩ := above
  induction rest using List.reverseRecOn with
  | nil => simp at proper
  | append_singleton rest name ih =>
      obtain ⟨place, found⟩ := Option.isSome_iff_exists.mp found
      obtain ⟨member, lies⟩ := mem_of_place? found (by simp)
      have within := sound.rooted place member
      rw [lies, ← List.append_assoc, List.dropLast_concat] at within
      by_cases last : rest = []
      · simpa [last] using within
      · refine ih ?_ (by simpa using last)
        rw [node?] at within
        rw [← Option.isSome_map, within]
        rfl

/-- What is not there has nothing beneath it. -/
theorem absent_beneath (sound : tree.Sound) (absent : tree.place? other = none)
    (beneath : other <+: location) : tree.place? location = none := by
  cases found : tree.place? location with
  | none => rfl
  | some place =>
      by_cases same : other = location
      · rw [← absent, same, found]
      · have above := sound.directory_above (by rw [found]; rfl) beneath same
        rw [node?, absent] at above
        cases above

theorem mem_children_iff (sound : tree.Sound) :
    name ∈ tree.children location ↔ (tree.place? (location ++ [name])).isSome := by
  rw [FileTree.mem_children_iff]
  constructor
  · rintro ⟨place, member, lies⟩
    rw [← lies, sound.place?_of_mem member]
    rfl
  · intro found
    obtain ⟨place, found⟩ := Option.isSome_iff_exists.mp found
    obtain ⟨member, lies⟩ := mem_of_place? found (by simp)
    exact ⟨place, member, lies⟩

theorem nodup_children (sound : tree.Sound) : (tree.children location).Nodup := by
  refine List.nodup_iff_pairwise_ne.mpr (List.pairwise_filterMap.mpr ?_)
  refine sound.apart.imp fun {left right} apart first one second two same => apart ?_
  rw [nameIn?_eq_some_iff.mp one, nameIn?_eq_some_iff.mp two, same]

theorem add (sound : tree.Sound) (free : tree.place? location = none)
    (within : tree.node? location.dropLast = some .directory)
    (named : ∀ name, location.getLast? = some name → name ≠ current ∧ name ≠ parent) :
    (tree.add location node).Sound where
  below := by
    intro place member
    rcases List.mem_append.mp member with old | new
    · exact sound.below place old
    · obtain rfl := List.mem_singleton.mp new
      rintro rfl
      cases free
  apart := by
    refine List.pairwise_append.mpr ⟨sound.apart, List.pairwise_singleton _ _, ?_⟩
    intro place member new here same
    obtain rfl := List.mem_singleton.mp here
    have known := sound.place?_of_mem member
    rw [same, free] at known
    cases known
  distinct := by
    refine List.pairwise_append.mpr ⟨sound.distinct, List.pairwise_singleton _ _, ?_⟩
    intro place member new here
    obtain rfl := List.mem_singleton.mp here
    exact Nat.ne_of_lt (sound.numbered place member).2
  numbered := by
    intro place member
    rcases List.mem_append.mp member with old | new
    · exact (sound.numbered place old).imp id Nat.lt_succ_of_lt
    · obtain rfl := List.mem_singleton.mp new
      exact ⟨sound.positive, Nat.lt_succ_self _⟩
  positive := Nat.succ_pos _
  rooted := by
    -- The new place is none of the directories that lead to a place.
    have kept : ∀ {there}, tree.node? there = some .directory →
        (tree.add location node).node? there = some .directory := by
      intro there found
      rw [node?, place?_add_of_ne, ← node?, found]
      rintro rfl
      rw [node?, free] at found
      cases found
    intro place member
    rcases List.mem_append.mp member with old | new
    · exact kept (sound.rooted place old)
    · obtain rfl := List.mem_singleton.mp new
      exact kept within
  named := by
    intro place member
    rcases List.mem_append.mp member with old | new
    · exact sound.named place old
    · obtain rfl := List.mem_singleton.mp new
      intro name among
      by_cases last : location.getLast? = some name
      · exact named name last
      · have inner : name ∈ location.dropLast := by
          obtain rfl | ⟨initial, final, rfl⟩ := List.eq_nil_or_concat location
          · cases among
          · simp only [List.concat_eq_append, List.getLast?_concat, Option.some.injEq,
              List.dropLast_concat, List.mem_append, List.mem_singleton] at last among ⊢
            exact among.resolve_right fun same => last same.symm
        obtain ⟨above, found⟩ := Option.map_eq_some_iff.mp within
        have top : location.dropLast ≠ [] := List.ne_nil_of_mem inner
        obtain ⟨member, lies⟩ := mem_of_place? found.1 top
        exact sound.named above member name (lies ▸ inner)

theorem remove (sound : tree.Sound) : (tree.remove location).Sound where
  below place member := sound.below place (List.mem_filter.mp member).1
  apart := sound.apart.filter _
  distinct := sound.distinct.filter _
  numbered place member := sound.numbered place (List.mem_filter.mp member).1
  positive := sound.positive
  rooted := by
    intro place member
    obtain ⟨member, outside⟩ := List.mem_filter.mp member
    rw [Bool.not_eq_true', ← Bool.not_eq_true, List.isPrefixOf_iff_prefix] at outside
    rw [node?, place?_remove_of_not_prefix, ← node?]
    · exact sound.rooted place member
    · exact fun beneath => outside (beneath.trans (List.dropLast_prefix _))
  named place member := sound.named place (List.mem_filter.mp member).1

end Sound

/-! ### Where paths lead -/

/-- From `here` along names, over links as they come, to a place. -/
inductive Leads (tree : FileTree) : Location → List Bytes → Location → Prop
  | arrived {here : Location} : Leads tree here [] here
  | current {here location : Location} {rest : List Bytes}
      (within : tree.node? here = some .directory) (onward : Leads tree here rest location) :
      Leads tree here (current :: rest) location
  | parent {here location : Location} {rest : List Bytes}
      (within : tree.node? here = some .directory)
      (onward : Leads tree here.dropLast rest location) :
      Leads tree here (parent :: rest) location
  | link {here location : Location} {name : Bytes} {rest : List Bytes} {target : Path}
      (within : tree.node? here = some .directory)
      (plain : name ≠ FileTree.current ∧ name ≠ FileTree.parent)
      (found : tree.node? (here ++ [name]) = some (.link target))
      (onward : Leads tree (if target.isAbsolute then [] else here) (target.steps ++ rest)
        location) :
      Leads tree here (name :: rest) location
  | down {here location : Location} {name : Bytes} {rest : List Bytes} {node : Node}
      (within : tree.node? here = some .directory)
      (plain : name ≠ FileTree.current ∧ name ≠ FileTree.parent)
      (found : tree.node? (here ++ [name]) = some node) (solid : ∀ target, node ≠ .link target)
      (onward : Leads tree (here ++ [name]) rest location) :
      Leads tree here (name :: rest) location

theorem leads_of_walk (arrives : tree.walk near links here names = .ok (.taken location)) :
    tree.Leads here names location := by
  fun_induction walk tree near links here names with
  | case1 links here =>
      cases arrives
      exact .arrived
  | case2 | case5 | case6 | case7 | case8 => cases arrives
  | case3 links here rest within ih => exact .current (Decidable.not_not.mp within) (ih arrives)
  | case4 links here rest within _ ih => exact .parent (Decidable.not_not.mp within) (ih arrives)
  | case9 here name rest within one two _ target found links ih =>
      exact .link (Decidable.not_not.mp within) ⟨one, two⟩ found (ih arrives)
  | case10 links here name rest within one two _ node solid found ih =>
      exact .down (Decidable.not_not.mp within) ⟨one, two⟩ found solid (ih arrives)

theorem leads_of_landing
    (lands : landing (tree.walk near links here names) = .ok location) :
    tree.Leads here names location := by
  unfold landing at lands
  split at lands
  · rename_i arrives
    cases lands
    exact leads_of_walk arrives
  · cases lands
  · cases lands

theorem ok_of_mapError {ε ε' α : Type} {result : Except ε α} {change : ε → ε'} {value : α}
    (same : result.mapError change = .ok value) : result = .ok value := by
  cases result with
  | error => cases same
  | ok => cases same; rfl

theorem leads_of_canonical {path : Path} (found : tree.canonical path = .ok location) :
    tree.Leads [] path.steps location := by
  unfold canonical at found
  split at found
  · cases found
  · exact leads_of_landing (ok_of_mapError found)

namespace Leads

/-- A path that leads somewhere leads there still after places were added. -/
theorem mono (leads : tree.Leads here names location)
    (kept : ∀ {there node}, tree.node? there = some node → made.node? there = some node) :
    made.Leads here names location := by
  induction leads with
  | arrived => exact .arrived
  | current within onward ih => exact .current (kept within) ih
  | parent within onward ih => exact .parent (kept within) ih
  | link within plain found onward ih => exact .link (kept within) plain (kept found) ih
  | down within plain found solid onward ih => exact .down (kept within) plain (kept found) solid ih

/-- A path leads to one place only. -/
theorem unique (leads : tree.Leads here names location) (again : tree.Leads here names other) :
    location = other := by
  induction leads with
  | arrived => cases again; rfl
  | current within onward ih =>
      cases again with
      | current _ again => exact ih again
      | link _ plain | down _ plain => exact absurd rfl plain.1
  | parent within onward ih =>
      cases again with
      | parent _ again => exact ih again
      | link _ plain | down _ plain => exact absurd rfl plain.2
  | link within plain found onward ih =>
      cases again with
      | current => exact absurd rfl plain.1
      | parent => exact absurd rfl plain.2
      | link _ _ found' again =>
          cases found.symm.trans found'
          exact ih again
      | down _ _ found' solid => exact absurd (Option.some.inj (found'.symm.trans found)) (solid _)
  | down within plain found solid onward ih =>
      cases again with
      | current => exact absurd rfl plain.1
      | parent => exact absurd rfl plain.2
      | link _ _ found' => exact absurd (Option.some.inj (found.symm.trans found')) (solid _)
      | down _ _ _ _ again => exact ih again

/-- Where nothing but directories leads, no link and no `..` does. -/
theorem straight (leads : tree.Leads here names location)
    (directories : ∀ there, there <+: here ++ names → there ≠ here ++ names →
      tree.node? there = some .directory)
    (solid : ∀ target, tree.node? (here ++ names) ≠ some (.link target))
    (plain : ∀ name ∈ names, name ≠ FileTree.current ∧ name ≠ FileTree.parent) :
    location = here ++ names := by
  induction leads with
  | arrived => exact (List.append_nil _).symm
  | current => exact absurd rfl (plain _ (.head _)).1
  | parent => exact absurd rfl (plain _ (.head _)).2
  | @link here _ name rest target _ _ found _ _ =>
      by_cases last : rest = []
      · subst last
        exact absurd found (solid target)
      · rw [directories (here ++ [name]) ⟨rest, by simp⟩ (by simpa using last)] at found
        cases found
  | @down here location name rest node _ _ _ _ _ ih =>
      rw [← List.append_cons] at ih
      exact ih directories solid fun other member => plain other (.tail _ member)

end Leads

end SparseCache.FileTree
