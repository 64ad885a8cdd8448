import Mathlib.Data.List.Basic
import SparseCache.Path.Lemmas

namespace SparseCache

/-! One spelling for each location. -/

/-- How the component is spelled; the root is what comes before the first slash. -/
def Component.name : Component → Bytes
  | .root => []
  | .current => [Path.dot]
  | .parent => [Path.dot, Path.dot]
  | .normal name => name

namespace Path

variable {path other : Path} {name : Bytes} {names : List Bytes} {component : Component}
  {components : List Component}

/-- The names with a slash between any two. -/
def joined : List Bytes → Bytes
  | [] => []
  | [name] => name
  | name :: names => name ++ slash :: joined names

/-- The spelling without anything that does not count. -/
def canonical (path : Path) : Path :=
  match path.components with
  | .root :: rest => ⟨slash :: joined (rest.map Component.name)⟩
  | rest => ⟨joined (rest.map Component.name)⟩

theorem canonical_congr (same : path.Same other) : path.canonical = other.canonical := by
  rw [canonical, canonical, show path.components = other.components from same]

/-! ### Names between slashes -/

theorem slash_not_mem_of_mem_split {spelling : Bytes} (member : name ∈ split spelling) :
    slash ∉ name := by
  induction spelling generalizing name with
  | nil =>
      rw [List.mem_singleton.mp (show name ∈ [[]] from member)]
      exact List.not_mem_nil
  | cons b spelling ih =>
      by_cases here : b = slash
      · subst here
        rw [split_slash] at member
        rcases List.mem_cons.mp member with rfl | later
        · exact List.not_mem_nil
        · exact ih later
      · obtain ⟨first, rest, splits⟩ := List.exists_cons_of_ne_nil (split_ne_nil spelling)
        rw [splits] at ih
        rw [split_cons here splits] at member
        rcases List.mem_cons.mp member with rfl | later
        · exact List.not_mem_cons_of_ne_of_not_mem (Ne.symm here) (ih (.head _))
        · exact ih (.tail _ later)

theorem split_of_slash_not_mem (whole : slash ∉ name) : split name = [name] := by
  induction name with
  | nil => rfl
  | cons b name ih =>
      obtain ⟨here, later⟩ := List.ne_and_not_mem_of_not_mem_cons whole
      exact split_cons (Ne.symm here) (ih later)

theorem split_joined (some : names ≠ []) (whole : ∀ name ∈ names, slash ∉ name) :
    split (joined names) = names := by
  induction names with
  | nil => exact absurd rfl some
  | cons name names ih =>
      have first := split_of_slash_not_mem (whole name (.head _))
      cases names with
      | nil => exact first
      | cons second names =>
          rw [joined, split_append_slash, first,
            ih (List.cons_ne_nil _ _) fun other later => whole other (.tail _ later)]
          · rfl
          · exact List.cons_ne_nil _ _

/-! ### Components -/

/-- A name stands for the component that is spelled so. -/
theorem component?_name (stands : component? name = some component) : component.name = name ∧
    component? component.name = some component ∧ component ≠ .root ∧ component ≠ .current := by
  have again := stands
  unfold component? at stands
  split at stands
  · cases stands
  · split at stands
    · rename_i up
      cases stands
      exact ⟨up.symm, rfl, nofun, nofun⟩
    · cases stands
      exact ⟨rfl, again, nofun, nofun⟩

/-- Past its start a path consists of names. -/
structure Named (components : List Component) : Prop where
  whole : ∀ name ∈ components.map Component.name, slash ∉ name
  stand : (components.map Component.name).filterMap component? = components
  plain : ∀ component ∈ components, component ≠ .root ∧ component.name ≠ [dot] ∧
    component.name ≠ []

theorem named_split (spelling : Bytes) : Named ((split spelling).filterMap component?) where
  whole name member := by
    obtain ⟨component, listed, rfl⟩ := List.mem_map.mp member
    obtain ⟨own, between, stands⟩ := List.mem_filterMap.mp listed
    rw [(component?_name stands).1]
    exact slash_not_mem_of_mem_split between
  stand := by
    rw [List.filterMap_map]
    refine (List.filterMap_congr fun component listed => ?_).trans List.filterMap_some
    obtain ⟨own, -, stands⟩ := List.mem_filterMap.mp listed
    exact (component?_name stands).2.1
  plain component listed := by
    obtain ⟨own, -, stands⟩ := List.mem_filterMap.mp listed
    obtain ⟨-, again, apart, -⟩ := component?_name stands
    refine ⟨apart, fun here => ?_, fun here => ?_⟩ <;> rw [here] at again <;> cases again

theorem Named.filterMap_split (named : Named components) :
    (split (joined (components.map Component.name))).filterMap component? = components := by
  by_cases none : components = []
  · subst none
    rfl
  · rw [split_joined (fun empty => none (List.map_eq_nil_iff.mp empty)) named.whole, named.stand]

theorem components_rooted (named : Named components) :
    (⟨slash :: joined (components.map Component.name)⟩ : Path).components
      = .root :: components := by
  have rest : (split (slash :: joined (components.map Component.name))).filterMap component?
      = components := by
    rw [split_slash, List.filterMap_cons_none rfl, named.filterMap_split]
  exact congrArg (Component.root :: ·) rest

/-- Names that do not start at the root are found again, the first `.` included. -/
theorem components_joined (some : name ≠ []) (whole : ∀ other ∈ name :: names, slash ∉ other) :
    (⟨joined (name :: names)⟩ : Path).components
      = if name = [dot] then .current :: (name :: names).filterMap component?
        else (name :: names).filterMap component? := by
  have relative : isAbsolute ⟨joined (name :: names)⟩ = false := by
    have first := whole name (.head _)
    cases name with
    | nil => exact absurd rfl some
    | cons b name =>
        have apart : b ≠ slash := fun here => first (here ▸ .head _)
        cases names with
        | nil => simpa [isAbsolute, joined] using apart
        | cons second names => simpa [isAbsolute, joined] using apart
  have splits : split (joined (name :: names)) = name :: names :=
    split_joined (List.cons_ne_nil _ _) whole
  simp only [components, relative, splits, List.head?_cons, Option.some.injEq, Bool.false_eq_true,
    if_false]

theorem components_dotted (named : Named components) :
    (⟨joined ((Component.current :: components).map Component.name)⟩ : Path).components
      = .current :: components := by
  have whole : ∀ name ∈ [dot] :: components.map Component.name, slash ∉ name := by
    intro name member
    rcases List.mem_cons.mp member with rfl | later
    · decide
    · exact named.whole name later
  rw [List.map_cons, show Component.current.name = [dot] from rfl,
    components_joined (List.cons_ne_nil _ _) whole, if_pos rfl, List.filterMap_cons_none rfl,
    named.stand]

theorem components_bare (named : Named components) :
    (⟨joined (components.map Component.name)⟩ : Path).components = components := by
  cases components with
  | nil => rfl
  | cons component rest =>
      obtain ⟨-, apart, some⟩ := named.plain component (.head _)
      have stand := named.stand
      rw [List.map_cons] at stand ⊢
      rw [components_joined some named.whole, if_neg apart, stand]

theorem components_cases (path : Path) : ∃ rest, Named rest ∧
    (path.components = .root :: rest ∨ path.components = .current :: rest ∨
      path.components = rest) := by
  refine ⟨_, named_split path.spelling, ?_⟩
  unfold Path.components
  simp only
  split
  · exact .inl rfl
  · split
    · exact .inr (.inl rfl)
    · exact .inr (.inr rfl)

theorem components_canonical (path : Path) : path.canonical.components = path.components := by
  obtain ⟨rest, named, rooted | dotted | bare⟩ := components_cases path
  · rw [canonical, rooted]
    exact components_rooted named
  · rw [canonical, dotted]
    exact components_dotted named
  · rw [canonical, bare]
    split
    · exact absurd rfl (named.plain _ (.head _)).1
    · exact components_bare named

theorem canonical_same (path : Path) : path.canonical.Same path := components_canonical path

/-- What is spelled canonically in the same way is the same location, and the other way round. -/
theorem canonical_eq_iff : path.canonical = other.canonical ↔ path.Same other := by
  constructor
  · intro alike
    exact ((canonical_same path).symm.trans (alike ▸ .refl _)).trans (canonical_same other)
  · exact canonical_congr

example : canonical ⟨[97, 47, 47, 98, 47, 46, 47]⟩ = ⟨[97, 47, 98]⟩ := by decide

@[simp] theorem canonical_canonical (path : Path) : path.canonical.canonical = path.canonical :=
  canonical_congr (canonical_same path)

@[simp] theorem canonical_default : (default : Path).canonical = default := rfl

end Path

end SparseCache
