import SparseCache.Proofs.FileTree.Making
import SparseCache.Proofs.Scratch.Sweep

namespace SparseCache.FileTree

/-! A file that was just made is what its path leads to, and the path is taken from then on. -/

variable {tree made : FileTree} {location other here directory : Location} {content : Content}
  {path : Path} {name : Bytes} {names : List Bytes} {near : Location → Bool} {links id : Nat}

/-! ### New content -/

theorem place?_setContent (tree : FileTree) (location : Location) (content : Content)
    (other : Location) :
    (tree.setContent location content).place? other
      = (tree.place? other).map fun place =>
          match place.node with
          | .file _ =>
            if place.location = location then { place with node := .file content } else place
          | _ => place := by
  by_cases top : other = []
  · subst top
    rfl
  · simp only [place?, top, if_false, setContent, List.find?_map]
    congr 2
    funext place
    simp only [Function.comp_apply]
    split
    · split <;> rfl
    · rfl

theorem place?_setContent_of_ne (apart : other ≠ location) :
    (tree.setContent location content).place? other = tree.place? other := by
  rw [place?_setContent]
  cases found : tree.place? other with
  | none => rfl
  | some place =>
      rw [Option.map_some]
      split
      · rename_i shown
        have lies : place.location = other := by
          by_cases top : other = []
          · subst top
            cases found
            rfl
          · exact (mem_of_place? found top).2
        rw [if_neg (lies ▸ apart)]
      · rfl

theorem place?_setContent_self {old : Content}
    (found : tree.place? location = some ⟨location, id, .file old⟩) :
    (tree.setContent location content).place? location
      = some ⟨location, id, .file content⟩ := by
  rw [place?_setContent, found, Option.map_some]
  simp only [if_true]

/-! ### Walking on -/

/-- A path leads where it led, also after places were added. -/
theorem walk_mono (kept : ∀ {there node}, tree.node? there = some node →
      made.node? there = some node)
    (leads : tree.walk near links here names = .ok (.taken location)) :
    made.walk near links here names = .ok (.taken location) := by
  have still {there : Location} (within : ¬ tree.node? there ≠ some .directory) :
      ¬ made.node? there ≠ some .directory :=
    not_not_intro (kept (Decidable.not_not.mp within))
  fun_induction walk tree near links here names with
  | case1 links here => rw [walk]; exact leads
  | case2 | case5 | case6 | case7 | case8 => cases leads
  | case3 links here rest within ih =>
      rw [walk, if_neg (still within), if_pos rfl]
      exact ih leads
  | case4 links here rest within apart ih =>
      rw [walk, if_neg (still within), if_neg apart, if_pos rfl]
      exact ih leads
  | case9 here name rest within one two short target found links ih =>
      rw [walk, if_neg (still within), if_neg one, if_neg two, if_neg short, kept found]
      exact ih leads
  | case10 links here name rest within one two short node solid found ih =>
      rw [walk, if_neg (still within), if_neg one, if_neg two, if_neg short, kept found]
      cases node with
      | link target => exact absurd rfl (solid target)
      | directory | file => exact ih leads

/-- Whoever goes on from where a path leads has some links left. -/
theorem walk_append (leads : tree.walk near links here names = .ok (.taken location)) :
    ∃ left, ∀ more, tree.walk near links here (names ++ more)
      = tree.walk near left location more := by
  fun_induction walk tree near links here names with
  | case1 links here => cases leads; exact ⟨links, fun _ => rfl⟩
  | case2 | case5 | case6 | case7 | case8 => cases leads
  | case3 links here rest within ih =>
      obtain ⟨left, onward⟩ := ih leads
      refine ⟨left, fun more => ?_⟩
      rw [List.cons_append, walk, if_neg within, if_pos rfl, onward]
  | case4 links here rest within apart ih =>
      obtain ⟨left, onward⟩ := ih leads
      refine ⟨left, fun more => ?_⟩
      rw [List.cons_append, walk, if_neg within, if_neg apart, if_pos rfl, onward]
  | case9 here name rest within one two short target found links ih =>
      obtain ⟨left, onward⟩ := ih leads
      refine ⟨left, fun more => ?_⟩
      rw [List.cons_append, walk, if_neg within, if_neg one, if_neg two, if_neg short, found]
      rw [← onward, List.append_assoc]
      rfl
  | case10 links here name rest within one two short node solid found ih =>
      obtain ⟨left, onward⟩ := ih leads
      refine ⟨left, fun more => ?_⟩
      rw [List.cons_append, walk, if_neg within, if_neg one, if_neg two, if_neg short, found]
      cases node with
      | link target => exact absurd rfl (solid target)
      | directory | file => exact onward more

theorem walk_of_reach (reaches : tree.reach here names = .ok location) :
    tree.walk anywhere linkLimit here names = .ok (.taken location) := by
  unfold reach at reaches
  cases ends : tree.walk anywhere linkLimit here names with
  | error => rw [ends] at reaches; cases reaches
  | ok spot =>
      rw [ends] at reaches
      cases spot with
      | vacant => cases reaches
      | taken => cases reaches; rfl

/-- The last name of a path is looked up where it was, also after places were added. -/
theorem lastStep_mono (kept : ∀ {there node}, tree.node? there = some node →
      made.node? there = some node)
    (last : tree.lastStep path = .ok (directory, some name)) :
    made.lastStep path = .ok (directory, some name) := by
  obtain ⟨usable, around, names, reached, solid, plain, short⟩ := lastStep_ok last
  have again : made.reach [] around = .ok directory := by
    rw [reach, walk_mono kept (walk_of_reach reached)]
    rfl
  unfold written at names
  simp only [lastStep, usable, names, List.getLast?_concat, List.dropLast_concat, again,
    kept solid, plain.1, plain.2, Nat.not_lt.mpr short, ne_eq, not_true_eq_false, or_self, if_false]

/-! ### New files -/

/-- A file is made where nothing was. -/
theorem createNew_ok (makes : tree.createNew path = .ok (location, made)) :
    tree.place? location = none ∧ made = tree.add location (.file (.zeros 0)) ∧
      asksForDirectory path = false ∧
      ∃ directory name, location = directory ++ [name] ∧
        tree.lastStep path = .ok (directory, some name) := by
  unfold createNew at makes
  split at makes
  · cases makes
  · cases makes
  · rename_i directory name last
    split at makes
    · cases makes
    · rename_i plain
      cases free : tree.freeLocation path with
      | error => rw [free] at makes; cases makes
      | ok location =>
          rw [free] at makes
          cases makes
          simp only [freeLocation, last] at free
          split at free
          · cases free
          · rename_i nothing
            cases free
            exact ⟨node?_eq_none_iff.mp nothing, rfl, Bool.eq_false_iff.mpr plain, directory, name,
              rfl, last⟩

/-- What becomes of the tree once a file was made in it: the file lies where its path says, the
rest is as it was. -/
theorem place?_created (makes : tree.createNew path = .ok (location, made)) (content : Content) :
    (made.setContent location content).place? location
        = some ⟨location, tree.next, .file content⟩ ∧
      ∀ other, other ≠ location →
        (made.setContent location content).place? other = tree.place? other := by
  obtain ⟨free, rfl, -⟩ := createNew_ok makes
  refine ⟨place?_setContent_self (place?_add_self free), fun other apart => ?_⟩
  rw [place?_setContent_of_ne apart, place?_add_of_ne apart]

theorem node?_created (makes : tree.createNew path = .ok (location, made)) (content : Content)
    {there : Location} {node : Node} (found : tree.node? there = some node) :
    (made.setContent location content).node? there = some node := by
  have apart : there ≠ location := by
    rintro rfl
    rw [node?_eq_none_iff.mpr (createNew_ok makes).1] at found
    cases found
  rw [node?, (place?_created makes content).2 there apart]
  exact found

/-- Nothing can be made where a file was just made. -/
theorem createNew_again (makes : tree.createNew path = .ok (location, made)) (content : Content) :
    (made.setContent location content).createNew path
      = .error (.system SystemError.entryExists) := by
  obtain ⟨-, -, plain, directory, name, rfl, last⟩ := createNew_ok makes
  have again := lastStep_mono (node?_created makes content) last
  have taken := node?_of_place? (place?_created makes content).1
  simp only [createNew, freeLocation, again, taken, plain, Bool.false_eq_true, if_false]
  rfl

/-- The path of a file that was just made leads to it. -/
theorem bytesAt_created (makes : tree.createNew path = .ok (location, made)) (content : Content) :
    (made.setContent location content).bytesAt path = .ok content.bytes := by
  obtain ⟨-, -, plain, directory, name, rfl, last⟩ := createNew_ok makes
  obtain ⟨usable, around, names, reached, solid, simple, short⟩ := lastStep_ok last
  have kept {there : Location} {node : Node} (found : tree.node? there = some node) :=
    node?_created makes content found
  have taken := node?_of_place? (place?_created makes content).1
  have steps : path.steps = around ++ [name] := by
    simp only [asksForDirectory, beq_eq_false_iff_ne] at plain
    simp only [Path.steps, if_neg plain]
    exact names
  obtain ⟨left, onward⟩ := walk_append (walk_mono kept (walk_of_reach reached))
  have reaches : (made.setContent (directory ++ [name]) content).reach [] path.steps
      = .ok (directory ++ [name]) := by
    rw [reach, steps, onward, walk_solid (kept solid) simple short taken (by simp)]
    rfl
  simp only [bytesAt, resolve, usable, reaches, Except.mapError, taken]

end SparseCache.FileTree
