import Mathlib.Data.List.Basic
import SparseCache.Path.Lemmas
import SparseCache.Proofs.FileTree.Sound

namespace SparseCache

/-! What making directories changes, and where a path leads once they are made.

All that is added are directories where nothing was.  A path that led nowhere, has no `..`
and leads somewhere afterwards leads to one of them.
-/

namespace FileTree

variable {tree made : FileTree} {location directory : Location} {node : Node} {place : Place}
  {name : Bytes} {names : List Bytes} {path : Path}

/-- `made` has all places of `tree`.  What else it has is new. -/
structure Extends (tree made : FileTree) : Prop where
  sound : made.Sound
  kept : ∀ {location place}, tree.place? location = some place →
    made.place? location = some place
  fresh : ∀ {location place}, tree.place? location = none →
    made.place? location = some place → tree.next ≤ place.id
  next_le : tree.next ≤ made.next

/-- All that `made` has besides the places of `tree` are new directories. -/
structure Grows (tree made : FileTree) : Prop extends Extends tree made where
  directories : ∀ {location place}, tree.place? location = none →
    made.place? location = some place → place.node = .directory

namespace Extends

theorem refl (sound : tree.Sound) : tree.Extends tree where
  sound := sound
  kept found := found
  fresh absent found := by
    rw [absent] at found
    cases found
  next_le := Nat.le_refl _

theorem trans {last : FileTree} (first : tree.Extends made) (second : made.Extends last) :
    tree.Extends last where
  sound := second.sound
  kept found := second.kept (first.kept found)
  fresh {location place} absent found := by
    cases known : made.place? location with
    | none => exact Nat.le_trans first.next_le (second.fresh known found)
    | some place' =>
        cases (second.kept known).symm.trans found
        exact first.fresh absent known
  next_le := Nat.le_trans first.next_le second.next_le

theorem add (sound : tree.Sound) (free : tree.place? location = none)
    (within : tree.node? location.dropLast = some .directory)
    (named : ∀ name, location.getLast? = some name → name ≠ current ∧ name ≠ parent) :
    tree.Extends (tree.add location node) where
  sound := sound.add free within named
  kept {there place} found := by
    rw [place?_add_of_ne, found]
    rintro rfl
    rw [free] at found
    cases found
  fresh {there place} absent found := by
    by_cases here : there = location
    · rw [here, place?_add_self free] at found
      cases found
      exact Nat.le_refl _
    · rw [place?_add_of_ne here, absent] at found
      cases found
  next_le := Nat.le_succ _

theorem node? (grows : tree.Extends made) (found : tree.node? location = some node) :
    made.node? location = some node := by
  obtain ⟨place, there, rfl⟩ := Option.map_eq_some_iff.mp found
  exact node?_of_place? (grows.kept there)

theorem absent (grows : tree.Extends made) (missing : made.place? location = none) :
    tree.place? location = none := by
  cases found : tree.place? location with
  | none => rfl
  | some place =>
      rw [grows.kept found] at missing
      cases missing

theorem leads (grows : tree.Extends made) {here : Location}
    (leads : tree.Leads here names location) : made.Leads here names location :=
  leads.mono grows.node?

end Extends

namespace Grows

theorem refl (sound : tree.Sound) : tree.Grows tree where
  toExtends := .refl sound
  directories absent found := by
    rw [absent] at found
    cases found

theorem trans {last : FileTree} (first : tree.Grows made) (second : made.Grows last) :
    tree.Grows last where
  toExtends := first.toExtends.trans second.toExtends
  directories {location place} absent found := by
    cases known : made.place? location with
    | none => exact second.directories known found
    | some place' =>
        cases (second.kept known).symm.trans found
        exact first.directories absent known

theorem add (sound : tree.Sound) (free : tree.place? location = none)
    (within : tree.node? location.dropLast = some .directory)
    (named : ∀ name, location.getLast? = some name → name ≠ current ∧ name ≠ parent) :
    tree.Grows (tree.add location .directory) where
  toExtends := .add sound free within named
  directories {there place} absent found := by
    by_cases here : there = location
    · rw [here, place?_add_self free] at found
      cases found
      rfl
    · rw [place?_add_of_ne here, absent] at found
      cases found

end Grows

/-! ### Making one directory -/

/-- The names in a path. -/
def written (path : Path) : List Bytes := (Path.split path.spelling).filter (· ≠ [])

/-- The last name of a path is looked up in the directory that the names before it lead to. -/
theorem lastStep_ok (last : tree.lastStep path = .ok (directory, some name)) :
    refusal? path = none ∧ ∃ around, written path = around ++ [name] ∧
      tree.reach [] around = .ok directory ∧ tree.node? directory = some .directory ∧
      (name ≠ current ∧ name ≠ parent) ∧ name.length ≤ nameLimit := by
  simp only [lastStep] at last
  split at last
  · cases last
  · rename_i usable
    split at last
    · cases last
    · rename_i own ends
      split at last
      · cases last
      · rename_i within reached
        split at last
        · cases last
        · rename_i solid
          split at last
          · cases last
          · rename_i plain
            split at last
            · cases last
            · rename_i short
              cases last
              exact ⟨usable, _, (List.dropLast_append_getLast? name ends).symm, reached,
                Decidable.not_not.mp solid, not_or.mp plain, Nat.le_of_not_lt short⟩

/-- A free location is a name that nothing has in a directory that the path leads to. -/
theorem freeLocation_ok (free : tree.freeLocation path = .ok location) :
    ∃ around directory name, written path = around ++ [name] ∧
      tree.Leads [] around directory ∧ tree.node? directory = some .directory ∧
      (name ≠ current ∧ name ≠ parent) ∧ location = directory ++ [name] ∧
      tree.place? location = none := by
  unfold freeLocation at free
  split at free
  · cases free
  · cases free
  · rename_i directory name last
    split at free
    · cases free
    · rename_i nothing
      cases free
      obtain ⟨-, around, names, reached, solid, plain, -⟩ := lastStep_ok last
      exact ⟨around, directory, name, names, leads_of_landing reached, solid, plain, rfl,
        node?_eq_none_iff.mp nothing⟩

theorem makeDirectory_ok (sound : tree.Sound) (makes : tree.makeDirectory path = .ok made) :
    ∃ around directory name, written path = around ++ [name] ∧
      tree.Leads [] around directory ∧ (name ≠ current ∧ name ≠ parent) ∧
      tree.place? (directory ++ [name]) = none ∧
      made.node? (directory ++ [name]) = some .directory ∧ tree.Grows made := by
  unfold makeDirectory at makes
  cases free : tree.freeLocation path with
  | error error =>
      rw [free] at makes
      cases makes
  | ok location =>
      rw [free] at makes
      cases makes
      obtain ⟨around, directory, name, names, leads, solid, plain, rfl, nothing⟩ :=
        freeLocation_ok free
      refine ⟨around, directory, name, names, leads, plain, nothing, ?_, ?_⟩
      · exact node?_of_place? (place?_add_self nothing)
      · refine .add sound nothing ?_ fun other last => ?_
        · rw [List.dropLast_concat]
          exact solid
        · rw [List.getLast?_concat] at last
          cases last
          exact plain

/-- Whatever the outcome, all that is new are directories. -/
theorem grows_makeOutwards (paths : List Path) (sound : tree.Sound) :
    tree.Grows (makeOutwards paths tree).2 := by
  induction paths generalizing tree with
  | nil => exact .refl sound
  | cons path around ih =>
      have makes {tree made : FileTree} (sound : tree.Sound)
          (makes : tree.makeDirectory path = .ok made) : tree.Grows made := by
        obtain ⟨_, _, _, _, _, _, _, _, grows⟩ := makeDirectory_ok sound makes
        exact grows
      unfold makeOutwards
      split
      · exact makes sound ‹_›
      · split
        · have outwards := ih sound
          split
          · rename_i same
            rw [same] at outwards
            exact outwards
          · rename_i same
            rw [same] at outwards
            split
            · exact outwards.trans (makes outwards.sound ‹_›)
            · split
              · exact outwards
              · exact outwards
        · split
          · exact .refl sound
          · exact .refl sound

theorem grows_makeDirectories (sound : tree.Sound) (path : Path) :
    tree.Grows (tree.makeDirectories path).2 :=
  grows_makeOutwards _ sound

/-! ### Where a path leads that led nowhere -/

theorem Leads.split {here : Location} {later : List Bytes}
    (leads : tree.Leads here (names ++ later) location) :
    ∃ between, tree.Leads here names between ∧ tree.Leads between later location := by
  generalize whole : names ++ later = all at leads
  induction leads generalizing names with
  | arrived =>
      obtain ⟨rfl, rfl⟩ := List.append_eq_nil_iff.mp whole
      exact ⟨_, .arrived, .arrived⟩
  | current within onward ih =>
      cases names with
      | nil =>
          cases whole
          exact ⟨_, .arrived, .current within onward⟩
      | cons name names =>
          cases whole
          obtain ⟨between, first, second⟩ := ih rfl
          exact ⟨between, .current within first, second⟩
  | parent within onward ih =>
      cases names with
      | nil =>
          cases whole
          exact ⟨_, .arrived, .parent within onward⟩
      | cons name names =>
          cases whole
          obtain ⟨between, first, second⟩ := ih rfl
          exact ⟨between, .parent within first, second⟩
  | link within plain found onward ih =>
      cases names with
      | nil =>
          cases whole
          exact ⟨_, .arrived, .link within plain found onward⟩
      | cons name names =>
          cases whole
          obtain ⟨between, first, second⟩ := ih (List.append_assoc _ _ _)
          exact ⟨between, .link within plain found first, second⟩
  | down within plain found solid onward ih =>
      cases names with
      | nil =>
          cases whole
          exact ⟨_, .arrived, .down within plain found solid onward⟩
      | cons name names =>
          cases whole
          obtain ⟨between, first, second⟩ := ih rfl
          exact ⟨between, .down within plain found solid first, second⟩

/-- A `.` moves nowhere. -/
theorem Leads.bare {here : Location} {later : List Bytes}
    (leads : tree.Leads here (names ++ later) location) :
    tree.Leads here (names ++ later.filter (· ≠ FileTree.current)) location := by
  generalize whole : names ++ later = all at leads
  induction leads generalizing names later with
  | arrived =>
      obtain ⟨rfl, rfl⟩ := List.append_eq_nil_iff.mp whole
      exact .arrived
  | current within onward ih =>
      cases names with
      | nil =>
          cases whole
          simpa using ih (List.nil_append _)
      | cons name names =>
          cases whole
          exact .current within (ih rfl)
  | parent within onward ih =>
      cases names with
      | nil =>
          cases whole
          have other : FileTree.parent ≠ FileTree.current := by decide
          rw [List.filter_cons_of_pos (by simpa using other)]
          exact .parent within (ih (List.nil_append _))
      | cons name names =>
          cases whole
          exact .parent within (ih rfl)
  | link within plain found onward ih =>
      cases names with
      | nil =>
          cases whole
          rw [List.filter_cons_of_pos (by simpa using plain.1)]
          exact .link within plain found (ih rfl)
      | cons name names =>
          cases whole
          have moved := ih (List.append_assoc _ _ _)
          rw [List.append_assoc] at moved
          exact .link within plain found moved
  | down within plain found solid onward ih =>
      cases names with
      | nil =>
          cases whole
          rw [List.filter_cons_of_pos (by simpa using plain.1)]
          exact .down within plain found solid (ih (List.nil_append _))
      | cons name names =>
          cases whole
          exact .down within plain found solid (ih rfl)

/-- The names in a path that move along it. -/
def moves (path : Path) : List Bytes := (written path).filter (· ≠ current)

theorem leads_moves {here : Location} (leads : tree.Leads here path.steps location) :
    tree.Leads here (moves path) location := by
  have whole : tree.Leads here ([] ++ path.steps) location := leads
  have moved := whole.bare
  have same : path.steps.filter (· ≠ current) = moves path := by
    unfold Path.steps moves written
    simp only
    split
    · rw [List.filter_append]
      simp [current]
    · rfl
  rw [same] at moved
  exact moved

/-- Paths of which each but the first goes one name less far than the one before it. -/
def Outwards : List Bytes → List Path → Prop
  | _, [] => True
  | names, path :: around => moves path = names ∧ Outwards names.dropLast around

/-- Where `names` lead in `made` was nothing in `tree`. -/
def Missed (tree made : FileTree) (names : List Bytes) : Prop :=
  ∀ location, made.Leads [] names location → tree.place? location = none

theorem missed_of_makeDirectory (sound : tree.Sound) (makes : tree.makeDirectory path = .ok made) :
    tree.Missed made (moves path) := by
  obtain ⟨around, directory, name, names, leads, plain, nothing, present, grows⟩ :=
    makeDirectory_ok sound makes
  intro location again
  have moved : moves path = around.filter (· ≠ current) ++ [name] := by
    rw [moves, names, List.filter_append, List.filter_cons_of_pos (by simpa using plain.1),
      List.filter_nil]
  rw [moved] at again
  obtain ⟨between, first, second⟩ := again.split
  have before : made.Leads [] (around.filter (· ≠ current)) directory :=
    Leads.bare (grows.leads leads : made.Leads [] ([] ++ around) directory)
  obtain rfl := first.unique before
  cases second with
  | current => exact absurd rfl plain.1
  | parent => exact absurd rfl plain.2
  | link within plain found => cases found.symm.trans present
  | down within plain found solid onward =>
      cases onward
      exact nothing

/-- Beyond a directory that was not there only new directories lie. -/
theorem Missed.onward (grows : tree.Grows made) (sound : tree.Sound)
    (missed : tree.Missed made names.dropLast) (forth : parent ∉ names)
    (moving : current ∉ names) : tree.Missed made names := by
  rcases List.eq_nil_or_concat names with rfl | ⟨before, name, rfl⟩
  · exact missed
  · simp only [List.concat_eq_append] at missed forth moving ⊢
    rw [List.dropLast_concat] at missed
    intro location leads
    obtain ⟨between, first, second⟩ := leads.split
    have absent := missed between first
    have beneath : tree.place? (between ++ [name]) = none :=
      sound.absent_beneath absent (List.prefix_append _ _)
    cases second with
    | current => simp at moving
    | parent => simp at forth
    | link within plain found =>
        obtain ⟨place, present, same⟩ := Option.map_eq_some_iff.mp found
        rw [grows.directories beneath present] at same
        cases same
    | down within plain found solid onward =>
        cases onward
        exact beneath

theorem moves_of_missed {paths : List Path} (outwards : Outwards names paths)
    (forth : parent ∉ names) (sound : tree.Sound)
    (makes : makeOutwards paths tree = (.ok (), made)) :
    made = tree ∨ tree.Missed made names := by
  induction paths generalizing names made with
  | nil =>
      cases makes
      exact .inl rfl
  | cons path around ih =>
      obtain ⟨rfl, outwards⟩ := outwards
      unfold makeOutwards at makes
      split at makes
      · rename_i first
        cases makes
        exact .inr (missed_of_makeDirectory sound first)
      · rename_i error first
        split at makes
        · split at makes
          · cases makes
          · rename_i widened same
            have grows : tree.Grows widened := by
              have grows := grows_makeOutwards around sound
              rw [same] at grows
              exact grows
            have fewer : parent ∉ (moves path).dropLast := fun among =>
              forth ((List.dropLast_prefix _).subset among)
            have before := ih outwards fewer same
            split at makes
            · rename_i again
              cases makes
              exact .inr fun location leads =>
                grows.absent (missed_of_makeDirectory grows.sound again location leads)
            · split at makes
              · cases makes
                refine before.imp id fun missed => missed.onward grows sound forth ?_
                simp [moves]
              · cases makes
        · split at makes
          · cases makes
            exact .inl rfl
          · cases makes

/-! ### The directories around a path -/

theorem slash_not_mem_split {spelling : Bytes} (among : name ∈ Path.split spelling) :
    Path.slash ∉ name := by
  induction spelling generalizing name with
  | nil =>
      obtain rfl : name = [] := by simpa [Path.split] using among
      simp
  | cons b spelling ih =>
      by_cases plain : b = Path.slash
      · subst plain
        rcases List.mem_cons.mp among with rfl | later
        · simp
        · exact ih later
      · obtain ⟨first, rest, splits⟩ := List.exists_cons_of_ne_nil (Path.split_ne_nil spelling)
        rw [Path.split_cons plain splits] at among
        rcases List.mem_cons.mp among with rfl | later
        · have clean := ih (splits ▸ List.mem_cons_self : first ∈ Path.split spelling)
          simpa [Ne.symm plain] using clean
        · exact ih (splits ▸ List.mem_cons_of_mem _ later)

theorem split_append (plain : Path.slash ∉ name) {spelling : Bytes} {first : Bytes}
    (rest : Path.split spelling = first :: names) :
    Path.split (name ++ spelling) = (name ++ first) :: names := by
  induction name with
  | nil => exact rest
  | cons b name ih =>
      obtain ⟨other, plain⟩ := not_or.mp (List.mem_cons.not.mp plain)
      exact Path.split_cons (Ne.symm other) (ih plain)

theorem split_joined (plain : ∀ other ∈ name :: names, Path.slash ∉ other) :
    Path.split (name ++ names.flatMap (Path.slash :: ·)) = name :: names := by
  induction names generalizing name with
  | nil =>
      have empty : Path.split [] = [[]] := rfl
      simpa using split_append (plain name (.head _)) empty
  | cons next names ih =>
      have rest := ih fun other among => plain other (.tail _ among)
      have apart := split_append (plain name (.head _)) (Path.split_slash
        (next ++ names.flatMap (Path.slash :: ·)))
      rw [rest, List.append_nil] at apart
      exact apart

/-- The names of the directories that have to be there. -/
def visible (path : Path) : List Bytes :=
  path.components.filterMap fun component =>
    match component with
    | .root => none
    | .current => some current
    | .parent => some parent
    | .normal name => some name

/-- Names spelled the way `path` starts. -/
def spelled (path : Path) (names : List Bytes) : Path :=
  if path.isAbsolute then Path.ofLocation names else ⟨(Path.ofLocation names).spelling.tail⟩

theorem ancestors_eq :
    ancestors path = if visible path = [] then [] else
      path :: ((List.range (visible path).length).filterMap fun count =>
        if count = 0 then none else some (spelled path ((visible path).take count))).reverse :=
  rfl

/-- A `.` counts at the very start of a relative path only. -/
theorem visible_eq (path : Path) :
    ∃ lead, visible path = lead ++ moves path ∧ (lead = [] ∨ lead = [current]) := by
  have rest : ((Path.split path.spelling).filterMap Path.component?).filterMap (fun component =>
      match component with
      | .root => none
      | .current => some current
      | .parent => some parent
      | .normal name => some name) = moves path := by
    rw [moves, written, List.filter_filter, List.filterMap_filterMap]
    rw [← List.filterMap_eq_filter]
    refine List.filterMap_congr fun name _ => ?_
    unfold Path.component?
    by_cases void : name = []
    · simp [void, Option.guard]
    · by_cases still : name = current
      · simp [still, current, Option.guard]
      · have apart : name ≠ [Path.dot] := still
        by_cases up : name = [Path.dot, Path.dot]
        · simp [up, current, parent]
        · simp [void, apart, still, up]
  unfold visible Path.components
  simp only
  split
  · exact ⟨[], by rw [List.filterMap_cons]; exact rest, .inl rfl⟩
  · split
    · exact ⟨[current], by rw [List.filterMap_cons]; exact congrArg _ rest, .inr rfl⟩
    · exact ⟨[], rest, .inl rfl⟩

theorem moves_spelled (inner : names ≠ []) (plain : ∀ name ∈ names, name ≠ [] ∧ Path.slash ∉ name) :
    moves (spelled path names) = names.filter (· ≠ current) := by
  obtain ⟨name, names, rfl⟩ := List.exists_cons_of_ne_nil inner
  have joined := split_joined fun other among => (plain other among).2
  have solid : (name :: names).filter (· ≠ []) = name :: names :=
    List.filter_eq_self.mpr fun other among => by simpa using (plain other among).1
  rw [moves, written]
  congr 1
  unfold spelled
  split
  · change (Path.split (Path.slash :: (name ++ names.flatMap (Path.slash :: ·)))).filter _ = _
    rw [Path.split_slash, joined, List.filter_cons_of_neg (by simp), solid]
  · change (Path.split (name ++ names.flatMap (Path.slash :: ·))).filter _ = _
    rw [joined, solid]

theorem plain_of_visible (among : name ∈ visible path) : name ≠ [] ∧ Path.slash ∉ name := by
  obtain ⟨lead, whole, leads⟩ := visible_eq path
  rw [whole] at among
  rcases List.mem_append.mp among with first | moving
  · rcases leads with rfl | rfl
    · cases first
    · obtain rfl := List.mem_singleton.mp first
      decide
  · have wrote := List.mem_filter.mp (List.mem_of_mem_filter moving)
    exact ⟨by simpa using wrote.2, slash_not_mem_split wrote.1⟩

theorem filter_take_visible {lead : List Bytes} (whole : visible path = lead ++ moves path)
    (leads : lead = [] ∨ lead = [current]) (count : Nat) :
    ((visible path).take count).filter (· ≠ current) = (moves path).take (count - lead.length) := by
  have still : (lead.take count).filter (· ≠ current) = [] := by
    refine List.filter_eq_nil_iff.mpr fun name among => ?_
    have among := List.mem_of_mem_take among
    rcases leads with rfl | rfl
    · cases among
    · simpa using among
  have moved : ((moves path).take (count - lead.length)).filter (· ≠ current)
      = (moves path).take (count - lead.length) :=
    List.filter_eq_self.mpr fun name among =>
      (List.mem_filter.mp (List.mem_of_mem_take among)).2
  rw [whole, List.take_append, List.filter_append, still, moved, List.nil_append]

/-- The ways to the first names of a path, the longest first. -/
theorem outwards_take {lead : List Bytes} (whole : visible path = lead ++ moves path)
    (leads : lead = [] ∨ lead = [current]) {bound : Nat}
    (within : bound ≤ (visible path).length) :
    Outwards ((moves path).take (bound - lead.length)).dropLast
      ((List.range bound).filterMap fun count => if count = 0 then none
        else some (spelled path ((visible path).take count))).reverse := by
  have short : lead.length ≤ 1 := by rcases leads with rfl | rfl <;> simp
  induction bound with
  | zero => exact trivial
  | succ bound ih =>
      rw [List.range_succ, List.filterMap_append, List.reverse_append]
      by_cases first : bound = 0
      · subst first
        exact trivial
      · have inner : (visible path).take bound ≠ [] := by
          intro empty
          have size := congrArg List.length empty
          rw [List.length_take, List.length_nil] at size
          omega
        have shorter : ((moves path).take (bound + 1 - lead.length)).dropLast
            = (moves path).take (bound - lead.length) := by
          rw [List.dropLast_eq_take, List.length_take, List.take_take]
          congr 1
          rw [whole, List.length_append] at within
          omega
        simp only [List.filterMap_cons, first, if_false, List.filterMap_nil,
          List.reverse_singleton, List.singleton_append]
        refine ⟨?_, ?_⟩
        · rw [moves_spelled inner fun name among =>
            plain_of_visible (List.mem_of_mem_take among),
            filter_take_visible whole leads, shorter]
        · rw [shorter]
          exact ih (Nat.le_of_succ_le within)

theorem outwards_ancestors : Outwards (moves path) (ancestors path) := by
  obtain ⟨lead, whole, leads⟩ := visible_eq path
  rw [ancestors_eq]
  split
  · exact trivial
  · have all := outwards_take whole leads (Nat.le_refl _)
    rw [whole] at all ⊢
    rw [List.length_append, Nat.add_sub_cancel_left, List.take_length] at all
    rw [List.length_append]
    exact ⟨rfl, all⟩

/-- A path that has no `..` and led nowhere leads to what was not there, once the directories
that it names are made. -/
theorem missing_of_made (sound : tree.Sound) (forth : parent ∉ path.steps)
    (makes : tree.makeDirectories path = (.ok (), made))
    (nowhere : tree.canonical path ≠ .ok location)
    (leads : made.canonical path = .ok location) : tree.place? location = none := by
  have forward : parent ∉ moves path := by
    intro among
    have among := List.mem_of_mem_filter among
    refine forth ?_
    unfold Path.steps
    split
    · exact List.mem_append_left _ among
    · exact among
  rcases moves_of_missed outwards_ancestors forward sound makes with rfl | missed
  · exact absurd leads nowhere
  · exact missed location (leads_moves (leads_of_canonical leads))

end FileTree

end SparseCache
