import SparseCache.Proofs.FileTree.Making
import SparseCache.Scratch.Claim
import SparseCache.Scratch.Lemmas

namespace SparseCache

/-! What claiming a private directory leaves in the shared one, and elsewhere. -/

namespace FileTree

variable {tree made : FileTree} {root location directory : Location} {name : Bytes}
  {names before later : List Bytes} {locked : List Nat}

/-! ### Sweeping -/

/-- The names that a sweep takes away, as far as it gets. -/
def swept (locked : List Nat) (root : Location) : List Bytes → FileTree → List Bytes
  | [], _ => []
  | name :: names, tree =>
    match tree.stays locked root name with
    | .error _ => []
    | .ok true => swept locked root names tree
    | .ok false => name :: swept locked root names (tree.remove (root ++ [name]))

theorem mem_of_mem_swept (takes : name ∈ swept locked root names tree) : name ∈ names := by
  induction names generalizing tree with
  | nil => cases takes
  | cons other names ih =>
      unfold swept at takes
      split at takes
      · cases takes
      · exact .tail _ (ih takes)
      · rcases List.mem_cons.mp takes with rfl | takes
        · exact .head _
        · exact .tail _ (ih takes)

/-- A sweep takes away what it sweeps, with all beneath it, and nothing else. -/
theorem place?_sweep (locked : List Nat) (root : Location) (names : List Bytes) (tree : FileTree)
    (location : Location) :
    (sweep locked root names tree).2.place? location
      = if ∃ name ∈ swept locked root names tree, root ++ [name] <+: location then none
        else tree.place? location := by
  induction names generalizing tree with
  | nil => simp [sweep, swept]
  | cons name names ih =>
      cases decided : tree.stays locked root name with
      | error code => simp [sweep, swept, decided]
      | ok stays =>
          cases stays with
          | true =>
              simp only [sweep, swept, decided]
              exact ih tree
          | false =>
              simp only [sweep, swept, decided, ih, List.exists_mem_cons_iff]
              by_cases beneath : root ++ [name] <+: location
              · simp only [beneath, true_or, if_true]
                rw [ place?_remove_of_prefix (by simp) beneath, ite_self]
              · simp only [beneath, false_or]
                rw [ place?_remove_of_not_prefix beneath]

theorem sound_sweep (locked : List Nat) (root : Location) (names : List Bytes)
    (sound : tree.Sound) : (sweep locked root names tree).2.Sound := by
  induction names generalizing tree with
  | nil => exact sound
  | cons name names ih =>
      unfold sweep
      split
      · exact sound
      · exact ih sound
      · exact ih sound.remove

/-- What is swept was not to stay when its turn came. -/
theorem turn_of_mem_swept (takes : name ∈ swept locked root names tree) :
    ∃ before later, names = before ++ name :: later ∧
      (sweep locked root before tree).2.stays locked root name = .ok false := by
  induction names generalizing tree with
  | nil => cases takes
  | cons other names ih =>
      cases decided : tree.stays locked root other with
      | error code =>
          simp only [swept, decided] at takes
          cases takes
      | ok stays =>
          cases stays with
          | true =>
              simp only [swept, decided] at takes
              obtain ⟨before, later, rfl, found⟩ := ih takes
              exact ⟨other :: before, later, rfl, by simpa only [sweep, decided] using found⟩
          | false =>
              simp only [swept, decided] at takes
              rcases List.mem_cons.mp takes with rfl | takes
              · exact ⟨[], names, rfl, decided⟩
              · obtain ⟨before, later, rfl, found⟩ := ih takes
                exact ⟨other :: before, later, rfl, by simpa only [sweep, decided] using found⟩

/-- A sweep that fails at nothing can be cut in two anywhere. -/
theorem sweep_append (sweeps : (sweep locked root (before ++ later) tree).1 = .ok ()) :
    sweep locked root (before ++ later) tree
        = sweep locked root later (sweep locked root before tree).2 ∧
      swept locked root (before ++ later) tree = swept locked root before tree
        ++ swept locked root later (sweep locked root before tree).2 := by
  induction before generalizing tree with
  | nil => exact ⟨rfl, rfl⟩
  | cons name before ih =>
      cases decided : tree.stays locked root name with
      | error code =>
          simp only [List.cons_append, sweep, decided] at sweeps
          cases sweeps
      | ok stays =>
          cases stays with
          | true =>
              simp only [List.cons_append, sweep, swept, decided] at sweeps ⊢
              exact ih sweeps
          | false =>
              simp only [List.cons_append, sweep, swept, decided] at sweeps ⊢
              obtain ⟨same, parts⟩ := ih sweeps
              exact ⟨same, congrArg _ parts⟩

/-- Whether something is swept shows when its turn comes. -/
theorem mem_swept_iff (apart : (before ++ name :: later).Nodup)
    (sweeps : (sweep locked root (before ++ name :: later) tree).1 = .ok ()) :
    ∃ stays, (sweep locked root before tree).2.stays locked root name = .ok stays ∧
      (name ∈ swept locked root (before ++ name :: later) tree ↔ stays = false) := by
  obtain ⟨same, parts⟩ := sweep_append sweeps
  obtain ⟨-, here, elsewhere⟩ := List.nodup_append.mp apart
  have earlier : name ∉ swept locked root before tree := fun takes =>
    elsewhere name (mem_of_mem_swept takes) name (.head _) rfl
  rw [same] at sweeps
  rw [parts, List.mem_append, or_iff_right earlier]
  generalize (sweep locked root before tree).2 = reached at sweeps
  cases decided : reached.stays locked root name with
  | error code =>
      simp only [sweep, decided] at sweeps
      cases sweeps
  | ok stays =>
      refine ⟨stays, rfl, ?_⟩
      cases stays with
      | true =>
          have last : name ∉ swept locked root later reached := fun takes =>
            (List.nodup_cons.mp here).1 (mem_of_mem_swept takes)
          simp [swept, decided, last]
      | false => simp [swept, decided]

@[simp] theorem next_sweep : (sweep locked root names tree).2.next = tree.next := by
  induction names generalizing tree with
  | nil => rfl
  | cons name names ih =>
      unfold sweep
      split
      · rfl
      · exact ih
      · rw [ih]
        rfl

/-! ### The marker -/

theorem markerName_plain :
    (ScratchDir.markerName ≠ current ∧ ScratchDir.markerName ≠ parent) ∧
      ScratchDir.markerName.length ≤ nameLimit := by
  decide +kernel

theorem walk_absent (there : tree.node? directory = some .directory)
    (plain : name ≠ current ∧ name ≠ parent) (short : name.length ≤ nameLimit) {links : Nat}
    (absent : tree.node? (directory ++ [name]) = none) :
    tree.walk anywhere links directory [name] = .ok (.vacant (directory ++ [name])) := by
  rw [walk]
  simp [there, plain, Nat.not_lt.mpr short, anywhere, absent]

theorem walk_solid (there : tree.node? directory = some .directory)
    (plain : name ≠ current ∧ name ≠ parent) (short : name.length ≤ nameLimit) {links : Nat}
    {node : Node} (found : tree.node? (directory ++ [name]) = some node)
    (solid : ∀ target, node ≠ .link target) :
    tree.walk anywhere links directory [name] = .ok (.taken (directory ++ [name])) := by
  rw [walk]
  simp only [there, plain, Nat.not_lt.mpr short, anywhere, found]
  cases node with
  | link target => exact absurd rfl (solid target)
  | _ => simp [walk]

theorem walk_vacant {near : Location → Bool} {links : Nat} {here : Location}
    (ends : tree.walk near links here names = .ok (.vacant location)) :
    ∃ directory name, location = directory ++ [name] ∧ tree.node? directory = some .directory ∧
      (name ≠ current ∧ name ≠ parent) ∧ tree.place? location = none := by
  fun_induction walk tree near links here names with
  | case1 | case2 | case5 | case7 | case8 => cases ends
  | case3 _ _ _ _ ih | case4 _ _ _ _ _ ih | case9 _ _ _ _ _ _ _ _ _ _ ih
  | case10 _ _ _ _ _ _ _ _ _ _ _ ih => exact ih ends
  | case6 links here name within one two _ nothing =>
      cases ends
      exact ⟨here, name, rfl, Decidable.not_not.mp within, ⟨one, two⟩,
        node?_eq_none_iff.mp nothing⟩

theorem there_of_walk {near : Location → Bool} {links : Nat} {here : Location} {spot : Spot}
    (ends : tree.walk near links here (name :: names) = .ok spot) :
    tree.node? here = some .directory := by
  rw [walk] at ends
  split at ends
  · cases ends
  · exact Decidable.not_not.mp ‹_›

theorem there_of_openMarker {opened : FileTree} {marker : Nat}
    (opens : tree.openMarker root = .ok (marker, opened)) :
    tree.node? root = some .directory := by
  unfold openMarker at opens
  split at opens
  · cases opens
  · exact there_of_walk ‹_›
  · exact there_of_walk ‹_›

/-- The marker is opened where it is, or made where the name of the marker leads. -/
theorem openMarker_ok {opened : FileTree} {marker : Nat}
    (opens : tree.openMarker root = .ok (marker, opened)) :
    (opened = tree ∧ tree.isMarked root = .ok true) ∨
      ∃ directory name, opened = tree.add (directory ++ [name]) (.file (.zeros 0)) ∧
        marker = tree.next ∧ tree.node? directory = some .directory ∧
        (name ≠ current ∧ name ≠ parent) ∧ tree.place? (directory ++ [name]) = none ∧
        (directory ++ [name] = root ++ [ScratchDir.markerName] ∨
          ∃ target, tree.node? (root ++ [ScratchDir.markerName]) = some (.link target) ∧
            tree.isMarked root ≠ .ok true) := by
  have there := there_of_openMarker opens
  unfold openMarker at opens
  split at opens
  · cases opens
  · rename_i location ends
    cases opens
    obtain ⟨directory, name, rfl, within, plain, nothing⟩ := walk_vacant ends
    refine .inr ⟨directory, name, rfl, rfl, within, plain, nothing, ?_⟩
    have unmarked : tree.isMarked root ≠ .ok true := by
      simp [isMarked, reach, ends, landing]
    obtain ⟨plain, short⟩ := markerName_plain
    cases found : tree.node? (root ++ [ScratchDir.markerName]) with
    | none =>
        rw [walk_absent there plain short found] at ends
        simp only [Except.ok.injEq, Spot.vacant.injEq] at ends
        exact .inl ends.symm
    | some node =>
        cases node with
        | link target => exact .inr ⟨target, rfl, unmarked⟩
        | _ =>
            rw [walk_solid there plain short found (by simp)] at ends
            cases ends
  · rename_i location ends
    split at opens
    · cases opens
      exact .inl ⟨rfl, by simp [isMarked, reach, ends, landing]⟩
    · cases opens

theorem extends_openMarker {opened : FileTree} {marker : Nat} (sound : tree.Sound)
    (opens : tree.openMarker root = .ok (marker, opened)) : tree.Extends opened := by
  rcases openMarker_ok opens with ⟨rfl, -⟩ | ⟨directory, name, rfl, -, within, plain, free, -⟩
  · exact .refl sound
  · refine .add sound free ?_ fun other last => ?_
    · rw [List.dropLast_concat]
      exact within
    · rw [List.getLast?_concat] at last
      cases last
      exact plain

/-! ### Locks -/

theorem lockName_plain :
    (ScratchDir.lockName ≠ current ∧ ScratchDir.lockName ≠ parent) ∧
      ScratchDir.lockName.length ≤ nameLimit := by
  decide +kernel

/-- A lock file that is no link is the one to look at. -/
theorem isHeld_of_solid (locked : List Nat) {place : Place}
    (there : tree.node? directory = some .directory)
    (found : tree.place? (directory ++ [ScratchDir.lockName]) = some place)
    (solid : ∀ target, place.node ≠ .link target) :
    tree.isHeld locked directory = .ok (locked.contains place.id) := by
  obtain ⟨plain, short⟩ := lockName_plain
  have ends : tree.reach directory [ScratchDir.lockName]
      = .ok (directory ++ [ScratchDir.lockName]) := by
    rw [reach, walk_solid there plain short (node?_of_place? found) solid, landing]
  simp only [isHeld, ends, found, Option.any_some]

theorem isHeld_of_absent (there : tree.node? directory = some .directory)
    (absent : tree.place? (directory ++ [ScratchDir.lockName]) = none) :
    tree.isHeld locked directory = .ok false := by
  obtain ⟨plain, short⟩ := lockName_plain
  rw [isHeld, reach, walk_absent there plain short (node?_eq_none_iff.mpr absent), landing]
  simp

end FileTree

namespace Disk

variable [Host] {disk after : Disk} {scratch : ScratchDir} {root directory : Location}
  {mark : Bytes}

/-- How a private directory came to be in the shared directory `root`: the marker was opened in
`opened`, what was left over is gone in `cleared`, and the `n`th random name was drawn. -/
structure Occupies (disk : Disk) (root : Location) (scratch : ScratchDir) (after : Disk)
    (marker : Nat) (opened cleared : FileTree) (n : Nat) : Prop where
  opens : disk.tree.openMarker root = .ok (marker, opened)
  sweeps : opened.sweep (marker :: disk.locked) root (Host.listing opened root) = (.ok (), cleared)
  drawn : disk.drawn ≤ n
  free : Host.randomName ScratchDir.directoryMark n ∉ cleared.children root
  granted : scratch = ⟨root ++ [Host.randomName ScratchDir.directoryMark n], cleared.next + 1⟩
  made : after = {
    tree := (cleared.add scratch.directory .directory).add
      (scratch.directory ++ [ScratchDir.lockName]) (.file (.zeros 0))
    locked := scratch.lock :: disk.locked
    drawn := n + 1 }

theorem occupies_of_ok (occupies : disk.occupy root = (.ok scratch, after)) :
    ∃ marker opened cleared n, disk.Occupies root scratch after marker opened cleared n := by
  unfold occupy at occupies
  split at occupies
  · cases occupies
  · rename_i marker opened opens
    split at occupies
    · cases occupies
    · rename_i cleared sweeps
      obtain ⟨n, drawn, free, draws⟩ :=
        draw_eq { disk with tree := cleared } ScratchDir.directoryMark root
      rw [draws] at occupies
      cases occupies
      exact ⟨marker, opened, cleared, n, opens, sweeps, drawn, free, rfl, rfl⟩

namespace Occupies

variable {marker n : Nat} {opened cleared : FileTree} {location : Location}

section

variable (occupies : disk.Occupies root scratch after marker opened cleared n)
include occupies

theorem cleared_eq :
    cleared = (opened.sweep (marker :: disk.locked) root (Host.listing opened root)).2 := by
  rw [occupies.sweeps]

theorem directory_eq : scratch.directory = root ++ [Host.randomName ScratchDir.directoryMark n] := by
  rw [occupies.granted]

theorem tree_eq : after.tree = (cleared.add scratch.directory .directory).add
    (scratch.directory ++ [ScratchDir.lockName]) (.file (.zeros 0)) := by
  rw [occupies.made]

theorem there : disk.tree.node? root = some .directory :=
  FileTree.there_of_openMarker occupies.opens

variable (sound : disk.tree.Sound)
include sound

theorem extends_opened : disk.tree.Extends opened :=
  FileTree.extends_openMarker sound occupies.opens

theorem sound_cleared : cleared.Sound := by
  rw [occupies.cleared_eq]
  exact FileTree.sound_sweep _ _ _ (occupies.extends_opened sound).sound

/-- The shared directory is not swept itself. -/
theorem there_cleared : cleared.node? root = some .directory := by
  rw [FileTree.node?, occupies.cleared_eq, FileTree.place?_sweep, if_neg, ← FileTree.node?]
  · exact (occupies.extends_opened sound).node? occupies.there
  · rintro ⟨name, -, beneath⟩
    have longer := beneath.length_le
    rw [List.length_append, List.length_singleton] at longer
    omega

theorem absent_cleared (beneath : scratch.directory <+: location) :
    cleared.place? location = none := by
  have sound' := occupies.sound_cleared sound
  refine sound'.absent_beneath ?_ beneath
  rw [occupies.directory_eq]
  exact Option.not_isSome_iff_eq_none.mp (sound'.mem_children_iff.not.mp occupies.free)

theorem extends_made : cleared.Extends (cleared.add scratch.directory .directory) := by
  refine .add (occupies.sound_cleared sound)
    (occupies.absent_cleared sound (List.prefix_refl _)) ?_ fun name last => ?_
  · rw [occupies.directory_eq, List.dropLast_concat]
    exact occupies.there_cleared sound
  · rw [occupies.directory_eq, List.getLast?_concat] at last
    cases last
    exact ScratchDir.plain_of_head (by simp [ScratchDir.head_directoryName, Path.dot])

theorem directory_made :
    (cleared.add scratch.directory .directory).place? scratch.directory
      = some ⟨scratch.directory, cleared.next, .directory⟩ :=
  FileTree.place?_add_self (occupies.absent_cleared sound (List.prefix_refl _))

theorem lock_absent :
    (cleared.add scratch.directory .directory).place?
      (scratch.directory ++ [ScratchDir.lockName]) = none := by
  rw [FileTree.place?_add_of_ne (by simp)]
  exact occupies.absent_cleared sound (List.prefix_append _ _)

theorem extends_after : cleared.Extends after.tree := by
  have made := occupies.extends_made sound
  rw [occupies.tree_eq]
  refine made.trans (.add made.sound (occupies.lock_absent sound) ?_ fun name last => ?_)
  · rw [List.dropLast_concat]
    exact FileTree.node?_of_place? (occupies.directory_made sound)
  · rw [List.getLast?_concat] at last
    cases last
    exact FileTree.lockName_plain.1

theorem lock_after : after.tree.place? (scratch.directory ++ [ScratchDir.lockName])
    = some ⟨scratch.directory ++ [ScratchDir.lockName], scratch.lock, .file (.zeros 0)⟩ := by
  rw [occupies.tree_eq, FileTree.place?_add_self (occupies.lock_absent sound)]
  rw [occupies.granted]
  rfl

theorem directory_after : after.tree.place? scratch.directory
    = some ⟨scratch.directory, cleared.next, .directory⟩ := by
  rw [occupies.tree_eq, FileTree.place?_add_of_ne (by simp)]
  exact occupies.directory_made sound

omit sound in
/-- Only the private directory and its lock file are new. -/
theorem place?_after (apart : location ≠ scratch.directory)
    (other : location ≠ scratch.directory ++ [ScratchDir.lockName]) :
    after.tree.place? location = cleared.place? location := by
  rw [occupies.tree_eq, FileTree.place?_add_of_ne other, FileTree.place?_add_of_ne apart]

end

end Occupies

end Disk

end SparseCache
