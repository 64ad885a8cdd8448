import Mathlib
import SparseCache.Proofs.Scratch.Sweep
import SparseCache.Scratch.Names

namespace SparseCache

/-! What is left of a shared directory in which a private one was claimed.

Its marker stays, and so do the private directories that are found locked.  All else
goes, and nothing outside changes.  The directory must have been missing, empty or
marked; but one that a path with `..` leads to only after directories were made for
it is not checked.
-/

namespace FileTree

variable {tree made : FileTree} {root location : Location} {name : Bytes} {names : List Bytes}
  {locked : List Nat} {path : Path}

/-- A path that led nowhere, so that directories were made for it. -/
def Nowhere (tree : FileTree) (path : Path) : Prop :=
  ∃ error, tree.canonical path = .error error ∧ error.kind = .notFound

/-- The directory `root` to share, at the end of `path`. -/
structure Shares (tree : FileTree) (path : Path) (root : Location) (made : FileTree) : Prop where
  grows : tree.Grows made
  unmade : made = tree ∨ tree.Nowhere path
  leads : made.canonical path = .ok root
  /-- The last of these is what no check looks at. -/
  checked : tree.place? root = none ∨ tree.children root = [] ∨
    (made = tree ∧ tree.isMarked root = .ok true) ∨ (tree.Nowhere path ∧ parent ∈ path.steps)

/-- Something called like a private directory that the sweep finds locked when its turn comes. -/
def HeldInTurn [Host] (tree : FileTree) (locked : List Nat) (root : Location) (name : Bytes) :
    Prop :=
  tree.node? (root ++ [name]) = some .directory ∧ ScratchDir.directoryMark <+: name ∧
    (tree.sweep locked root ((Host.listing tree root).takeWhile (· != name))).2.isHeld locked
      (root ++ [name]) = .ok true

/-- What is left of the directory `root` of `tree`, and of all else, with `scratch` made in it. -/
structure Clears [Host] (tree : FileTree) (locked : List Nat) (root : Location)
    (scratch : ScratchDir) (after : FileTree) : Prop where
  named : ∃ name, scratch.directory = root ++ [name] ∧ ScratchDir.directoryMark <+: name
  directory : after.place? scratch.directory = some ⟨scratch.directory, tree.next, .directory⟩
  lock : after.place? (scratch.directory ++ [ScratchDir.lockName])
    = some ⟨scratch.directory ++ [ScratchDir.lockName], scratch.lock, .file (.zeros 0)⟩
  locks : scratch.lock = tree.next + 1
  alone : ∀ location, scratch.directory <+: location → location ≠ scratch.directory →
    location ≠ scratch.directory ++ [ScratchDir.lockName] → after.place? location = none
  kept : ∀ name, name = ScratchDir.markerName ∨ tree.HeldInTurn locked root name →
    ∀ location, root ++ [name] <+: location → after.place? location = tree.place? location
  gone : ∀ name, name ≠ ScratchDir.markerName → ¬ tree.HeldInTurn locked root name →
    root ++ [name] ≠ scratch.directory →
    ∀ location, root ++ [name] <+: location → after.place? location = none
  outside : ∀ location, (∀ name, ¬ root ++ [name] <+: location) →
    after.place? location = tree.place? location
  /-- Where the lock file is no link, the sweep finds locked what was so from the start. -/
  held : ∀ name place, tree.place? (root ++ [name]) = some ⟨root ++ [name], place, .directory⟩ →
    (∀ target, tree.node? (root ++ [name] ++ [ScratchDir.lockName]) ≠ some (.link target)) →
    (tree.HeldInTurn locked root name ↔ ScratchDir.directoryMark <+: name ∧
      ∃ lock, tree.place? (root ++ [name] ++ [ScratchDir.lockName]) = some lock ∧
        lock.id ∈ locked)

theorem takeWhile_append {names : List Bytes} (among : name ∈ names) :
    ∃ later, names = names.takeWhile (· != name) ++ name :: later := by
  induction names with
  | nil => cases among
  | cons first rest ih =>
      by_cases same : first = name
      · exact ⟨rest, by simp [same]⟩
      · obtain ⟨later, whole⟩ := ih ((List.mem_cons.mp among).resolve_left (Ne.symm same))
        exact ⟨later, by simpa [same] using whole⟩

/-- A location lies beneath one child of a directory only. -/
theorem child_unique {other : Bytes} (one : root ++ [name] <+: location)
    (two : root ++ [other] <+: location) : name = other := by
  have same : root ++ [name] = root ++ [other] :=
    (List.prefix_of_prefix_length_le one two (by simp)).eq_of_length (by simp)
  simpa using same

/-- What a sweep has not come to yet is as it was. -/
theorem place?_sweep_of_not_mem (absent : name ∉ names) (beneath : root ++ [name] <+: location) :
    (tree.sweep locked root names).2.place? location = tree.place? location := by
  rw [place?_sweep, if_neg]
  rintro ⟨other, takes, above⟩
  obtain rfl := child_unique above beneath
  exact absent (mem_of_mem_swept takes)

theorem not_mem_takeWhile : name ∉ names.takeWhile (· != name) := fun among => by
  simpa using List.mem_takeWhile_imp among

theorem not_mem_swept_iff [Host] (sound : tree.Sound)
    (sweeps : (tree.sweep locked root (Host.listing tree root)).1 = .ok ())
    (among : name ∈ tree.children root) :
    name ∉ swept locked root (Host.listing tree root) tree ↔
      name = ScratchDir.markerName ∨ tree.HeldInTurn locked root name := by
  have apart : (Host.listing tree root).Nodup :=
    (Host.listed tree root).nodup_iff.mpr sound.nodup_children
  obtain ⟨later, whole⟩ := takeWhile_append ((Host.listed tree root).mem_iff.mpr among)
  have here : (tree.sweep locked root ((Host.listing tree root).takeWhile (· != name))).2.node?
      (root ++ [name]) = tree.node? (root ++ [name]) :=
    congrArg _ (place?_sweep_of_not_mem not_mem_takeWhile (List.prefix_refl _))
  unfold HeldInTurn
  generalize (Host.listing tree root).takeWhile (· != name) = before at whole here
  rw [whole] at apart sweeps ⊢
  obtain ⟨verdict, decided, takes⟩ := mem_swept_iff apart sweeps
  rw [takes, Bool.not_eq_false]
  unfold FileTree.stays at decided
  simp only [here, List.isPrefixOf_iff_prefix] at decided
  by_cases marker : name = ScratchDir.markerName
  · rw [if_pos marker] at decided
    cases decided
    exact iff_of_true rfl (.inl marker)
  · rw [if_neg marker] at decided
    rw [or_iff_right marker]
    by_cases mount : tree.node? (root ++ [name]) = some .directory ∧
        ScratchDir.directoryMark <+: name
    · rw [if_pos mount] at decided
      rw [decided, Except.ok.injEq]
      exact ⟨fun stays => ⟨mount.1, mount.2, stays⟩, fun held => held.2.2⟩
    · rw [if_neg mount] at decided
      cases decided
      exact iff_of_false Bool.false_ne_true fun held => mount ⟨held.1, held.2.1⟩

/-- A lock file that is no link is not touched before its directory's turn comes. -/
theorem heldInTurn_iff_of_solid [Host] {id : Nat}
    (there : tree.place? (root ++ [name]) = some ⟨root ++ [name], id, .directory⟩)
    (solid : ∀ target, tree.node? (root ++ [name] ++ [ScratchDir.lockName]) ≠ some (.link target)) :
    tree.HeldInTurn locked root name ↔ ScratchDir.directoryMark <+: name ∧
      ∃ lock, tree.place? (root ++ [name] ++ [ScratchDir.lockName]) = some lock ∧
        lock.id ∈ locked := by
  have directory := node?_of_place? there
  have untouched : ∀ {location}, root ++ [name] <+: location →
      (tree.sweep locked root ((Host.listing tree root).takeWhile (· != name))).2.place? location
        = tree.place? location := place?_sweep_of_not_mem not_mem_takeWhile
  unfold HeldInTurn
  rw [and_iff_right directory, and_congr_right_iff]
  intro mark
  have reached : (tree.sweep locked root ((Host.listing tree root).takeWhile (· != name))).2.node?
      (root ++ [name]) = some .directory := by
    rw [node?, untouched (List.prefix_refl _), ← node?, directory]
  have same := untouched (List.prefix_append (root ++ [name]) [ScratchDir.lockName])
  cases found : tree.place? (root ++ [name] ++ [ScratchDir.lockName]) with
  | none =>
      rw [isHeld_of_absent reached (same.trans found)]
      simp
  | some lock =>
      have plain : ∀ target, lock.node ≠ .link target := by
        intro target link
        exact solid target (by rw [node?_of_place? found, link])
      rw [isHeld_of_solid locked reached (same.trans found) plain]
      simp

/-! ### Which directory is shared -/

theorem shares_of_ok (sound : tree.Sound) (shared : tree.shared path = (.ok root, made)) :
    tree.Shares path root made := by
  unfold FileTree.shared at shared
  split at shared
  · rename_i location leads
    split at shared
    · cases shared
    · split at shared
      · cases shared
      · rename_i marked marks
        split at shared
        · rename_i fits
          cases shared
          refine ⟨.refl sound, .inl rfl, leads, .inr ?_⟩
          rcases fits with rfl | empty
          · exact .inr (.inl ⟨rfl, marks⟩)
          · exact .inl empty
        · cases shared
  · rename_i error leads
    split at shared
    · rename_i missing
      have nowhere : tree.Nowhere path := ⟨error, leads, missing⟩
      split at shared
      · cases shared
      · rename_i widened makes
        obtain ⟨found, rfl⟩ := Prod.mk.inj shared
        have grows := grows_makeDirectories sound path
        rw [makes] at grows
        have found := ok_of_mapError found
        refine ⟨grows, .inr nowhere, found, ?_⟩
        by_cases back : parent ∈ path.steps
        · exact .inr (.inr (.inr ⟨nowhere, back⟩))
        · refine .inl (missing_of_made sound back makes ?_ found)
          simp [leads]
    · cases shared

theorem grows_shared (sound : tree.Sound) (path : Path) : tree.Grows (tree.shared path).2 := by
  have made := grows_makeDirectories sound path
  unfold FileTree.shared
  split
  · split
    · exact .refl sound
    · split
      · exact .refl sound
      · split
        · exact .refl sound
        · exact .refl sound
  · split
    · split
      · rename_i same
        rw [same] at made
        exact made
      · rename_i same
        rw [same] at made
        exact made
    · exact .refl sound

/-- A directory that is not to be shared is not touched. -/
theorem shared_refused {error : ScratchError} {shown : Path}
    (refused : tree.shared path = (.error error, made))
    (cause : error = .notDirectory shown ∨ error = .foreignContents shown) : made = tree := by
  unfold FileTree.shared at refused
  split at refused
  · split at refused
    · cases refused
      rfl
    · split at refused
      · cases refused
        rfl
      · split at refused
        · cases refused
        · cases refused
          rfl
  · split at refused
    · split at refused
      · cases refused
        rcases cause with cause | cause
        · cases cause
        · cases cause
      · rename_i widened makes
        obtain ⟨failed, -⟩ := Prod.mk.inj refused
        cases found : widened.canonical path with
        | ok location =>
            rw [found] at failed
            cases failed
        | error problem =>
            rw [found] at failed
            cases failed
            rcases cause with cause | cause
            · cases cause
            · cases cause
    · cases refused
      rfl

/-- The marker that was opened, and what was made of it. -/
theorem marked_of_shares {marker : Nat} {opened : FileTree} (sound : tree.Sound)
    (shares : tree.Shares path root made) (opens : made.openMarker root = .ok (marker, opened)) :
    (opened = made ∧ made.isMarked root = .ok true) ∨
      ∃ location, opened = made.add location (.file (.zeros 0)) ∧ made.place? location = none ∧
        (location = root ++ [ScratchDir.markerName] ∨ tree.Nowhere path ∧ parent ∈ path.steps) := by
  rcases openMarker_ok opens with marked | ⟨directory, name, rfl, -, -, -, free, place⟩
  · exact .inl marked
  · refine .inr ⟨_, rfl, free, ?_⟩
    rcases place with same | ⟨target, link, unmarked⟩
    · exact .inl same
    · -- A marker that is a link leads somewhere, unless nothing was checked.
      have present : tree.place? (root ++ [ScratchDir.markerName]) ≠ none := by
        intro absent
        obtain ⟨place, found, same⟩ := Option.map_eq_some_iff.mp link
        rw [shares.grows.directories absent found] at same
        cases same
      rcases shares.checked with missing | empty | ⟨rfl, marked⟩ | unchecked
      · exact absurd (sound.absent_beneath missing (List.prefix_append _ _)) present
      · have among := sound.mem_children_iff.mpr (Option.isSome_iff_ne_none.mpr present)
        rw [empty] at among
        cases among
      · exact absurd marked unmarked
      · exact .inr unchecked

end FileTree

namespace Disk

section

variable [Host] {disk after : Disk} {scratch : ScratchDir} {root directory location : Location}
  {marker n : Nat} {opened cleared : FileTree}

theorem io_of_occupy {error : ScratchError} (refused : disk.occupy root = (.error error, after)) :
    ∃ cause, error = .io cause := by
  unfold occupy at refused
  split at refused
  · cases refused
    exact ⟨_, rfl⟩
  · split at refused
    · cases refused
      exact ⟨_, rfl⟩
    · cases refused

namespace Occupies

section

variable (occupies : disk.Occupies root scratch after marker opened cleared n)
  (sound : disk.tree.Sound)
include occupies sound

/-- What is neither the marker nor found locked is swept, if it is there. -/
theorem place?_cleared {name : Bytes} (beneath : root ++ [name] <+: location) :
    (name = ScratchDir.markerName ∨ opened.HeldInTurn (marker :: disk.locked) root name →
      cleared.place? location = opened.place? location) ∧
    (¬ (name = ScratchDir.markerName ∨ opened.HeldInTurn (marker :: disk.locked) root name) →
      cleared.place? location = none) := by
  have sound' := (occupies.extends_opened sound).sound
  have done : (opened.sweep (marker :: disk.locked) root (Host.listing opened root)).1 = .ok () := by
    rw [occupies.sweeps]
  have swept_iff : (∃ other ∈ FileTree.swept (marker :: disk.locked) root (Host.listing opened root)
      opened, root ++ [other] <+: location) ↔
      name ∈ FileTree.swept (marker :: disk.locked) root (Host.listing opened root) opened := by
    constructor
    · rintro ⟨other, takes, above⟩
      exact FileTree.child_unique above beneath ▸ takes
    · exact fun takes => ⟨name, takes, beneath⟩
  rw [occupies.cleared_eq, FileTree.place?_sweep, if_congr swept_iff rfl rfl]
  by_cases among : name ∈ opened.children root
  · rw [← FileTree.not_mem_swept_iff sound' done among, not_not]
    exact ⟨fun stays => if_neg stays, fun takes => if_pos takes⟩
  · have absent := Option.not_isSome_iff_eq_none.mp (sound'.mem_children_iff.not.mp among)
    have nothing := sound'.absent_beneath absent beneath
    rw [nothing, ite_self]
    exact ⟨fun _ => rfl, fun _ => rfl⟩

/-- The private directory is none of what was left. -/
theorem scratch_apart {name : Bytes}
    (stays : name = ScratchDir.markerName ∨ opened.HeldInTurn (marker :: disk.locked) root name) :
    root ++ [name] ≠ scratch.directory := by
  intro same
  rcases stays with rfl | held
  · rw [occupies.directory_eq] at same
    exact ScratchDir.markerName_ne_randomName n (by simpa using same)
  · have kept := (occupies.place?_cleared sound (List.prefix_refl _)).1 (.inr held)
    rw [same, occupies.absent_cleared sound (List.prefix_refl _), ← same] at kept
    have there := held.1
    rw [FileTree.node?, ← kept] at there
    cases there

omit sound in
/-- What lies beneath another child than the private directory is as the sweep left it. -/
theorem place?_beneath {name : Bytes} (apart : root ++ [name] ≠ scratch.directory)
    (beneath : root ++ [name] <+: location) :
    after.tree.place? location = cleared.place? location := by
  have outside : ¬ scratch.directory <+: location := by
    rw [occupies.directory_eq] at apart ⊢
    intro above
    exact apart (by rw [FileTree.child_unique above beneath])
  refine occupies.place?_after ?_ ?_
  · rintro rfl
    exact outside (List.prefix_refl _)
  · rintro rfl
    exact outside (List.prefix_append _ _)

theorem clears : opened.Clears (marker :: disk.locked) root scratch after.tree where
  named := ⟨_, occupies.directory_eq, Host.marked _ n⟩
  directory := by
    have made := occupies.directory_after sound
    rwa [occupies.cleared_eq, FileTree.next_sweep] at made
  lock := occupies.lock_after sound
  locks := by
    rw [occupies.granted, occupies.cleared_eq, FileTree.next_sweep]
  alone := by
    intro location beneath apart other
    rw [occupies.place?_after apart other, occupies.absent_cleared sound beneath]
  kept := by
    intro name stays location beneath
    rw [occupies.place?_beneath (occupies.scratch_apart sound stays) beneath]
    exact (occupies.place?_cleared sound beneath).1 stays
  gone := by
    intro name other free apart location beneath
    rw [occupies.place?_beneath apart beneath]
    exact (occupies.place?_cleared sound beneath).2 (not_or.mpr ⟨other, free⟩)
  outside := by
    intro location away
    have elsewhere : ∀ rest, location ≠ scratch.directory ++ rest := by
      rintro rest rfl
      rw [occupies.directory_eq] at away
      exact away _ (List.prefix_append _ _)
    rw [occupies.place?_after (by simpa using elsewhere []) (elsewhere _), occupies.cleared_eq,
      FileTree.place?_sweep, if_neg]
    rintro ⟨name, -, beneath⟩
    exact away name beneath
  held name id there solid := FileTree.heldInTurn_iff_of_solid there solid

end

end Occupies

theorem occupies_of_claim {path : Path} (claims : disk.claim path = (.ok scratch, after)) :
    ∃ root made marker opened cleared n, disk.tree.shared path = (.ok root, made) ∧
      Occupies { disk with tree := made } root scratch after marker opened cleared n := by
  unfold claim at claims
  split at claims
  · cases claims
  · rename_i root made shared
    obtain ⟨marker, opened, cleared, n, occupies⟩ := occupies_of_ok claims
    exact ⟨root, made, marker, opened, cleared, n, shared, occupies⟩

/-- What claiming `scratch` in the directory `root` at the end of `path` did to a disk: directories
were made for the path, which gave `made`, and the marker was opened in it, which gave `opened`. -/
structure Claimed (disk : Disk) (path : Path) (scratch : ScratchDir) (after : Disk)
    (root : Location) (made : FileTree) (marker : Nat) (opened : FileTree) : Prop where
  shares : disk.tree.Shares path root made
  opens : made.openMarker root = .ok (marker, opened)
  marked : (opened = made ∧ made.isMarked root = .ok true) ∨
    ∃ location, opened = made.add location (.file (.zeros 0)) ∧ made.place? location = none ∧
      (location = root ++ [ScratchDir.markerName] ∨
        disk.tree.Nowhere path ∧ FileTree.parent ∈ path.steps)
  clears : opened.Clears (marker :: disk.locked) root scratch after.tree
  locked : after.locked = scratch.lock :: disk.locked

/-- Claiming succeeds only in a directory that was missing, empty or marked, unless the path has a
`..` and led nowhere.  Then all of it goes but the marker and the private directories that are
found locked, one new private directory holds its locked lock file only, and outside at most
directories are new.  A claim that is refused for what is there changes nothing. -/
theorem claim_clears (sound : disk.tree.Sound) (path : Path) :
    (∀ scratch after, disk.claim path = (.ok scratch, after) →
      ∃ root made marker opened, disk.Claimed path scratch after root made marker opened) ∧
    (∀ error after, disk.claim path = (.error error, after) →
      (∃ shown, error = .notDirectory shown ∨ error = .foreignContents shown) → after = disk) := by
  constructor
  · intro scratch after claimed
    obtain ⟨root, made, marker, opened, cleared, n, shared, occupies⟩ := occupies_of_claim claimed
    have shares := FileTree.shares_of_ok sound shared
    exact ⟨root, made, marker, opened, shares, occupies.opens,
      FileTree.marked_of_shares sound shares occupies.opens,
      occupies.clears shares.grows.sound, congrArg Disk.locked occupies.made⟩
  · rintro error after refused ⟨shown, cause⟩
    unfold claim at refused
    split at refused
    · rename_i made shared
      cases refused
      rw [FileTree.shared_refused shared cause]
    · obtain ⟨code, rfl⟩ := io_of_occupy refused
      rcases cause with cause | cause
      · cases cause
      · cases cause

end

/-- A shared directory `/a` with a private directory whose lock is held, one whose lock is free,
and a link to the file `/b`. -/
def leftovers : Disk where
  tree := {
    places := [⟨[[97]], 1, .directory⟩, ⟨[[97], ScratchDir.markerName], 2, .file (.zeros 0)⟩,
      ⟨[[97], .ofString "mount-h"], 3, .directory⟩,
      ⟨[[97], .ofString "mount-h", ScratchDir.lockName], 4, .file (.zeros 0)⟩,
      ⟨[[97], .ofString "mount-f"], 5, .directory⟩,
      ⟨[[97], .ofString "mount-f", ScratchDir.lockName], 6, .file (.zeros 0)⟩,
      ⟨[[98]], 7, .file (.zeros 1)⟩, ⟨[[97], .ofString "mount-l"], 8, .link ⟨[47, 98]⟩⟩]
    next := 9 }
  locked := [4]

theorem sound_leftovers : leftovers.tree.Sound := by
  constructor <;> decide +kernel

theorem leftovers_cleared :
    leftovers.tree.Sound ∧
    ∃ scratch after root made marker opened,
      leftovers.claim ⟨[47, 97]⟩ = (.ok scratch, after) ∧
      leftovers.Claimed ⟨[47, 97]⟩ scratch after root made marker opened ∧
      after.tree.node? [[97], .ofString "mount-h"] = some .directory ∧
      after.tree.node? [[97], .ofString "mount-f"] = none ∧
      after.tree.node? [[97], .ofString "mount-l"] = none ∧
      after.tree.node? [[98]] = some (.file (.zeros 1)) := by
  have claimed : leftovers.claim ⟨[47, 97]⟩
      = (.ok ⟨[[97], Host.randomName ScratchDir.directoryMark 0], 10⟩,
        (leftovers.claim ⟨[47, 97]⟩).2) := Prod.ext (by cbv) rfl
  obtain ⟨root, made, marker, opened, outcome⟩ :=
    (claim_clears sound_leftovers ⟨[47, 97]⟩).1 _ _ claimed
  exact ⟨sound_leftovers, _, _, root, made, marker, opened, claimed, outcome,
    by cbv, by cbv, by cbv, by cbv⟩

/-- A directory `/a` with a file that is somebody else's. -/
def foreign : Disk where
  tree := {
    places := [⟨[[97]], 1, .directory⟩, ⟨[[97], [102]], 2, .file (.zeros 1)⟩]
    next := 3 }

/-- `/a/x/..` names `/a`, which has other contents and no marker, but is claimed all the same,
since `/a/x` was missing. -/
theorem foreign_contents_swept :
    foreign.tree.Sound ∧ foreign.tree.node? [[97]] = some .directory ∧
    foreign.tree.children [[97]] = [[102]] ∧ foreign.tree.isMarked [[97]] = .ok false ∧
    (foreign.claim ⟨[47, 97]⟩).1 = .error (.foreignContents ⟨[47, 97]⟩) ∧
    (foreign.claim ⟨[47, 97, 47, 120, 47, 46, 46]⟩).1
      = .ok ⟨[[97], Host.randomName ScratchDir.directoryMark 0], 6⟩ ∧
    (foreign.claim ⟨[47, 97, 47, 120, 47, 46, 46]⟩).2.tree.place? [[97], [102]] = none := by
  refine ⟨by constructor <;> decide, by decide, by decide, by cbv, by cbv, by cbv, by cbv⟩

end Disk

end SparseCache
