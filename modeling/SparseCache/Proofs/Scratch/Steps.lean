import SparseCache.Proofs.Scratch.Leftovers
import SparseCache.Scratch.Shared

namespace SparseCache

/-! Steps of the mounts on one disk.

What is on the disk stays where it is until some step takes it away, and what is new is
told from it by its identity.  Random names are drawn once, so no two of the private
directories and files that are held have one location.
-/

namespace FileTree

variable {tree after : FileTree} {location other : Location} {place : Place}

/-- Nothing in `after` is other than in `tree`, except what is missing and what is new. -/
structure Ages (tree after : FileTree) : Prop where
  sound : after.Sound
  next_le : tree.next ≤ after.next
  known : ∀ {location place}, after.place? location = some place →
    tree.place? location = some place ∨ tree.next ≤ place.id

theorem Extends.ages (extends' : tree.Extends after) : tree.Ages after where
  sound := extends'.sound
  next_le := extends'.next_le
  known {location place} found := by
    cases before : tree.place? location with
    | none => exact .inr (extends'.fresh before found)
    | some place' => exact .inl ((extends'.kept before).symm.trans found)

theorem Ages.trans {last : FileTree} (first : tree.Ages after) (second : after.Ages last) :
    tree.Ages last where
  sound := second.sound
  next_le := Nat.le_trans first.next_le second.next_le
  known found := by
    rcases second.known found with before | later
    · exact first.known before
    · exact .inr (Nat.le_trans first.next_le later)

theorem ages_remove (sound : tree.Sound) (inner : location ≠ []) :
    tree.Ages (tree.remove location) where
  sound := sound.remove
  next_le := Nat.le_refl _
  known {other place} found := by
    by_cases beneath : location <+: other
    · rw [ place?_remove_of_prefix inner beneath] at found
      cases found
    · rw [ place?_remove_of_not_prefix beneath] at found
      exact .inl found

theorem place?_remove_iff (inner : location ≠ [])
    (found : tree.place? other = some place) :
    (tree.remove location).place? other = some place ↔ ¬ location <+: other := by
  constructor
  · intro stays beneath
    rw [ place?_remove_of_prefix inner beneath] at stays
    cases stays
  · intro outside
    rw [ place?_remove_of_not_prefix outside, found]

theorem ages_sweep (sound : tree.Sound) (locked : List Nat) (root : Location) (names : List Bytes) :
    tree.Ages (tree.sweep locked root names).2 where
  sound := sound_sweep locked root names sound
  next_le := Nat.le_of_eq next_sweep.symm
  known {other place} found := by
    rw [place?_sweep] at found
    split at found
    · cases found
    · exact .inl found

end FileTree

namespace Disk

variable [Host] {disk after : Disk} {path : Path} {root location : Location} {name : Bytes}
  {place : Place}

/-- Claiming the directory at the end of `path`, which is `root`, sweeps `name` away in it. -/
def Sweeps (disk : Disk) (path : Path) (root : Location) (name : Bytes) : Prop :=
  ∃ made marker opened, disk.tree.shared path = (.ok root, made) ∧
    made.openMarker root = .ok (marker, opened) ∧
    name ∈ FileTree.swept (marker :: disk.locked) root (Host.listing opened root) opened

/-- A claim adds places and sweeps others. -/
inductive Claiming (disk : Disk) (path : Path) (after : Disk) : Prop
  | idle (extends' : disk.tree.Extends after.tree)
      (nothing : ∀ root name, ¬ disk.Sweeps path root name)
  | sweeping {root made marker opened} (shared : disk.tree.shared path = (.ok root, made))
      (opens : made.openMarker root = .ok (marker, opened)) (first : disk.tree.Extends opened)
      (last : (opened.sweep (marker :: disk.locked) root (Host.listing opened root)).2.Extends
        after.tree)

theorem claiming (sound : disk.tree.Sound) (path : Path) :
    disk.Claiming path (disk.claim path).2 := by
  have grows := FileTree.grows_shared sound path
  unfold claim
  split
  · rename_i error made shared
    rw [shared] at grows
    refine .idle grows.toExtends ?_
    rintro root name ⟨_, _, _, found, -⟩
    rw [shared] at found
    cases found
  · rename_i root made shared
    rw [shared] at grows
    cases opens : made.openMarker root with
    | error code =>
        refine .idle ?_ ?_
        · simpa only [occupy, opens] using grows.toExtends
        · rintro root' name ⟨made', marker, opened, found, opens', -⟩
          cases shared.symm.trans found
          cases opens.symm.trans opens'
    | ok result =>
        obtain ⟨marker, opened⟩ := result
        have first := FileTree.extends_openMarker grows.sound opens
        refine .sweeping shared opens (grows.toExtends.trans first) ?_
        generalize outcome : occupy { disk with tree := made } root = result
        obtain ⟨granted, after⟩ := result
        cases granted with
        | error error =>
            simp only [occupy, opens] at outcome
            split at outcome
            · rename_i swept fails
              cases outcome
              rw [fails]
              have sound' := FileTree.sound_sweep (marker :: disk.locked) root
                (Host.listing opened root) first.sound
              rw [fails] at sound'
              exact .refl sound'
            · cases outcome
        | ok scratch =>
            obtain ⟨marker', opened', cleared, n, occupies⟩ := occupies_of_ok outcome
            cases opens.symm.trans occupies.opens
            have last := occupies.extends_after grows.sound
            rwa [occupies.cleared_eq] at last

/-- What was there before a claim is there after it, unless it is swept or lies in what is. -/
theorem place?_claim_iff (sound : disk.tree.Sound)
    (found : disk.tree.place? location = some place) :
    (disk.claim path).2.tree.place? location = some place ↔
      ¬ ∃ root name, disk.Sweeps path root name ∧ root ++ [name] <+: location := by
  cases claiming sound path with
  | idle extends' nothing =>
      exact iff_of_true (extends'.kept found) fun ⟨root, name, sweeps, _⟩ =>
        nothing root name sweeps
  | @sweeping root made marker opened shared opens first last =>
      have unique : (∃ root name, disk.Sweeps path root name ∧ root ++ [name] <+: location) ↔
          ∃ name ∈ FileTree.swept (marker :: disk.locked) root (Host.listing opened root) opened,
            root ++ [name] <+: location := by
        constructor
        · rintro ⟨root', name, ⟨made', marker', opened', found', opens', takes⟩, beneath⟩
          cases shared.symm.trans found'
          cases opens.symm.trans opens'
          exact ⟨name, takes, beneath⟩
        · rintro ⟨name, takes, beneath⟩
          exact ⟨root, name, ⟨made, marker, opened, shared, opens, takes⟩, beneath⟩
      rw [unique]
      have swept := FileTree.place?_sweep (marker :: disk.locked) root (Host.listing opened root) opened
        location
      constructor
      · intro stays takes
        rw [if_pos takes] at swept
        -- What takes the place of something swept is another thing.
        have later := last.fresh swept stays
        have old := sound.id_lt found
        have next := first.next_le
        rw [FileTree.next_sweep] at later
        omega
      · intro stays
        rw [if_neg stays] at swept
        exact last.kept (swept.trans (first.kept found))

/-! ### Files in private directories -/

theorem locked_of_refused {error : ScratchError}
    (claims : disk.claim path = (.error error, after)) :
    after.locked = disk.locked ∧ after.drawn = disk.drawn := by
  unfold claim at claims
  split at claims
  · cases claims
    exact ⟨rfl, rfl⟩
  · unfold occupy at claims
    split at claims
    · cases claims
      exact ⟨rfl, rfl⟩
    · split at claims
      · cases claims
        exact ⟨rfl, rfl⟩
      · cases claims

/-- How a file came to be in the private directory `scratch`: the path of that led to `directory`,
and the `n`th random name was drawn there. -/
structure Makes (disk : Disk) (scratch : ScratchDir) (mark : Bytes) (size : Nat)
    (file : ScratchFile) (after : Disk) (directory : Location) (n : Nat) : Prop where
  leads : disk.tree.Leads [] scratch.directory directory
  there : disk.tree.node? directory = some .directory
  drawn : disk.drawn ≤ n
  free : Host.randomName mark n ∉ disk.tree.children directory
  granted : file = ⟨directory ++ [Host.randomName mark n], size⟩
  made : after = { disk with
    tree := disk.tree.add file.location (.file (.zeros size))
    drawn := n + 1 }

theorem makes_of_ok {scratch : ScratchDir} {mark : Bytes} {size : Nat} {file : ScratchFile}
    (makes : disk.makeFile scratch mark size = (.ok file, after)) :
    ∃ directory n, disk.Makes scratch mark size file after directory n := by
  unfold makeFile at makes
  split at makes
  · cases makes
  · rename_i directory reached
    split at makes
    · cases makes
    · rename_i within
      split at makes
      · obtain ⟨n, drawn, free, draws⟩ := draw_eq disk mark directory
        rw [draws] at makes
        cases makes
        exact ⟨directory, n, FileTree.leads_of_landing reached, Decidable.not_not.mp within, drawn,
          free, rfl, rfl⟩
      · cases makes

theorem unmade_of_error {scratch : ScratchDir} {mark : Bytes} {size : Nat} {error : IoError}
    (fails : disk.makeFile scratch mark size = (.error error, after)) : after = disk := by
  unfold makeFile at fails
  split at fails
  · cases fails
    rfl
  · split at fails
    · cases fails
      rfl
    · split at fails
      · cases fails
      · cases fails
        rfl

namespace Makes

variable {scratch : ScratchDir} {mark : Bytes} {size n : Nat} {file : ScratchFile}
  {directory : Location} (makes : disk.Makes scratch mark size file after directory n)
  (sound : disk.tree.Sound)
include makes sound

theorem free_location : disk.tree.place? file.location = none := by
  rw [makes.granted]
  exact Option.not_isSome_iff_eq_none.mp (sound.mem_children_iff.not.mp makes.free)

theorem extends_after (among : ScratchDir.FileMark mark) : disk.tree.Extends after.tree := by
  have free := makes.free_location sound
  rw [makes.made]
  refine .add sound free ?_ fun name last => ?_
  · rw [makes.granted, List.dropLast_concat]
    exact makes.there
  · rw [makes.granted, List.getLast?_concat] at last
    cases last
    exact ScratchDir.plain_of_head (ScratchDir.head_fileName among n).1

theorem file_after : after.tree.place? file.location
    = some ⟨file.location, disk.tree.next, .file (.zeros file.size)⟩ := by
  have free := makes.free_location sound
  rw [makes.made, makes.granted] at *
  exact FileTree.place?_add_self free

/-- As long as a private directory is in place, the path to it leads there. -/
theorem directory_eq (there : disk.tree.node? scratch.directory = some .directory) :
    directory = scratch.directory := by
  have present := FileTree.isSome_of_node? there
  refine makes.leads.straight (fun other above proper => ?_) (fun target link => ?_)
    (fun name among => ?_)
  · exact sound.directory_above present above proper
  · rw [List.nil_append, there] at link
    cases link
  · obtain ⟨place, found⟩ := Option.isSome_iff_exists.mp present
    obtain ⟨member, lies⟩ := FileTree.mem_of_place? found (List.ne_nil_of_mem among)
    exact sound.named place member name (lies ▸ among)

end Makes

end Disk

namespace SharedDisk

variable {shared : SharedDisk} {step : ScratchStep} {scratch other : ScratchDir}
  {file : ScratchFile} {k n : Nat} {location : Location} {place : Place} {name : Bytes}

/-! ### Lookups -/

theorem claim?_append (scratch : ScratchDir) (disk : Disk) (k : Nat) :
    claim? { shared with disk, claims := shared.claims ++ [some scratch] } k
      = if k = shared.claims.length then some scratch else shared.claim? k := by
  simp only [claim?]
  grind

theorem claim?_release (disk : Disk) (n k : Nat) :
    claim? { shared with disk, claims := shared.claims.set n none } k
      = if k = n then none else shared.claim? k := by
  simp only [claim?]
  grind

theorem file?_append (file : ScratchFile) (disk : Disk) (i : Nat) :
    file? { shared with disk, files := shared.files ++ [some file] } i
      = if i = shared.files.length then some file else shared.file? i := by
  simp only [file?]
  grind

theorem file?_discard (disk : Disk) (n i : Nat) :
    file? { shared with disk, files := shared.files.set n none } i
      = if i = n then none else shared.file? i := by
  simp only [file?]
  grind

/-! ### Steps -/

/-- Asks the mount with claim `k` for a file. -/
inductive AsksFile (k : Nat) : ScratchStep → Bytes → Nat → Prop
  | sparse (size : Nat) : AsksFile k (.createSparse k size) ScratchDir.entryMark size
  | snapshot : AsksFile k (.createSnapshot k) ScratchDir.uploadMark 0

theorem AsksFile.fileMark {mark : Bytes} {size : Nat} (asks : AsksFile k step mark size) :
    ScratchDir.FileMark mark := by
  cases asks with
  | sparse => exact .inl rfl
  | snapshot => exact .inr rfl

section

variable [Host]

/-- The disk is sound, and no two of the private directories and files that are held have one
location or one lock. -/
structure Sound (shared : SharedDisk) : Prop where
  tree : shared.disk.tree.Sound
  locked : ∀ id ∈ shared.disk.locked, id < shared.disk.tree.next
  claimed : ∀ {k scratch}, shared.claim? k = some scratch →
    scratch.lock < shared.disk.tree.next ∧ ∃ root n, n < shared.disk.drawn ∧
      scratch.directory = root ++ [Host.randomName ScratchDir.directoryMark n]
  claimsApart : ∀ {k l scratch other}, shared.claim? k = some scratch →
    shared.claim? l = some other → k ≠ l →
      scratch.directory ≠ other.directory ∧ scratch.lock ≠ other.lock
  made : ∀ {i file}, shared.file? i = some file → ∃ directory mark n, ScratchDir.FileMark mark ∧
    n < shared.disk.drawn ∧ file.location = directory ++ [Host.randomName mark n]
  filesApart : ∀ {i j file other}, shared.file? i = some file → shared.file? j = some other →
    i ≠ j → file.location ≠ other.location

/-- Whether a step takes away what is at a location. -/
inductive Removes (shared : SharedDisk) (location : Location) : ScratchStep → Prop
  | sweep {path : Path} {root : Location} {name : Bytes}
      (sweeps : shared.disk.Sweeps path root name)
      (beneath : root ++ [name] <+: location) : Removes shared location (.claim path)
  | release {k : Nat} {scratch : ScratchDir} (held : shared.claim? k = some scratch)
      (beneath : scratch.directory <+: location) : Removes shared location (.release k)
  | discard {i : Nat} {file : ScratchFile} (held : shared.file? i = some file)
      (solid : shared.disk.tree.node? file.location ≠ some .directory)
      (beneath : file.location <+: location) : Removes shared location (.discard i)

/-- All that a step can do. -/
inductive Steps (shared : SharedDisk) : ScratchStep → SharedDisk → Prop
  | idle {step : ScratchStep} (nothing : ∀ location, ¬ shared.Removes location step) :
      Steps shared step shared
  | refused {path : Path} {disk : Disk} {error : ScratchError}
      (claims : shared.disk.claim path = (.error error, disk)) :
      Steps shared (.claim path) { shared with disk }
  | claimed {path : Path} {disk : Disk} {scratch : ScratchDir}
      (claims : shared.disk.claim path = (.ok scratch, disk)) :
      Steps shared (.claim path) { shared with disk, claims := shared.claims ++ [some scratch] }
  | released {k : Nat} {scratch : ScratchDir} (held : shared.claim? k = some scratch) :
      Steps shared (.release k)
        { shared with disk := shared.disk.release scratch, claims := shared.claims.set k none }
  | made {step : ScratchStep} {k size n : Nat} {scratch : ScratchDir} {mark : Bytes} {disk : Disk}
      {file : ScratchFile} {directory : Location} (held : shared.claim? k = some scratch)
      (asks : AsksFile k step mark size)
      (makes : shared.disk.Makes scratch mark size file disk directory n) :
      Steps shared step { shared with disk, files := shared.files ++ [some file] }
  | discarded {i : Nat} {file : ScratchFile} (held : shared.file? i = some file) :
      Steps shared (.discard i)
        { shared with disk := shared.disk.discard file, files := shared.files.set i none }

theorem steps_of_makeFile {mark : Bytes} {size : Nat} (held : shared.claim? k = some scratch)
    (asks : AsksFile k step mark size) :
    shared.Steps step (shared.recordFile (shared.disk.makeFile scratch mark size)).2 := by
  generalize outcome : shared.disk.makeFile scratch mark size = result
  obtain ⟨granted, disk⟩ := result
  cases granted with
  | ok file =>
      obtain ⟨directory, n, makes⟩ := Disk.makes_of_ok outcome
      exact .made held asks makes
  | error error =>
      obtain rfl := Disk.unmade_of_error outcome
      refine .idle fun location removes => ?_
      cases removes <;> cases asks

theorem steps (shared : SharedDisk) (step : ScratchStep) :
    shared.Steps step (shared.step step).2 := by
  cases step with
  | claim path =>
      change shared.Steps _ (shared.record (shared.disk.claim path)).2
      generalize outcome : shared.disk.claim path = result
      obtain ⟨granted, disk⟩ := result
      cases granted with
      | ok scratch => exact .claimed outcome
      | error error => exact .refused outcome
  | release k =>
      simp only [SharedDisk.step]
      split
      · rename_i free
        refine .idle fun location removes => ?_
        cases removes with
        | release held => simp [claim?, free] at held
      · rename_i free
        refine .idle fun location removes => ?_
        cases removes with
        | release held => simp [claim?, free] at held
      · rename_i scratch held
        exact .released (by simp [claim?, held])
  | createSparse k size =>
      simp only [SharedDisk.step]
      split
      · exact .idle fun location removes => by cases removes
      · exact steps_of_makeFile ‹_› (.sparse size)
  | createSnapshot k =>
      simp only [SharedDisk.step]
      split
      · exact .idle fun location removes => by cases removes
      · exact steps_of_makeFile ‹_› .snapshot
  | discard i =>
      simp only [SharedDisk.step]
      split
      · rename_i free
        refine .idle fun location removes => ?_
        cases removes with
        | discard held => cases free.symm.trans held
      · exact .discarded ‹_›

theorem inner_of_claim (sound : shared.Sound) (held : shared.claim? k = some scratch) :
    scratch.directory ≠ [] := by
  obtain ⟨-, root, n, -, same⟩ := sound.claimed held
  simp [same]

theorem inner_of_file (sound : shared.Sound) (held : shared.file? k = some file) :
    file.location ≠ [] := by
  obtain ⟨directory, mark, n, -, -, same⟩ := sound.made held
  simp [same]

theorem ages_step (sound : shared.Sound) (step : ScratchStep) :
    shared.disk.tree.Ages (shared.step step).2.disk.tree := by
  have moves := steps shared step
  generalize (shared.step step).2 = after at moves
  have claims (path : Path) : shared.disk.tree.Ages (shared.disk.claim path).2.tree := by
    cases Disk.claiming sound.tree path with
    | idle extends' nothing => exact extends'.ages
    | sweeping shared opens first last =>
        exact first.ages.trans ((FileTree.ages_sweep first.sound _ _ _).trans last.ages)
  cases moves with
  | idle nothing => exact (FileTree.Extends.refl sound.tree).ages
  | @refused path disk error outcome | @claimed path disk scratch outcome =>
      have ages := claims path
      rwa [outcome] at ages
  | released held => exact FileTree.ages_remove sound.tree (inner_of_claim sound held)
  | made held asks makes => exact (makes.extends_after sound.tree asks.fileMark).ages
  | discarded held =>
      unfold Disk.discard
      split
      · exact (FileTree.Extends.refl sound.tree).ages
      · exact FileTree.ages_remove sound.tree (inner_of_file sound held)

/-- What was there before a step is there after it, unless the step takes it away. -/
theorem place?_step_iff (sound : shared.Sound)
    (found : shared.disk.tree.place? location = some place) :
    (shared.step step).2.disk.tree.place? location = some place ↔
      ¬ shared.Removes location step := by
  have moves := steps shared step
  generalize (shared.step step).2 = after at moves
  have claims (path : Path) : (shared.disk.claim path).2.tree.place? location = some place ↔
      ¬ shared.Removes location (.claim path) := by
    rw [Disk.place?_claim_iff sound.tree found, not_iff_not]
    constructor
    · rintro ⟨root, name, sweeps, beneath⟩
      exact .sweep sweeps beneath
    · rintro (⟨sweeps, beneath⟩ | _ | _)
      exact ⟨_, _, sweeps, beneath⟩
  cases moves with
  | idle nothing => exact iff_of_true found (nothing location)
  | @refused path disk error outcome | @claimed path disk scratch outcome =>
      rw [← claims path, outcome]
  | @released k scratch held =>
      have own : shared.Removes location (.release k) ↔ scratch.directory <+: location := by
        constructor
        · rintro (_ | ⟨held', beneath⟩ | _)
          cases held.symm.trans held'
          exact beneath
        · exact .release held
      rw [own]
      exact FileTree.place?_remove_iff (inner_of_claim sound held) found
  | made held asks makes =>
      refine iff_of_true ((makes.extends_after sound.tree asks.fileMark).kept found) ?_
      intro removes
      cases removes <;> cases asks
  | @discarded i file held =>
      have own : shared.Removes location (.discard i) ↔
          shared.disk.tree.node? file.location ≠ some .directory ∧ file.location <+: location := by
        constructor
        · rintro (_ | _ | ⟨held', solid, beneath⟩)
          cases held.symm.trans held'
          exact ⟨solid, beneath⟩
        · exact fun ⟨solid, beneath⟩ => .discard held solid beneath
      rw [own]
      unfold Disk.discard
      split
      · rename_i directory
        exact iff_of_true found fun removed => removed.1 directory
      · rename_i solid
        rw [and_iff_right solid]
        exact FileTree.place?_remove_iff (inner_of_file sound held) found

/-- Fewer things held on an older disk are sound. -/
theorem Sound.fewer {after : SharedDisk} (sound : shared.Sound)
    (ages : shared.disk.tree.Ages after.disk.tree)
    (locked : ∀ id ∈ after.disk.locked, id ∈ shared.disk.locked)
    (drawn : shared.disk.drawn ≤ after.disk.drawn)
    (claims : ∀ {k scratch}, after.claim? k = some scratch → shared.claim? k = some scratch)
    (files : ∀ {i file}, after.file? i = some file → shared.file? i = some file) :
    after.Sound where
  tree := ages.sound
  locked id among := Nat.lt_of_lt_of_le (sound.locked id (locked id among)) ages.next_le
  claimed known := by
    obtain ⟨lock, root, n, before, lies⟩ := sound.claimed (claims known)
    exact ⟨Nat.lt_of_lt_of_le lock ages.next_le, root, n, Nat.lt_of_lt_of_le before drawn, lies⟩
  claimsApart first second := sound.claimsApart (claims first) (claims second)
  made known := by
    obtain ⟨directory, mark, n, among, before, lies⟩ := sound.made (files known)
    exact ⟨directory, mark, n, among, Nat.lt_of_lt_of_le before drawn, lies⟩
  filesApart first second := sound.filesApart (files first) (files second)

theorem sound_claimed {path : Path} {disk : Disk} (sound : shared.Sound)
    (claims : shared.disk.claim path = (.ok scratch, disk))
    (ages : shared.disk.tree.Ages disk.tree) :
    Sound { shared with disk, claims := shared.claims ++ [some scratch] } := by
  obtain ⟨root, made, marker, opened, cleared, n, found, occupies⟩ := Disk.occupies_of_claim claims
  have grows := FileTree.grows_shared sound.tree path
  rw [found] at grows
  have sound' := grows.sound
  have held := ages.sound.id_lt (occupies.lock_after sound')
  have later : shared.disk.tree.next ≤ scratch.lock := by
    have first : shared.disk.tree.next ≤ made.next := grows.next_le
    have second : made.next ≤ opened.next := (occupies.extends_opened sound').next_le
    have third : cleared.next = opened.next := by rw [occupies.cleared_eq, FileTree.next_sweep]
    have own : scratch.lock = cleared.next + 1 := congrArg ScratchDir.lock occupies.granted
    omega
  have drawn : shared.disk.drawn ≤ n := occupies.drawn
  have drew : disk.drawn = n + 1 := congrArg Disk.drawn occupies.made
  -- The random number and the lock are later than those of all others.
  have apart {l other} (known : shared.claim? l = some other) :
      scratch.directory ≠ other.directory ∧ scratch.lock ≠ other.lock := by
    obtain ⟨lock, root', m, before, lies⟩ := sound.claimed known
    refine ⟨?_, by omega⟩
    rw [occupies.directory_eq, lies]
    exact ScratchDir.apart_of_drawn (by omega)
  constructor
  case tree => exact ages.sound
  case locked =>
    intro id among
    have among : id ∈ scratch.lock :: shared.disk.locked := by
      have locks : disk.locked = scratch.lock :: shared.disk.locked :=
        congrArg Disk.locked occupies.made
      rwa [← locks]
    rcases List.mem_cons.mp among with rfl | among
    · exact held
    · exact Nat.lt_of_lt_of_le (sound.locked id among) ages.next_le
  case claimed =>
    intro k own known
    rw [claim?_append] at known
    split at known
    · cases known
      exact ⟨held, root, n, drew ▸ Nat.lt_succ_self n, occupies.directory_eq⟩
    · obtain ⟨lock, root', m, before, lies⟩ := sound.claimed known
      exact ⟨Nat.lt_of_lt_of_le lock ages.next_le, root', m, by show m < disk.drawn; omega, lies⟩
  case claimsApart =>
    intro k l one two first second different
    rw [claim?_append] at first second
    split at first
    · split at second
      · omega
      · cases first
        exact apart second
    · split at second
      · cases second
        exact (apart first).imp Ne.symm Ne.symm
      · exact sound.claimsApart first second different
  case made =>
    intro i file known
    obtain ⟨directory, mark, m, among, before, lies⟩ := sound.made known
    exact ⟨directory, mark, m, among, by show m < disk.drawn; omega, lies⟩
  case filesApart => exact sound.filesApart

theorem sound_made {mark : Bytes} {size : Nat} {disk : Disk} {directory : Location}
    (sound : shared.Sound) (makes : shared.disk.Makes scratch mark size file disk directory n)
    (among : ScratchDir.FileMark mark) :
    Sound { shared with disk, files := shared.files ++ [some file] } := by
  have drawn : shared.disk.drawn ≤ n := makes.drawn
  have drew : disk.drawn = n + 1 := congrArg Disk.drawn makes.made
  have lies : file.location = directory ++ [Host.randomName mark n] :=
    congrArg ScratchFile.location makes.granted
  have locks : disk.locked = shared.disk.locked := by rw [makes.made]
  have disk_sound : Sound { shared with disk } :=
    sound.fewer (makes.extends_after sound.tree among).ages (fun _ held => locks ▸ held)
      (show shared.disk.drawn ≤ disk.drawn by omega) id id
  have apart {i other} (known : shared.file? i = some other) : file.location ≠ other.location := by
    obtain ⟨directory', mark', m, among', before, lies'⟩ := sound.made known
    rw [lies, lies']
    exact ScratchDir.apart_of_fileMark among among' (by omega)
  constructor
  case tree => exact disk_sound.tree
  case locked => exact disk_sound.locked
  case claimed => exact disk_sound.claimed
  case claimsApart => exact disk_sound.claimsApart
  case made =>
    intro i own known
    rw [file?_append] at known
    split at known
    · cases known
      exact ⟨directory, mark, n, among, drew ▸ Nat.lt_succ_self n, lies⟩
    · exact disk_sound.made known
  case filesApart =>
    intro i j one two first second different
    rw [file?_append] at first second
    split at first
    · split at second
      · omega
      · cases first
        exact apart second
    · split at second
      · cases second
        exact (apart first).symm
      · exact sound.filesApart first second different

theorem sound_step (sound : shared.Sound) (step : ScratchStep) : (shared.step step).2.Sound := by
  have ages := ages_step sound step
  have moves := steps shared step
  generalize (shared.step step).2 = after at ages moves
  cases moves with
  | idle nothing => exact sound
  | @refused path disk error claims =>
      obtain ⟨locked, drawn⟩ := Disk.locked_of_refused claims
      exact sound.fewer ages (fun id among => locked ▸ among) (Nat.le_of_eq drawn.symm) id id
  | claimed claims => exact sound_claimed sound claims ages
  | @released k scratch held =>
      refine sound.fewer ages (fun id among => List.mem_of_mem_erase among) (Nat.le_refl _) ?_ id
      intro l other known
      rw [claim?_release] at known
      split at known
      · cases known
      · exact known
  | made held asks makes => exact sound_made sound makes asks.fileMark
  | @discarded i file held =>
      have kept : (shared.disk.discard file).locked = shared.disk.locked ∧
          (shared.disk.discard file).drawn = shared.disk.drawn := by
        unfold Disk.discard
        split <;> exact ⟨rfl, rfl⟩
      refine sound.fewer ages (fun id among => kept.1 ▸ among) (Nat.le_of_eq kept.2.symm) id ?_
      intro j other known
      rw [file?_discard] at known
      split at known
      · cases known
      · exact known

end

end SharedDisk

end SparseCache
