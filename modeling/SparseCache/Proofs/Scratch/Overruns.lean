import SparseCache.Proofs.Scratch.Steps

namespace SparseCache

/-! What can happen to a private directory while its mount lives.

No claim of the same shared directory touches it, however often and by whatever path that
is claimed.  What does is a claim further out that sweeps a directory on the way to it, a
claim of the private directory itself, and the end of a mount around it.
-/

namespace SharedDisk

variable {shared : SharedDisk} {step : ScratchStep} {scratch other : ScratchDir}
  {file : ScratchFile} {k n : Nat} {location : Location} {place : Place} {name : Bytes}

/-- A private directory in place, with its lock file, locked. -/
structure Intact (shared : SharedDisk) (scratch : ScratchDir) : Prop where
  directory : shared.disk.tree.node? scratch.directory = some .directory
  lock : shared.disk.tree.place? (scratch.directory ++ [ScratchDir.lockName])
    = some ⟨scratch.directory ++ [ScratchDir.lockName], scratch.lock, .file (.zeros 0)⟩
  locked : scratch.lock ∈ shared.disk.locked

section

variable [Host]

/-! ### Runs -/

/-- Some step of a run is of a kind. -/
def Ever (kind : SharedDisk → ScratchStep → Prop) (shared : SharedDisk) : List ScratchStep → Prop
  | [] => False
  | step :: later => kind shared step ∨ Ever kind (shared.step step).2 later

theorem run_cons (step : ScratchStep) (later : List ScratchStep) :
    shared.run (step :: later) = (shared.step step).2.run later := rfl

theorem run_append (before later : List ScratchStep) :
    shared.run (before ++ later) = (shared.run before).run later :=
  List.foldl_append

theorem ever_append {kind : SharedDisk → ScratchStep → Prop} {before later : List ScratchStep} :
    Ever kind shared (before ++ later) ↔
      Ever kind shared before ∨ Ever kind (shared.run before) later := by
  induction before generalizing shared with
  | nil => exact (or_iff_right id).symm
  | cons step before ih =>
      rw [List.cons_append, Ever, Ever, ih, or_assoc]
      rfl

theorem sound_run (sound : shared.Sound) (steps : List ScratchStep) : (shared.run steps).Sound := by
  induction steps generalizing shared with
  | nil => exact sound
  | cons step later ih => exact ih (sound_step sound step)

/-- What is gone does not come back.  At most something else takes its place. -/
theorem gone_run (sound : shared.Sound) (gone : shared.disk.tree.place? location ≠ some place)
    (old : place.id < shared.disk.tree.next) (steps : List ScratchStep) :
    (shared.run steps).disk.tree.place? location ≠ some place := by
  induction steps generalizing shared with
  | nil => exact gone
  | cons step later ih =>
      have ages := ages_step sound step
      refine ih (sound_step sound step) (fun back => ?_) (Nat.lt_of_lt_of_le old ages.next_le)
      rcases ages.known back with before | later
      · exact gone before
      · omega

/-! ### What overruns a mount -/

/-- What a step does to the thing called `name` in the private directory `scratch`, or to all of
that directory. -/
inductive Overruns (scratch : ScratchDir) (name : Bytes) (shared : SharedDisk) : ScratchStep → Prop
  /-- A claim further out sweeps the shared directory, or one around it. -/
  | above {path : Path} {root : Location} {child : Bytes}
      (sweeps : shared.disk.Sweeps path root child)
      (around : root ++ [child] <+: scratch.directory.dropLast) :
      Overruns scratch name shared (.claim path)
  /-- A claim takes the private directory itself for a shared one. -/
  | inside {path : Path} (sweeps : shared.disk.Sweeps path scratch.directory name) :
      Overruns scratch name shared (.claim path)
  /-- A mount ends in whose private directory the shared one lies. -/
  | around {l : Nat} {other : ScratchDir} (held : shared.claim? l = some other)
      (around : other.directory <+: scratch.directory.dropLast) :
      Overruns scratch name shared (.release l)

/-- The sweep of the shared directory passes over what is locked. -/
theorem not_sweeps (sound : shared.Sound) (held : shared.claim? k = some scratch)
    (intact : shared.Intact scratch) {path : Path} {root : Location}
    (sweeps : shared.disk.Sweeps path root name) : root ++ [name] ≠ scratch.directory := by
  intro same
  obtain ⟨made, marker, opened, found, opens, takes⟩ := sweeps
  have grows := FileTree.grows_shared sound.tree path
  rw [found] at grows
  have extends' := grows.toExtends.trans (FileTree.extends_openMarker grows.sound opens)
  have mark : ScratchDir.directoryMark <+: name ∧ name ≠ ScratchDir.markerName := by
    obtain ⟨-, root', n, -, lies⟩ := sound.claimed held
    obtain ⟨-, last⟩ := List.append_inj' (same.trans lies) rfl
    obtain rfl := List.singleton_inj.mp last
    exact ⟨Host.marked _ n, (ScratchDir.markerName_ne_randomName n).symm⟩
  obtain ⟨before, later, whole, gone⟩ := FileTree.turn_of_mem_swept takes
  have once : (Host.listing opened root).Nodup :=
    (Host.listed opened root).nodup_iff.mpr extends'.sound.nodup_children
  rw [whole] at once
  have absent : name ∉ before := fun among =>
    (List.nodup_append.mp once).2.2 name among name (.head _) rfl
  generalize Host.listing opened root = names at whole
  -- When its turn comes, the private directory is as it was, and so is its lock.
  have untouched {there : Location} (beneath : root ++ [name] <+: there) :
      (opened.sweep (marker :: shared.disk.locked) root before).2.place? there
        = opened.place? there := FileTree.place?_sweep_of_not_mem absent beneath
  have directory : (opened.sweep (marker :: shared.disk.locked) root before).2.node?
      (root ++ [name]) = some .directory := by
    rw [FileTree.node?, untouched (List.prefix_refl _), ← FileTree.node?]
    exact extends'.node? (same ▸ intact.directory)
  have lock := (untouched (List.prefix_append _ [ScratchDir.lockName])).trans
    (extends'.kept (same ▸ intact.lock))
  have stays := FileTree.isHeld_of_solid (marker :: shared.disk.locked) directory lock (by simp)
  unfold FileTree.stays at gone
  rw [if_neg mark.2, if_pos ⟨directory, List.isPrefixOf_iff_prefix.mpr mark.1⟩, stays] at gone
  simp [intact.locked] at gone

theorem removes_iff (sound : shared.Sound) (held : shared.claim? k = some scratch)
    (intact : shared.Intact scratch) (plain : name.head? ≠ some 109)
    (unreleased : step ≠ .release k)
    (kept : ∀ i file, step = .discard i → shared.file? i = some file →
      file.location ≠ scratch.directory ++ [name]) :
    shared.Removes (scratch.directory ++ [name]) step ↔ Overruns scratch name shared step := by
  obtain ⟨-, root, n, -, lies⟩ := sound.claimed held
  have shorter {there : Location} (beneath : there <+: scratch.directory)
      (proper : there ≠ scratch.directory) : there <+: scratch.directory.dropLast := by
    rw [lies] at beneath proper ⊢
    rw [List.dropLast_concat]
    exact (List.prefix_concat_iff.mp beneath).resolve_left proper
  have longer {there : Location} (around : there <+: scratch.directory.dropLast) :
      there <+: scratch.directory ++ [name] :=
    around.trans ((List.dropLast_prefix _).trans (List.prefix_append _ _))
  constructor
  · intro removes
    cases removes with
    | @sweep path swept child sweeps beneath =>
        rcases List.prefix_concat_iff.mp beneath with same | beneath
        · obtain ⟨rfl, last⟩ := List.append_inj' same rfl
          obtain rfl := List.singleton_inj.mp last
          exact .inside sweeps
        · exact .above sweeps (shorter beneath (not_sweeps sound held intact sweeps))
    | @release l other known beneath =>
        rcases List.prefix_concat_iff.mp beneath with same | beneath
        · obtain ⟨-, root', m, -, lies'⟩ := sound.claimed known
          refine absurd (lies'.symm.trans same) (ScratchDir.apart_of_head ?_)
          rw [ScratchDir.head_directoryName]
          exact plain.symm
        · refine .around known (shorter beneath ?_)
          refine (sound.claimsApart known held ?_).1
          rintro rfl
          exact unreleased rfl
    | @discard i file known solid beneath =>
        rcases List.prefix_concat_iff.mp beneath with same | beneath
        · exact absurd same (kept i file rfl known)
        · refine absurd ?_ solid
          by_cases own : file.location = scratch.directory
          · rw [own]
            exact intact.directory
          · exact sound.tree.directory_above (FileTree.isSome_of_node? intact.directory) beneath own
  · intro overruns
    cases overruns with
    | above sweeps around => exact .sweep sweeps (longer around)
    | inside sweeps => exact .sweep sweeps (List.prefix_refl _)
    | around known around => exact .release known (longer around)

/-! ### While a mount lives -/

theorem claim?_step (held : shared.claim? k = some scratch) (unreleased : step ≠ .release k) :
    (shared.step step).2.claim? k = some scratch := by
  have moves := steps shared step
  generalize (shared.step step).2 = after at moves
  cases moves with
  | idle | refused | made | discarded => exact held
  | claimed claims =>
      rw [claim?_append, if_neg, held]
      rintro rfl
      simp [claim?] at held
  | released other =>
      rw [claim?_release, if_neg, held]
      rintro rfl
      exact unreleased rfl

theorem claim?_run (held : shared.claim? k = some scratch) {later : List ScratchStep}
    (unreleased : .release k ∉ later) : (shared.run later).claim? k = some scratch := by
  induction later generalizing shared with
  | nil => exact held
  | cons step later ih =>
      obtain ⟨here, unreleased⟩ := not_or.mp (List.mem_cons.not.mp unreleased)
      exact ih (claim?_step held (Ne.symm here)) unreleased

theorem file?_step {i : Nat} (held : shared.file? i = some file) (kept : step ≠ .discard i) :
    (shared.step step).2.file? i = some file := by
  have moves := steps shared step
  generalize (shared.step step).2 = after at moves
  cases moves with
  | idle | refused | claimed | released => exact held
  | made other asks makes =>
      rw [file?_append, if_neg, held]
      rintro rfl
      simp [file?] at held
  | discarded other =>
      rw [file?_discard, if_neg, held]
      rintro rfl
      exact kept rfl

theorem locked_step (sound : shared.Sound) (held : shared.claim? k = some scratch)
    (unreleased : step ≠ .release k) (locked : scratch.lock ∈ shared.disk.locked) :
    scratch.lock ∈ (shared.step step).2.disk.locked := by
  have moves := steps shared step
  generalize (shared.step step).2 = after at moves
  cases moves with
  | idle => exact locked
  | refused claims =>
      rw [(Disk.locked_of_refused claims).1]
      exact locked
  | claimed claims =>
      obtain ⟨_, _, _, _, _, _, _, occupies⟩ := Disk.occupies_of_claim claims
      rw [occupies.made]
      exact .tail _ locked
  | @released l other known =>
      refine (List.mem_erase_of_ne ?_).mpr locked
      refine (sound.claimsApart held known ?_).2
      rintro rfl
      exact unreleased rfl
  | made other asks makes =>
      rw [makes.made]
      exact locked
  | discarded other =>
      unfold Disk.discard
      split <;> exact locked

theorem not_file_of_claim {i : Nat} (sound : shared.Sound) (known : shared.file? i = some file) :
    file.location ≠ scratch.directory ++ [ScratchDir.lockName] := by
  obtain ⟨directory, mark, n, among, -, lies⟩ := sound.made known
  rw [lies]
  refine ScratchDir.apart_of_head ?_
  rw [ScratchDir.head_lockName]
  exact (ScratchDir.head_fileName among n).1

theorem lock_step_iff (sound : shared.Sound) (held : shared.claim? k = some scratch)
    (intact : shared.Intact scratch) (unreleased : step ≠ .release k) :
    (shared.step step).2.disk.tree.place? (scratch.directory ++ [ScratchDir.lockName])
        = some ⟨scratch.directory ++ [ScratchDir.lockName], scratch.lock, .file (.zeros 0)⟩ ↔
      ¬ Overruns scratch ScratchDir.lockName shared step := by
  rw [place?_step_iff sound intact.lock, removes_iff sound held intact ?_ unreleased ?_]
  · rw [ScratchDir.head_lockName]
    decide
  · exact fun i file _ known => not_file_of_claim sound known

theorem intact_step (sound : shared.Sound) (held : shared.claim? k = some scratch)
    (intact : shared.Intact scratch) (unreleased : step ≠ .release k)
    (spared : ¬ Overruns scratch ScratchDir.lockName shared step) :
    (shared.step step).2.Intact scratch := by
  have lock := (lock_step_iff sound held intact unreleased).mpr spared
  refine ⟨?_, lock, locked_step sound held unreleased intact.locked⟩
  refine (sound_step sound step).tree.directory_above ?_
    (List.prefix_append _ [ScratchDir.lockName]) (by simp)
  rw [lock]
  rfl

theorem intact_run_iff (sound : shared.Sound) (held : shared.claim? k = some scratch)
    (intact : shared.Intact scratch) {later : List ScratchStep} (unreleased : .release k ∉ later) :
    (shared.run later).Intact scratch ↔
      ¬ Ever (Overruns scratch ScratchDir.lockName) shared later := by
  induction later generalizing shared with
  | nil => exact iff_of_true intact id
  | cons step later ih =>
      obtain ⟨here, unreleased⟩ := not_or.mp (List.mem_cons.not.mp unreleased)
      have here : step ≠ .release k := Ne.symm here
      rw [run_cons, Ever, not_or]
      by_cases overrun : Overruns scratch ScratchDir.lockName shared step
      · refine iff_of_false (fun intact' => ?_) fun spared => spared.1 overrun
        have gone := (lock_step_iff sound held intact here).not.mpr (not_not.mpr overrun)
        have old := Nat.lt_of_lt_of_le (sound.claimed held).1 (ages_step sound step).next_le
        exact gone_run (sound_step sound step) gone old later intact'.lock
      · rw [and_iff_right overrun]
        exact ih (sound_step sound step) (claim?_step held here)
          (intact_step sound held intact here overrun) unreleased

theorem file_run_iff (sound : shared.Sound) (held : shared.claim? k = some scratch)
    (intact : shared.Intact scratch) {later : List ScratchStep} (unreleased : .release k ∉ later)
    {i : Nat} (own : shared.file? i = some file)
    (lies : file.location = scratch.directory ++ [name]) (plain : name.head? ≠ some 109)
    (kept : .discard i ∉ later) (found : shared.disk.tree.place? file.location = some place)
    (lasting : (shared.run later).Intact scratch) :
    (shared.run later).disk.tree.place? file.location = some place ↔
      ¬ Ever (Overruns scratch name) shared later := by
  rw [intact_run_iff sound held intact unreleased] at lasting
  induction later generalizing shared with
  | nil => exact iff_of_true found id
  | cons step later ih =>
      obtain ⟨here, unreleased⟩ := not_or.mp (List.mem_cons.not.mp unreleased)
      have here : step ≠ .release k := Ne.symm here
      obtain ⟨now, kept⟩ := not_or.mp (List.mem_cons.not.mp kept)
      obtain ⟨spared, lasting⟩ := not_or.mp lasting
      have stays : (shared.step step).2.disk.tree.place? file.location = some place ↔
          ¬ Overruns scratch name shared step := by
        rw [place?_step_iff sound found, lies, removes_iff sound held intact plain here]
        rintro j other rfl known same
        refine sound.filesApart own known ?_ (lies.trans same.symm)
        rintro rfl
        exact now rfl
      rw [run_cons, Ever, not_or]
      by_cases overrun : Overruns scratch name shared step
      · refine iff_of_false (fun back => ?_) fun other => other.1 overrun
        have old := Nat.lt_of_lt_of_le (sound.tree.id_lt found) (ages_step sound step).next_le
        exact gone_run (sound_step sound step) (stays.not.mpr (not_not.mpr overrun)) old later back
      · rw [and_iff_right overrun]
        exact ih (sound_step sound step) (claim?_step held here)
          (intact_step sound held intact here spared) unreleased
          (file?_step own (Ne.symm now)) kept (stays.mpr overrun) lasting

/-- A private directory that was just claimed is in place. -/
theorem intact_claimed {path : Path} {granted : SharedDisk} (sound : shared.Sound)
    (claims : shared.step (.claim path) = (.claimed k scratch, granted)) :
    granted.claim? k = some scratch ∧ granted.Intact scratch := by
  change shared.record (shared.disk.claim path) = _ at claims
  generalize outcome : shared.disk.claim path = result at claims
  obtain ⟨result, disk⟩ := result
  cases result with
  | error error => cases claims
  | ok own =>
      obtain ⟨answer, rfl⟩ := Prod.mk.inj claims
      cases answer
      obtain ⟨root, made, marker, opened, cleared, n, found, occupies⟩ :=
        Disk.occupies_of_claim outcome
      have grows := FileTree.grows_shared sound.tree path
      rw [found] at grows
      refine ⟨by rw [claim?_append, if_pos rfl], ?_, occupies.lock_after grows.sound, ?_⟩
      · exact FileTree.node?_of_place? (occupies.directory_after grows.sound)
      · show scratch.lock ∈ disk.locked
        rw [occupies.made]
        exact .head _

/-- A file that was just handed out lies in the private directory. -/
theorem file_made {i size : Nat} {mark : Bytes} {made : SharedDisk} (sound : shared.Sound)
    (held : shared.claim? k = some scratch) (intact : shared.Intact scratch)
    (asks : AsksFile k step mark size) (makes : shared.step step = (.made i file, made)) :
    made.file? i = some file ∧ (∃ n, file.location = scratch.directory ++ [Host.randomName mark n]) ∧
      file.size = size ∧
      made.disk.tree.place? file.location
        = some ⟨file.location, shared.disk.tree.next, .file (.zeros size)⟩ := by
  have asked : shared.recordFile (shared.disk.makeFile scratch mark size)
      = (.made i file, made) := by
    cases asks with
    | sparse | snapshot =>
        simpa only [SharedDisk.step, held, Disk.createSparse, Disk.createSnapshot] using makes
  generalize outcome : shared.disk.makeFile scratch mark size = result at asked
  obtain ⟨result, disk⟩ := result
  cases result with
  | error error => cases asked
  | ok own =>
      obtain ⟨answer, rfl⟩ := Prod.mk.inj asked
      cases answer
      obtain ⟨directory, n, makes⟩ := Disk.makes_of_ok outcome
      have size' : file.size = size := congrArg ScratchFile.size makes.granted
      refine ⟨by rw [file?_append, if_pos rfl], ⟨n, ?_⟩, size', ?_⟩
      · rw [← makes.directory_eq sound.tree intact.directory]
        exact congrArg ScratchFile.location makes.granted
      · rw [← size']
        exact makes.file_after sound.tree

theorem sound_start {disk : Disk} (sound : disk.tree.Sound)
    (locked : ∀ id ∈ disk.locked, id < disk.tree.next) : Sound { disk } where
  tree := sound
  locked := locked
  claimed held := by simp [claim?] at held
  claimsApart held := by simp [claim?] at held
  made held := by simp [file?] at held
  filesApart held := by simp [file?] at held

/-- Until it is given up, a private directory stays in place with its lock just as long as no
claim sweeps the shared directory or one around it, none takes the private directory for a shared
one, and no mount ends around it.  So do the files in it that are not dropped.  Another claim of
the same shared directory harms neither. -/
theorem intact_unless_overrun {disk : Disk} (sound : disk.tree.Sound)
    (locked : ∀ id ∈ disk.locked, id < disk.tree.next) {before : List ScratchStep} {path : Path}
    {granted : SharedDisk}
    (claims : (run { disk } before).step (.claim path) = (.claimed k scratch, granted))
    {later : List ScratchStep} (unreleased : .release k ∉ later) :
    ((granted.run later).Intact scratch ↔
      ¬ Ever (Overruns scratch ScratchDir.lockName) granted later) ∧
    ∀ earlier step rest i file size mark made,
      later = earlier ++ step :: rest → AsksFile k step mark size →
      (granted.run earlier).step step = (.made i file, made) → .discard i ∉ rest →
      (granted.run later).Intact scratch →
      ∃ name place, file.location = scratch.directory ++ [name] ∧
        place.node = .file (.zeros size) ∧
        made.disk.tree.place? file.location = some place ∧
        ((granted.run later).disk.tree.place? file.location = some place ↔
          ¬ Ever (Overruns scratch name) made rest) := by
  have started := sound_run (sound_start sound locked) before
  obtain ⟨held, intact⟩ := intact_claimed started claims
  have sound' : granted.Sound := by
    have next := sound_step started (.claim path)
    rwa [claims] at next
  refine ⟨intact_run_iff sound' held intact unreleased, ?_⟩
  rintro earlier step rest i file size mark made rfl asks makes kept lasting
  obtain ⟨first, second⟩ := not_or.mp (List.mem_append.not.mp unreleased)
  obtain ⟨now, third⟩ := not_or.mp (List.mem_cons.not.mp second)
  have spared := (intact_run_iff sound' held intact unreleased).mp lasting
  rw [ever_append, not_or] at spared
  -- The mount is in place when the file is made.
  have intact₁ := (intact_run_iff sound' held intact first).mpr spared.1
  have sound₁ := sound_run sound' earlier
  have held₁ := claim?_run held first
  obtain ⟨own, ⟨n, lies⟩, -, found⟩ := file_made sound₁ held₁ intact₁ asks makes
  have sound₂ := sound_step sound₁ step
  have held₂ := claim?_step held₁ (Ne.symm now)
  have intact₂ := intact_step sound₁ held₁ intact₁ (Ne.symm now) fun overrun =>
    spared.2 (.inl overrun)
  rw [run_append, run_cons] at lasting ⊢
  rw [makes] at sound₂ held₂ intact₂ lasting ⊢
  have plain := (ScratchDir.head_fileName asks.fileMark n).2
  exact ⟨_, _, lies, rfl, found,
    file_run_iff sound₂ held₂ intact₂ third own lies plain kept found lasting⟩

end

/-- The second mount of `/a` when there is one already. -/
def neighbour : ScratchDir := ⟨[[97], Host.randomName ScratchDir.directoryMark 1], 6⟩

/-- A file of the second mount, a third mount by another path, and the end of the first. -/
def neighbourly : List ScratchStep :=
  [.createSparse 1 3, .claim ⟨[47, 97, 47, 46]⟩, .release 0]

theorem neighbour_intact :
    (∀ id ∈ ({} : Disk).locked, id < ({} : Disk).tree.next) ∧ .release 1 ∉ neighbourly ∧
    ∃ granted, (run {} [.claim ⟨[47, 97]⟩]).step (.claim ⟨[47, 97]⟩)
        = (.claimed 1 neighbour, granted) ∧
      (granted.run neighbourly).Intact neighbour ∧
      ¬ Ever (Overruns neighbour ScratchDir.lockName) granted neighbourly := by
  have locked : ∀ id ∈ ({} : Disk).locked, id < ({} : Disk).tree.next := by simp
  have unreleased : .release 1 ∉ neighbourly := by simp [neighbourly]
  have claims : (run { disk := {} } [.claim ⟨[47, 97]⟩]).step (.claim ⟨[47, 97]⟩)
      = (.claimed 1 neighbour,
        ((run {} [.claim ⟨[47, 97]⟩]).step (.claim ⟨[47, 97]⟩)).2) := Prod.ext (by cbv) rfl
  have spared := (intact_unless_overrun FileTree.sound_empty locked claims unreleased).1
  have intact : (((run {} [.claim ⟨[47, 97]⟩]).step (.claim ⟨[47, 97]⟩)).2.run
      neighbourly).Intact neighbour :=
    ⟨by cbv, by cbv, List.contains_iff_mem.mp (by cbv)⟩
  exact ⟨locked, unreleased, _, claims, intact, spared.mp intact⟩

/-- A mount of `/a/b` with a file, and after it one of `/a`, which an earlier one had marked. -/
def nested : List ScratchStep :=
  [.claim ⟨[47, 97]⟩, .release 0, .claim ⟨[47, 97, 47, 98]⟩, .createSparse 1 3,
    .claim ⟨[47, 97]⟩]

/-- The mount of `/a` sweeps that of `/a/b` while it lives. -/
theorem nested_mount_swept :
    (run {} nested).claim? 1
      = some ⟨[[97], [98], Host.randomName ScratchDir.directoryMark 1], 8⟩ ∧
    (run {} nested).file? 0
      = some ⟨[[97], [98], Host.randomName ScratchDir.directoryMark 1,
          Host.randomName ScratchDir.entryMark 2], 3⟩ ∧
    (run {} (nested.take 4)).disk.tree.node?
      [[97], [98], Host.randomName ScratchDir.directoryMark 1, Host.randomName ScratchDir.entryMark 2]
      = some (.file (.zeros 3)) ∧
    (run {} nested).disk.tree.node? [[97], [98]] = none := by
  refine ⟨by cbv, by cbv, by cbv, by cbv⟩

end SharedDisk

end SparseCache
