import SparseCache.FileTree.Lemmas
import SparseCache.Scratch.Basic

namespace SparseCache

/-! A drawn name is free, and random names differ from each other and from fixed ones. -/

variable {mark : Bytes} {taken : List Bytes} {n m : Nat}

theorem length_le_of_nodup {xs ys : List Bytes} (distinct : xs.Nodup)
    (within : ∀ x ∈ xs, x ∈ ys) :
    xs.length ≤ ys.length := by
  induction xs generalizing ys with
  | nil => exact Nat.zero_le _
  | cons x xs ih =>
    obtain ⟨absent, distinct⟩ := List.nodup_cons.mp distinct
    have member := within x (.head _)
    have rest : ∀ y ∈ xs, y ∈ ys.erase x := by
      intro y found
      have apart : y ≠ x := by
        rintro rfl
        exact absent found
      exact (List.mem_erase_of_ne apart).mpr (within y (.tail _ found))
    have shorter := ih distinct rest
    have positive := List.length_pos_of_mem member
    rw [List.length_erase_of_mem member] at shorter
    rw [List.length_cons]
    omega

section

variable [Host]

theorem le_untaken {fuel : Nat} : n ≤ untaken mark taken fuel n := by
  induction fuel generalizing n with
  | zero => exact Nat.le_refl n
  | succ fuel ih =>
    unfold untaken
    split
    · exact Nat.le_of_succ_le ih
    · exact Nat.le_refl n

/-- A search that ends on a taken name has seen nothing but taken names. -/
theorem taken_of_untaken_mem {fuel : Nat}
    (found : Host.randomName mark (untaken mark taken fuel n) ∈ taken) :
    ∀ i ≤ fuel, Host.randomName mark (n + i) ∈ taken := by
  induction fuel generalizing n with
  | zero =>
    intro i bound
    obtain rfl := Nat.le_zero.mp bound
    exact found
  | succ fuel ih =>
    unfold untaken at found
    split at found
    · rename_i here
      intro i bound
      cases i with
      | zero => exact List.contains_iff_mem.mp here
      | succ i =>
        rw [← Nat.succ_add_eq_add_succ]
        exact ih found i (by omega)
    · exact absurd (List.contains_iff_mem.mpr found) ‹_›

theorem untaken_not_mem : Host.randomName mark (untaken mark taken taken.length n) ∉ taken := by
  intro found
  have all := taken_of_untaken_mem found
  have distinct : ((List.range (taken.length + 1)).map fun i => Host.randomName mark (n + i)).Nodup := by
    refine List.nodup_iff_pairwise_ne.mpr (List.pairwise_map.mpr ?_)
    refine List.nodup_range.imp fun apart same => apart ?_
    have numbers := Host.fresh same
    omega
  have within : ∀ name ∈ (List.range (taken.length + 1)).map fun i => Host.randomName mark (n + i),
      name ∈ taken := by
    intro name listed
    obtain ⟨i, below, rfl⟩ := List.mem_map.mp listed
    exact all i (Nat.le_of_lt_succ (List.mem_range.mp below))
  have bound := length_le_of_nodup distinct within
  simp only [List.length_map, List.length_range] at bound
  omega

namespace Disk

variable {disk : Disk} {directory : Location}

/-- What has a drawn name does not lie in the directory yet. -/
theorem draw_free : (disk.draw mark directory).1 ∉ disk.tree.children directory :=
  untaken_not_mem

/-- A draw, and the number of it. -/
theorem draw_eq (disk : Disk) (mark : Bytes) (directory : Location) :
    ∃ n, disk.drawn ≤ n ∧ Host.randomName mark n ∉ disk.tree.children directory ∧
      disk.draw mark directory = (Host.randomName mark n, { disk with drawn := n + 1 }) :=
  ⟨_, le_untaken, draw_free, rfl⟩

end Disk

end

/-! ### Names of different kinds -/

namespace ScratchDir

variable {name other : Bytes} {directory elsewhere : Location}

/-- What the names of files in private directories start with. -/
def FileMark (mark : Bytes) : Prop := mark = entryMark ∨ mark = uploadMark

theorem head_lockName : lockName.head? = some Path.dot := by
  decide +kernel

theorem head_markerName : markerName.head? = some Path.dot := by
  decide +kernel

theorem plain_of_head (heads : name.head? ≠ some Path.dot) :
    name ≠ FileTree.current ∧ name ≠ FileTree.parent := by
  constructor
  all_goals
    rintro rfl
    exact heads rfl

theorem apart_of_ne (different : name ≠ other) : directory ++ [name] ≠ elsewhere ++ [other] := by
  intro same
  have names := congrArg List.getLast? same
  rw [List.getLast?_concat, List.getLast?_concat] at names
  exact different (Option.some.inj names)

theorem apart_of_head (heads : name.head? ≠ other.head?) :
    directory ++ [name] ≠ elsewhere ++ [other] :=
  apart_of_ne fun same => heads (congrArg List.head? same)

section

variable [Host]

/-- A random name starts as the mark does. -/
theorem head_randomName (heads : mark ≠ []) (n : Nat) :
    (Host.randomName mark n).head? = mark.head? := by
  obtain ⟨rest, whole⟩ := Host.marked mark n
  rw [← whole]
  cases mark with
  | nil => exact absurd rfl heads
  | cons first later => rfl

theorem head_directoryName (n : Nat) :
    (Host.randomName directoryMark n).head? = some 109 := by
  rw [head_randomName (by decide +kernel)]
  decide +kernel

theorem head_entryName (n : Nat) : (Host.randomName entryMark n).head? = some 101 := by
  rw [head_randomName (by decide +kernel)]
  decide +kernel

theorem head_uploadName (n : Nat) : (Host.randomName uploadMark n).head? = some 117 := by
  rw [head_randomName (by decide +kernel)]
  decide +kernel

/-- The names of files are neither those of locks nor those of private directories. -/
theorem head_fileName (among : FileMark mark) (n : Nat) :
    (Host.randomName mark n).head? ≠ some Path.dot ∧ (Host.randomName mark n).head? ≠ some 109 := by
  rcases among with rfl | rfl
  · simp [head_entryName, Path.dot]
  · simp [head_uploadName, Path.dot]

theorem markerName_ne_randomName (n : Nat) : markerName ≠ Host.randomName directoryMark n := by
  intro same
  have heads := head_markerName
  rw [same, head_directoryName] at heads
  cases heads

/-- Different draws name different places. -/
theorem apart_of_drawn (different : n ≠ m) :
    directory ++ [Host.randomName mark n] ≠ elsewhere ++ [Host.randomName mark m] :=
  apart_of_ne fun same => different (Host.fresh same)

theorem apart_of_fileMark {mark' : Bytes} (among : FileMark mark) (among' : FileMark mark')
    (different : n ≠ m) :
    directory ++ [Host.randomName mark n] ≠ elsewhere ++ [Host.randomName mark' m] := by
  rcases among with rfl | rfl
  · rcases among' with rfl | rfl
    · exact apart_of_drawn different
    · exact apart_of_head (by simp [head_entryName, head_uploadName])
  · rcases among' with rfl | rfl
    · exact apart_of_head (by simp [head_entryName, head_uploadName])
    · exact apart_of_drawn different

end

end ScratchDir

end SparseCache
