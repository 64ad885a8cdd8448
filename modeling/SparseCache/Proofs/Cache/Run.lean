import SparseCache.Mount
import SparseCache.Cache.Background

namespace SparseCache.Cache

/-! Runs of a mounted cache.

A step is one call from outside, carried out to its end, or one piece of
background work.  A run is any sequence of steps whatever: which task moves next
and what the remote store answers is left open.  Handle counts and marks of
cleanness change only as part of these steps.
-/

/-- What may happen next.  Steps do not overlap, which leaves out some of what threads can do:

- A call of the registry is one step, whatever maps it locks on its way, and so is a local change,
  a read of what is local, an export, and the reading of one piece of a copy.
- The end of an upload is one step: its write takes effect, the version is marked clean, the upload
  is taken off the record and whoever asked for it is told.  Nothing happens between these.
- A task that is aborted does nothing more, wherever it stands.  The program notices an abort only
  when the task has to wait, so that a copy under way is finished first and a write call that does
  not wait may still be made. -/
inductive Step
  /- Entries by themselves -/
  | create (path : Path) (size : Nat) (modified : Modified)
  /-- Somebody starts a load or a read and waits for it. -/
  | transfer (entry : EntryId) (offset count : Nat) (reading : Bool)
  /-- Whoever waited for a load or a read waits no longer. -/
  | giveUp (task : TaskId)
  | write (entry : EntryId) (offset : Nat) (data : Bytes)
  | truncate (entry : EntryId) (size : Nat)
  | closeEntry (entry : EntryId)
  | rename (entry : EntryId) (path : Path)
  /-- Somebody other than the cache asks for an upload. -/
  | schedule (entry : EntryId) (tag : String)
  | cancel (path : Path)
  /- Paths and handles -/
  | openFile (path : Path) (flags : OpenFlags) (size : Nat) (modified : Modified)
  | closeHandle (handle : Handle)
  | moveFile (source destination : Path)
  | delete (path : Path)
  | deleteTree (path : Path)
  /- Background work and the world around -/
  | act (action : Action)
  | dropUploader
  /-- The directory for local files disappears. -/
  | loseScratch

/-- The state after one step.  Nothing can be asked of an entry that nobody has made. -/
def step (cache : Cache) : Step → Cache
  | .create path size modified => (cache.allocate path size modified).2
  | .transfer entry offset count reading =>
    if (cache.entry? entry).isSome then
      (cache.spawn (.transfer { entry, offset, count, reading })).2
    else cache
  | .giveUp task =>
    match cache.task? task with
    | some { work := .transfer _, .. } => cache.abort task
    | _ => cache
  | .write entry offset data => (cache.onEntry entry (·.write offset data)).2
  | .truncate entry size => (cache.onEntry entry fun entry => (entry.truncate size).map ((), ·)).2
  | .closeEntry entry => cache.closeEntry entry
  | .rename entry path => cache.modifyEntry entry fun entry => { entry with path }
  | .schedule entry tag =>
    if (cache.entry? entry).isSome then cache.schedule entry (.notify tag) else cache
  | .cancel path => (cache.cancel path).2
  | .openFile path flags size modified => (cache.openFile path flags size modified).2
  | .closeHandle handle => cache.closeHandle handle
  | .moveFile source destination => (cache.moveFile source destination).2
  | .delete path => cache.delete path
  | .deleteTree path => cache.deleteTree path
  | .act action => cache.act action
  | .dropUploader => cache.abandonUploads
  | .loseScratch => { cache with scratchPresent := false }

/-- The state of a run after `n` steps. -/
def after (start : Cache) (steps : Nat → Step) : Nat → Cache
  | 0 => start
  | n + 1 => (after start steps n).step (steps n)

/-- A mount that keeps idle entries for `grace` milliseconds. -/
def mountWith (grace : Nat) : Mount where
  config := { path := ⟨[47]⟩, gracePeriod := grace }
  scratch := ⟨[], 0⟩

/-- The steps of a script, after which time stands still. -/
def scripted (script : List Step) (n : Nat) : Step := script.getD n (.act (.tick 0))

theorem scripted_of_le {script : List Step} {n : Nat} (past : script.length ≤ n) :
    scripted script n = .act (.tick 0) := by
  rw [scripted, List.getD_eq_getElem?_getD, List.getElem?_eq_none past, Option.getD_none]

theorem scripted_forall {script : List Step} {holds : Step → Prop}
    (each : ∀ step ∈ script, holds step) (rest : holds (.act (.tick 0))) (n : Nat) :
    holds (scripted script n) := by
  rcases Nat.lt_or_ge n script.length with inside | past
  · rw [scripted, List.getD_eq_getElem?_getD, List.getElem?_eq_getElem inside, Option.getD_some]
    exact each _ (List.getElem_mem inside)
  · rw [scripted_of_le past]
    exact rest

variable {start : Cache} {steps : Nat → Step}

@[simp] theorem after_zero : start.after steps 0 = start := rfl

theorem after_succ (n : Nat) :
    start.after steps (n + 1) = (start.after steps n).step (steps n) := rfl

/-- What holds at the start and survives every step holds throughout. -/
theorem after_induction {holds : Cache → Prop} (initial : holds start)
    (kept : ∀ n, holds (start.after steps n) → holds (start.after steps (n + 1))) (n : Nat) :
    holds (start.after steps n) := by
  induction n with
  | zero => exact initial
  | succ n ih => exact kept n ih

/-- What holds now but did not hold at the start came about in some step. -/
theorem exists_origin {holds : Cache → Prop} (absent : ¬ holds start) {n : Nat}
    (present : holds (start.after steps n)) :
    ∃ m, m < n ∧ ¬ holds (start.after steps m) ∧
      ∀ k, m < k → k ≤ n → holds (start.after steps k) := by
  induction n with
  | zero => exact absurd present absent
  | succ n ih =>
      by_cases before : holds (start.after steps n)
      · obtain ⟨m, earlier, missing, since⟩ := ih before
        refine ⟨m, by omega, missing, fun k later upto => ?_⟩
        rcases Nat.lt_or_ge n k with last | inside
        · obtain rfl : k = n + 1 := by omega
          exact present
        · exact since k later inside
      · refine ⟨n, by omega, before, fun k later upto => ?_⟩
        obtain rfl : k = n + 1 := by omega
        exact present

end SparseCache.Cache
