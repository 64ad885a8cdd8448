import SparseCache.Mount

namespace SparseCache

/-! A disk together with what the mounts on it hold. -/

structure SharedDisk where
  disk : Disk := {}
  /-- The private directories in the order of claiming, those given up left out. -/
  claims : List (Option ScratchDir) := []
  /-- The files in the order of making, those given up left out. -/
  files : List (Option ScratchFile) := []
deriving DecidableEq, Repr

inductive ScratchStep
  | claim (path : Path)
  | release (claim : Nat)
  | createSparse (claim size : Nat)
  | createSnapshot (claim : Nat)
  | discard (file : Nat)
deriving DecidableEq, Repr

inductive ScratchAnswer
  | claimed (claim : Nat) (scratch : ScratchDir)
  | made (number : Nat) (file : ScratchFile)
  | done
  | noClaim
  | refused (error : ScratchError)
  | failed (error : IoError)
deriving DecidableEq, Repr

namespace SharedDisk

variable (shared : SharedDisk)

def claim? (n : Nat) : Option ScratchDir := shared.claims[n]?.join

def file? (n : Nat) : Option ScratchFile := shared.files[n]?.join

/-- Numbers a claim that was granted. -/
def record : Except ScratchError ScratchDir × Disk → ScratchAnswer × SharedDisk
  | (.ok scratch, disk) =>
    (.claimed shared.claims.length scratch,
      { shared with disk, claims := shared.claims ++ [some scratch] })
  | (.error error, disk) => (.refused error, { shared with disk })

/-- Numbers a file that was made. -/
def recordFile : Except IoError ScratchFile × Disk → ScratchAnswer × SharedDisk
  | (.ok file, disk) =>
    (.made shared.files.length file,
      { shared with disk, files := shared.files ++ [some file] })
  | (.error error, disk) => (.failed error, { shared with disk })

section

variable [Host]

/-- Sets a mount up and numbers its claim. -/
def mount (config : Config) : Except MountError (Nat × Mount) × SharedDisk :=
  match Mount.create shared.disk config with
  | (.error error, disk) => (.error error, { shared with disk })
  | (.ok mount, disk) =>
    (.ok (shared.claims.length, mount),
      { shared with disk, claims := shared.claims ++ [some mount.scratch] })

def step : ScratchStep → ScratchAnswer × SharedDisk
  | .claim path => shared.record (shared.disk.claim path)
  | .release n =>
    match shared.claims[n]? with
    | none => (.noClaim, shared)
    | some none => (.done, shared)
    | some (some scratch) =>
      (.done, { shared with
        disk := shared.disk.release scratch
        claims := shared.claims.set n none })
  | .createSparse n size =>
    match shared.claim? n with
    | none => (.noClaim, shared)
    | some scratch => shared.recordFile (shared.disk.createSparse scratch size)
  | .createSnapshot n =>
    match shared.claim? n with
    | none => (.noClaim, shared)
    | some scratch => shared.recordFile (shared.disk.createSnapshot scratch)
  | .discard n =>
    match shared.file? n with
    | none => (.done, shared)
    | some file =>
      (.done, { shared with
        disk := shared.disk.discard file
        files := shared.files.set n none })

def run (steps : List ScratchStep) : SharedDisk :=
  steps.foldl (fun shared step => (shared.step step).2) shared

end

end SharedDisk

end SparseCache
