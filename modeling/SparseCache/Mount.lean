import SparseCache.Cache.Basic
import SparseCache.Config
import SparseCache.Scratch.Claim
import SparseCache.Scratch.Names

namespace SparseCache

/-! What belongs to one mounted file system. -/

structure Mount where
  config : Config
  scratch : ScratchDir
  counter : HandleCounter := {}
deriving DecidableEq, Repr

inductive MountError
  | config (cause : ConfigError)
  | scratch (cause : ScratchError)
deriving DecidableEq, Repr

namespace MountError

def message? : MountError → Option String
  | .config cause => cause.message?.map ("invalid cache configuration: " ++ ·)
  | .scratch cause => cause.message?.map ("unusable scratch directory: " ++ ·)

end MountError

namespace Mount

/-- Checks the configuration, and only then claims a private directory. -/
def create [Host] (disk : Disk) (config : Config) : Except MountError Mount × Disk :=
  match config.validated with
  | .error cause => (.error (.config cause), disk)
  | .ok config =>
    match disk.claim config.path with
    | (.error cause, disk) => (.error (.scratch cause), disk)
    | (.ok scratch, disk) => (.ok { config, scratch }, disk)

/-- The cache of a mount that has just been set up.  Its uploads run in the
background. -/
def cache (mount : Mount) : Cache where
  grace := mount.config.gracePeriod
  uploader := .background { free := mount.config.maxUploads }
  counter := mount.counter

end Mount

end SparseCache
