import SparseCache.FileTree.Change
import SparseCache.Toml.Document

namespace SparseCache

/-! Settings of a cache: their defaults, their text and what is wrong with them. -/

/-- Where a user's files are kept. -/
structure Surroundings where
  /-- The directory for files that last as long as the user is logged in. -/
  runtimeDirectory : Option Path := none
  home : Option Path := none
  /-- The home directory on record for the user's account. -/
  accountHome : Option Path := none
deriving DecidableEq, Repr

namespace Surroundings

def cloudDirectory : Path := .ofString "cloud-fs"

/-- The user's directory for this program.  A runtime directory counts only if it
is absolute, and a home directory only if it is not empty. -/
def programDirectory? (surroundings : Surroundings) : Option Path :=
  match surroundings.runtimeDirectory.filter Path.isAbsolute with
  | some directory => some (directory.join cloudDirectory)
  | none =>
    let home := surroundings.home.filter fun home => !home.spelling.isEmpty
    (home <|> surroundings.accountHome).map fun home =>
      ((home.join (.ofString ".local")).join (.ofString "share")).join cloudDirectory

def cacheDirectory (surroundings : Surroundings) : Path :=
  match surroundings.programDirectory? with
  | some directory => directory.join (.ofString "cache")
  | none => .ofString "/tmp/cloud-fs/cache"

end Surroundings

structure Config where
  /-- The directory that mounts share for their local files. -/
  path : Path
  /-- For how many milliseconds an entry nobody uses stays after its upload. -/
  gracePeriod : Nat := 10000
  /-- How many uploads may run at the same time. -/
  maxUploads : Nat := 4
deriving DecidableEq, Repr

inductive ConfigProblem
  | noUploads
  | tooManyUploads
  | relativePath (path : Path)
deriving DecidableEq, Repr

inductive ConfigError
  | unreadable (cause : IoError)
  /-- The text is no TOML, or a setting has a value of the wrong type. -/
  | malformed
  | invalid (problems : List ConfigProblem)
deriving DecidableEq, Repr

namespace Config

/-- No semaphore has more permits. -/
def uploadLimit : Nat := 0x1FFFFFFFFFFFFFFF

def default (surroundings : Surroundings) : Config :=
  { path := surroundings.cacheDirectory }

/-- The grace period in seconds and nanoseconds. -/
def grace (config : Config) : Nat × Nat :=
  (config.gracePeriod / 1000, config.gracePeriod % 1000 * 1000000)

def problems (config : Config) : List ConfigProblem :=
  (if config.maxUploads = 0 then [.noUploads]
    else if uploadLimit < config.maxUploads then [.tooManyUploads]
    else []) ++
  if config.path.isAbsolute then [] else [.relativePath config.path]

/-- A setting of a whole number, which must not be negative. -/
def number? (entries : Toml.Entries) (key : String) (missing : Nat) : Option Nat :=
  match entries.get? key with
  | none => some missing
  | some (.integer value) => if 0 ≤ value then some value.toNat else none
  | some _ => none

def path? (entries : Toml.Entries) (key : String) (missing : Path) : Option Path :=
  match entries.get? key with
  | none => some missing
  | some (.text value) => some (.ofString value)
  | some _ => none

/-- The configuration in a document.  What it does not set has its default, and
what is no setting does not count. -/
def ofEntries? (surroundings : Surroundings) (entries : Toml.Entries) : Option Config := do
  let base := default surroundings
  let path ← path? entries "path" base.path
  let gracePeriod ← number? entries "eviction-grace-period-ms" base.gracePeriod
  let maxUploads ← number? entries "max-concurrent-uploads" base.maxUploads
  some { path, gracePeriod, maxUploads }

def validated (config : Config) : Except ConfigError Config :=
  match config.problems with
  | [] => .ok config
  | problems => .error (.invalid problems)

def parse (surroundings : Surroundings) (text : String) : Except ConfigError Config :=
  match (Toml.document? text).bind (ofEntries? surroundings) with
  | some config => config.validated
  | none => .error .malformed

def load (surroundings : Surroundings) (tree : FileTree) (path : Path) :
    Except ConfigError Config :=
  match tree.bytesAt path with
  | .error cause => .error (.unreadable cause)
  | .ok bytes =>
    match Text.decode? bytes with
    | some text => parse surroundings text
    | none =>
      .error (.unreadable (.described .invalidData "stream did not contain valid UTF-8"))

end Config

namespace ConfigProblem

def message : ConfigProblem → String
  | .noUploads => "max-concurrent-uploads must be at least 1."
  | .tooManyUploads =>
    "max-concurrent-uploads must be at most " ++ toString Config.uploadLimit ++ "."
  | .relativePath path => "cache path '" ++ path.shown ++ "' must be absolute."

end ConfigProblem

namespace ConfigError

/-- The text, where it is fixed by the cause alone. -/
def message? : ConfigError → Option String
  | .unreadable cause => cause.message?.map ("I/O error: " ++ ·)
  | .malformed => none
  | .invalid problems =>
    let quoted := problems.map fun problem => Text.quote problem.message
    some ("Configuration validation errors: [" ++ ", ".intercalate quoted ++ "]")

end ConfigError

end SparseCache
