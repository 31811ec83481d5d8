import VmManager.Lib.Text
/-!
# The host

What the manager asks of the machine it runs on. `κ` is everything outside the
manager: files, sysfs, processes, guests and the clock. Looking something up
leaves it alone, acting on it gives a new one. Nothing is assumed about any of
the operations, except that none of them throws.
-/
namespace VmManager

/-- What a handler allocates in the client's shared memory segment. -/
inductive ShmObject
  /-- The array `ListVms` of so many empty strings. -/
  | listVms (n : Nat)
  /-- The text assigned to one string of `ListVms`. -/
  | text (s : String)
  /-- The `CivVmInfo` named `VmInfo`. -/
  | vmInfo

structure Host (κ : Type) where
  pathExists : κ → String → Bool
  isDirectory : κ → String → Bool
  isRegularFile : κ → String → Bool
  isSymlink : κ → String → Bool
  /-- The last component of what the symbolic link points to. -/
  symlinkName : κ → String → String
  /-- The names in a directory, in the order of `directory_iterator`. -/
  listDir : κ → String → List String
  /-- `access(path, F_OK) == 0`. -/
  access : κ → String → Bool
  /-- The content, or `none` when the file cannot be opened. -/
  readFile : κ → String → Option String
  /-- Opens, truncates and writes, as far as the host lets it. -/
  writeFile : κ → String → String → κ
  rename : κ → String → String → κ
  remove : κ → String → κ
  absolute : κ → String → String
  /-- `boost::process::search_path`: the empty text when nothing is found. -/
  searchPath : κ → String → String
  /-- `boost::process::system`: the exit code. -/
  system : κ → String → Int × κ
  /-- Time passes. -/
  sleep : κ → κ
  /-- The local time in the given format. -/
  strftime : κ → String → String
  getenv : κ → String → Option String
  getuid : κ → Int
  /-- `GetConfigPath()`, which `main` has checked before any server starts. -/
  configPath : String
  /-- `boost::uuids::string_generator` takes the text. -/
  isUuid : String → Bool
  /-- What an uninitialised `int` happens to hold. -/
  uninit : κ → Int
  /-- Spawns a command with an environment; false when that fails. -/
  spawn : κ → String → List String → Bool × κ
  /-- `SIGTERM` to the child of a command, and whether it is gone after ten
  seconds. -/
  terminate : κ → String → Bool × κ
  /-- `CivVmPowerCtl::Shutdown` on the channel to a cid. -/
  shutdown : κ → Nat → Bool × κ
  /-- Whether the client's segment has room. -/
  shmAlloc : κ → ShmObject → Bool × κ

/-- A machine that stays as it is: it has these files, and these directories
with these entries. Its commands are found and succeed, but for `ls`, which
finds nothing. -/
def stillHost (files : List (String × String)) (dirs : List (String × List String)) : Host Unit where
  pathExists _ p := files.any (·.1 = p) || dirs.any (·.1 = p)
  isDirectory _ p := dirs.any (·.1 = p)
  isRegularFile _ p := files.any (·.1 = p)
  isSymlink _ _ := false
  symlinkName _ p := p
  listDir _ p := ((dirs.find? (·.1 = p)).map (·.2)).getD []
  access _ p := files.any (·.1 = p)
  readFile _ p := (files.find? (·.1 = p)).map (·.2)
  writeFile k _ _ := k
  rename k _ _ := k
  remove k _ := k
  absolute _ p := p
  searchPath _ p := "/usr/bin/" ++ p
  system k cmd := (if cmd.toList.take 3 = ['l', 's', ' '] then 2 else 0, k)
  sleep k := k
  strftime _ fmt := fmt
  getenv _ _ := none
  getuid _ := 0
  configPath := "/root/.intel/.civ"
  isUuid _ := true
  uninit _ := 0
  spawn k _ _ := (true, k)
  terminate k _ := (true, k)
  shutdown k _ := (false, k)
  shmAlloc k _ := (true, k)

/-- A machine that writing to files changes, and waiting. It has these files,
links and directories; all else goes as in `stillHost`. -/
def liveHost {κ : Type} (read link : κ → String → Option String) (dirs : List (String × List String))
    (write : κ → String → String → κ) (sleep : κ → κ) : Host κ where
  pathExists k p := (read k p).isSome || (link k p).isSome || dirs.any (·.1 = p)
  isDirectory _ p := dirs.any (·.1 = p)
  isRegularFile k p := (read k p).isSome
  isSymlink k p := (link k p).isSome
  symlinkName k p := (link k p).getD p
  listDir _ p := ((dirs.find? (·.1 = p)).map (·.2)).getD []
  access k p := (read k p).isSome
  readFile := read
  writeFile := write
  rename k _ _ := k
  remove k _ := k
  absolute _ p := p
  searchPath _ p := "/usr/bin/" ++ p
  system k _ := (0, k)
  sleep := sleep
  strftime _ fmt := fmt
  getenv _ _ := none
  getuid _ := 0
  configPath := "/root/.intel/.civ"
  isUuid _ := true
  uninit _ := 0
  spawn k _ _ := (true, k)
  terminate k _ := (true, k)
  shutdown k _ := (false, k)
  shmAlloc k _ := (true, k)

end VmManager
