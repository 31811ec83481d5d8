import VmManager.Lib.Ids
import VmManager.Lib.Text
/-!
# The config directory (`utils/utils.cc`)

`GetConfigPath` under `sudo` takes on the ids of the user behind it, so that
the directory is made in that user's home and belongs to them. The path it has
found is kept for later calls.
-/
open Text

namespace VmManager.ConfigPath

/-- What stands at a path. -/
inductive FileKind
  | directory
  | other
  deriving DecidableEq, Repr

/-- The process that calls, and the files it sees. -/
structure State where
  uid : Ids
  gid : Ids
  /-- `civ_config_path`: `NULL`, or the text in the buffer. -/
  civConfigPath : Option String := none
  files : String → Option FileKind

/-- What a call finds around it. -/
structure Env where
  /-- `getenv("SUDO_UID")`. -/
  sudoUid : Option String
  sudoGid : Option String
  /-- The home directory that `getpwuid_r` finds for a user id, or `none` when
  it fails or there is no such user. -/
  getpwuid : UInt32 → Option String
  /-- Whether `create_directories` makes a directory at a path. -/
  creates : String → Bool

namespace State

variable (p : State)

def setresuid (r e s : UInt32) : State := { p with uid := p.uid.setres (decide (p.uid.eff = 0)) r e s }

def setresgid (r e s : UInt32) : State := { p with gid := p.gid.setres (decide (p.uid.eff = 0)) r e s }

end State

def maxPath : Nat := 2048

/-- `snprintf(civ_config_path, MAX_PATH, "%s%s", pw_dir, "/.intel/.civ")`. -/
def configDir (home : String) : String := .ofList ((home ++ "/.intel/.civ").toList.take (maxPath - 1))

/-- The id that `SUDO_UID` or `SUDO_GID` names, or the one there is. -/
def sudoId (var : Option String) (id : UInt32) : UInt32 := (var.map fun s => .ofInt (atoi s)).getD id

/-- To the ids of the user behind `sudo`, with the effective ones saved. -/
def dropIds (e : Env) (p : State) : State :=
  let p := if e.sudoGid.isSome then p.setresgid p.gid.real (sudoId e.sudoGid p.gid.eff) p.gid.eff else p
  if e.sudoUid.isSome then p.setresuid p.uid.real (sudoId e.sudoUid p.uid.eff) p.uid.eff else p

/-- Back to the effective ids that `p₀` had. -/
def regainIds (e : Env) (p₀ p : State) : State :=
  let p := if e.sudoGid.isSome then p.setresgid p₀.gid.real p₀.gid.eff (sudoId e.sudoGid p₀.gid.eff) else p
  if e.sudoUid.isSome then p.setresuid p₀.uid.real p₀.uid.eff (sudoId e.sudoUid p₀.uid.eff) else p

/-- The path goes into the buffer, and the directory is made if nothing stands
there. -/
def fillPath (e : Env) (home : String) (p : State) : State :=
  let path := configDir home
  if (p.files path).isSome then { p with civConfigPath := some path }
  else if e.creates path then
    { p with civConfigPath := some path, files := Function.update p.files path (some .directory) }
  else { p with civConfigPath := none }

def getConfigPath (e : Env) (p₀ : State) : Option String × State :=
  match p₀.civConfigPath with
  | some path => (some path, p₀)
  | none =>
    let p := { dropIds e p₀ with civConfigPath := some "" }
    match e.getpwuid (sudoId e.sudoUid p₀.uid.eff) with
    | none => (none, p)
    | some home =>
      let p := regainIds e p₀ (fillPath e home p)
      (p.civConfigPath, p)

/-- One call after the other. -/
def call (p : State) (e : Env) : Option State := some (getConfigPath e p).2

end VmManager.ConfigPath
