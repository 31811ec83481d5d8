import VmManager.ConfigPath
import VmManager.Lib.Runs
/-!
# Theorems about the config directory

Dropping the ids and taking them back leaves the effective ones as they were,
whatever `setresuid` refuses. The exit in between, for a user that is not found,
does neither of the two things that the end of `GetConfigPath` does: it leaves
the user's ids in place, and in the buffer an empty path for later calls.
-/
open Runs

namespace VmManager.ConfigPath

/-! ## Ids -/

theorem dropIds_uid (e : Env) (p : State) :
    (dropIds e p).uid =
      if e.sudoUid.isSome then p.uid.lend (decide (p.uid.eff = 0)) (sudoId e.sudoUid p.uid.eff) else p.uid := by
  unfold dropIds
  dsimp only
  split <;> split <;> rfl

theorem dropIds_gid (e : Env) (p : State) :
    (dropIds e p).gid =
      if e.sudoGid.isSome then p.gid.lend (decide (p.uid.eff = 0)) (sudoId e.sudoGid p.gid.eff) else p.gid := by
  unfold dropIds
  dsimp only
  split <;> split <;> rfl

@[simp] theorem fillPath_uid (e : Env) (home : String) (p : State) : (fillPath e home p).uid = p.uid := by
  unfold fillPath
  dsimp only
  split
  · rfl
  · split <;> rfl

@[simp] theorem fillPath_gid (e : Env) (home : String) (p : State) : (fillPath e home p).gid = p.gid := by
  unfold fillPath
  dsimp only
  split
  · rfl
  · split <;> rfl

theorem regainIds_frame (e : Env) (p₀ p : State) :
    (regainIds e p₀ p).civConfigPath = p.civConfigPath ∧ (regainIds e p₀ p).files = p.files := by
  unfold regainIds
  dsimp only
  split <;> split <;> exact ⟨rfl, rfl⟩

/-- The ids are back, whichever of the four calls were refused. -/
theorem regainIds_eff (e : Env) (p₀ : State) {p : State} (huid : p.uid = (dropIds e p₀).uid)
    (hgid : p.gid = (dropIds e p₀).gid) :
    (regainIds e p₀ p).uid.eff = p₀.uid.eff ∧ (regainIds e p₀ p).gid.eff = p₀.gid.eff := by
  rw [dropIds_uid] at huid
  rw [dropIds_gid] at hgid
  have hgidEff : (if e.sudoGid.isSome then
      p.setresgid p₀.gid.real p₀.gid.eff (sudoId e.sudoGid p₀.gid.eff) else p).gid.eff = p₀.gid.eff := by
    by_cases hg : e.sudoGid.isSome = true
    · rw [if_pos hg] at hgid ⊢
      dsimp only [State.setresgid]
      rw [hgid]
      exact Ids.lend_back _ _ _ _
    · rw [if_neg hg] at hgid ⊢
      rw [hgid]
  have huidKept : (if e.sudoGid.isSome then
      p.setresgid p₀.gid.real p₀.gid.eff (sudoId e.sudoGid p₀.gid.eff) else p).uid = p.uid := by
    split <;> rfl
  unfold regainIds
  dsimp only
  by_cases hu : e.sudoUid.isSome = true
  · rw [if_pos hu] at huid ⊢
    refine ⟨?_, hgidEff⟩
    dsimp only [State.setresuid]
    rw [huidKept, huid]
    exact Ids.lend_back _ _ _ _
  · rw [if_neg hu] at huid ⊢
    refine ⟨?_, hgidEff⟩
    rw [huidKept, huid]

/-! ## One call -/

theorem configDir_ne (home : String) : configDir home ≠ "" := by
  intro h
  have hlen := congrArg (fun s => s.toList.length) h
  have htail : "/.intel/.civ".toList.length = 12 := by decide
  simp only [configDir, String.toList_ofList, List.length_take, String.toList_append, List.length_append, htail,
    maxPath, String.toList_empty, List.length_nil] at hlen
  omega

/-- The effective ids are as at entry, and a path that is returned is that of a
directory. -/
def Right (p : State) (e : Env) : Prop :=
  (getConfigPath e p).2.uid.eff = p.uid.eff ∧ (getConfigPath e p).2.gid.eff = p.gid.eff ∧
    ∀ path, (getConfigPath e p).1 = some path → path ≠ "" ∧ (getConfigPath e p).2.files path = some .directory

/-- Taking on the id that the variable names changes nothing: it is not set, is
the effective id already, or may not be taken. -/
def Idle (i : Ids) (privileged : Bool) (var : Option String) : Prop :=
  var.isSome → sudoId var i.eff = i.eff ∨ sudoId var i.eff = Ids.keep ∨
    (privileged = false ∧ sudoId var i.eff ≠ i.real ∧ sudoId var i.eff ≠ i.saved)

/-- No buffer is there, or one with a path in it. Without a buffer the user is
found and nothing but a directory stands at their path, or the user is not
found and the ids were not going to change. -/
def Sound (p : State) (e : Env) : Prop :=
  p.civConfigPath ≠ some "" ∧
    (p.civConfigPath = none →
      match e.getpwuid (sudoId e.sudoUid p.uid.eff) with
      | some home => p.files (configDir home) ≠ some .other
      | none => Idle p.uid (decide (p.uid.eff = 0)) e.sudoUid ∧ Idle p.gid (decide (p.uid.eff = 0)) e.sudoGid)

/-- A path in the buffer is that of a directory. -/
def Kept (p : State) : Prop := ∀ path, p.civConfigPath = some path → path = "" ∨ p.files path = some .directory

theorem idle_iff (i : Ids) (privileged : Bool) (var : Option String) :
    (if var.isSome then i.lend privileged (sudoId var i.eff) else i).eff = i.eff ↔ Idle i privileged var := by
  unfold Idle
  by_cases hv : var.isSome = true
  · rw [if_pos hv, Ids.lend_eff_iff]
    exact ⟨fun h _ => h, fun h => h hv⟩
  · rw [if_neg hv]
    exact ⟨fun _ h => absurd h hv, fun _ => rfl⟩

/-- What the buffer is filled with: a path where something stands, which is a
directory unless it was there before, or nothing. -/
theorem fillPath_cases (e : Env) (home : String) (p : State) :
    ((fillPath e home p).civConfigPath = none ∧ p.files (configDir home) = none) ∨
    ((fillPath e home p).civConfigPath = some (configDir home) ∧
      ((fillPath e home p).files (configDir home) = some .directory ↔ p.files (configDir home) ≠ some .other)) := by
  unfold fillPath
  dsimp only
  cases hf : p.files (configDir home) with
  | some kind => cases kind <;> simp [hf]
  | none => by_cases hc : e.creates (configDir home) = true <;> simp [hc]

theorem getConfigPath_cached {p : State} {path : String} (e : Env) (hp : p.civConfigPath = some path) :
    getConfigPath e p = (some path, p) := by
  unfold getConfigPath
  rw [hp]

theorem getConfigPath_missing {e : Env} {p : State} (hp : p.civConfigPath = none)
    (hu : e.getpwuid (sudoId e.sudoUid p.uid.eff) = none) :
    getConfigPath e p = (none, { dropIds e p with civConfigPath := some "" }) := by
  unfold getConfigPath
  rw [hp]
  dsimp only
  rw [hu]

theorem dropIds_files (e : Env) (p : State) : (dropIds e p).files = p.files := by
  unfold dropIds
  dsimp only
  split <;> split <;> rfl

/-- A call that finds the user gets its ids back, and the path that the buffer
was filled with. -/
theorem getConfigPath_found {e : Env} {p : State} {home : String} (hp : p.civConfigPath = none)
    (hu : e.getpwuid (sudoId e.sudoUid p.uid.eff) = some home) :
    ∃ p', getConfigPath e p = (p'.civConfigPath, p') ∧ p'.uid.eff = p.uid.eff ∧ p'.gid.eff = p.gid.eff ∧
      ((p'.civConfigPath = none ∧ p.files (configDir home) = none) ∨
        (p'.civConfigPath = some (configDir home) ∧
          (p'.files (configDir home) = some .directory ↔ p.files (configDir home) ≠ some .other))) := by
  have heq : getConfigPath e p =
      ((regainIds e p (fillPath e home { dropIds e p with civConfigPath := some "" })).civConfigPath,
        regainIds e p (fillPath e home { dropIds e p with civConfigPath := some "" })) := by
    unfold getConfigPath
    rw [hp]
    dsimp only
    rw [hu]
  obtain ⟨huid, hgid⟩ := regainIds_eff e p (p := fillPath e home { dropIds e p with civConfigPath := some "" })
    (fillPath_uid _ _ _) (fillPath_gid _ _ _)
  refine ⟨_, heq, huid, hgid, ?_⟩
  obtain ⟨hpath, hfiles⟩ := regainIds_frame e p (fillPath e home { dropIds e p with civConfigPath := some "" })
  rw [hpath, hfiles, ← dropIds_files e p]
  exact fillPath_cases e home { dropIds e p with civConfigPath := some "" }

theorem right_iff {p : State} (hk : Kept p) (e : Env) : Right p e ↔ Sound p e := by
  unfold Right Sound
  cases hp : p.civConfigPath with
  | some path =>
    rw [getConfigPath_cached e hp]
    simp only [Option.some.injEq, forall_eq', true_and, reduceCtorEq, IsEmpty.forall_iff, and_true, ne_eq]
    exact ⟨fun h => h.1, fun h => ⟨h, (hk path hp).resolve_left h⟩⟩
  | none =>
    cases hu : e.getpwuid (sudoId e.sudoUid p.uid.eff) with
    | none =>
      rw [getConfigPath_missing hp hu]
      dsimp only
      rw [dropIds_uid, dropIds_gid, idle_iff, idle_iff]
      simp
    | some home =>
      obtain ⟨p', heq, huid, hgid, hpath⟩ := getConfigPath_found hp hu
      rw [heq]
      dsimp only
      rcases hpath with ⟨hnone, hfree⟩ | ⟨hsome, hfiles⟩
      · simp [huid, hgid, hnone, hfree]
      · simp [huid, hgid, hsome, hfiles, configDir_ne]

/-! ## Any number of calls -/

theorem kept_call {p p' : State} {e : Env} (hk : Kept p) (hr : Right p e) (hc : call p e = some p') : Kept p' := by
  cases hc
  intro path hpath
  cases hp : p.civConfigPath with
  | some old =>
    rw [getConfigPath_cached e hp] at hpath ⊢
    exact hk path hpath
  | none =>
    cases hu : e.getpwuid (sudoId e.sudoUid p.uid.eff) with
    | none =>
      rw [getConfigPath_missing hp hu] at hpath
      cases hpath
      exact .inl rfl
    | some home =>
      obtain ⟨p', heq, -⟩ := getConfigPath_found hp hu
      have hret : (getConfigPath e p).1 = some path := by
        rw [heq] at hpath ⊢
        exact hpath
      exact .inr (hr.2.2 path hret).2

/-- Exactly the calls that find no empty buffer, and that without a buffer find
the user and nothing in the way, or no user and no ids to take on, give the
effective ids back and a directory or nothing; in every sequence of calls, for
all ids, variables and files. -/
theorem configPath_right_iff (p : State) (h0 : p.civConfigPath = none) (es : List Env) :
    Guarded call Right p es ↔ Guarded call Sound p es :=
  guarded_congr (I := Kept) (fun _ _ _ => kept_call) (fun _ e hk => right_iff hk e) fun path hp => by
    rw [h0] at hp
    cases hp

/-- A manager that root has started. -/
def rootProcess : State where
  uid := { real := 0, eff := 0, saved := 0 }
  gid := { real := 0, eff := 0, saved := 0 }
  files _ := none

/-- Called through `sudo` by user 1000, who has this home. -/
def sudoCall (home : Option String) : Env where
  sudoUid := some "1000"
  sudoGid := some "1000"
  getpwuid _ := home
  creates _ := true

theorem configPath_right_root : Guarded call Right rootProcess [sudoCall (some "/home/civ"), sudoCall none] := by
  refine (configPath_right_iff rootProcess rfl _).2 ⟨⟨nofun, fun _ => nofun⟩, fun p hp => ?_⟩
  have hpath : p.civConfigPath = some "/home/civ/.intel/.civ" := by
    cases hp
    decide +kernel
  exact ⟨⟨by rw [hpath]; decide, by rw [hpath]; nofun⟩, fun _ _ => trivial⟩

/-- The user behind `sudo` is not known. The call gives up with their ids, and
the next one returns an empty path. -/
theorem configPath_empty : (getConfigPath (sudoCall none) rootProcess).1 = none ∧
    (getConfigPath (sudoCall none) rootProcess).2.uid.eff = 1000 ∧
    (getConfigPath (sudoCall none) (getConfigPath (sudoCall none) rootProcess).2).1 = some "" ∧
    ¬ Guarded call Right rootProcess [sudoCall none, sudoCall none] := by
  have huid : (getConfigPath (sudoCall none) rootProcess).2.uid.eff = 1000 := by decide +kernel
  refine ⟨rfl, huid, rfl, fun hg => ?_⟩
  have heff := hg.1.1
  rw [huid] at heff
  exact absurd heff (by decide)

end VmManager.ConfigPath
