import VmManager.StateInvariants
/-!
# The host paths that the builders give out

A builder puts up to two paths of its own choice into the emulator command: the
RPMB socket, named after the time, and the first power socket that is not there
yet. What was given to whom is remembered beside the state.
-/
open Text Runs

namespace VmManager

variable {κ : Type}

namespace VmBuilderQemu

/-- The paths that `BuildExtraGuestPmCtrlCmd` tries. -/
def powerPaths : List String := (List.range maxNumGuest).map fun n => kQmpPowerSocket ++ toString n

/-- The power socket that the builder gives to the VM. -/
def powerPath (h : Host κ) (k : κ) (vb : VmBuilderQemu) : Option String :=
  if vb.value kGroupExtra kExtraPwrCtrlMultiOS = "true" then powerPaths.find? fun p => !h.access k p else none

/-- The RPMB socket that the builder gives to the VM. -/
def rpmbPath (h : Host κ) (k : κ) (vb : VmBuilderQemu) : Option String :=
  if !(vb.value kGroupRpmb kRpmbBinPath).isEmpty && !(vb.value kGroupRpmb kRpmbDataDir).isEmpty then
    some (kRpmbSockPrefix ++ h.strftime k "%Y-%m-%d_%T")
  else none

/-- The cleanup of a power socket is still to be done. -/
def queued (vb : VmBuilderQemu) : Bool := vb.endCall.contains .removeSocket

end VmBuilderQemu

open VmBuilderQemu

/-- The text stands in the emulator command. -/
def Mentions (vb : VmBuilderQemu) (text : String) : Prop := ∃ before rest, vb.emulCmd = before ++ text ++ rest

theorem Mentions.of_append {vb vb' : VmBuilderQemu} {text : String} (hm : Mentions vb text)
    (hc : ∃ more, vb'.emulCmd = vb.emulCmd ++ more) : Mentions vb' text := by
  obtain ⟨before, rest, he⟩ := hm
  obtain ⟨more, hc⟩ := hc
  exact ⟨before, rest ++ more, by simp only [hc, he, String.append_assoc]⟩

def rpmbOption (path : String) : String := " -chardev socket,id=rpmb0,path=" ++ path

def powerOption (path : String) : String := " -qmp unix:" ++ path ++ ",server,nowait"

theorem mentions_append (vb : VmBuilderQemu) (before text : String) : Mentions (vb.append (before ++ text)) text :=
  ⟨vb.emulCmd ++ before, "", by simp only [VmBuilderQemu.append, String.append_assoc, String.append_empty]⟩

theorem buildRpmbCmd_mentions {h : Host κ} {k : κ} {vb : VmBuilderQemu} {path : String}
    (hp : vb.rpmbPath h k = some path) : Mentions (vb.buildRpmbCmd h k) (rpmbOption path) := by
  unfold rpmbPath at hp
  unfold buildRpmbCmd
  dsimp only
  by_cases hc : (!(vb.value kGroupRpmb kRpmbBinPath).isEmpty && !(vb.value kGroupRpmb kRpmbDataDir).isEmpty) = true
  · rw [if_pos hc, Option.some.injEq] at hp
    have hassoc : ∀ a b : String, a ++ b ++ path = a ++ (b ++ path) := fun _ _ => String.append_assoc
    rw [if_pos hc, hp, hassoc]
    obtain ⟨before, rest, he⟩ := mentions_append vb (" -device virtio-serial,addr=1" ++
      " -device virtserialport,chardev=rpmb0,name=rpmb0,nr=1") (rpmbOption path)
    exact ⟨before, rest, he⟩
  · rw [if_neg hc] at hp
    cases hp

/-- What `BuildExtraGuestPmCtrlCmd` does: nothing without the option; with it
the cleanup is queued, and the path it has found is in the command and in the
static. -/
theorem buildExtra_cases (h : Host κ) (vb : VmBuilderQemu) (w : World κ) :
    ∃ vb' w', buildExtraGuestPmCtrlCmd h vb w = .ok vb' w' ∧
      ((vb.value kGroupExtra kExtraPwrCtrlMultiOS ≠ "true" ∧ vb.powerPath h w.kernel = none ∧ vb' = vb ∧ w' = w) ∨
       (vb.value kGroupExtra kExtraPwrCtrlMultiOS = "true" ∧ vb'.uid = vb.uid ∧ vb'.stopped = vb.stopped ∧
        vb'.endCall = vb.endCall ++ [.removeSocket] ∧ ∀ path, vb.powerPath h w.kernel = some path →
          w'.socketPath = path ∧ Mentions vb' (powerOption path))) := by
  unfold buildExtraGuestPmCtrlCmd
  dsimp only
  by_cases hv : vb.value kGroupExtra kExtraPwrCtrlMultiOS = "true"
  · rw [if_pos hv]
    have hpath : vb.powerPath h w.kernel = powerPaths.find? fun p => !h.access w.kernel p := by
      rw [powerPath, if_pos hv]
    rw [hpath]
    unfold powerPaths
    split
    · rename_i path hf
      refine ⟨_, _, rfl, .inr ⟨hv, rfl, rfl, rfl, fun path' he => ?_⟩⟩
      rw [hf, Option.some.injEq] at he
      subst he
      refine ⟨rfl, vb.emulCmd, "", ?_⟩
      simp only [queue, VmBuilderQemu.append, powerOption, String.append_empty]
    · rename_i hf
      refine ⟨_, _, rfl, .inr ⟨hv, rfl, rfl, rfl, fun path' he => ?_⟩⟩
      rw [hf] at he
      cases he
  · rw [if_neg hv]
    exact ⟨vb, w, rfl, .inl ⟨hv, by rw [powerPath, if_neg hv], rfl, rfl⟩⟩

/-! ## What was given out -/

structure Endpoints where
  rpmb : Option String := none
  power : Option String := none
  deriving DecidableEq, Repr

def rpmbIdx : Nat := ArgStep.rpmb.idx

/-- What is remembered of an action: the paths that a step of `BuildVmArgs`
gives to its VM. -/
def recordEndpoints (h : Host κ) (s : Sys κ) (a : Act κ) (e : Nat → Endpoints) : Nat → Endpoints :=
  match a, s.server with
  | .server, .building _ vb i =>
    Function.update e vb.uid
      { rpmb := if i = rpmbIdx then vb.rpmbPath h s.world.kernel else (e vb.uid).rpmb
        power := if i = powerIdx then vb.powerPath h s.world.kernel else (e vb.uid).power }
  | _, _ => e

theorem recordEndpoints_building (h : Host κ) {s : Sys κ} (e : Nat → Endpoints) {p : Purpose} {vb : VmBuilderQemu}
    {i : Nat} (hpc : s.server = .building p vb i) :
    recordEndpoints h s .server e = Function.update e vb.uid
      { rpmb := if i = rpmbIdx then vb.rpmbPath h s.world.kernel else (e vb.uid).rpmb
        power := if i = powerIdx then vb.powerPath h s.world.kernel else (e vb.uid).power } := by
  simp only [recordEndpoints, hpc]

theorem recordEndpoints_cases (h : Host κ) (s : Sys κ) (a : Act κ) (e : Nat → Endpoints) :
    (∃ p vb i, a = .server ∧ s.server = .building p vb i) ∨ recordEndpoints h s a e = e := by
  unfold recordEndpoints
  split
  · exact .inl ⟨_, _, _, rfl, ‹_›⟩
  · exact .inr rfl

/-- Nothing is remembered of the others. -/
theorem recordEndpoints_of_ne (h : Host κ) {s : Sys κ} (a : Act κ) (e : Nat → Endpoints) {uid : Nat}
    (hn : ∀ p vb i, s.server = .building p vb i → vb.uid ≠ uid) : recordEndpoints h s a e uid = e uid := by
  rcases recordEndpoints_cases h s a e with ⟨p, vb, i, rfl, hpc⟩ | he
  · rw [recordEndpoints_building h e hpc, Function.update_of_ne (Ne.symm (hn p vb i hpc))]
  · rw [he]

theorem recordEndpoints_idle (h : Host κ) {s : Sys κ} (a : Act κ) (e : Nat → Endpoints)
    (hn : ∀ p vb i, s.server ≠ .building p vb i) : recordEndpoints h s a e = e := by
  rcases recordEndpoints_cases h s a e with ⟨p, vb, i, -, hpc⟩ | he
  · exact absurd hpc (hn p vb i)
  · exact he

theorem recordEndpoints_aside (h : Host κ) (s : Sys κ) {a : Act κ} (e : Nat → Endpoints) (ha : a ≠ .server) :
    recordEndpoints h s a e = e := by
  rcases recordEndpoints_cases h s a e with ⟨p, vb, i, he, -⟩ | he
  · exact absurd he ha
  · exact he

theorem Endpoints.eq_empty {e : Endpoints} (hr : e.rpmb = none) (hp : e.power = none) : e = {} := by
  cases e
  cases hr
  cases hp
  rfl

/-- The paths are of their kinds. -/
structure OfKinds (e : Endpoints) : Prop where
  rpmb : ∀ path, e.rpmb = some path → ∃ time, path = kRpmbSockPrefix ++ time
  power : ∀ path, e.power = some path → path ∈ powerPaths

/-- The paths stand in the command of the VM. -/
structure InCommand (e : Endpoints) (vb : VmBuilderQemu) : Prop where
  rpmb : ∀ path, e.rpmb = some path → Mentions vb (rpmbOption path)
  power : ∀ path, e.power = some path → Mentions vb (powerOption path)

theorem InCommand.of_append {e : Endpoints} {vb vb' : VmBuilderQemu} (hi : InCommand e vb)
    (hc : ∃ more, vb'.emulCmd = vb.emulCmd ++ more) : InCommand e vb' :=
  ⟨fun path hp => (hi.rpmb path hp).of_append hc, fun path hp => (hi.power path hp).of_append hc⟩

theorem InCommand.empty (vb : VmBuilderQemu) : InCommand {} vb := ⟨nofun, nofun⟩

structure Given (s : Sys κ) (e : Nat → Endpoints) : Prop where
  fresh : ∀ uid, s.nextUid ≤ uid → e uid = {}
  kinds : ∀ uid, OfKinds (e uid)
  early : ∀ p vb i, s.server = .building p vb i →
    (i ≤ rpmbIdx → (e vb.uid).rpmb = none) ∧ (i ≤ powerIdx → (e vb.uid).power = none)
  building : ∀ p vb i, s.server = .building p vb i → InCommand (e vb.uid) vb
  insert : ∀ p vb, s.server = .insert p vb → InCommand (e vb.uid) vb
  instances : ∀ vb ∈ s.vmis, InCommand (e vb.uid) vb

theorem ofKinds_record {h : Host κ} {s : Sys κ} {a : Act κ} {e : Nat → Endpoints} (hi : ∀ uid, OfKinds (e uid))
    (uid : Nat) : OfKinds (recordEndpoints h s a e uid) := by
  rcases recordEndpoints_cases h s a e with ⟨p, vb, i, rfl, hpc⟩ | he
  · rw [recordEndpoints_building h e hpc]
    by_cases hu : uid = vb.uid
    · subst hu
      rw [Function.update_self]
      constructor <;> intro path hp <;> dsimp only at hp <;> split at hp
      · unfold rpmbPath at hp
        split at hp <;> cases hp
        exact ⟨_, rfl⟩
      · exact (hi vb.uid).rpmb path hp
      · unfold powerPath at hp
        split at hp
        · exact List.mem_of_find?_eq_some hp
        · cases hp
      · exact (hi vb.uid).power path hp
    · rw [Function.update_of_ne hu]
      exact hi uid
  · rw [he]
    exact hi uid

/-- A step of `BuildVmArgs` that returns true leaves the paths it has given out
in the command. -/
theorem inCommand_next {h : Host κ} {vb vb' : VmBuilderQemu} {w w' : World κ} {i : Nat} {st : Step κ} {e : Endpoints}
    (hst : (buildSteps h)[i]? = some st) (he : st vb w = .ok vb' w') (hi : InCommand e vb)
    (hearly : i = 0 → e = {}) :
    InCommand { rpmb := if i = rpmbIdx then vb.rpmbPath h w.kernel else e.rpmb
                power := if i = powerIdx then vb.powerPath h w.kernel else e.power } vb' := by
  by_cases h0 : i = 0
  · subst h0
    rw [hearly rfl]
    exact .empty vb'
  · have hold := hi.of_append (buildSteps_cmd hst h0 he)
    constructor <;> intro path hp <;> dsimp only at hp <;> split at hp
    · rename_i hr
      subst hr
      obtain rfl := buildSteps_run hst
      obtain ⟨rfl, -⟩ := Outcome.ok.inj he
      exact buildRpmbCmd_mentions hp
    · exact hold.rpmb path hp
    · rename_i hr
      subst hr
      obtain rfl := buildSteps_run hst
      obtain ⟨vb'', w'', he', ⟨-, hnone, -⟩ | ⟨-, -, -, -, hpath⟩⟩ := buildExtra_cases h vb w
      · rw [hnone] at hp
        cases hp
      · obtain ⟨rfl, -⟩ := Outcome.ok.inj (he'.symm.trans he)
        exact (hpath path hp).2
    · exact hold.power path hp

/-- The step of `BuildVmArgs` that returned true, and what is remembered of
it. -/
theorem Given.built {h : Host κ} {s : Sys κ} {e : Nat → Endpoints} (hi : Given s e) {p : Purpose}
    {vb vb' : VmBuilderQemu} {w : World κ} {i : Nat} {st : Step κ} (hpc : s.server = .building p vb i)
    (hst : (buildSteps h)[i]? = some st) (he : st vb s.world = .ok vb' w) :
    ((i + 1 ≤ rpmbIdx → (recordEndpoints h s .server e vb'.uid).rpmb = none) ∧
      (i + 1 ≤ powerIdx → (recordEndpoints h s .server e vb'.uid).power = none)) ∧
    InCommand (recordEndpoints h s .server e vb'.uid) vb' := by
  obtain ⟨h1, h2⟩ := hi.early p vb i hpc
  have hall := buildSteps_cidStep hst vb s.world
  rw [he] at hall
  cases hall with
  | ok hc =>
    rw [hc.same.uid, recordEndpoints_building h e hpc, Function.update_self]
    refine ⟨⟨fun hle => ?_, fun hle => ?_⟩, inCommand_next hst he (hi.building p vb i hpc) fun h0 => ?_⟩
    · dsimp only
      rw [if_neg (by omega)]
      exact h1 (by omega)
    · dsimp only
      rw [if_neg (by omega)]
      exact h2 (by omega)
    · exact Endpoints.eq_empty (h1 (by omega)) (h2 (by omega))

theorem given_step {h : Host κ} {s s' : Sys κ} {a : Act κ} {e : Nat → Endpoints} (hr : Registry s) (hi : Given s e)
    (hs : step h s a = some s') : Given s' (recordEndpoints h s a e) := by
  have hne : ∀ uid, (∀ vb, s.server.builder = some vb → vb.uid ≠ uid) → recordEndpoints h s a e uid = e uid :=
    fun uid hn => recordEndpoints_of_ne h a e fun p vb i hpc => hn vb (by rw [hpc]; rfl)
  have hnew : recordEndpoints h s a e s.nextUid = {} := by
    rw [hne _ fun vb hb => Nat.ne_of_lt (hr.builder vb hb).1]
    exact hi.fresh _ (Nat.le_refl _)
  refine ⟨fun uid hle => ?_, ofKinds_record hi.kinds, fun p vb' i' hpc => ?_, fun p vb' i' hpc => ?_, fun p vb hpc => ?_,
    fun vb' hm => ?_⟩
  · have hle := Nat.le_trans (step_nextUid hs) hle
    rw [hne uid fun vb hb => Nat.ne_of_lt (Nat.lt_of_lt_of_le (hr.builder vb hb).1 hle)]
    exact hi.fresh uid hle
  · rcases step_building hs hpc with ⟨ha, hpc⟩ | ⟨rfl, name, cfg, rfl⟩ | ⟨vb, i, st, w, rfl, rfl, hpc, hst, he⟩
    · rw [recordEndpoints_aside h s e ha]
      exact hi.early p vb' i' hpc
    · rw [hnew]
      exact ⟨fun _ => rfl, fun _ => rfl⟩
    · exact (hi.built hpc hst he).1
  · rcases step_building hs hpc with ⟨ha, hpc⟩ | ⟨rfl, name, cfg, rfl⟩ | ⟨vb, i, st, w, rfl, rfl, hpc, hst, he⟩
    · rw [recordEndpoints_aside h s e ha]
      exact hi.building p vb' i' hpc
    · rw [hnew]
      exact .empty _
    · exact (hi.built hpc hst he).2
  · rcases step_insert hs hpc with hpc | ⟨i, rfl, hpc, hend⟩
    · rw [recordEndpoints_idle h a e fun _ _ _ he => by rw [hpc] at he; cases he]
      exact hi.insert p vb hpc
    · have hout : ∀ b : ArgStep, i ≠ b.idx := fun b => Nat.ne_of_gt (ArgStep.idx_lt_of_end hend b)
      have hr : i ≠ rpmbIdx := hout .rpmb
      have hp : i ≠ powerIdx := hout .extraGuestPmCtrl
      rw [recordEndpoints_building h e hpc, Function.update_self, if_neg hr, if_neg hp]
      exact hi.building p vb i hpc
  · rcases step_vmis hr hs vb' hm with ⟨p, -, hpc⟩ | ⟨vb, hv, he⟩
    · rw [recordEndpoints_idle h a e fun _ _ _ he => by rw [hpc] at he; cases he]
      exact hi.insert p vb' hpc
    · have hother : ∀ vb₀, s.server.builder = some vb₀ → vb₀.uid ≠ vb.uid := fun vb₀ hb =>
        Ne.symm ((hr.builder vb₀ hb).2.2.2 vb hv).1
      rw [he.identity.uid, hne vb.uid hother]
      have hcmd := (he.command fun hb => hother vb hb rfl).1
      exact (hi.instances vb hv).of_append ⟨"", by rw [hcmd, String.append_empty]⟩

theorem given_init (k : κ) : Given (Sys.init k) fun _ => {} :=
  ⟨fun _ _ => rfl, fun _ => ⟨nofun, nofun⟩, fun _ _ _ he => (nomatch he), fun _ _ _ he => (nomatch he),
    fun _ _ he => (nomatch he), fun _ hm => nomatch hm⟩

end VmManager
