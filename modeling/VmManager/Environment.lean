import VmManager.Client
import VmManager.LaunchTheorems
import VmManager.StateTheorems
import VmManager.Lib.Environ
/-!
# The environment of a VM's emulator

The client writes its own environment into the request, `StartVm` hands it to
the main process, and `ThreadMon` takes the texts apart again. `childEnv` is
what comes out of that; the rest is about who gets which texts.
-/
open Text Runs Environ

namespace VmManager

open VmBuilderQemu

/-! ## The texts -/

/-- A name in an environment. -/
structure EnvName where
  text : String
  no_eq : '=' ∉ text.toList
  deriving DecidableEq

theorem EnvName.ext {n m : EnvName} (h : n.text = m.text) : n = m := by
  cases n
  cases m
  cases h
  rfl

/-- `s.substr(0, s.find('='))`. -/
def entryName (s : String) : EnvName where
  text := .ofList (s.toList.takeWhile (· ≠ '='))
  no_eq := by
    rw [String.toList_ofList]
    exact fun h => by simpa using List.mem_takeWhile_imp h

/-- `s.substr(s.find('=') + 1)`; without a `=` the sum wraps around to 0. -/
def entryValue (s : String) : String :=
  match cut '=' s.toList with
  | some p => .ofList p.2
  | none => s

/-- The environment that `ThreadMon` makes of `env_data_`. -/
def childEnv {ε : Type} (E : Store ε EnvName String) (envData : List String) : ε :=
  envData.foldl (fun e s => if s.isEmpty then e else E.set e (entryName s) (entryValue s)) E.empty

theorem childEnv_eq {ε : Type} (E : Store ε EnvName String) (envData : List String) :
    childEnv E envData =
      E.load ((envData.filter fun s => !s.isEmpty).map fun s => (entryName s, entryValue s)) E.empty := by
  unfold childEnv Store.load
  generalize E.empty = e
  induction envData generalizing e with
  | nil => rfl
  | cons s ss ih =>
    rw [List.foldl_cons, ih]
    by_cases hs : s.isEmpty <;> simp [hs]

/-- How a variable is written in an environment. -/
def assignment (p : EnvName × String) : String := p.1.text ++ "=" ++ p.2

theorem cut_assignment (p : EnvName × String) :
    cut '=' (assignment p).toList = some (p.1.text.toList, p.2.toList) := by
  have ht : (assignment p).toList = p.1.text.toList ++ '=' :: p.2.toList := by simp [assignment]
  rw [ht]
  exact cut_append p.1.no_eq _

theorem entry_assignment (p : EnvName × String) : (entryName (assignment p), entryValue (assignment p)) = p := by
  have hc := cut_assignment p
  have hname : entryName (assignment p) = p.1 := by
    have ht : String.ofList ((assignment p).toList.takeWhile (· ≠ '=')) = p.1.text := by
      rw [cut_takeWhile hc, String.ofList_toList]
    exact EnvName.ext ht
  have hvalue : entryValue (assignment p) = p.2 := by simp [entryValue, hc]
  rw [hname, hvalue]

theorem assignment_ne_empty (p : EnvName × String) : (assignment p).isEmpty = false := by
  have h : (assignment p).toList ≠ [] := by simp [assignment]
  rw [Bool.eq_false_iff, ne_eq, String.isEmpty_iff]
  exact fun he => h (by rw [he]; rfl)

/-- What comes out for a name is what the last assignment to it says. -/
theorem childEnv_get {ε : Type} (E : Store ε EnvName String) (ps : List (EnvName × String)) (n : EnvName) :
    E.get (childEnv E (ps.map assignment)) n = ps.reverse.lookup n := by
  have hall : (ps.map assignment).filter (fun s => !s.isEmpty) = ps.map assignment := by
    refine List.filter_eq_self.2 fun s hs => ?_
    obtain ⟨p, -, rfl⟩ := List.mem_map.1 hs
    rw [assignment_ne_empty]
    rfl
  have hback : (ps.map assignment).map (fun s => (entryName s, entryValue s)) = ps := by
    rw [List.map_map]
    conv_rhs => rw [← List.map_id ps]
    exact List.map_congr_left fun p _ => entry_assignment p
  rw [childEnv_eq, hall, hback, E.get_load_empty]

/-! ## Where a VM comes from -/

section

variable {κ : Type} {h : Host κ} {s s' : Sys κ} {a : Act κ}

/-- The request the server handles, and the one each instance was created for. -/
structure Origins where
  serving : Option Request := none
  of : Nat → Option Request := fun _ => none

/-- The server's next step creates an instance. -/
def creates (s : Sys κ) : Bool :=
  match s.server with
  | .importFind _ name | .startFind _ name _ => !s.moving && (findVmInstance s.vmis name).isNone
  | .importDelete .. => true
  | _ => false

def recordOrigin (s : Sys κ) (a : Act κ) (f : Origins) : Origins :=
  match a with
  | .recv r => { f with serving := some r }
  | .server => if creates s then { f with of := Function.update f.of s.nextUid f.serving } else f
  | _ => f

/-- The environment that the handler has in its hands. -/
def ServerPc.env : ServerPc → Option (List String)
  | .startRead _ env | .startFind _ _ env | .building (.start env _) _ _ | .insert (.start env _) _
  | .startGet _ _ env _ => some env
  | _ => none

theorem recordOrigin_of (f : Origins) {uid : Nat} (hu : uid < s.nextUid) : (recordOrigin s a f).of uid = f.of uid := by
  unfold recordOrigin
  split
  · rfl
  · split
    · exact Function.update_of_ne (Nat.ne_of_lt hu) ..
    · rfl
  · rfl

theorem recordOrigin_serving (f : Origins) (ha : a.isRecv = false) : (recordOrigin s a f).serving = f.serving := by
  cases a with
  | recv r => cases ha
  | server => simp only [recordOrigin]; split <;> rfl
  | _ => rfl

/-- What a handler has in its hands it has from the step before. -/
theorem serverStep_env (hs : serverStep h s = some s') {env : List String} (he : s'.server.env = some env) :
    s.server.env = some env := by
  have hno : ∀ {p q : ServerPc}, s'.server = q → q.env = none → p.env = some env := by
    intro p q hq hn
    rw [hq, hn] at he
    cases he
  cases hpc : s.server <;> simp only [serverStep, hpc] at hs
  case loop | exited | hung => cases hs
  case startRead path env' =>
    cases hs
    obtain ⟨q, hq, rfl | ⟨e, -, -, rfl⟩ | ⟨cfg, -, rfl⟩⟩ := readConfig_cases h s path fun cfg name => .startFind cfg name env' <;>
      rw [hq] at he
    · cases he
    · cases he
    · exact he
  case startFind cfg name env' =>
    split at hs
    · cases hs
      exact hpc ▸ he
    · split at hs <;> cases hs
      · cases he
      · exact he
  case importRead path =>
    cases hs
    obtain ⟨q, hq, rfl | ⟨e, -, -, rfl⟩ | ⟨cfg, -, rfl⟩⟩ := readConfig_cases h s path .importFind <;> rw [hq] at he <;> cases he
  case importLock cfg name =>
    obtain ⟨s₁, hlock, rfl⟩ := Option.map_eq_some_iff.1 hs
    cases he
  case stopRpc name id cid =>
    cases hs
    change (if (h.shutdown s.world.kernel cid).1 = true then ServerPc.reply 0 else .stopStop name id).env = some env at he
    split at he <;> cases he
  case building p vb i =>
    cases hs
    rcases buildStep_cases h s p vb i with ⟨-, hb⟩ | ⟨st, -, ⟨vb', w, q, hq, hb⟩ | ⟨w, -, hb⟩⟩ <;> rw [hb] at he
    · cases p <;> exact he
    · rcases hq with ⟨-, rfl⟩ | ⟨-, rfl⟩ | ⟨e, -, rfl⟩
      · cases p <;> exact he
      · cases he
      · cases he
    · cases he
  case insert p vb =>
    split at hs
    · cases hs
      exact hpc ▸ he
    · cases p <;> cases hs
      · cases he
      · exact he
  case startGet pos uid env' waitReady =>
    split at hs <;> cases hs
    · exact hpc ▸ he
    · cases he
  all_goals
    repeat' split at hs
    all_goals cases hs
    all_goals first | exact hno hpc rfl | exact hno rfl rfl

/-- The instance that a handler builds is one it has built on, or has just been
created. -/
theorem serverStep_builder (hs : serverStep h s = some s') {vb' : VmBuilderQemu} (hb : s'.server.builder = some vb') :
    (∃ vb, s.server.builder = some vb ∧ vb'.uid = vb.uid) ∨ (creates s = true ∧ vb'.uid = s.nextUid) := by
  have hnew : ∀ {p q : ServerPc}, s'.server = q → q.builder = none → (∃ vb, p.builder = some vb ∧ vb'.uid = vb.uid) ∨
      (creates s = true ∧ vb'.uid = s.nextUid) := by
    intro p q hq hn
    rw [hq, hn] at hb
    cases hb
  cases hpc : s.server <;> simp only [serverStep, hpc] at hs
  case loop | exited | hung => cases hs
  case importRead path =>
    cases hs
    obtain ⟨q, hq, rfl | ⟨e, -, -, rfl⟩ | ⟨cfg, -, rfl⟩⟩ := readConfig_cases h s path .importFind <;>
      exact hnew (congrArg Sys.server hq) rfl
  case startRead path env =>
    cases hs
    obtain ⟨q, hq, rfl | ⟨e, -, -, rfl⟩ | ⟨cfg, -, rfl⟩⟩ := readConfig_cases h s path fun cfg name => .startFind cfg name env <;>
      exact hnew (congrArg Sys.server hq) rfl
  case importFind cfg name | startFind cfg name env =>
    split at hs
    · cases hs
      exact hnew hpc rfl
    · split at hs <;> cases hs <;> cases hb
      exact .inr ⟨by simp [creates, *], rfl⟩
  case importLock cfg name =>
    obtain ⟨s₁, hlock, rfl⟩ := Option.map_eq_some_iff.1 hs
    cases hb
  case importDelete cfg name =>
    cases hs
    cases hb
    exact .inr ⟨by simp [creates, hpc], deleteVmInstance_nextUid h s name⟩
  case stopRpc name id cid =>
    cases hs
    change (if (h.shutdown s.world.kernel cid).1 = true then ServerPc.reply 0 else .stopStop name id).builder = some vb' at hb
    split at hb <;> cases hb
  case building p vb i =>
    cases hs
    rcases buildStep_cases h s p vb i with ⟨-, he⟩ | ⟨st, hst, ⟨vb₁, w, q, hq, he⟩ | ⟨w, -, he⟩⟩ <;> rw [he] at hb
    · cases hb
      exact .inl ⟨_, rfl, rfl⟩
    · have hq' : q.builder = some vb₁ := build_builder hq
      obtain rfl := Option.some.inj (hq'.symm.trans hb)
      exact .inl ⟨vb, rfl, (build_all (buildSteps_cidStep hst vb s.world) hq).same.uid⟩
    · cases hb
  case insert p vb =>
    split at hs
    · cases hs
      rw [Sys.undefined, hpc] at hb
      cases hb
      exact .inl ⟨_, rfl, rfl⟩
    · cases p <;> cases hs <;> cases hb
  case discard vb | unwind e vb =>
    cases hs
    cases hb
  all_goals
    repeat' split at hs
    all_goals cases hs
    all_goals first | exact hnew hpc rfl | exact hnew rfl rfl

theorem entry_env {r : Request} {env : List String} (he : r.entry.env = some env) : ∃ path, r = .startVm path env := by
  cases r with
  | startVm path env' =>
    cases he
    exact ⟨path, rfl⟩
  | _ => cases he

/-- What the server holds belongs to the request it handles, and what is started
has the environment of the request it was created for. -/
structure EnvOwned (s : Sys κ) (f : Origins) : Prop where
  serving : ∀ env, s.server.env = some env → ∃ path, f.serving = some (.startVm path env)
  builder : ∀ vb, s.server.builder = some vb → f.of vb.uid = f.serving
  got : ∀ pos uid env waitReady, s.server = .startGet pos uid env waitReady → f.of uid = f.serving
  started : ∀ vb ∈ s.vmis, s.thread vb.uid ≠ .none → ∃ path env, f.of vb.uid = some (.startVm path env) ∧
    ∀ main ∈ vb.mainProc, main.envData = env

theorem recordOrigin_creates {f : Origins} (hc : creates s = true) :
    (recordOrigin s .server f).of s.nextUid = f.serving := by
  simp [recordOrigin, hc]

theorem step_serves (hs : step h s a = some s') : (a = .server ∧ serverStep h s = some s') ∨
    (∃ r, a = .recv r ∧ s'.server = r.entry) ∨ (a.isRecv = false ∧ s'.server = s.server ∧ recordOrigin s a = id) := by
  cases a with
  | recv r => exact .inr (.inl ⟨r, rfl, (recv_of_step hs).2⟩)
  | server => exact .inl ⟨rfl, serverStep_of_step hs⟩
  | _ => exact .inr (.inr ⟨rfl, server_of_other hs nofun nofun, rfl⟩)

theorem owned_serving {f : Origins} (hi : EnvOwned s f) (hs : step h s a = some s') : ∀ env, s'.server.env = some env →
    ∃ path, (recordOrigin s a f).serving = some (.startVm path env) := by
  intro env he
  rcases step_serves hs with ⟨rfl, hserve⟩ | ⟨r, rfl, hr⟩ | ⟨-, hsame, hf⟩
  · rw [recordOrigin_serving f rfl]
    exact hi.serving env (serverStep_env hserve he)
  · rw [hr] at he
    obtain ⟨path, rfl⟩ := entry_env he
    exact ⟨path, rfl⟩
  · rw [hf]
    exact hi.serving env (hsame ▸ he)

theorem owned_builder {f : Origins} (hr : Registry s) (hi : EnvOwned s f) (hs : step h s a = some s') :
    ∀ vb, s'.server.builder = some vb → (recordOrigin s a f).of vb.uid = (recordOrigin s a f).serving := by
  intro vb' hb
  rcases step_serves hs with ⟨rfl, hserve⟩ | ⟨r, rfl, hentry⟩ | ⟨-, hsame, hf⟩
  · rw [recordOrigin_serving f rfl]
    rcases serverStep_builder hserve hb with ⟨vb, hb, hu⟩ | ⟨hc, hu⟩ <;> rw [hu]
    · rw [recordOrigin_of f (hr.builder vb hb).1]
      exact hi.builder vb hb
    · exact recordOrigin_creates hc
  · rw [hentry] at hb
    cases r <;> cases hb
  · rw [hf]
    exact hi.builder vb' (hsame ▸ hb)

/-- `StartVm` looks for the instance that it has just inserted. -/
theorem serverStep_got (hs : serverStep h s = some s') {pos uid : Nat} {env : List String} {waitReady : Bool}
    (hpc : s'.server = .startGet pos uid env waitReady) :
    s.server = .startGet pos uid env waitReady ∨ ∃ vb, s.server.builder = some vb ∧ vb.uid = uid := by
  cases serverStep_move hs with
  | undefined => exact .inl hpc
  | quiet s' _ _ hq => exact absurd hpc (hq.no_get pos uid env waitReady)
  | insertStart vb env' waitReady' hins =>
    cases hpc
    exact .inr ⟨vb, by rw [hins]; rfl, rfl⟩
  | build p vb vb' w i st q _ _ hq => rcases hq with ⟨-, rfl⟩ | ⟨-, rfl⟩ | ⟨e, -, rfl⟩ <;> cases hpc
  | drop vb q hq => rcases hq with ⟨-, rfl⟩ | ⟨e, -, rfl⟩ <;> cases hpc
  | _ => cases hpc

theorem owned_got {f : Origins} (hr : Registry s) (hi : EnvOwned s f) (hs : step h s a = some s') :
    ∀ pos uid env waitReady, s'.server = .startGet pos uid env waitReady →
      (recordOrigin s a f).of uid = (recordOrigin s a f).serving := by
  intro pos uid env waitReady hpc
  rcases step_serves hs with ⟨rfl, hserve⟩ | ⟨r, rfl, hentry⟩ | ⟨-, hsame, hf⟩
  · rw [recordOrigin_serving f rfl]
    rcases serverStep_got hserve hpc with hgot | ⟨vb, hb, rfl⟩
    · rw [recordOrigin_of f (hr.got pos uid env waitReady hgot).1]
      exact hi.got pos uid env waitReady hgot
    · rw [recordOrigin_of f (hr.builder vb hb).1]
      exact hi.builder vb hb
  · rw [hentry] at hpc
    cases r <;> cases hpc
  · rw [hf]
    exact hi.got pos uid env waitReady (hsame ▸ hpc)

theorem step_starts (hr : Registry s) (hs : step h s a = some s') {uid : Nat} (hn : s.thread uid = .none)
    (hn' : s'.thread uid ≠ .none) : a = .server ∧ ∃ pos env waitReady, s.server = .startGet pos uid env waitReady ∧
      s'.vmis = (s.updateVm uid fun vb => { vb with mainProc := vb.mainProc.map ({ · with envData := env }) }).vmis := by
  rcases step_move hs with ⟨ha, hm⟩ | ⟨u, -, hm⟩ | hm
  · cases hm with
    | quiet s' hc => exact absurd (hc.thread ▸ hn) hn'
    | overwrite name => exact absurd ((deleteVmInstance_frame h s name).2.1 ▸ hn) hn'
    | get pos u env waitReady vb hpc hv =>
      obtain rfl := (hr.got pos u env waitReady hpc).2.2.2 vb hv
      have hu : uid = vb.uid := by
        by_contra hne
        exact hn' ((Function.update_of_ne hne ..).trans hn)
      subst hu
      have ha : a = .server := ha.resolve_right fun hl => by rw [hpc] at hl; cases hl
      exact ⟨ha, pos, env, waitReady, hpc, rfl⟩
    | _ => exact absurd hn hn'
  · by_cases he : uid = u
    · subst he
      rcases hm.started with rfl | hstarted
      · exact absurd hn hn'
      · exact absurd hn hstarted
    · exact absurd ((hm.counted.others uid he).1.trans hn) hn'
  · exact absurd (hm.frame.2 ▸ hn) hn'

theorem runCmd_envData {p p' : VmProcess} {k k' : κ} {cmd : String} (hr : p.runCmd h cmd k = some (p', k')) :
    p'.envData = p.envData := by
  unfold VmProcess.runCmd at hr
  split at hr <;> cases hr
  rfl

theorem run_envData {p p' : VmProcess} {k k' : κ} (hr : p.run h k = some (p', k')) : p'.envData = p.envData := by
  rcases p.run_command h k with ⟨-, he⟩ | ⟨cmd, k₀, -, he⟩ <;> rw [he] at hr
  · cases hr
    rfl
  · exact runCmd_envData hr

theorem stop_envData (p : VmProcess) (k : κ) : (p.stop h k).1.envData = p.envData := by
  have hs : (p.stopSimple h k).1.envData = p.envData := by
    unfold VmProcess.stopSimple
    split <;> rfl
  unfold VmProcess.stop
  split <;> exact hs

theorem exits_envData (p : VmProcess) : p.exits.envData = p.envData := by
  unfold VmProcess.exits
  split <;> rfl

theorem attaches_envData (p : VmProcess) : p.attaches.envData = p.envData := by
  unfold VmProcess.attaches
  split <;> rfl

theorem onProc_envData (i : Nat) {f : VmProcess → VmProcess} (hf : ∀ p, (f p).envData = p.envData) (vb : VmBuilderQemu) :
    (onProc i f vb).mainProc.map (·.envData) = vb.mainProc.map (·.envData) := by
  cases i with
  | zero => simp [onProc, Option.map_map, Function.comp_def, hf]
  | succ i => rfl

/-- Once its thread has started, the environment of a VM stays. -/
theorem Evolves.envData {vb vb' : VmBuilderQemu} (he : Evolves h s a vb vb') (hn : s.thread vb.uid ≠ .none)
    (hb : s.server.builder ≠ some vb) : vb'.mainProc.map (·.envData) = vb.mainProc.map (·.envData) := by
  cases he with
  | build p i st q vb' w _ hpc => exact absurd (by rw [hpc]; rfl) hb
  | get env hnone => exact absurd hnone hn
  | stop =>
    simp only [VmBuilderQemu.stopVm, VmBuilderQemu.stopProcs]
    cases vb.mainProc with
    | none => rfl
    | some p => exact congrArg some (stop_envData p _)
  | launch procs main₀ main k₀ k _ _ hmain _ hrun =>
    rw [hmain]
    exact congrArg some (run_envData hrun)
  | exits i => exact onProc_envData i exits_envData vb
  | attaches i => exact onProc_envData i attaches_envData vb
  | _ => rfl

theorem envData_iff {o : Option VmProcess} {env : List String} :
    (∀ main ∈ o, main.envData = env) ↔ ∀ e ∈ o.map (·.envData), e = env := by
  cases o <;> simp

theorem owned_started {f : Origins} (hr : Registry s) (hi : EnvOwned s f) (hs : step h s a = some s') :
    ∀ vb ∈ s'.vmis, s'.thread vb.uid ≠ .none → ∃ path env, (recordOrigin s a f).of vb.uid = some (.startVm path env) ∧
      ∀ main ∈ vb.mainProc, main.envData = env := by
  intro vb' hm hn'
  by_cases hn : s.thread vb'.uid = .none
  · obtain ⟨rfl, pos, env, waitReady, hpc, hv⟩ := step_starts hr hs hn hn'
    obtain ⟨path, hf⟩ := hi.serving env (by rw [hpc]; rfl)
    refine ⟨path, env, ?_, ?_⟩
    · rw [recordOrigin_of f (hr.got pos _ env waitReady hpc).1, hi.got pos _ env waitReady hpc]
      exact hf
    · rw [hv] at hm
      obtain ⟨vb, -, -, rfl⟩ := eq_of_mem_updateVm hm rfl
      intro main hmain
      obtain ⟨main₀, -, rfl⟩ := Option.map_eq_some_iff.1 hmain
      rfl
  · rcases step_vmis hr hs vb' hm with ⟨p, -, hpc⟩ | ⟨vb, hv, he⟩
    · exact absurd (hr.builder vb' (by rw [hpc]; rfl)).2.1 hn
    · rw [he.identity.uid] at hn ⊢
      obtain ⟨path, env, hf, hmain⟩ := hi.started vb hv hn
      have hb : s.server.builder ≠ some vb := fun hb => ((hr.builder vb hb).2.2.2 vb hv).1 rfl
      refine ⟨path, env, ?_, ?_⟩
      · rw [recordOrigin_of f (hr.lt vb hv)]
        exact hf
      · rw [envData_iff, he.envData hn hb, ← envData_iff]
        exact hmain

theorem envOwned_step {f : Origins} (hr : Registry s) (hi : EnvOwned s f) (hs : step h s a = some s') :
    EnvOwned s' (recordOrigin s a f) :=
  ⟨owned_serving hi hs, owned_builder hr hi hs, owned_got hr hi hs, owned_started hr hi hs⟩

theorem envOwned_init (k : κ) : EnvOwned (Sys.init k) {} := by
  constructor
  · exact fun _ he => by cases he
  · exact fun _ he => by cases he
  · exact fun _ _ _ _ he => by cases he
  · exact fun _ hm => by cases hm

theorem run_spawns {p p' : VmProcess} {k k' : κ} {cmd : String} (hk : p.kind = .simple cmd)
    (hr : p.run h k = some (p', k')) : k' = (h.spawn k cmd p.envData).2 := by
  unfold VmProcess.run at hr
  rw [hk] at hr
  dsimp only at hr
  unfold VmProcess.runCmd at hr
  split at hr <;> cases hr
  rfl

end

/-- Whoever else is served in between, an emulator is spawned with the
environment that the client wrote into the request the VM was created for, and
each variable has the value it was given last. -/
theorem emulator_gets_environment {κ ε : Type} (E : Store ε EnvName String) (h : Host κ) (k : κ) (s s' : Sys κ)
    (f : Origins) (as : List (Act κ)) (a : Act κ) (uid : Nat) (main : VmProcess)
    (hr : run (withHistory (step h) recordOrigin) (Sys.init k, {}) as = some (s, f)) (hs : step h s a = some s')
    (hmain : runsMain h uid s a main) : ∃ path env cmd k₀, f.of uid = some (.startVm path env) ∧
      main.kind = .simple cmd ∧ s'.world.kernel = (h.spawn k₀ cmd env).2 ∧ main.envData = env ∧
      ∀ ps : List (EnvName × String), env = ps.map assignment →
        ∀ n, E.get (childEnv E main.envData) n = ps.reverse.lookup n := by
  have hi : Instances s ∧ EnvOwned s f := by
    refine run_keeps (I := fun p => Instances p.1 ∧ EnvOwned p.1 p.2) (fun p b p' hi hb => ?_) hr
      ⟨instances_init k, envOwned_init k⟩
    obtain ⟨hb, hf⟩ := withHistory_eq.1 hb
    exact ⟨instances_step hi.1 hb, hf ▸ envOwned_step hi.1.registry hi.2 hb⟩
  obtain ⟨vb, main₀, procs, k₀, k₁, hf, hpc, hmain₀, hrun, rfl⟩ := runsMain_step hs hmain
  obtain ⟨hm, rfl⟩ := find_some hf
  obtain ⟨path, env, horigin, henv⟩ := hi.2.started vb hm (by rw [hpc]; nofun)
  obtain ⟨main', cmd, hmain', hk, -⟩ := (hi.1.launches.instances vb hm).main
  obtain rfl := Option.some.inj (hmain₀.symm.trans hmain')
  have hdata : main.envData = env := (run_envData hrun).trans (henv main₀ hmain₀)
  refine ⟨path, env, cmd, k₀, horigin, (run_simple hk hrun).1, ?_, hdata, ?_⟩
  · rw [← henv main₀ hmain₀]
    exact run_spawns hk hrun
  · rintro ps rfl n
    rw [hdata, childEnv_get]

/-- The variables of one client. -/
def someVariables : List (EnvName × String) :=
  [(⟨"A", by decide⟩, "1"), (⟨"B", by decide⟩, ""), (⟨"A", by decide⟩, "2=3")]

theorem emulator_gets_environment_last : ∃ s f s' main,
    run (withHistory (step twoVmHost) recordOrigin) (Sys.init (), {})
      (.recv (.startVm "/a.ini" ["A=1", "B=", "A=2=3"]) :: List.replicate 32 .server) = some (s, f) ∧
    step twoVmHost s (.thread 0) = some s' ∧ runsMain twoVmHost 0 s (.thread 0) main ∧
    (Store.ofFun EnvName String).get (childEnv (.ofFun EnvName String) main.envData) ⟨"A", by decide⟩ = some "2=3" := by
  have he : (run (withHistory (step twoVmHost) recordOrigin) (Sys.init (), {})
      (.recv (.startVm "/a.ini" ["A=1", "B=", "A=2=3"]) :: List.replicate 32 .server)).map (fun p =>
        (p.1.thread 0, p.2.of 0, (step twoVmHost p.1 (.thread 0)).isSome, ((p.1.find 0).bind fun vb =>
          vb.mainProc.bind fun main => (launchProcs twoVmHost vb.coProcs p.1.world.kernel).bind fun r =>
            main.run twoVmHost r.2).isSome)) =
      some (.launch, some (.startVm "/a.ini" (someVariables.map assignment)), true, true) := by decide +kernel
  obtain ⟨⟨s, f⟩, hr, he⟩ := Option.map_eq_some_iff.1 he
  obtain ⟨hpc, he⟩ := Prod.mk.inj he
  obtain ⟨hf, he⟩ := Prod.mk.inj he
  obtain ⟨hstep, hruns⟩ := Prod.mk.inj he
  obtain ⟨s', hs⟩ := Option.isSome_iff_exists.1 hstep
  obtain ⟨⟨main, k⟩, hruns⟩ := Option.isSome_iff_exists.1 hruns
  obtain ⟨vb, hvb, hruns⟩ := Option.bind_eq_some_iff.1 hruns
  obtain ⟨main₀, hmain₀, hruns⟩ := Option.bind_eq_some_iff.1 hruns
  obtain ⟨⟨procs, k₀⟩, hprocs, hrun⟩ := Option.bind_eq_some_iff.1 hruns
  have hmain : runsMain twoVmHost 0 s (.thread 0) main :=
    ⟨vb, main₀, procs, k₀, k, rfl, hpc, hvb, hmain₀, hprocs, hrun⟩
  obtain ⟨path, env, -, -, hof, -, -, -, hget⟩ :=
    emulator_gets_environment (.ofFun EnvName String) twoVmHost () s s' f _ (.thread 0) 0 main hr hs hmain
  obtain ⟨-, henv⟩ := Request.startVm.inj (Option.some.inj (hof.symm.trans hf))
  exact ⟨s, f, s', main, hr, hs, hmain, hget someVariables henv _⟩

end VmManager
