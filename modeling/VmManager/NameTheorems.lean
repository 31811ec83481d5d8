import VmManager.StateInvariants
/-!
# Theorems about the names of the VMs

An instance is registered, found and deleted by its name, and its QMP socket is
named after it. A VM's thread deletes by name, so it must still be its own VM
that has the name.
-/
open Text Runs

namespace VmManager

open VmBuilderQemu

variable {κ : Type}

/-! ## Where the names come from -/

/-- The config a handler works on, and the name it has read from it. -/
def ServerPc.config : ServerPc → Option (CivConfig × String)
  | .importFind cfg name | .importState cfg name _ | .importLock cfg name | .importDelete cfg name
  | .startFind cfg name _ => some (cfg, name)
  | .building _ vb _ | .insert _ vb | .discard vb | .unwind _ vb => some (vb.cfg, vb.name)
  | _ => none

/-- The name is the one in the config, and there is one. -/
def NamedBy (c : CivConfig × String) : Prop := c.2 = configName c.1 ∧ c.2 ≠ ""

theorem readConfig_config {h : Host κ} {s : Sys κ} {path : String} {next : CivConfig → String → ServerPc}
    {c : CivConfig × String} (hnext : ∀ cfg name, (next cfg name).config = some (cfg, name))
    (hc : (readConfig h s path next).server.config = some c) : NamedBy c := by
  obtain ⟨q, he, rfl | ⟨e, -, -, rfl⟩ | ⟨cfg, hn, rfl⟩⟩ := readConfig_cases h s path next <;> rw [he] at hc
  · cases hc
  · cases hc
  · rw [Sys.goto, hnext, Option.some.injEq] at hc
    rw [← hc]
    exact ⟨rfl, hn⟩

theorem buildStep_config {h : Host κ} {s : Sys κ} {p : Purpose} {vb : VmBuilderQemu} {i : Nat} {c : CivConfig × String}
    (hc : (buildStep h s p vb i).server.config = some c) : c = (vb.cfg, vb.name) := by
  rcases buildStep_cases h s p vb i with ⟨-, he⟩ | ⟨st, hst, ⟨vb', w, q, hq, he⟩ | ⟨w, -, he⟩⟩ <;> rw [he] at hc
  · cases hc
    rfl
  · have hsame := (build_all (buildSteps_cidStep hst vb s.world) hq).same
    rw [← hsame.cfg, ← hsame.name]
    rcases hq with ⟨-, rfl⟩ | ⟨-, rfl⟩ | ⟨e, -, rfl⟩ <;> cases hc <;> rfl
  · cases hc

/-- Only the two handlers that read a config come to have one. -/
theorem serverStep_config {h : Host κ} {s s' : Sys κ} {c : CivConfig × String} (hs : serverStep h s = some s')
    (hc : s'.server.config = some c) : s.server.config = some c ∨ NamedBy c := by
  cases hpc : s.server <;> simp only [serverStep, hpc] at hs
  case loop | exited | hung => cases hs
  case importRead path | startRead path env =>
    cases hs
    exact .inr (readConfig_config (fun _ _ => rfl) hc)
  case importLock cfg name =>
    obtain ⟨s₁, -, rfl⟩ := Option.map_eq_some_iff.1 hs
    exact .inl hc
  case building p vb i =>
    cases hs
    rw [buildStep_config hc]
    exact .inl rfl
  case insert p vb =>
    split at hs
    · cases hs
      rw [Sys.undefined, hpc] at hc
      exact .inl hc
    · cases p <;> cases hs <;> cases hc
  case stopRpc name id cid =>
    cases hs
    by_cases hok : (h.shutdown s.world.kernel cid).1 = true
    · rw [if_pos hok] at hc
      cases hc
    · rw [if_neg hok] at hc
      cases hc
  all_goals
    repeat' split at hs
    all_goals cases hs
    all_goals first
      | (cases hc; done)
      | exact .inl hc
      | (simp only [Sys.undefined, Sys.access, hpc] at hc; exact .inl hc)

theorem step_config {h : Host κ} {s s' : Sys κ} {a : Act κ} {c : CivConfig × String} (hs : step h s a = some s')
    (hc : s'.server.config = some c) : s.server.config = some c ∨ NamedBy c := by
  rcases step_server hs with ⟨-, hs⟩ | ⟨r, -, hpc⟩ | ⟨-, hpc⟩
  · exact serverStep_config hs hc
  · rw [hpc] at hc
    cases r <;> cases hc
  · exact .inl (hpc ▸ hc)

/-! ## The QMP socket -/

/-- The QMP socket named `name`. -/
def qmpSocket (h : Host κ) (name : String) : String := h.configPath ++ "/." ++ name ++ ".qmp.unix.socket"

theorem qmpSocket_inj {h : Host κ} {n n' : String} (he : qmpSocket h n = qmpSocket h n') : n = n' := by
  unfold qmpSocket at he
  rw [String.append_left_inj, String.append_right_inj] at he
  exact he

/-- What `BuildNameQmp` writes stands in the emulator command, with the socket
of the instance's own name. -/
def HasQmp (h : Host κ) (vb : VmBuilderQemu) : Prop :=
  ∃ path rest, vb.emulCmd = path ++ " -name " ++ vb.value kGroupGlob kGlobName ++ " -qmp unix:" ++
    qmpSocket h vb.name ++ ",server,nowait" ++ rest

/-- The main process has the emulator command to run. -/
def HasCmd (vb : VmBuilderQemu) : Prop := vb.mainProc.map (·.kind) = some (.simple vb.emulCmd)

theorem value_trim (vb : VmBuilderQemu) (group key : String) : trim (vb.value group key) = vb.value group key := by
  unfold value CivConfig.getValue
  split
  · rfl
  · exact trim_trim _

theorem buildNameQmp_hasQmp {h : Host κ} {vb vb' : VmBuilderQemu} (hn : vb.name = configName vb.cfg)
    (hb : vb.buildNameQmp h = (true, vb')) : HasQmp h vb' := by
  unfold buildNameQmp at hb
  rw [value_trim] at hb
  dsimp only at hb
  split at hb <;> cases hb
  refine ⟨vb.emulCmd, "", ?_⟩
  change _ = vb.emulCmd ++ " -name " ++ vb.value kGroupGlob kGlobName ++ " -qmp unix:" ++ qmpSocket h vb.name ++
    ",server,nowait" ++ ""
  rw [hn]
  simp only [VmBuilderQemu.append, qmpSocket, configName, value, String.append_assoc, String.append_empty]
  rfl

theorem HasQmp.of_append {h : Host κ} {vb vb' : VmBuilderQemu} (hq : HasQmp h vb) (hc : vb'.cfg = vb.cfg)
    (hn : vb'.name = vb.name) {more : String} (hcmd : vb'.emulCmd = vb.emulCmd ++ more) : HasQmp h vb' := by
  obtain ⟨path, rest, he⟩ := hq
  have hvalue : vb'.value kGroupGlob kGlobName = vb.value kGroupGlob kGlobName := by rw [value, hc, value]
  refine ⟨path, rest ++ more, ?_⟩
  rw [hcmd, he, hvalue, hn]
  simp only [String.append_assoc]

theorem hasQmp_next {h : Host κ} {vb vb' : VmBuilderQemu} {w w' : World κ} {i : Nat} {st : Step κ}
    (hn : vb.name = configName vb.cfg) (hst : (buildSteps h)[i]? = some st) (he : st vb w = .ok vb' w')
    (hq : ArgStep.nameQmp.idx < i → HasQmp h vb) (hi : ArgStep.nameQmp.idx < i + 1) : HasQmp h vb' := by
  by_cases h1 : i = ArgStep.nameQmp.idx
  · subst h1
    obtain rfl := buildSteps_run hst
    rw [ArgStep.run, checked] at he
    split at he <;> cases he
    exact buildNameQmp_hasQmp hn ‹_›
  · have hall := buildSteps_cidStep hst vb w
    rw [he] at hall
    cases hall with
    | ok hc =>
      have hpos : 0 < ArgStep.nameQmp.idx := by decide
      obtain ⟨more, hcmd⟩ := buildSteps_cmd hst (by omega) he
      exact (hq (by omega)).of_append hc.same.cfg hc.same.name hcmd

structure Named (h : Host κ) (s : Sys κ) : Prop where
  config : ∀ c, s.server.config = some c → NamedBy c
  building : ∀ p vb i, s.server = .building p vb i → ArgStep.nameQmp.idx < i → HasQmp h vb
  insert : ∀ p vb, s.server = .insert p vb → HasQmp h vb ∧ HasCmd vb
  instances : ∀ vb ∈ s.vmis, NamedBy (vb.cfg, vb.name) ∧ HasQmp h vb ∧ HasCmd vb

theorem Named.building_name {h : Host κ} {s : Sys κ} (hi : Named h s) {p : Purpose} {vb : VmBuilderQemu} {i : Nat}
    (hpc : s.server = .building p vb i) : vb.name = configName vb.cfg :=
  (hi.config (vb.cfg, vb.name) (by rw [hpc]; rfl)).1

theorem named_step {h : Host κ} {s s' : Sys κ} {a : Act κ} (hi : Instances s) (hn : Named h s)
    (hs : step h s a = some s') : Named h s' := by
  refine ⟨fun c hc => ?_, fun p vb i hpc hle => ?_, fun p vb hpc => ?_, fun vb' hm => ?_⟩
  · exact (step_config hs hc).elim (hn.config c) id
  · rcases step_building hs hpc with ⟨-, hpc⟩ | ⟨rfl, -⟩ | ⟨vb₀, j, st, w, -, rfl, hpc, hst, he⟩
    · exact hn.building p vb i hpc hle
    · exact absurd hle (by decide)
    · exact hasQmp_next (hn.building_name hpc) hst he (hn.building p vb₀ j hpc) hle
  · rcases step_insert hs hpc with hpc | ⟨i, -, hpc, hend⟩
    · exact hn.insert p vb hpc
    · have hpast := ArgStep.idx_lt_of_end hend
      refine ⟨hn.building p vb i hpc (hpast _), ?_⟩
      rw [HasCmd, (hi.launches.building p vb i hpc).2 (hpast _)]
      rfl
  · rcases step_vmis hi.registry hs vb' hm with ⟨p, -, hpc⟩ | ⟨vb, hv, he⟩
    · exact ⟨hn.config _ (by rw [hpc]; rfl), hn.insert p vb' hpc⟩
    · obtain ⟨hname, hqmp, hcmd⟩ := hn.instances vb hv
      have hb : s.server.builder ≠ some vb := fun hb => ((hi.registry.builder vb hb).2.2.2 vb hv).1 rfl
      obtain ⟨hsame, hmain⟩ := he.command hb
      have hid := he.identity
      refine ⟨by rw [hid.cfg, hid.name]; exact hname, ?_, by rw [HasCmd, hmain, hsame]; exact hcmd⟩
      exact hqmp.of_append hid.cfg hid.name (hsame.trans String.append_empty.symm)

theorem named_init (h : Host κ) (k : κ) : Named h (Sys.init k) :=
  ⟨fun _ he => (nomatch he), fun _ _ _ he => (nomatch he), fun _ _ he => (nomatch he), fun _ hm => nomatch hm⟩

/-! ## Deletion by name -/

/-- Between `FindVmInstance` of `ImportVm` and its check of the state no other
thread runs. -/
def checksAtOnce (s : Sys κ) (a : Act κ) : Bool :=
  match s.server, a with
  | .importState .., .server => true
  | .importState .., _ => false
  | _, _ => true

/-- A thread on its way has its VM, and `ImportVm` overwrites only VMs without
a thread. -/
structure Manned (s : Sys κ) : Prop where
  registered : ∀ uid, s.thread uid ≠ .none → (s.thread uid).gone = false → Registered s uid
  idle : ∀ cfg name, s.server = .importLock cfg name ∨ s.server = .importDelete cfg name →
    ∀ vb ∈ s.vmis, vb.name = name → s.thread vb.uid = .none

/-- The instance whose state `ImportVm` checks is the one it has found. -/
def Checked (s : Sys κ) : Prop :=
  ∀ cfg name id, s.server = .importState cfg name id → findVmInstance s.vmis name = some id

/-- How the server comes to check the state for `ImportVm`, and to overwrite. -/
structure ImportMove (s s' : Sys κ) (cfg : CivConfig) (name : String) : Prop where
  found : ∀ id, s'.server = .importState cfg name id →
    s'.vmis = s.vmis ∧ (s.server = .importState cfg name id ∨ findVmInstance s.vmis name = some id)
  checked : s'.server = .importLock cfg name → s'.vmis = s.vmis ∧ s'.thread = s.thread ∧
    ∃ id vb, s.server = .importState cfg name id ∧ s.vmAt id = some vb ∧ (vb.state = .empty ∨ vb.state = .created)
  locked : s'.server = .importDelete cfg name → s'.vmis = s.vmis ∧ s'.thread = s.thread ∧ s.server = .importLock cfg name

/-- Between the lookup of `ImportVm` and the end of its `DeleteVmInstance`. -/
def ServerPc.overwrites : ServerPc → Bool
  | .importState .. | .importLock .. | .importDelete .. => true
  | _ => false

theorem ImportMove.of_server {s s' : Sys κ} {cfg : CivConfig} {name : String} {q : ServerPc} (hq : s'.server = q)
    (hn : q.overwrites = false) : ImportMove s s' cfg name := by
  refine ⟨fun id hpc => ?_, fun hpc => ?_, fun hpc => ?_⟩ <;> rw [← hq, hpc] at hn <;> cases hn

theorem serverStep_import {h : Host κ} {s s' : Sys κ} {cfg : CivConfig} {name : String} (hs : serverStep h s = some s') :
    ImportMove s s' cfg name := by
  cases hpc : s.server <;> simp only [serverStep, hpc] at hs
  case loop | exited | hung => cases hs
  case importRead path | startRead path env =>
    cases hs
    obtain ⟨q, he, rfl | ⟨e, -, -, rfl⟩ | ⟨cfg', -, rfl⟩⟩ := readConfig_cases h s path _ <;> rw [he] <;>
      exact .of_server rfl rfl
  case importFind cfg' name' =>
    split at hs
    · cases hs
      exact .of_server hpc rfl
    · split at hs <;> cases hs
      · exact .of_server rfl rfl
      · refine ⟨fun id he => ?_, fun he => (by cases he), fun he => by cases he⟩
        cases he
        exact ⟨rfl, .inr ‹_›⟩
  case importState cfg' name' id' =>
    split at hs
    · cases hs
      refine ⟨fun id he => ⟨rfl, .inl he⟩, fun he => ?_, fun he => ?_⟩ <;> cases hpc.symm.trans he
    · rename_i vb hv
      split at hs <;> cases hs
      · exact .of_server rfl rfl
      · rename_i hst
        refine ⟨fun id he => (by cases he), fun he => ?_, fun he => by cases he⟩
        cases he
        exact ⟨rfl, rfl, id', vb, hpc, hv, by tauto⟩
  case importLock cfg' name' =>
    obtain ⟨s₁, hlock, rfl⟩ := Option.map_eq_some_iff.1 hs
    obtain ⟨-, rfl⟩ := lockVmis_some hlock
    refine ⟨fun id he => (by cases he), fun he => (by cases he), fun he => ?_⟩
    cases he
    exact ⟨rfl, rfl, hpc⟩
  case building p vb i =>
    cases hs
    rcases buildStep_cases h s p vb i with ⟨-, he⟩ | ⟨st, -, ⟨vb', w, q, hq, he⟩ | ⟨w, -, he⟩⟩ <;> rw [he]
    · exact .of_server rfl rfl
    · rcases hq with ⟨-, rfl⟩ | ⟨-, rfl⟩ | ⟨e, -, rfl⟩ <;> exact .of_server rfl rfl
    · exact .of_server rfl rfl
  case insert p vb =>
    split at hs
    · cases hs
      exact .of_server hpc rfl
    · cases p <;> cases hs <;> exact .of_server rfl rfl
  case stopRpc name' id' cid =>
    cases hs
    by_cases hok : (h.shutdown s.world.kernel cid).1 = true
    · rw [if_pos hok]
      exact .of_server rfl rfl
    · rw [if_neg hok]
      exact .of_server rfl rfl
  all_goals
    repeat' split at hs
    all_goals cases hs
    all_goals first | exact .of_server hpc rfl | exact .of_server rfl rfl

theorem Registered.of_uids {s s' : Sys κ} {u : Nat} (hi : Registered s u)
    (hu : ∀ u ∈ s.vmis.map (·.uid), u ∈ s'.vmis.map (·.uid)) : Registered s' u := by
  obtain ⟨vb, hm, rfl⟩ := hi
  obtain ⟨vb', hm', he⟩ := List.mem_map.1 (hu vb.uid (List.mem_map_of_mem hm))
  exact ⟨vb', hm', he⟩

/-- The server starts no thread for a VM that is not registered, and removes no
VM that has a thread. -/
theorem manned_server {h : Host κ} {s s' : Sys κ} (hr : Registry s) (hi : Manned s) (hm : ServerMove h s s') :
    ∀ u, s'.thread u ≠ .none → (s'.thread u).gone = false → Registered s' u := by
  -- The threads are where they were, and every VM with a thread is still there.
  have hkeep : s'.thread = s.thread → (∀ u, s.thread u ≠ .none → Registered s u → Registered s' u) →
      ∀ u, s'.thread u ≠ .none → (s'.thread u).gone = false → Registered s' u := by
    intro ht hv u hn hg
    rw [ht] at hn hg
    exact hv u hn (hi.registered u hn hg)
  have hsame : s'.thread = s.thread → s'.vmis = s.vmis →
      ∀ u, s'.thread u ≠ .none → (s'.thread u).gone = false → Registered s' u := fun ht hv =>
    hkeep ht fun u _ hu => hu.of_uids fun _ hm => hv.symm ▸ hm
  have hinsert : ∀ vb, s'.thread = s.thread → s'.vmis = s.vmis ++ [vb] →
      ∀ u, s'.thread u ≠ .none → (s'.thread u).gone = false → Registered s' u := fun vb ht hv =>
    hkeep ht fun u _ hu => hu.of_uids fun _ hm => by
      rw [hv, List.map_append]
      exact List.mem_append_left _ hm
  cases hm with
  | quiet s' hc => exact hsame hc.thread hc.vmis
  | stop name id vb hpc hv =>
    have huids : (s.vmis.set id (vb.stopVm h s.world).1).map (·.uid) = s.vmis.map (·.uid) := map_set_of (vmAt_get hv) rfl
    exact hkeep rfl fun u _ hu => hu.of_uids fun _ hm => huids.symm ▸ hm
  | overwrite name cfg hpc =>
    refine hkeep (deleteVmInstance_frame h s name).2.1 fun u hn hu => ?_
    obtain ⟨vb, hm, rfl⟩ := hu
    rcases deleteVmInstance_cases h s name with ⟨-, he⟩ | ⟨id, vb', -, hv, rfl, -⟩
    · exact ⟨vb, by rw [startBuild, he]; exact hm, rfl⟩
    · have hm' := List.mem_of_getElem? hv
      refine ⟨vb, ((deleteVmInstance_deleted h hr hm').mem vb).2 ⟨hm, fun he => hn ?_⟩, rfl⟩
      rw [he]
      exact hi.idle cfg vb'.name (.inr hpc) vb' hm' rfl
  | insertImport vb => exact hinsert vb rfl rfl
  | insertStart vb => exact hinsert vb rfl rfl
  | get pos uid env waitReady vb hpc hv =>
    intro u hn hg
    have hvb : Registered s vb.uid := ⟨vb, List.mem_of_getElem? hv, rfl⟩
    have huids : ∀ u, Registered s u → Registered (s.updateVm vb.uid fun vb =>
        { vb with mainProc := vb.mainProc.map ({ · with envData := env }) }) u := fun u hu =>
      registered_updateVm hu vb.uid fun _ => rfl
    by_cases he : u = vb.uid
    · exact he ▸ huids vb.uid hvb
    · change Function.update s.thread vb.uid .launch u ≠ .none at hn
      change (Function.update s.thread vb.uid .launch u).gone = false at hg
      rw [Function.update_of_ne he] at hn hg
      exact huids u (hi.registered u hn hg)
  | _ => exact hsame rfl rfl

/-- A thread removes its own VM, and it is gone then. -/
theorem manned_thread {h : Host κ} {s s' : Sys κ} {uid : Nat} (hr : Registry s) (hi : Manned s)
    (hm : ThreadMove h s uid s') : ∀ u, s'.thread u ≠ .none → (s'.thread u).gone = false → Registered s' u := by
  intro u hn hg
  by_cases he : uid = u
  · subst he
    have hstays : s' = s.undefined ∨ (s.thread uid ≠ .none ∧ (s.thread uid).gone = false ∧
        s.thread uid ≠ .delete ∧ s.thread uid ≠ .giveUp) := by
      cases hm with
      | undefined => exact .inl rfl
      | delete vb => rw [setThread_self] at hg; cases hg
      | giveUp vb => rw [setThread_self] at hg; cases hg
      | giveUpNotify => rw [setThread_self] at hg; cases hg
      | exited vb _ hpc | lock vb p _ _ hpc =>
        rcases hpc with ⟨hpc, -⟩ | ⟨hpc, -⟩ <;> rw [hpc] <;> exact .inr ⟨nofun, rfl, nofun, nofun⟩
      | _ => rw [‹s.thread uid = _›]; exact .inr ⟨nofun, rfl, nofun, nofun⟩
    rcases hstays with rfl | ⟨hstarted, hthere, hstays⟩
    · exact hi.registered uid hn hg
    · exact hm.registered hr (hi.registered uid hstarted hthere) fun _ => hstays
  · rw [(hm.counted.others u (Ne.symm he)).1] at hn hg
    exact hm.registered hr (hi.registered u hn hg) fun heq => absurd heq he

theorem thread_stays_none {h : Host κ} {s s' : Sys κ} {a : Act κ} (hs : step h s a = some s')
    (hl : s.server ≠ .loop) (ha : a ≠ .server) {u : Nat} (hn : s.thread u = .none) : s'.thread u = .none := by
  rcases step_move hs with ⟨ha' | hl', -⟩ | ⟨uid, -, hm⟩ | hm
  · exact absurd ha' ha
  · exact absurd hl' hl
  · by_cases he : u = uid
    · subst he
      rcases hm.started with rfl | hstarted
      · exact hn
      · exact absurd hn hstarted
    · rw [(hm.counted.others u he).1]
      exact hn
  · rw [hm.frame.2]
    exact hn

/-- A VM that nobody has started has no thread: its state says so, as no VM is
being started meanwhile. -/
theorem Instances.thread_none {s : Sys κ} (hi : Instances s) (hn : ∀ uid waitReady, s.server ≠ .startWait uid waitReady)
    {vb : VmBuilderQemu} (hm : vb ∈ s.vmis) (hst : vb.state = .empty ∨ vb.state = .created) :
    s.thread vb.uid = .none := by
  have hbooted : (s.thread vb.uid).booted = false := by
    refine Bool.eq_false_iff.2 fun hb => ?_
    rcases (hi.boots.instances vb hm).booted hb with he | he <;> rw [he] at hst <;> simp at hst
  have hearly := (hi.threads.idle hn vb.uid).1
  cases hpc : s.thread vb.uid <;> rw [hpc] at hbooted hearly <;> first | rfl | (cases hbooted; done) | cases hearly

/-- As long as `ImportVm` checks the instance of the name that was asked for. -/
theorem manned_step {h : Host κ} {s s' : Sys κ} {a : Act κ} (hi : Instances s) (hm : Manned s)
    (hc : ∀ cfg name id vb, s.server = .importState cfg name id → s.vmAt id = some vb → vb.name = name)
    (hs : step h s a = some s') : Manned s' := by
  refine ⟨?_, fun cfg name hpc vb' hv hname => ?_⟩
  · rcases step_move hs with ⟨-, hsm⟩ | ⟨uid, -, htm⟩ | hom
    · exact manned_server hi.registry hm hsm
    · exact manned_thread hi.registry hm htm
    · intro u hn hgone
      rw [hom.frame.2] at hn hgone
      exact hom.registered (hm.registered u hn hgone)
  · rcases step_server hs with ⟨-, hs⟩ | ⟨r, -, hr⟩ | ⟨ha, hsame⟩
    · rcases hpc with hpc | hpc
      · obtain ⟨hvmis, hthread, id, vb, hfrom, hvb, hst⟩ := (serverStep_import hs).checked hpc
        have hvm := List.mem_of_getElem? (vmAt_get hvb)
        rw [hvmis] at hv
        obtain rfl := hi.registry.eq_of_name hv hvm (hname.trans (hc cfg name id vb hfrom hvb).symm)
        rw [hthread]
        exact hi.thread_none (by rw [hfrom]; exact nofun) hvm hst
      · obtain ⟨hvmis, hthread, hfrom⟩ := (serverStep_import hs).locked hpc
        rw [hthread]
        exact hm.idle cfg name (.inl hfrom) vb' (hvmis ▸ hv) hname
    · rw [hr] at hpc
      rcases hpc with hpc | hpc <;> cases r <;> cases hpc
    · rw [hsame] at hpc
      have hloop : s.server ≠ .loop := by rcases hpc with hpc | hpc <;> rw [hpc] <;> exact nofun
      rcases step_vmis hi.registry hs vb' hv with ⟨p, -, hins⟩ | ⟨vb, hvb, he⟩
      · rcases hpc with hpc | hpc <;> rw [hpc] at hins <;> cases hins
      · have hold := hm.idle cfg name hpc vb hvb (he.identity.name.symm.trans hname)
        rw [he.identity.uid]
        exact thread_stays_none hs hloop ha hold

theorem manned_init (k : κ) : Manned (Sys.init k) :=
  ⟨fun _ hn => absurd rfl hn, fun _ _ he => (by rcases he with he | he <;> cases he)⟩

theorem checked_step {h : Host κ} {s s' : Sys κ} {a : Act κ} (hi : Checked s) (hg : checksAtOnce s a = true)
    (hs : step h s a = some s') : Checked s' := by
  intro cfg name id hpc
  rcases step_server hs with ⟨-, hs⟩ | ⟨r, -, hr⟩ | ⟨ha, hsame⟩
  · obtain ⟨hv, hpc | hf⟩ := (serverStep_import hs).found id hpc
    · rw [hv]
      exact hi cfg name id hpc
    · rw [hv]
      exact hf
  · rw [hr] at hpc
    cases r <;> cases hpc
  · -- No other thread runs at this place.
    rw [hsame] at hpc
    cases a <;> simp [checksAtOnce, hpc] at hg ha

theorem Checked.name {s : Sys κ} (hi : Checked s) {cfg : CivConfig} {name : String} {id : Nat} {vb : VmBuilderQemu}
    (hpc : s.server = .importState cfg name id) (hv : s.vmAt id = some vb) : vb.name = name := by
  obtain ⟨vb', hv', hn⟩ := findVmInstance_some (hi cfg name id hpc)
  cases (vmAt_get hv).symm.trans hv'
  exact hn

/-! ## The theorem -/

/-- `DeleteVmInstance` of a registered VM's name removes that VM. -/
theorem deleteVmInstance_erase {h : Host κ} {s : Sys κ} (hr : Registry s) {vb : VmBuilderQemu} (hm : vb ∈ s.vmis) :
    (deleteVmInstance h s vb.name).vmis = s.vmis.erase vb := by
  rcases deleteVmInstance_cases h s vb.name with ⟨hn, -⟩ | ⟨id, vb', -, hv, hn, he⟩
  · exact absurd rfl (findVmInstance_none.1 hn vb hm)
  · obtain rfl := hr.eq_of_name (List.mem_of_getElem? hv) hm hn
    obtain ⟨hlt, hget⟩ := List.getElem?_eq_some_iff.1 hv
    have hnd : s.vmis.Nodup := .of_map _ hr.uids
    rw [he, ← hget, hnd.erase_getElem id hlt]

/-- In every run in which `ImportVm` checks the state in one step with its
lookup: the VMs have names of their own, without a comma, their command lines
have the QMP sockets of these names, and a VM's thread deletes its own VM. -/
theorem names_distinct (h : Host κ) (k : κ) (s : Sys κ) (as : List (Act κ))
    (hr : run (step h) (Sys.init k) as = some s)
    (hg : Guarded (step h) (fun s a => checksAtOnce s a = true) (Sys.init k) as) :
    (s.vmis.map (·.name)).Nodup ∧ (∀ vb ∈ s.vmis, vb.name ≠ "" ∧ ',' ∉ vb.name.toList) ∧
    (∀ vb ∈ s.vmis, HasQmp h vb ∧ HasCmd vb) ∧ (s.vmis.map fun vb => qmpSocket h vb.name).Nodup ∧
    ∀ uid, s.thread uid = .delete ∨ s.thread uid = .giveUp → ∃ vb ∈ s.vmis, vb.uid = uid ∧
      ∀ s', step h s (.thread uid) = some s' → s'.vmis = s.vmis.erase vb := by
  obtain ⟨hi, hn, hm, -⟩ : Instances s ∧ Named h s ∧ Manned s ∧ Checked s := by
    refine run_keeps_guarded (I := fun s => Instances s ∧ Named h s ∧ Manned s ∧ Checked s)
      (fun s a s' hi hg hs => ?_) hr hg ⟨instances_init k, named_init h k, manned_init k, fun _ _ _ he => nomatch he⟩
    obtain ⟨hi, hn, hm, hc⟩ := hi
    exact ⟨instances_step hi hs, named_step hi hn hs, manned_step hi hm (fun _ _ _ _ => hc.name) hs, checked_step hc hg hs⟩
  refine ⟨hi.registry.names, fun vb hv => ?_, fun vb hv => (hn.instances vb hv).2, ?_, fun uid hpc => ?_⟩
  · obtain ⟨hname, hne⟩ := (hn.instances vb hv).1
    replace hname : vb.name = configName vb.cfg := hname
    refine ⟨hne, ?_⟩
    rw [hname]
    exact split_head_not_mem ',' _
  · have hsockets : (s.vmis.map fun vb => qmpSocket h vb.name) = (s.vmis.map (·.name)).map (qmpSocket h) := by
      rw [List.map_map]
      rfl
    rw [hsockets]
    exact hi.registry.names.map fun _ _ => qmpSocket_inj
  · obtain ⟨vb, hv, rfl⟩ := hm.registered uid (by rcases hpc with hpc | hpc <;> rw [hpc] <;> exact nofun)
      (by rcases hpc with hpc | hpc <;> rw [hpc] <;> rfl)
    refine ⟨vb, hv, rfl, fun s' hs => ?_⟩
    have hf := hi.registry.find hv
    unfold step at hs
    split at hs
    · cases hs
    · rcases hpc with hpc | hpc <;> simp only [threadStep, threadStepOn, hpc, hf] at hs <;> split at hs <;> cases hs <;>
        exact deleteVmInstance_erase hi.registry hv

/-- `a` and `b` are running, and the emulator of `a` has exited. -/
def aExited : List (Act Unit) := startUp "/a.ini" 0 ++ startUp "/b.ini" 1 ++ [.exit 0 0, .thread 0, .thread 0]

theorem names_distinct_two : ∃ s s' vb, run (step twoVmHost) (Sys.init ()) aExited = some s ∧
    s.vmis.map (·.name) = ["a", "b"] ∧ s.thread 0 = .delete ∧ step twoVmHost s (.thread 0) = some s' ∧ vb.uid = 0 ∧
    s'.vmis = s.vmis.erase vb := by
  have he : (run (step twoVmHost) (Sys.init ()) aExited).map (fun s => (s.vmis.map (·.name), s.thread 0,
      (step twoVmHost s (.thread 0)).map fun s' => s'.vmis.map (·.name))) =
        some (["a", "b"], .delete, some ["b"]) := by decide +kernel
  obtain ⟨s, hs, he⟩ := Option.map_eq_some_iff.1 he
  obtain ⟨hnames, he⟩ := Prod.mk.inj he
  obtain ⟨hpc, he⟩ := Prod.mk.inj he
  obtain ⟨s', hs', -⟩ := Option.map_eq_some_iff.1 he
  obtain ⟨vb, -, hu, hdel⟩ := (names_distinct twoVmHost () s _ hs (by decide +kernel)).2.2.2.2 0 (.inl hpc)
  exact ⟨s, s', vb, hs, hnames, hpc, hs', hu, hdel s' hs'⟩

end VmManager
