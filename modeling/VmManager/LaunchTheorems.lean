import VmManager.HostArgTheorems
import VmManager.LaunchInvariants
/-!
# The commands of a built VM

`Run` does not return for a command of nothing but spaces. `BuildVmArgs` makes no
such command, so `StartVm` gets through whatever it builds.
-/
open Text

namespace VmManager

open VmBuilderQemu

variable {κ : Type}

/-! ## Commands -/

/-- The command with which `VmProcSimple::Run` is entered; `none` when it is not,
for a vTPM without its data directory. -/
def VmProcess.command (h : Host κ) (p : VmProcess) (k : κ) : Option String :=
  match p.kind with
  | .simple cmd => some cmd
  | .rpmb bin dataDir sockFile => some (bin ++ " --dev " ++ (dataDir ++ "/" ++ kRpmbData) ++ " --sock " ++ sockFile)
  | .vtpm bin dataDir =>
    if h.pathExists k dataDir then
      some (bin ++ " socket --tpmstate dir=" ++ dataDir ++ " --tpm2 --ctrl type=unixio,path=" ++ dataDir ++ "/" ++ kVtpmSock)
    else none

/-- `Run` is `VmProcSimple::Run` of that command. -/
theorem VmProcess.run_command (h : Host κ) (p : VmProcess) (k : κ) :
    (p.command h k = none ∧ p.run h k = some (p, k)) ∨
      ∃ cmd k', p.command h k = some cmd ∧ p.run h k = p.runCmd h cmd k' := by
  unfold command run
  cases p.kind with
  | simple cmd => exact .inr ⟨cmd, k, rfl, rfl⟩
  | rpmb bin dataDir sockFile => exact .inr ⟨_, _, rfl, rfl⟩
  | vtpm bin dataDir =>
    by_cases he : h.pathExists k dataDir = true
    · refine .inr ⟨_, k, if_pos he, ?_⟩
      simp [he]
    · refine .inl ⟨if_neg he, ?_⟩
      simp [he]

theorem VmProcess.nonBlank_command {h : Host κ} {p : VmProcess} (hp : p.Runnable) {k : κ} {cmd : String}
    (hc : p.command h k = some cmd) : NonBlank cmd := by
  unfold command at hc
  split at hc
  · rename_i cmd' hk
    cases hc
    exact hp cmd hk
  · cases hc
    exact ((nonBlank_dev _ _).append_left _).append_left _
  · split at hc
    · cases hc
      have hb : NonBlank " socket --tpmstate dir=" := by decide
      exact (((((hb.append_right _).append_left _).append_left _).append_left _).append_left _).append_left _
    · cases hc

/-! ## What `BuildVmArgs` leaves -/

section
variable (h : Host κ)

/-- The command on the way through the steps from the `i`th on. -/
theorem commandAt_run {i : Nat} {vb vb' : VmBuilderQemu} {w w' : World κ} (hc : CommandAt vb i)
    (hok : runSteps ((buildSteps h).drop i) vb w = .ok vb' w') :
    ∃ j, (buildSteps h)[j]? = none ∧ CommandAt vb' j := by
  generalize hn : (buildSteps h).length - i = n
  induction n generalizing i vb w with
  | zero =>
    have hlen : (buildSteps h).length ≤ i := Nat.le_of_sub_eq_zero hn
    rw [List.drop_eq_nil_of_le hlen] at hok
    cases hok
    exact ⟨i, List.getElem?_eq_none hlen, hc⟩
  | succ n ih =>
    have hlt : i < (buildSteps h).length := by omega
    rw [List.drop_eq_getElem_cons hlt] at hok
    obtain ⟨vb1, w1, hst, hrest⟩ := runSteps_cons_ok hok
    exact ih (commandAt_next hc (List.getElem?_eq_getElem hlt) hst) hrest (by omega)

theorem buildVmArgs_sameVm (vb : VmBuilderQemu) (w : World κ) :
    (buildVmArgs h vb w).All fun vb' _ => SameVm vb vb' := by
  refine runSteps_all (R := fun vb _ vb' _ => SameVm vb vb') (fun vb _ => .refl vb) (fun h1 h2 => h1.trans h2) ?_ vb w
  intro st hst vb w
  obtain ⟨i, hi⟩ := List.getElem?_of_mem hst
  exact (buildSteps_cidStep hi vb w).imp fun _ _ hc => hc.same

theorem launchable_of_built {vb vb' : VmBuilderQemu} {w w' : World κ} (hp : ∀ p ∈ vb.coProcs, p.Runnable)
    (hok : buildVmArgs h vb w = .ok vb' w') : Launchable vb' := by
  have hends : (buildVmArgs h vb w).Ends vb' w' := hok ▸ .ok vb' w'
  have hsame : SameVm vb vb' := (buildVmArgs_sameVm h vb w).of_ends hends
  have hstart : CommandAt vb 0 := ⟨fun hlt => absurd hlt (by decide), fun hlt => absurd hlt (by decide)⟩
  obtain ⟨j, hend, hcmd, hmain⟩ := commandAt_run h hstart (w := w) hok
  have hpast := ArgStep.idx_lt_of_end hend
  exact ⟨hsame.procs hp, _, _, hmain (hpast _), rfl, hcmd (hpast _)⟩

/-! ## `StartVm` -/

/-- `StartVm` up to the end of `main_proc_->Run()`; `none` when a `Run` does not
return. -/
def VmBuilderQemu.launch (vb : VmBuilderQemu) (k : κ) : Option (VmBuilderQemu × κ) :=
  match vb.mainProc with
  | none => some (vb, k)
  | some main =>
    (launchProcs h vb.coProcs k).bind fun r =>
      (main.run h r.2).map fun m => ({ vb with coProcs := r.1, mainProc := some m.1 }, m.2)

/-- It is what the thread of a VM does first. -/
theorem threadStepOn_launch {s : Sys κ} {uid : Nat} {vb : VmBuilderQemu} (hpc : s.thread uid = .launch)
    (hmain : vb.mainProc ≠ none) :
    threadStepOn h s uid vb = some (s.setThread uid .stuck) ↔ vb.launch h s.world.kernel = none := by
  obtain ⟨main, hmain⟩ := Option.ne_none_iff_exists'.1 hmain
  unfold threadStepOn VmBuilderQemu.launch
  rw [hpc, hmain]
  dsimp only
  cases hprocs : launchProcs h vb.coProcs s.world.kernel with
  | none => simp
  | some r =>
    simp only [Option.bind_some]
    cases hrun : main.run h r.2 with
    | none => simp
    | some m =>
      simp only [Option.map_some, reduceCtorEq, iff_false]
      intro he
      have hthread := congrArg (fun s : Sys κ => s.thread uid) (Option.some.inj he)
      simp at hthread

/-- The same processes, whatever has become of them and of their environment. -/
structure SameKinds (vb vb' : VmBuilderQemu) : Prop where
  procs : vb'.coProcs.map (·.kind) = vb.coProcs.map (·.kind)
  main : vb'.mainProc.map (·.kind) = vb.mainProc.map (·.kind)

theorem Launchable.launch {vb : VmBuilderQemu} (hl : Launchable vb) (k : κ) : ∃ r, vb.launch h k = some r := by
  obtain ⟨main, procs, k', m, hmain, hprocs, hm⟩ := hl.runs h k
  rw [VmBuilderQemu.launch, hmain]
  dsimp only
  rw [hprocs, Option.bind_some, hm]
  exact ⟨_, rfl⟩

/-- Every process of a built VM has a command with something in it when it is
run, so that `StartVm` does not block. -/
theorem commands_nonBlank (uid : Nat) (name : String) (cfg : CivConfig) (w : World κ) (vb vb' : VmBuilderQemu)
    (w' : World κ) (hok : buildVmArgs h { uid, name, cfg } w = .ok vb w') (hk : SameKinds vb vb') :
    (∃ main, vb'.mainProc = some main ∧
      ∀ p ∈ main :: vb'.coProcs, ∀ k cmd, p.command h k = some cmd → NonBlank cmd) ∧
    ∀ k, ∃ r, vb'.launch h k = some r := by
  have hl : Launchable vb' :=
    (launchable_of_built h (fun p hm => absurd hm List.not_mem_nil) hok).of_kinds hk.procs hk.main
  obtain ⟨main, hmain, hrun⟩ := hl.main_runnable
  refine ⟨⟨main, hmain, fun p hp k cmd hcmd => ?_⟩, hl.launch h⟩
  rcases List.mem_cons.1 hp with rfl | hp
  · exact VmProcess.nonBlank_command hrun hcmd
  · exact VmProcess.nonBlank_command (hl.procs p hp) hcmd

end

theorem commands_nonBlank_nic : ∃ vb w',
    buildVmArgs nicHost { uid := 0, name := "vm", cfg := nicConfig "0000:03:00.0" } { kernel := () } = .ok vb w' ∧
      (∃ main, vb.mainProc = some main ∧
        ∀ p ∈ main :: vb.coProcs, ∀ k cmd, p.command nicHost k = some cmd → NonBlank cmd) ∧
      ∀ k, ∃ r, vb.launch nicHost k = some r := by
  have hsome : (buildVmArgs nicHost { uid := 0, name := "vm", cfg := nicConfig "0000:03:00.0" }
      { kernel := () }).success.isSome = true := by decide +kernel
  obtain ⟨⟨vb, w'⟩, hb⟩ := Option.isSome_iff_exists.1 hsome
  have hok := Outcome.eq_ok_of_success hb
  exact ⟨vb, w', hok, commands_nonBlank nicHost 0 "vm" _ _ vb vb w' hok ⟨rfl, rfl⟩⟩

end VmManager
