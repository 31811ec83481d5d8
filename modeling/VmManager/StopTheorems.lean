import VmManager.DeviceTheorems
import VmManager.InstanceMoves
/-!
# Theorems about what `StopVm` gives back

`StopVm` stops the main process, returns the cid and runs the cleanups, one
after the other. It does not look at what `Stop` returned: a child that is not
in `c_` yet is not stopped at all, and one that ignores `SIGTERM` is given up
after ten seconds.
-/
open Text Runs

namespace VmManager

open VmBuilderQemu

variable {κ : Type}

/-! ## Processes without a monitor -/

/-- The main process has a monitor as long as its child is there. -/
def Monitored (vb : VmBuilderQemu) : Prop := ∀ p, vb.mainProc = some p → p.mon = false → p.alive = false

theorem exits_alive (p : VmProcess) : p.exits.alive = false := by
  unfold VmProcess.exits
  cases hc : p.child <;> simp [VmProcess.alive, hc]

theorem attaches_alive (p : VmProcess) : p.attaches.alive = p.alive := by
  unfold VmProcess.attaches
  cases hc : p.child <;> simp [VmProcess.alive, hc]

/-- `Run` sets a monitor, or it has done nothing. -/
theorem run_monitored {h : Host κ} {p p' : VmProcess} {k k' : κ} (hr : p.run h k = some (p', k')) :
    p' = p ∨ p'.mon = true := by
  have hcmd : ∀ {cmd k}, p.runCmd h cmd k = some (p', k') → p'.mon = true := by
    intro cmd k hr
    unfold VmProcess.runCmd at hr
    split at hr <;> cases hr
    rfl
  unfold VmProcess.run at hr
  split at hr
  · exact .inr (hcmd hr)
  · exact .inr (hcmd hr)
  · split at hr
    · cases hr
      exact .inl rfl
    · exact .inr (hcmd hr)

theorem Monitored.map {vb vb' : VmBuilderQemu} (hi : Monitored vb) {f : VmProcess → VmProcess}
    (hm : vb'.mainProc = vb.mainProc.map f) (hf : ∀ p, (f p).mon = p.mon ∧ ((f p).alive = true → p.alive = true)) :
    Monitored vb' := by
  intro p' hp' hmon
  rw [hm] at hp'
  obtain ⟨p, hp, rfl⟩ := Option.map_eq_some_iff.1 hp'
  refine Bool.eq_false_iff.2 fun ha => ?_
  rw [(hf p).1] at hmon
  have hdead := hi p hp hmon
  rw [(hf p).2 ha] at hdead
  cases hdead

theorem Monitored.same {vb vb' : VmBuilderQemu} (hi : Monitored vb) (hm : vb'.mainProc = vb.mainProc) :
    Monitored vb' := by
  intro p hp
  exact hi p (hm ▸ hp)

/-- The main process of `vb` is dead once `Stop` has returned. -/
def endsMain (h : Host κ) (vb : VmBuilderQemu) (k : κ) : Bool := (vb.stopProcs h k).1.all (!·.alive)

theorem monitored_of_endsMain {h : Host κ} {vb : VmBuilderQemu} {w : World κ} (he : endsMain h vb w.kernel = true) :
    Monitored (vb.stopVm h w).1 := by
  intro p hp _
  have hmain : (vb.stopProcs h w.kernel).1 = some p := hp
  simpa [endsMain, hmain] using he

/-- The emulator of `vb` is gone already, or it is in `c_` and ends within ten
seconds of `SIGTERM`. -/
def yields (h : Host κ) (vb : VmBuilderQemu) (k : κ) : Bool :=
  vb.mainProc.all fun p =>
    match p.child with
    | .starting true => false
    | .attached true => (h.terminate k p.name).1
    | _ => true

theorem stop_alive (h : Host κ) (p : VmProcess) (k : κ) (hp : p.mon = false → p.alive = false) :
    (p.stop h k).1.alive = match p.child with
      | .starting true => true
      | .attached true => !(h.terminate k p.name).1
      | _ => false := by
  have hs : (p.stop h k).1 = (p.stopSimple h k).1 := by
    unfold VmProcess.stop
    split <;> rfl
  rw [hs]
  unfold VmProcess.stopSimple
  cases hc : p.child with
  | none => simp [VmProcess.alive, hc]
  | starting alive => cases alive <;> simp [VmProcess.alive, hc]
  | attached alive =>
    cases alive
    · simp [VmProcess.alive, hc]
    · have hmon : p.mon = true := by
        cases hf : p.mon with
        | true => rfl
        | false =>
          have hdead := hp hf
          simp [VmProcess.alive, hc] at hdead
      cases hg : (h.terminate k p.name).1 <;> simp [VmProcess.alive, hmon, hg]

/-- With a monitor for every live child, `Stop` ends exactly the processes that
yield. -/
theorem endsMain_eq_yields (h : Host κ) {vb : VmBuilderQemu} (hi : Monitored vb) (k : κ) :
    endsMain h vb k = yields h vb k := by
  unfold endsMain yields stopProcs
  cases hm : vb.mainProc with
  | none => rfl
  | some p =>
    simp only [Option.all_some]
    rw [stop_alive h p k (hi p hm)]
    split <;> simp

/-! ## Over a run -/

/-- Whenever a `StopVm` gives the cid back and runs the cleanups, the main
process of its VM is dead. -/
def releasesDead (h : Host κ) (s : Sys κ) (a : Act κ) : Bool :=
  (stopping s a).all fun vb => endsMain h vb s.world.kernel

/-- `StopVm` runs only on VMs whose emulator is gone or yields. -/
def stopsYielding (h : Host κ) (s : Sys κ) (a : Act κ) : Bool :=
  (stopping s a).all fun vb => yields h vb s.world.kernel

theorem Evolves.monitored {h : Host κ} {s : Sys κ} {a : Act κ} {vb vb' : VmBuilderQemu} (he : Evolves h s a vb vb')
    (hg : releasesDead h s a = true) (hi : Monitored vb) : Monitored vb' := by
  cases he with
  | same => exact hi
  | build p i st q vb' w _ _ hst hq =>
    rcases build_all (buildSteps_main hst vb s.world) hq with hm | ⟨kind, hm⟩
    · exact hi.same hm
    · intro p hp _
      rw [hm] at hp
      cases hp
      rfl
  | stop hst =>
    rw [releasesDead, hst] at hg
    exact monitored_of_endsMain hg
  | get env => exact hi.map rfl fun _ => ⟨rfl, id⟩
  | launch procs main₀ main k₀ k _ _ hmain _ hrun =>
    intro p hp hmon
    cases hp
    rcases run_monitored hrun with rfl | hmon'
    · exact hi _ hmain hmon
    · rw [hmon'] at hmon
      cases hmon
  | booting => exact hi.same rfl
  | setReady => exact hi.same rfl
  | vmReady => exact hi.same rfl
  | exits i =>
    cases i with
    | zero => exact hi.map rfl fun p => ⟨(exits_same p).2, by rw [exits_alive]; exact nofun⟩
    | succ i => exact hi.same rfl
  | attaches i =>
    cases i with
    | zero => exact hi.map rfl fun p => ⟨(attaches_same p).2, by rw [attaches_alive]; exact id⟩
    | succ i => exact hi.same rfl

theorem monitored_step {h : Host κ} {s s' : Sys κ} {a : Act κ} (hr : Registry s) (hi : ∀ vb ∈ live s, Monitored vb)
    (hg : releasesDead h s a = true) (hs : step h s a = some s') : ∀ vb ∈ live s', Monitored vb := by
  intro vb' hm
  rcases step_live hr hs vb' hm with ⟨name, cfg, rfl⟩ | ⟨vb, hv, he⟩
  · exact fun _ hp => nomatch hp
  · exact he.monitored hg (hi vb hv)

theorem releasesDead_iff {h : Host κ} {s : Sys κ} {a : Act κ} (hi : ∀ vb ∈ live s, Monitored vb) :
    releasesDead h s a = true ↔ stopsYielding h s a = true := by
  unfold releasesDead stopsYielding
  cases hst : stopping s a with
  | none => exact Iff.rfl
  | some vb =>
    simp only [Option.all_some]
    rw [endsMain_eq_yields h (hi vb (stopping_live hst))]

/-! ## Nothing else gives anything back -/

/-- The step has restored no device. -/
def RestoresNone (w w' : World κ) : Prop := ∀ dev, restores w'.pciCalls dev = restores w.pciCalls dev

theorem RestoresNone.pci (h : Host κ) (w : World κ) (dev : String) : RestoresNone w (w.pci h dev .passthrough).2 := by
  intro d
  rw [pci_calls, restores_append]
  simp [restores]

theorem Quiet.restoresNone {vb vb' : VmBuilderQemu} {w w' : World κ} (hq : Quiet vb w vb' w') : RestoresNone w w' := by
  intro dev
  rw [hq.calls]

theorem passthroughDevs_restoresNone (h : Host κ) (devs : List String) (vb : VmBuilderQemu) (w : World κ) :
    RestoresNone w (passthroughDevs h devs vb w).2 := by
  induction devs generalizing vb w with
  | nil => exact fun _ => rfl
  | cons d devs ih =>
    have hone := RestoresNone.pci h w d
    intro dev
    rw [passthroughDevs]
    split <;> rename_i he <;> rw [he] at hone <;> rw [ih, hone]

theorem buildGvtd_restoresNone (h : Host κ) (vb : VmBuilderQemu) (w : World κ) :
    (buildGvtd h vb w).All fun _ w' => RestoresNone w w' := by
  have hq := soundCardHook_quiet h vb w
  unfold buildGvtd passthroughGpu
  dsimp only
  generalize vb.soundCardHook h w = r at hq ⊢
  have hnone : RestoresNone w (r.2.pci h kIntelGpuBdf .passthrough).2 := fun dev =>
    (RestoresNone.pci h r.2 kIntelGpuBdf dev).trans (hq.restoresNone dev)
  by_cases hg : (r.2.pci h kIntelGpuBdf .passthrough).1 = true
  · rw [hg]
    exact .ok hnone
  · have hgf : (r.2.pci h kIntelGpuBdf .passthrough).1 = false := by simpa using hg
    rw [hgf]
    exact .failed hnone

theorem buildVgpuCmd_restoresNone (h : Host κ) (vb : VmBuilderQemu) (w : World κ) :
    (buildVgpuCmd h vb w).All fun _ w' => RestoresNone w w' := by
  by_cases ht : vb.value kGroupVgpu kVgpuType = kVgpuGvtD
  · rw [buildVgpuCmd_gvtd h vb w ht]
    exact buildGvtd_restoresNone h vb w
  · exact (buildVgpuCmd_quiet h vb w ht).imp fun _ _ => Quiet.restoresNone

theorem buildPtPciDevicesCmd_restoresNone (h : Host κ) (vb : VmBuilderQemu) (w : World κ) :
    (buildPtPciDevicesCmd h vb w).All fun _ w' => RestoresNone w w' := by
  have hdown : (vb.bringDownBtHciIntf h w).pciCalls = w.pciCalls := by
    unfold bringDownBtHciIntf
    split <;> rfl
  unfold buildPtPciDevicesCmd
  refine .ite (.ok fun _ => rfl) (.ok fun dev => ?_)
  rw [passthroughDevs_restoresNone, hdown]

theorem buildSteps_restoresNone {h : Host κ} {i : Nat} {st : Step κ} (hst : (buildSteps h)[i]? = some st)
    (vb : VmBuilderQemu) (w : World κ) : (st vb w).All fun _ w' => RestoresNone w w' := by
  obtain ⟨b, rfl, rfl⟩ := buildSteps_at hst
  by_cases hq : b ∈ [.vgpu, .vsock, .ptPciDevices, .pciDevicesCallback]
  · simp only [List.mem_cons, List.not_mem_nil, or_false] at hq
    rcases hq with rfl | rfl | rfl | rfl
    · exact buildVgpuCmd_restoresNone h vb w
    · obtain ⟨vb', -, -, ⟨-, -, he⟩ | ⟨-, -, he⟩⟩ := buildVsockCmd_cases vb w <;> rw [ArgStep.run, he]
      · exact .ok fun _ => rfl
      · exact .failed fun _ => rfl
    · exact buildPtPciDevicesCmd_restoresNone h vb w
    · exact .ok fun _ => rfl
  · exact (b.quiet h hq vb w).imp fun _ _ => Quiet.restoresNone

/-- Only `Aaf::Flush` hangs, and it has called nothing. -/
theorem buildSteps_hung_calls {h : Host κ} {i : Nat} {st : Step κ} (hst : (buildSteps h)[i]? = some st)
    {vb : VmBuilderQemu} {w w' : World κ} (he : st vb w = .hung w') : w'.pciCalls = w.pciCalls := by
  by_cases hv : i = vgpuIdx
  · subst hv
    obtain rfl := buildSteps_run hst
    exact absurd he (buildVgpuCmd_no_hang h vb w w')
  · by_cases hf : i = flushIdx
    · subst hf
      obtain rfl := buildSteps_run hst
      rw [ArgStep.run, flushAaf] at he
      split at he
      · cases he
      · split at he <;> cases he
        rfl
    · have hr := buildSteps_returned hst hv hf vb w
      rw [he] at hr
      cases hr

theorem Outcome.All.world {o : Outcome κ} {R : World κ → Prop} (h : o.All fun _ w => R w)
    (hhung : ∀ w, o = .hung w → R w) : R o.world := by
  cases h with
  | ok h => exact h
  | failed h => exact h
  | threw h => exact h
  | hung => exact hhung _ rfl

/-- A step of `BuildVmArgs` frees no cid and restores no device. -/
theorem buildSteps_gives_nothing_back {h : Host κ} {i : Nat} {st : Step κ} (hst : (buildSteps h)[i]? = some st)
    (vb : VmBuilderQemu) (w : World κ) :
    (∀ cid, (st vb w).world.pool.bs cid = true → w.pool.bs cid = true) ∧ RestoresNone w (st vb w).world := by
  constructor
  · refine Outcome.All.world (R := fun w' => ∀ cid, w'.pool.bs cid = true → w.pool.bs cid = true)
      ((buildSteps_cidStep hst vb w).imp fun vb' w' hc cid hfree => ?_) fun w' he cid hfree => ?_
    · rcases hc.cid with ⟨-, hp⟩ | ⟨-, -, hp⟩ <;> rw [hp] at hfree
      · exact hfree
      · rw [VsockCidPool.reset_bs] at hfree
        split at hfree
        · cases hfree
        · exact hfree
    · rw [buildSteps_hung hst he] at hfree
      exact hfree
  · refine (buildSteps_restoresNone hst vb w).world fun w' he dev => ?_
    rw [buildSteps_hung_calls hst he]

/-- An action that runs no `StopVm` frees no cid and restores no device. -/
theorem step_gives_nothing_back {h : Host κ} {s s' : Sys κ} {a : Act κ} (hr : Registry s) (hs : step h s a = some s')
    (hno : stopping s a = none) :
    (∀ cid, s'.world.pool.bs cid = true → s.world.pool.bs cid = true) ∧ RestoresNone s.world s'.world := by
  have hw := step_world hr hs
  generalize s'.world = w at hw ⊢
  cases hw with
  | host k => exact ⟨fun _ hf => hf, fun _ => rfl⟩
  | stop vb hst =>
    rw [hno] at hst
    cases hst
  | build p vb i st _ _ hst => exact buildSteps_gives_nothing_back hst vb s.world

/-- In every run, every `StopVm` finds the main process dead when it returns
the cid and runs the cleanups exactly if each of them stops a VM whose emulator
is gone or yields. Nothing but a `StopVm` frees a cid or restores a device. -/
theorem stopVm_releases_dead_iff (h : Host κ) (k : κ) (as : List (Act κ)) :
    (Guarded (step h) (fun s a => releasesDead h s a = true) (Sys.init k) as ↔
      Guarded (step h) (fun s a => stopsYielding h s a = true) (Sys.init k) as) ∧
    ∀ s a s', Reachable (step h) (Sys.init k) s → step h s a = some s' → stopping s a = none →
      (∀ cid, s'.world.pool.bs cid = true → s.world.pool.bs cid = true) ∧ RestoresNone s.world s'.world := by
  constructor
  · refine guarded_congr (I := fun s => Registry s ∧ ∀ vb ∈ live s, Monitored vb) (fun s a s' hi hg hs => ?_)
      (fun s a hi => releasesDead_iff hi.2) ⟨registry_init k, fun _ hm => nomatch hm⟩
    exact ⟨registry_step hi.1 hs, monitored_step hi.1 hi.2 hg hs⟩
  · intro s a s' hr hs hno
    exact step_gives_nothing_back (reachable_invariants hr).1 hs hno

/-- The VM of `vmHost` is started and then stopped. -/
def startAndStop : List (Act Unit) := startUp "/vm.ini" 0 ++ .recv (.stopVm "vm") :: List.replicate 5 .server

theorem stopVm_releases_dead_vm :
    Guarded (step (vmHost "")) (fun s a => releasesDead (vmHost "") s a = true) (Sys.init ()) startAndStop :=
  (stopVm_releases_dead_iff (vmHost "") () startAndStop).1.2 (by decide)

/-- A host on which nothing ends on `SIGTERM`. -/
def stubbornHost : Host Unit := { vmHost "" with terminate := fun k _ => (false, k) }

/-- The emulator outlives the ten seconds: the cid is free and the emulator is
there. -/
theorem stopVm_releases_alive : ∃ s vb,
    ¬ Guarded (step stubbornHost) (fun s a => releasesDead stubbornHost s a = true) (Sys.init ()) startAndStop ∧
    run (step stubbornHost) (Sys.init ()) startAndStop = some s ∧ vb ∈ s.vmis ∧ vb.vsockCid = 1000 ∧
    vb.mainProc.any (·.alive) = true ∧ s.world.pool.bs 1000 = true := by
  have he : (run (step stubbornHost) (Sys.init ()) startAndStop).map (fun s => (s.world.pool.bs 1000,
      s.vmis.map fun vb => (vb.vsockCid, vb.mainProc.any (·.alive)))) = some (true, [(1000, true)]) := rfl
  obtain ⟨s, hs, he⟩ := Option.map_eq_some_iff.1 he
  obtain ⟨hfree, hv⟩ := Prod.mk.inj he
  obtain ⟨vb, rest, hvmis, hvb, -⟩ := List.map_eq_cons_iff.1 hv
  obtain ⟨hc, halive⟩ := Prod.mk.inj hvb
  exact ⟨s, vb, by decide, hs, hvmis ▸ List.mem_cons_self, hc, halive, hfree⟩

end VmManager
