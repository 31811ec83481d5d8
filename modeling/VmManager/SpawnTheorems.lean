import VmManager.StateTheorems
/-!
# Theorems about VMs whose emulator was never spawned

The monitor thread counts its latch down whether the spawn succeeded or not, so
`Run` returns the same way. With `wait_ready` the VM's thread then finds that
the process is not running and gives up; without it the thread sets
`kVmRunning` at once.
-/
open Text Runs

namespace VmManager

open VmBuilderQemu

variable {κ : Type}

/-- The action runs the main process of the VM `uid` and the host spawns it. -/
def spawns (h : Host κ) (s : Sys κ) (uid : Nat) : Bool :=
  (s.find uid).any fun vb => vb.mainProc.any fun main =>
    ((launchProcs h vb.coProcs s.world.kernel).bind fun (_, k) => main.run h k).any fun (main, _) =>
      main.child = .starting true

/-- The VMs whose emulator has been spawned. -/
def recordSpawn (h : Host κ) (s : Sys κ) (a : Act κ) (spawned : List Nat) : List Nat :=
  match a with
  | .thread uid => if s.thread uid = .launch ∧ spawns h s uid then uid :: spawned else spawned
  | _ => spawned

/-- A launch that `StartVm` awaits without `wait_ready` spawns the emulator, and
a `VmReady` for a VM comes from an emulator that was spawned. -/
def spawnsOrWaits (h : Host κ) (p : Sys κ × List Nat) : Act κ → Bool
  | .thread uid => p.1.thread uid ≠ .launch || p.1.server ≠ .startWait uid false || spawns h p.1 uid
  | .vmReady peer => ((parsePeer peer).bind p.1.pending).all (· ∈ p.2)
  | _ => true

theorem recordSpawn_mono (h : Host κ) (s : Sys κ) (a : Act κ) {spawned : List Nat} {uid : Nat} (hm : uid ∈ spawned) :
    uid ∈ recordSpawn h s a spawned := by
  unfold recordSpawn
  split
  · split
    · exact List.mem_cons_of_mem _ hm
    · exact hm
  · exact hm

/-- The places between a launch without `wait_ready` and `kVmRunning`. -/
def ThreadPc.onTheWay : ThreadPc → Bool
  | booting | countDown => true
  | _ => false

structure Spawned (s : Sys κ) (spawned : List Nat) : Prop where
  running : ∀ vb ∈ s.vmis, vb.state = .running → vb.uid ∈ spawned
  ready : ∀ uid, s.thread uid = .setReady → uid ∈ spawned
  coming : ∀ uid, (s.thread uid).onTheWay = true → s.server = .startWait uid false → uid ∈ spawned

/-- A thread that comes to `setReady` had a latch of one to count down: the
server waits for it without `wait_ready`. -/
theorem Threads.waits_once {s : Sys κ} (hi : Threads s) {uid : Nat} (hpc : s.thread uid = .countDown)
    (hz : s.latch uid - 1 = 0) : s.server = .startWait uid false := by
  obtain ⟨waitReady, hserver, -⟩ := hi.busy uid (.inl (by rw [hpc]; rfl))
  have hleft := (hi.latch uid waitReady hserver).2
  cases waitReady with
  | false => exact hserver
  | true =>
    rw [hpc] at hleft
    rw [hleft] at hz
    cases hz

theorem spawned_thread {h : Host κ} {s s' : Sys κ} {u : Nat} {spawned : List Nat} (hi : Instances s)
    (hsp : Spawned s spawned) (hg : spawnsOrWaits h (s, spawned) (.thread u) = true) (hm : ThreadMove h s u s') :
    (∀ uid, s'.thread uid = .setReady → uid ∈ recordSpawn h s (.thread u) spawned) ∧
    ∀ uid, (s'.thread uid).onTheWay = true → s.server = .startWait uid false →
      uid ∈ recordSpawn h s (.thread u) spawned := by
  have hold : ∀ uid, uid ∈ spawned → uid ∈ recordSpawn h s (.thread u) spawned := fun uid =>
    recordSpawn_mono h s (.thread u)
  constructor
  · intro uid hpc
    by_cases he : uid = u
    · subst he
      cases hm with
      | undefined => exact hold uid (hsp.ready uid hpc)
      | lock vb p _ _ hp => rcases hp with ⟨-, rfl⟩ | ⟨-, rfl⟩ <;> rw [setThread_self] at hpc <;> cases hpc
      | countReady hc hz => exact hold uid (hsp.coming uid (by rw [hc]; rfl) (hi.threads.waits_once hc hz))
      | _ => rw [setThread_self] at hpc; cases hpc
    · rw [(hm.counted.others uid he).1] at hpc
      exact hold uid (hsp.ready uid hpc)
  · intro uid hpc hserver
    by_cases he : uid = u
    · subst he
      cases hm with
      | undefined => exact hold uid (hsp.coming uid hpc hserver)
      | lock vb p _ _ hp => rcases hp with ⟨-, rfl⟩ | ⟨-, rfl⟩ <;> rw [setThread_self] at hpc <;> cases hpc
      | noMain vb _ hf hnone =>
        obtain ⟨main, cmd, hmain, -⟩ := (hi.launches.instances vb (find_some hf).1).main
        rw [hnone] at hmain
        cases hmain
      | launch vb procs main₀ main k₀ k hc =>
        have hspawns : spawns h s uid = true := by simpa [spawnsOrWaits, hc, hserver] using hg
        simp [recordSpawn, hc, hspawns]
      | booting vb hc => exact hold uid (hsp.coming uid (by rw [hc]; rfl) hserver)
      | _ => rw [setThread_self] at hpc; cases hpc
    · rw [(hm.counted.others uid he).1] at hpc
      exact hold uid (hsp.coming uid hpc hserver)

theorem ServerMove.startWait {h : Host κ} {s s' : Sys κ} (hs : ServerMove h s s') {uid : Nat} {waitReady : Bool}
    (hpc : s'.server = .startWait uid waitReady) : s.server = .startWait uid waitReady ∨ s'.thread uid = .launch := by
  cases hs with
  | undefined => exact .inl hpc
  | quiet s' _ _ hq => exact absurd hpc (hq.no_wait uid waitReady)
  | build p vb vb' w i st q _ _ hq => rcases hq with ⟨-, rfl⟩ | ⟨-, rfl⟩ | ⟨e, -, rfl⟩ <;> cases hpc
  | drop vb q hq => rcases hq with ⟨-, rfl⟩ | ⟨e, -, rfl⟩ <;> cases hpc
  | get pos uid' env waitReady vb =>
    cases hpc
    exact .inr (Function.update_self ..)
  | _ => cases hpc

theorem Evolves.running {h : Host κ} {s : Sys κ} {a : Act κ} {vb vb' : VmBuilderQemu} {spawned : List Nat}
    (he : Evolves h s a vb vb') (hb : ∀ vb, s.server.builder = some vb → vb.state ≠ .running)
    (hsp : Spawned s spawned) (hg : spawnsOrWaits h (s, spawned) a = true) (hm : vb ∈ s.vmis)
    (hrun : vb'.state = .running) : vb.uid ∈ spawned := by
  cases he with
  | build p i st q vb' w _ hpc hst hq =>
    refine absurd ?_ (hb vb (by rw [hpc]; rfl))
    rcases (build_all (buildSteps_cidStep hst vb s.world) hq).same.state with hs | hs <;> rw [hs] at hrun
    · exact hrun
    · cases hrun
  | booting => cases hrun
  | setReady _ hpc => exact hsp.ready vb.uid hpc
  | vmReady peer cid ha hc hp =>
    subst ha
    simpa [spawnsOrWaits, hc, hp] using hg
  | exits i => cases i <;> exact hsp.running vb hm hrun
  | attaches i => cases i <;> exact hsp.running vb hm hrun
  | _ => exact hsp.running vb hm hrun

theorem spawned_step {h : Host κ} {s s' : Sys κ} {a : Act κ} {spawned : List Nat} (hi : Instances s)
    (hsp : Spawned s spawned) (hg : spawnsOrWaits h (s, spawned) a = true) (hs : step h s a = some s') :
    Spawned s' (recordSpawn h s a spawned) := by
  have hrunning : ∀ vb' ∈ s'.vmis, vb'.state = .running → vb'.uid ∈ recordSpawn h s a spawned := by
    intro vb' hm hrun
    rcases step_vmis hi.registry hs vb' hm with ⟨p, -, hpc⟩ | ⟨vb, hv, he⟩
    · exact absurd hrun (hi.registry.builder vb' (by rw [hpc]; rfl)).2.2.1
    · rw [he.identity.uid]
      exact recordSpawn_mono h s a (he.running (fun vb hb => (hi.registry.builder vb hb).2.2.1) hsp hg hv hrun)
  rcases step_move hs with ⟨-, hm⟩ | ⟨u, rfl, hm⟩ | hm
  · refine ⟨hrunning, fun uid hpc => ?_, fun uid hpc hserver => ?_⟩
    · rcases hm.thread uid with he | he <;> rw [he] at hpc
      · exact recordSpawn_mono h s a (hsp.ready uid hpc)
      · cases hpc
    · rcases hm.thread uid with he | he <;> rw [he] at hpc
      · rcases hm.startWait hserver with hserver | hl
        · exact recordSpawn_mono h s a (hsp.coming uid hpc hserver)
        · rw [← he, hl] at hpc
          cases hpc
      · cases hpc
  · obtain ⟨hready, hcoming⟩ := spawned_thread hi hsp hg hm
    exact ⟨hrunning, hready, fun uid hpc hserver => hcoming uid hpc (hm.counted.server ▸ hserver)⟩
  · obtain ⟨hserver, hthread⟩ : s'.server = s.server ∧ s'.thread = s.thread := by cases hm <;> exact ⟨rfl, rfl⟩
    refine ⟨hrunning, fun uid hpc => ?_, fun uid hpc hs' => ?_⟩
    · exact recordSpawn_mono h s a (hsp.ready uid (hthread ▸ hpc))
    · exact recordSpawn_mono h s a (hsp.coming uid (hthread ▸ hpc) (hserver ▸ hs'))

theorem spawned_init (k : κ) : Spawned (Sys.init k) [] := ⟨fun _ hm => (nomatch hm), fun _ he => (nomatch he), nofun⟩

/-- `StartVm` answers 0 only for a VM that is running. -/
theorem startState_zero {h : Host κ} {s s' : Sys κ} {uid : Nat} {waitReady : Bool}
    (hpc : s.server = .startState uid waitReady) (hs : step h s .server = some s') (hz : s'.server = .reply 0) :
    ∃ vb ∈ s.vmis, vb.uid = uid ∧ vb.state = .running := by
  unfold step at hs
  split at hs
  · cases hs
  · simp only [serverStep, hpc] at hs
    split at hs <;> cases hs
    · rw [Sys.undefined, hpc] at hz
      cases hz
    · rename_i vb hf
      obtain ⟨hm, hu⟩ := find_some hf
      refine ⟨vb, hm, hu, ?_⟩
      simpa [Sys.goto] using hz

/-- A VM that was shown as running is one whose emulator has been spawned. -/
def ShownSpawned (s : Sys κ) (spawned : List Nat) : Prop :=
  ∀ e ∈ s.shown, e.state = .running → ∃ uid ∈ spawned, e.vm = some uid

theorem shownSpawned_step {h : Host κ} {s s' : Sys κ} {a : Act κ} {spawned : List Nat} (hr : Registry s)
    (hh : Held (· ≠ .inserted) s) (hsp : Spawned s spawned) (hi : ShownSpawned s spawned) (hs : step h s a = some s') :
    ShownSpawned s' (recordSpawn h s a spawned) := by
  have hold : ∀ e ∈ s.shown, e.state = .running → ∃ uid ∈ recordSpawn h s a spawned, e.vm = some uid := by
    intro e hm hrun
    obtain ⟨uid, hu, he⟩ := hi e hm hrun
    exact ⟨uid, recordSpawn_mono h s a hu, he⟩
  intro e hm hrun
  rcases (step_showing hs).of_held hr hh with he | ⟨name, vb, hv, he⟩ <;> rw [he] at hm
  · exact hold e hm hrun
  · rcases List.mem_append.1 hm with hm | hm
    · exact hold e hm hrun
    · rw [List.mem_singleton.1 hm] at hrun ⊢
      exact ⟨vb.uid, recordSpawn_mono h s a (hsp.running vb hv hrun), rfl⟩

/-- As long as every launch without `wait_ready` spawns its emulator, and no
`VmReady` comes for a VM whose emulator was not spawned: a VM is running, and
`StartVm` returns 0 for it, only if its emulator was spawned. Clients are shown
no other VM as running, with the indices of the handlers kept. -/
theorem running_was_spawned (h : Host κ) (k : κ) (s : Sys κ) (spawned : List Nat) (as : List (Act κ))
    (hr : run (withHistory (step h) (recordSpawn h)) (Sys.init k, []) as = some (s, spawned))
    (hg : Guarded (withHistory (step h) (recordSpawn h)) (fun p a => spawnsOrWaits h p a = true) (Sys.init k, []) as) :
    (∀ vb ∈ s.vmis, vb.state = .running → vb.uid ∈ spawned) ∧
    (∀ uid waitReady s', s.server = .startState uid waitReady → step h s .server = some s' → s'.server = .reply 0 →
      uid ∈ spawned) ∧
    Stored s ∧
    (Guarded (step h) (fun s a => keepsUse (· ≠ .inserted) s a = true) (Sys.init k) as →
      ∀ e ∈ s.shown, e.state = .running → ∃ uid ∈ spawned, e.vm = some uid) := by
  have hend : Instances s ∧ Spawned s spawned := by
    refine run_keeps_guarded (I := fun p => Instances p.1 ∧ Spawned p.1 p.2) (fun p a p' hi hg hs => ?_) hr hg
      ⟨instances_init k, spawned_init k⟩
    obtain ⟨hs, he⟩ := withHistory_eq.1 hs
    rw [← he]
    exact ⟨instances_step hi.1 hs, spawned_step hi.1 hi.2 hg hs⟩
  obtain ⟨hi, hsp⟩ := hend
  refine ⟨hsp.running, fun uid waitReady s' hpc hs hz => ?_,
    run_keeps (fun _ _ _ hi hs => stored_step hi hs) (run_forget hr) (stored_init k), fun hk => ?_⟩
  · obtain ⟨vb, hm, rfl, hrun⟩ := startState_zero hpc hs hz
    exact hsp.running vb hm hrun
  · have hend : (Instances s ∧ Spawned s spawned) ∧ Held (· ≠ .inserted) s ∧ ShownSpawned s spawned := by
      refine run_keeps_guarded (I := fun p => (Instances p.1 ∧ Spawned p.1 p.2) ∧ Held (· ≠ .inserted) p.1 ∧
        ShownSpawned p.1 p.2) (fun p a p' hi hg hs => ?_) hr (guarded_and.2 ⟨hg, guarded_history hk⟩)
        ⟨⟨instances_init k, spawned_init k⟩, .of_none rfl, nofun⟩
      obtain ⟨hs, he⟩ := withHistory_eq.1 hs
      obtain ⟨⟨hi, hsp⟩, hh, hshown⟩ := hi
      rw [← he]
      exact ⟨⟨instances_step hi hs, spawned_step hi hsp hg.1 hs⟩, held_step hh hg.2 hs,
        shownSpawned_step hi.registry hh hsp hshown hs⟩
    exact hend.2.2

/-- The VM of `vmHost` is launched and set to running, and `StartVm` is about
to read that. -/
def startToState : List (Act Unit) := startVm ++ List.replicate 4 (.thread 0) ++ [.server]

theorem running_was_spawned_vm : ∃ s spawned s',
    run (withHistory (step (vmHost "")) (recordSpawn (vmHost ""))) (Sys.init (), []) startToState = some (s, spawned) ∧
    step (vmHost "") s .server = some s' ∧ s'.server = .reply 0 ∧ 0 ∈ spawned := by
  have he : (run (withHistory (step (vmHost "")) (recordSpawn (vmHost ""))) (Sys.init (), []) startToState).map
      (fun p => (p.1.server, (step (vmHost "") p.1 .server).map (·.server))) =
        some (.startState 0 false, some (.reply 0)) := rfl
  obtain ⟨⟨s, spawned⟩, hs, he⟩ := Option.map_eq_some_iff.1 he
  obtain ⟨hpc, he⟩ := Prod.mk.inj he
  obtain ⟨s', hs', hz⟩ := Option.map_eq_some_iff.1 he
  exact ⟨s, spawned, s', hs, hs', hz,
    (running_was_spawned (vmHost "") () s spawned _ hs (by decide)).2.1 0 false s' hpc hs' hz⟩

/-- A host that spawns nothing. -/
def spawnlessHost : Host Unit := { vmHost "" with spawn := fun k _ _ => (false, k) }

/-- The spawn fails: `StartVm` returns 0 and the VM is running. -/
theorem startVm_succeeds_without_emulator : ∃ s s',
    run (withHistory (step spawnlessHost) (recordSpawn spawnlessHost)) (Sys.init (), []) startToState = some (s, []) ∧
    s.server = .startState 0 false ∧ s.vmis.map (fun vb => (vb.uid, vb.state)) = [(0, .running)] ∧
    step spawnlessHost s .server = some s' ∧ s'.server = .reply 0 := by
  have he : (run (withHistory (step spawnlessHost) (recordSpawn spawnlessHost)) (Sys.init (), []) startToState).map
      (fun p => (p.2, p.1.server, p.1.vmis.map (fun vb => (vb.uid, vb.state)),
        (step spawnlessHost p.1 .server).map (·.server))) =
        some ([], .startState 0 false, [(0, .running)], some (.reply 0)) := rfl
  obtain ⟨⟨s, spawned⟩, hs, he⟩ := Option.map_eq_some_iff.1 he
  obtain ⟨rfl, he⟩ := Prod.mk.inj he
  obtain ⟨hpc, he⟩ := Prod.mk.inj he
  obtain ⟨hvmis, he⟩ := Prod.mk.inj he
  obtain ⟨s', hs', hz⟩ := Option.map_eq_some_iff.1 he
  exact ⟨s, s', hs, hpc, hvmis, hs', hz⟩

end VmManager
