import VmManager.LaunchInvariants
/-!
# Theorems about `StartVm` and its VM thread

`StartVm` waits for the latch and then reads the state through a pointer to the
instance. The VM thread counts the latch down before it sets the state, and it
may have removed the instance by then.
-/
open Text Runs

namespace VmManager

variable {κ : Type}

/-- The instance that a `VmBuilder *` points to is still there. -/
def Registered (s : Sys κ) (uid : Nat) : Prop := ∃ vb ∈ s.vmis, vb.uid = uid

theorem registered_updateVm {s : Sys κ} {u : Nat} (hi : Registered s u) (uid : Nat)
    {f : VmBuilderQemu → VmBuilderQemu} (hf : ∀ vb, (f vb).uid = vb.uid) : Registered (s.updateVm uid f) u := by
  obtain ⟨vb, hm, hu⟩ := hi
  refine ⟨_, mem_updateVm.2 ⟨vb, hm, rfl⟩, ?_⟩
  split
  · rw [hf, hu]
  · exact hu

/-- Only its own thread removes a VM, and only in two places. -/
theorem ThreadMove.registered {h : Host κ} {s s' : Sys κ} {uid u : Nat} (hr : Registry s) (hs : ThreadMove h s uid s')
    (hi : Registered s u) (hn : uid = u → s.thread u ≠ .delete ∧ s.thread u ≠ .giveUp) : Registered s' u := by
  have hdel : ∀ vb p, s.find uid = some vb → s.thread uid = .delete ∨ s.thread uid = .giveUp →
      Registered ((deleteVmInstance h s vb.name).setThread uid p) u := by
    intro vb p hf hpc
    obtain ⟨hvm, hvu⟩ := find_some hf
    obtain ⟨vb', hm, hu⟩ := hi
    refine ⟨vb', ((deleteVmInstance_deleted h hr hvm).mem vb').2 ⟨hm, fun he => ?_⟩, hu⟩
    rw [hu, hvu] at he
    subst he
    rcases hpc with hpc | hpc
    · exact (hn rfl).1 hpc
    · exact (hn rfl).2 hpc
  cases hs with
  | launch vb procs main₀ main k₀ k => exact registered_updateVm hi uid fun _ => rfl
  | booting vb => exact registered_updateVm hi uid fun _ => rfl
  | setReady vb => exact registered_updateVm hi uid fun _ => rfl
  | delete vb hpc hf => exact hdel vb _ hf (.inl hpc)
  | giveUp vb hpc hf => exact hdel vb _ hf (.inr hpc)
  | _ => exact hi

theorem OtherMove.registered {s s' : Sys κ} {u : Nat} (hs : OtherMove s s') (hi : Registered s u) : Registered s' u := by
  cases hs with
  | proc uid f hf => exact registered_updateVm hi uid hf.uid
  | vmReady cid uid vb => exact registered_updateVm hi uid fun _ => rfl
  | _ => exact hi

theorem OtherMove.frame {s s' : Sys κ} (hs : OtherMove s s') : s'.server = s.server ∧ s'.thread = s.thread := by
  cases hs <;> exact ⟨rfl, rfl⟩

/-- `StartVm` of VM `uid` is after `vmi->get()`. -/
def Awaits (p : ServerPc) (uid : Nat) (waitReady : Bool) : Prop :=
  p = .startWait uid waitReady ∨ p = .startState uid waitReady

/-- The server comes to wait for a VM it has just started, or goes on from
there. -/
theorem ServerMove.awaits {h : Host κ} {s s' : Sys κ} {uid : Nat} {waitReady : Bool} (hs : ServerMove h s s')
    (ha : Awaits s'.server uid waitReady) :
    (Registered s' uid ∧ s'.thread uid = .launch) ∨
      (Awaits s.server uid waitReady ∧ s'.vmis = s.vmis ∧ s'.thread = s.thread) := by
  cases hs with
  | undefined => exact .inr ⟨ha, rfl, rfl⟩
  | quiet s' _ _ hq _ =>
    rcases ha with ha | ha
    · exact absurd ha (hq.no_wait uid waitReady)
    · exact absurd ha (hq.no_state uid waitReady)
  | build p vb vb' w i st q _ _ hq => rcases hq with ⟨-, rfl⟩ | ⟨-, rfl⟩ | ⟨e, -, rfl⟩ <;> rcases ha with ha | ha <;> cases ha
  | drop vb q hq => rcases hq with ⟨-, rfl⟩ | ⟨e, -, rfl⟩ <;> rcases ha with ha | ha <;> cases ha
  | get pos u env wr vb hpc hv =>
    rcases ha with ha | ha <;> cases ha
    refine .inl ⟨?_, setThread_self ..⟩
    exact registered_updateVm ⟨vb, List.mem_of_getElem? hv, rfl⟩ vb.uid fun _ => rfl
  | pass u wr hpc =>
    rcases ha with ha | ha <;> cases ha
    exact .inr ⟨.inl hpc, rfl, rfl⟩
  | _ => rcases ha with ha | ha <;> cases ha

/-! ## The pointer that `StartVm` reads through -/

/-- `WaitVmReady` does not give up, and a VM that exits is not removed before
`StartVm` has looked at it. -/
def keepsStarted (s : Sys κ) : Act κ → Bool
  | .thread uid =>
    match s.thread uid, s.find uid with
    | .waitReady n, some vb => n < 200 && vb.mainProc.any (·.running)
    | .delete, _ => s.server.started.map Prod.fst ≠ some uid
    | _, _ => true
  | _ => true

/-- The VM that the server has started is registered, and its thread has not
given it up. -/
def StartedKept (s : Sys κ) : Prop :=
  ∀ uid waitReady, Awaits s.server uid waitReady →
    Registered s uid ∧ s.thread uid ≠ .giveUpLock ∧ s.thread uid ≠ .giveUp

theorem startedKept_thread {h : Host κ} {s s' : Sys κ} {u : Nat} (hr : Registry s) (hi : StartedKept s)
    (hg : keepsStarted s (.thread u) = true) (hs : ThreadMove h s u s') : StartedKept s' := by
  intro uid waitReady ha
  rw [hs.counted.server] at ha
  obtain ⟨hreg, hlock, hpc⟩ := hi uid waitReady ha
  have hstarted : s.server.started = some (uid, waitReady) := by rcases ha with ha | ha <;> rw [ha] <;> rfl
  refine ⟨hs.registered hr hreg fun he => ⟨fun hd => ?_, hpc⟩, ?_⟩
  · subst he
    simp [keepsStarted, hd, hstarted] at hg
  · by_cases he : uid = u
    · subst he
      cases hs with
      | givesUp vb n hw hf hno =>
        simp only [keepsStarted, hw, hf, Bool.and_eq_true, decide_eq_true_eq] at hg
        exact absurd hg hno
      | undefined => exact ⟨hlock, hpc⟩
      | lock vb p _ _ hp =>
        rcases hp with ⟨-, rfl⟩ | ⟨hp, -⟩
        · rw [setThread_self]
          exact ⟨nofun, nofun⟩
        · exact absurd hp hlock
      | _ => rw [setThread_self]; exact ⟨nofun, nofun⟩
    · rw [(hs.counted.others uid he).1]
      exact ⟨hlock, hpc⟩

theorem startedKept_step {h : Host κ} {s s' : Sys κ} {a : Act κ} (hr : Registry s) (hi : StartedKept s)
    (hg : keepsStarted s a = true) (hs : step h s a = some s') : StartedKept s' := by
  rcases step_move hs with ⟨-, hm⟩ | ⟨u, rfl, hm⟩ | hm
  · intro uid waitReady ha
    rcases hm.awaits ha with ⟨hreg, hpc⟩ | ⟨ha, hv, ht⟩
    · rw [hpc]
      exact ⟨hreg, nofun, nofun⟩
    · rw [Registered, hv, ht]
      exact hi uid waitReady ha
  · exact startedKept_thread hr hi hg hm
  · intro uid waitReady ha
    rw [hm.frame.1] at ha
    obtain ⟨hreg, hpc⟩ := hi uid waitReady ha
    exact ⟨hm.registered hreg, hm.frame.2 ▸ hpc⟩

/-- In every interleaving in which `WaitVmReady` does not give up and no VM is
removed between its start and the look of `StartVm` at its state, that look is
at a registered instance. -/
theorem startVm_reads_registered (h : Host κ) (k : κ) (s : Sys κ) (as : List (Act κ)) (uid : Nat) (waitReady : Bool)
    (hr : run (step h) (Sys.init k) as = some s)
    (hg : Guarded (step h) (fun s a => keepsStarted s a = true) (Sys.init k) as)
    (hs : s.server = .startState uid waitReady) : Registered s uid := by
  have hi : Registry s ∧ StartedKept s := by
    refine run_keeps_guarded (I := fun s => Registry s ∧ StartedKept s) (fun s a s' hi hg hs => ?_) hr hg
      ⟨registry_init k, fun _ _ ha => ?_⟩
    · exact ⟨registry_step hi.1 hs, startedKept_step hi.1 hi.2 hg hs⟩
    · rcases ha with ha | ha <;> cases ha
  exact (hi.2 uid waitReady (.inr hs)).1

/-- A config that builds, with more lines for the global group. -/
def vmConfig (more : String) : String := "[global]\nname=vm\n" ++ more ++ "[firmware]\ntype=unified\n"

/-- A host with one such config. -/
def vmHost (more : String) : Host Unit := stillHost [("/vm.ini", vmConfig more)] []

/-- A client starts the VM, up to the point where the server waits for the
latch. -/
def startVm : List (Act Unit) := .recv (.startVm "/vm.ini" []) :: List.replicate 32 .server

theorem startVm_reads_registered_vm : ∃ s, run (step (vmHost "")) (Sys.init ())
      (startVm ++ [.thread 0, .thread 0, .thread 0, .server]) = some s ∧ s.server = .startState 0 false ∧
    Registered s 0 := by
  have hpc : (run (step (vmHost "")) (Sys.init ()) (startVm ++ [.thread 0, .thread 0, .thread 0, .server])).map
      (·.server) = some (.startState 0 false) := rfl
  have hg : Guarded (step (vmHost "")) (fun s a => keepsStarted s a = true) (Sys.init ())
      (startVm ++ [.thread 0, .thread 0, .thread 0, .server]) := by decide
  obtain ⟨s, hs, hpc⟩ := Option.map_eq_some_iff.1 hpc
  exact ⟨s, hs, hpc, startVm_reads_registered (vmHost "") () s _ 0 false hs hg hpc⟩

/-- The emulator dies before the guest is ready: the thread removes the
instance and then lets `StartVm` go on to read it. -/
theorem startVm_reads_deleted : ∃ s s', run (step (vmHost "wait_ready=true\n")) (Sys.init ())
      (startVm ++ [.thread 0, .attach 0 0, .thread 0, .thread 0, .thread 0, .exit 0 0, .thread 0, .thread 0, .thread 0,
        .thread 0, .server]) = some s ∧ s.server = .startState 0 true ∧ ¬ Registered s 0 ∧
    step (vmHost "wait_ready=true\n") s .server = some s' ∧ s'.ub = true := by
  have hpc : (run (step (vmHost "wait_ready=true\n")) (Sys.init ())
      (startVm ++ [.thread 0, .attach 0 0, .thread 0, .thread 0, .thread 0, .exit 0 0, .thread 0, .thread 0, .thread 0,
        .thread 0, .server])).map (fun s => (s.server, s.vmis, (step (vmHost "wait_ready=true\n") s .server).map (·.ub))) =
      some (.startState 0 true, [], some true) := by decide +kernel
  obtain ⟨s, hs, he⟩ := Option.map_eq_some_iff.1 hpc
  obtain ⟨hserver, he⟩ := Prod.mk.inj he
  obtain ⟨hvmis, hstep⟩ := Prod.mk.inj he
  obtain ⟨s', hs', hub⟩ := Option.map_eq_some_iff.1 hstep
  refine ⟨s, s', hs, hserver, ?_, hs', hub⟩
  rintro ⟨vb, hm, -⟩
  rw [hvmis] at hm
  cases hm

/-! ## What `StartVm` returns -/

/-- The child has been spawned and has not exited. -/
def VmProcess.alive (p : VmProcess) : Bool := p.child = .starting true ∨ p.child = .attached true

/-- From the launch on, the emulator of VM `uid` is there. -/
def emulatorUp (uid : Nat) (s : Sys κ) : Bool :=
  !(s.thread uid).launched || s.vmis.all fun vb => vb.uid ≠ uid || vb.mainProc.any (·.alive)

theorem alive_of_emulatorUp {uid : Nat} {s : Sys κ} (hu : emulatorUp uid s = true)
    (hl : (s.thread uid).launched = true) {vb : VmBuilderQemu} (hf : s.find uid = some vb) :
    ∃ main, vb.mainProc = some main ∧ main.alive = true := by
  obtain ⟨hm, he⟩ := find_some hf
  simp only [emulatorUp, hl, Bool.not_true, Bool.false_or, List.all_eq_true] at hu
  have ha := hu vb hm
  rw [he] at ha
  simpa [Option.any_eq_true] using ha

/-- While `StartVm` waits for a VM without `wait_ready`, that VM is registered
and its thread is not on the way out. -/
def StaysUp (uid : Nat) (s : Sys κ) : Prop :=
  Awaits s.server uid false →
    Registered s uid ∧ s.thread uid ≠ .deleteLock ∧ s.thread uid ≠ .delete ∧ s.thread uid ≠ .done

/-- Without `wait_ready` there is nothing between the two count-downs. -/
theorem Threads.not_midway {s : Sys κ} (hi : Threads s) {uid : Nat} (ha : Awaits s.server uid false) :
    (s.thread uid).midway = false := by
  refine Bool.eq_false_iff.2 fun hm => ?_
  obtain ⟨waitReady, hs, hw⟩ := hi.busy uid (.inr hm)
  rw [hw hm] at hs
  rcases ha with ha | ha <;> rw [ha] at hs <;> cases hs

theorem staysUp_thread {h : Host κ} {s s' : Sys κ} {u uid : Nat} (hr : Registry s) (ht : Threads s) (hl : Launches s)
    (hi : StaysUp uid s) (hu : emulatorUp uid s = true) (hs : ThreadMove h s u s') : StaysUp uid s' := by
  intro ha
  rw [hs.counted.server] at ha
  obtain ⟨hreg, hlock, hnd, hndone⟩ := hi ha
  have hmid := ht.not_midway ha
  have hgive : s.thread uid ≠ .giveUp := fun he => by rw [he] at hmid; cases hmid
  refine ⟨hs.registered hr hreg fun _ => ⟨hnd, hgive⟩, ?_⟩
  by_cases he : uid = u
  · subst he
    cases hs with
    | undefined => exact ⟨hlock, hnd, hndone⟩
    | lock vb p _ _ hpc =>
      rcases hpc with ⟨hpc, -⟩ | ⟨hpc, -⟩
      · exact absurd hpc hlock
      · rw [hpc] at hmid
        cases hmid
    | exited vb hf hpc =>
      -- `WaitVmExit` does not return while the emulator is there.
      have hstart : s.server.started = some (uid, false) := by rcases ha with ha | ha <;> rw [ha] <;> rfl
      obtain ⟨hm, hvu⟩ := find_some hf
      rcases hpc with ⟨hpc, hmon⟩ | ⟨hpc, hdead⟩
      · have hmon' := hl.mon uid false hstart (by rw [hpc]; rfl) vb hm hvu
        rw [hmon] at hmon'
        cases hmon'
      · obtain ⟨main, hmain, halive⟩ := alive_of_emulatorUp hu (by rw [hpc]; rfl) hf
        rw [hmain] at hdead
        have hchild : main.child = .attached false := by simpa using hdead
        simp [VmProcess.alive, hchild] at halive
    | delete vb hpc => exact absurd hpc hnd
    | giveUp vb hpc => exact absurd hpc hgive
    | giveUpNotify hpc => rw [hpc] at hmid; cases hmid
    | _ => rw [setThread_self]; exact ⟨nofun, nofun, nofun⟩
  · rw [(hs.counted.others uid he).1]
    exact ⟨hlock, hnd, hndone⟩

theorem staysUp_step {h : Host κ} {s s' : Sys κ} {uid : Nat} {a : Act κ} (hr : Registry s) (ht : Threads s)
    (hl : Launches s) (hi : StaysUp uid s) (hu : emulatorUp uid s = true) (hs : step h s a = some s') :
    StaysUp uid s' := by
  rcases step_move hs with ⟨-, hm⟩ | ⟨u, -, hm⟩ | hm
  · intro ha
    rcases hm.awaits ha with ⟨hreg, hpc⟩ | ⟨ha, hv, hth⟩
    · rw [hpc]
      exact ⟨hreg, nofun, nofun, nofun⟩
    · rw [Registered, hv, hth]
      exact hi ha
  · exact staysUp_thread hr ht hl hi hu hm
  · intro ha
    rw [hm.frame.1] at ha
    obtain ⟨hreg, hpc⟩ := hi ha
    exact ⟨hm.registered hreg, hm.frame.2 ▸ hpc⟩

/-- Past the latch there are only these places. -/
theorem ThreadPc.up_of_passed {p : ThreadPc} (hp : p ≠ .none ∧ p.early = false ∧ p.midway = false)
    (hready : p ≠ .setReady) (hdone : p ≠ .done) : p.up = true := by
  obtain ⟨hnone, hearly, hmid⟩ := hp
  cases p <;> simp_all [ThreadPc.early, ThreadPc.midway, ThreadPc.up]

/-- In every interleaving in which the emulator of the VM is spawned and stays
alive, `StartVm` without `wait_ready` returns 0 exactly if the VM thread has
got past `SetVmReady` before the state is read. -/
theorem startVm_returns_zero_iff (h : Host κ) (k : κ) (s s' : Sys κ) (as : List (Act κ)) (uid : Nat)
    (hr : run (step h) (Sys.init k) as = some s)
    (hg : Guarded (step h) (fun s _ => emulatorUp uid s = true) (Sys.init k) as) (hpc : s.server = .startState uid false)
    (hs : step h s .server = some s') : s'.server = .reply 0 ↔ s.thread uid ≠ .setReady := by
  have hi : (Registry s ∧ Threads s ∧ Launches s) ∧ StaysUp uid s := by
    refine run_keeps_guarded (I := fun s => (Registry s ∧ Threads s ∧ Launches s) ∧ StaysUp uid s)
      (fun s a s' hi hg hs => ?_) hr hg ⟨⟨registry_init k, threads_init k, launches_init k⟩, fun ha => ?_⟩
    · obtain ⟨⟨hr, ht, hl⟩, hu⟩ := hi
      exact ⟨⟨registry_step hr hs, threads_step hr ht hs, launches_step hr hl hs⟩, staysUp_step hr ht hl hu hg hs⟩
    · rcases ha with ha | ha <;> cases ha
  obtain ⟨⟨hreg, hthr, -⟩, hup⟩ := hi
  obtain ⟨⟨vb, hm, hu⟩, -, -, hndone⟩ := hup (.inr hpc)
  have hf : s.find uid = some vb := hu ▸ hreg.find hm
  have hs' : s'.server = .reply (if vb.state = .running then 0 else -1) := by
    unfold step serverStep at hs
    split at hs
    · cases hs
    · simp only [hpc, hf, Option.some.injEq] at hs
      rw [← hs]
      rfl
  obtain ⟨hnone, hearly, hmid⟩ := hthr.passed uid false hpc
  have hat := hthr.instances vb hm
  subst hu
  constructor
  · rintro hzero hready
    rw [if_neg (hat.unready (by rw [hready]; rfl))] at hs'
    rw [hs'] at hzero
    cases hzero
  · intro hne
    have hrun := hat.up (ThreadPc.up_of_passed ⟨hnone, hearly, hmid⟩ hne hndone)
    rw [if_pos hrun] at hs'
    exact hs'

theorem startVm_returns_zero_ready : ∃ s s', run (step (vmHost "")) (Sys.init ())
      (startVm ++ [.thread 0, .thread 0, .thread 0, .thread 0, .server]) = some s ∧
    step (vmHost "") s .server = some s' ∧ s'.server = .reply 0 := by
  have hpc : (run (step (vmHost "")) (Sys.init ()) (startVm ++ [.thread 0, .thread 0, .thread 0, .thread 0, .server])).map
      (fun s => (s.server, s.thread 0, (step (vmHost "") s .server).isSome)) =
        some (.startState 0 false, .waitExit, true) := by decide +kernel
  have hg : Guarded (step (vmHost "")) (fun s _ => emulatorUp 0 s = true) (Sys.init ())
      (startVm ++ [.thread 0, .thread 0, .thread 0, .thread 0, .server]) := by decide +kernel
  obtain ⟨s, hs, he⟩ := Option.map_eq_some_iff.1 hpc
  obtain ⟨hserver, he⟩ := Prod.mk.inj he
  obtain ⟨hthread, hstep⟩ := Prod.mk.inj he
  obtain ⟨s', hs'⟩ := Option.isSome_iff_exists.1 hstep
  exact ⟨s, s', hs, hs', (startVm_returns_zero_iff (vmHost "") () s s' _ 0 hs hg hserver hs').2 (hthread ▸ nofun)⟩

/-- The server is scheduled between the count-down and `SetVmReady`: the client
is told that the start has failed, and the VM is running a moment later. -/
theorem startVm_fails_early : ∃ s s' s'', run (step (vmHost "")) (Sys.init ())
      (startVm ++ [.thread 0, .thread 0, .thread 0, .server]) = some s ∧
    Guarded (step (vmHost "")) (fun s _ => emulatorUp 0 s = true) (Sys.init ())
      (startVm ++ [.thread 0, .thread 0, .thread 0, .server]) ∧ s.server = .startState 0 false ∧
    step (vmHost "") s .server = some s' ∧ s'.server = .reply (-1) ∧
    step (vmHost "") s' (.thread 0) = some s'' ∧ s''.vmis.map (·.state) = [.running] := by
  have hpc : (run (step (vmHost "")) (Sys.init ()) (startVm ++ [.thread 0, .thread 0, .thread 0, .server])).map
      (fun s => (s.server, (step (vmHost "") s .server).map fun s' =>
        (s'.server, (step (vmHost "") s' (.thread 0)).map fun s'' => s''.vmis.map (·.state)))) =
      some (.startState 0 false, some (.reply (-1), some [.running])) := by decide +kernel
  have hg : Guarded (step (vmHost "")) (fun s _ => emulatorUp 0 s = true) (Sys.init ())
      (startVm ++ [.thread 0, .thread 0, .thread 0, .server]) := by decide +kernel
  obtain ⟨s, hs, he⟩ := Option.map_eq_some_iff.1 hpc
  obtain ⟨hserver, he⟩ := Prod.mk.inj he
  obtain ⟨s', hs', he⟩ := Option.map_eq_some_iff.1 he
  obtain ⟨hreply, he⟩ := Prod.mk.inj he
  obtain ⟨s'', hs'', hstate⟩ := Option.map_eq_some_iff.1 he
  exact ⟨s, s', s'', hs, hg, hserver, hs', hreply, hs'', hstate⟩

end VmManager
