import VmManager.LockInvariants
import VmManager.SpawnTheorems
/-!
# The end of a VM

When the emulator has exited, the thread of its VM takes the VM out of the
registry in a few steps of its own. It can be held up at two locks, and then
whoever holds the lock can go on.
-/
open Text Runs

namespace VmManager

open VmBuilderQemu

variable {κ : Type} {h : Host κ} {s s' : Sys κ} {a : Act κ} {uid : Nat}

/-- The action is a step of the thread of VM `uid`. -/
def Act.ofThread (uid : Nat) : Act κ → Bool
  | .thread u => u = uid
  | _ => false

/-- How many steps a thread whose emulator has exited can still take. -/
def ThreadPc.toGo : ThreadPc → Nat
  | done | none | launch | stuck => 0
  | delete | giveUpNotify => 1
  | deleteLock | giveUp => 2
  | joining | giveUpLock => 3
  | waitExit | waitReady _ => 4
  | setReady | addPending | notifyReady => 5
  | sleepReady _ | countDown => 6
  | booting => 7

theorem ThreadPc.toGo_le (p : ThreadPc) : p.toGo ≤ 7 := by
  cases p <;> simp [toGo]

/-- The emulator of an instance has exited, and its monitor has seen it. -/
def Dead (vb : VmBuilderQemu) : Prop := ∃ main, vb.mainProc = some main ∧ main.child = .attached false

/-- The VM `uid` has been launched, and its emulator is dead. -/
structure Exited (uid : Nat) (s : Sys κ) : Prop where
  launched : (s.thread uid).launched = true
  dead : ∀ vb ∈ s.vmis, vb.uid = uid → Dead vb

theorem Dead.not_running {vb : VmBuilderQemu} (hd : Dead vb) : vb.mainProc.any (·.running) = false := by
  obtain ⟨main, hmain, hc⟩ := hd
  simp [hmain, VmProcess.running, hc]

theorem Dead.map {vb vb' : VmBuilderQemu} (hd : Dead vb) {f : VmProcess → VmProcess}
    (hf : ∀ p, p.child = .attached false → (f p).child = .attached false) (hm : vb'.mainProc = vb.mainProc.map f) :
    Dead vb' := by
  obtain ⟨main, hmain, hc⟩ := hd
  exact ⟨f main, by rw [hm, hmain]; rfl, hf main hc⟩

theorem stop_dead {p : VmProcess} (hc : p.child = .attached false) (k : κ) : (p.stop h k).1.child = .attached false := by
  have hs : (p.stopSimple h k).1.child = .attached false := by
    unfold VmProcess.stopSimple
    rw [if_neg (by rw [hc]; exact fun hn => by cases hn.2)]
    exact hc
  unfold VmProcess.stop
  split <;> exact hs

theorem onProc_dead {vb : VmBuilderQemu} (hd : Dead vb) (i : Nat) {f : VmProcess → VmProcess}
    (hf : ∀ p, p.child = .attached false → (f p).child = .attached false) : Dead (onProc i f vb) := by
  cases i with
  | zero => exact hd.map hf rfl
  | succ i => exact hd

theorem Evolves.dead {vb vb' : VmBuilderQemu} (he : Evolves h s a vb vb') (hd : Dead vb)
    (hl : (s.thread vb.uid).launched = true) (hb : s.server.builder ≠ some vb) : Dead vb' := by
  cases he with
  | build p i st q vb' w _ hpc => exact absurd (by rw [hpc]; rfl) hb
  | get env hn => rw [hn] at hl; cases hl
  | launch procs main₀ main k₀ k _ hpc => rw [hpc] at hl; cases hl
  | stop =>
    obtain ⟨main, hmain, hc⟩ := hd
    refine ⟨(main.stop h s.world.kernel).1, ?_, stop_dead hc _⟩
    simp only [VmBuilderQemu.stopVm, VmBuilderQemu.stopProcs, hmain]
  | exits i => exact onProc_dead hd i fun p hc => by simp [VmProcess.exits, hc]
  | attaches i => exact onProc_dead hd i fun p hc => by simp [VmProcess.attaches, hc]
  | _ => exact hd

/-- The server starts threads that have not been started, and touches no
other. -/
theorem server_thread (hr : Registry s) (hm : ServerMove h s s') (hn : s.thread uid ≠ .none) :
    s'.thread uid = s.thread uid := by
  cases hm with
  | quiet s' hc => rw [hc.thread]
  | overwrite name => exact congrFun (deleteVmInstance_frame h s name).2.1 uid
  | get pos u env waitReady vb hpc hv =>
    obtain ⟨-, hnone, -, hu⟩ := hr.got pos u env waitReady hpc
    obtain rfl := hu vb hv
    have hne : uid ≠ vb.uid := by
      rintro rfl
      exact hn hnone
    exact Function.update_of_ne hne ..
  | _ => rfl

theorem thread_of_other (hr : Registry s) (hs : step h s a = some s') (hn : s.thread uid ≠ .none)
    (ha : a.ofThread uid = false) : s'.thread uid = s.thread uid := by
  rcases step_move hs with ⟨-, hm⟩ | ⟨u, rfl, hm⟩ | hm
  · exact server_thread hr hm hn
  · have hne : uid ≠ u := by
      rintro rfl
      simp [Act.ofThread] at ha
    exact (hm.counted.others uid hne).1
  · rw [hm.frame.2]

theorem ThreadPc.started_of_launched {p : ThreadPc} (hl : p.launched = true) : p ≠ .none := by
  rintro rfl
  cases hl

/-- No step takes a thread back before its launch. -/
theorem launched_step (hr : Registry s) (hs : step h s a = some s') (hl : (s.thread uid).launched = true) :
    (s'.thread uid).launched = true := by
  cases ha : a.ofThread uid with
  | false =>
    rw [thread_of_other hr hs (ThreadPc.started_of_launched hl) ha]
    exact hl
  | true =>
    cases a with
    | thread u =>
      obtain rfl : u = uid := by simpa [Act.ofThread] using ha
      cases threadMove_of_step hs with
      | undefined => exact hl
      | noMain vb hpc => rw [hpc] at hl; cases hl
      | stuck vb main hpc => rw [hpc] at hl; cases hl
      | lock vb p _ _ hpc => rcases hpc with ⟨-, rfl⟩ | ⟨-, rfl⟩ <;> rw [setThread_self] <;> rfl
      | _ => rw [setThread_self]; rfl
    | _ => cases ha

theorem exited_step (hr : Registry s) (hi : Exited uid s) (hs : step h s a = some s') : Exited uid s' := by
  refine ⟨launched_step hr hs hi.launched, fun vb' hm hu => ?_⟩
  rcases step_vmis hr hs vb' hm with ⟨p, -, hpc⟩ | ⟨vb, hv, he⟩
  · have hn := (hr.builder vb' (by rw [hpc]; rfl)).2.1
    have hl := hi.launched
    rw [← hu, hn] at hl
    cases hl
  · have hvu : vb.uid = uid := he.identity.uid.symm.trans hu
    exact he.dead (hi.dead vb hv hvu) (hvu ▸ hi.launched) fun hb => ((hr.builder vb hb).2.2.2 vb hv).1 rfl

/-- A step of the thread brings it nearer to its end. -/
theorem toGo_thread (hi : Exited uid s) (hm : ThreadMove h s uid s') (hub : s'.ub = false) :
    (s'.thread uid).toGo + 1 ≤ (s.thread uid).toGo := by
  have hl := hi.launched
  cases hm with
  | undefined => cases hub
  | noMain vb hpc => rw [hpc] at hl; cases hl
  | stuck vb main hpc => rw [hpc] at hl; cases hl
  | launch vb procs main₀ main k₀ k hpc => rw [hpc] at hl; cases hl
  | exited vb hf hpc => rcases hpc with ⟨hpc, -⟩ | ⟨hpc, -⟩ <;> rw [hpc, setThread_self] <;> decide
  | lock vb p hf hno hpc => rcases hpc with ⟨hpc, rfl⟩ | ⟨hpc, rfl⟩ <;> rw [hpc, setThread_self] <;> decide
  | sleep vb n hpc hf hn hrun =>
    rw [(hi.dead vb (find_some hf).1 (find_some hf).2).not_running] at hrun
    cases hrun
  | _ => rw [‹s.thread uid = _›, setThread_self]; simp [ThreadPc.toGo]

theorem toGo_step (hr : Registry s) (hi : Exited uid s) (hs : step h s a = some s') (hub : s'.ub = false) :
    (a.ofThread uid).toNat + (s'.thread uid).toGo ≤ (s.thread uid).toGo := by
  cases ha : a.ofThread uid with
  | false =>
    rw [thread_of_other hr hs (ThreadPc.started_of_launched hi.launched) ha]
    exact Nat.le_of_eq (Nat.zero_add _)
  | true =>
    cases a with
    | thread u =>
      obtain rfl : u = uid := by simpa [Act.ofThread] using ha
      rw [Bool.toNat_true, Nat.add_comm]
      exact toGo_thread hi (threadMove_of_step hs) hub
    | _ => cases ha

/-- The thread of VM `uid` waits for `vmis_mutex_`, which a `DeleteVmInstance`
of another has, or in `~VmBuilderQemu` for `stopvm_mutex_`, which the server has
in `StopVm` of this VM. -/
def HeldUp (s : Sys κ) (uid : Nat) : Prop :=
  ((s.thread uid = .deleteLock ∨ s.thread uid = .giveUpLock) ∧ ∃ d, s.deleting = some d ∧ d.thread ≠ some uid) ∨
  ((s.thread uid = .delete ∨ s.thread uid = .giveUp) ∧ s.server = .stopping uid)

/-- The thread of VM `uid` can go on. -/
def GoesOn (h : Host κ) (s : Sys κ) (uid : Nat) : Prop := ∃ s', step h s (.thread uid) = some s' ∧ s'.ub = false

/-- The thread of a dead VM can go on, or waits at one of the two locks. -/
theorem exited_goes_on (hr : Registry s) (ht : Threads s) (hlock : Locked s) (hi : Exited uid s) (hub : s.ub = false)
    (hreg : Registered s uid) : GoesOn h s uid ∨ HeldUp s uid := by
  obtain ⟨vb, hm, rfl⟩ := hreg
  obtain ⟨main, hmain, hc⟩ := hi.dead vb hm rfl
  have hf := hr.find hm
  have hgone := (ht.instances vb hm).gone
  have hl := hi.launched
  have hdel : (deleteVmInstance h s vb.name).ub = false := by
    rw [(deleteVmInstance_deleted h hr hm).eq]
    exact hub
  -- Nobody who waits for the mutex has it.
  have hwait : s.thread vb.uid = .deleteLock ∨ s.thread vb.uid = .giveUpLock → ∀ d, s.deleting = some d →
      HeldUp s vb.uid := by
    refine fun hpc d hd => .inl ⟨hpc, d, hd, fun he => ?_⟩
    have hin : (s.thread vb.uid).deletes = true := (hlock (some vb.uid)).2 (by rw [hd, ← he]; rfl)
    rcases hpc with hpc | hpc <;> rw [hpc] at hin <;> cases hin
  unfold GoesOn step
  rw [hub, if_neg Bool.false_ne_true]
  dsimp only
  unfold threadStep
  cases hpc : s.thread vb.uid with
  | none | launch | stuck => rw [hpc] at hl; cases hl
  | done | giveUpNotify => rw [hpc] at hgone; cases hgone
  | countDown | notifyReady => exact .inl ⟨_, rfl, hub⟩
  | joining =>
    refine .inl ⟨s.setThread vb.uid .deleteLock, ?_, hub⟩
    simp [hf, threadStepOn, hpc, hmain, hc]
  | deleteLock | giveUpLock =>
    simp only [threadStepOn, hpc, hf, Sys.lockVmis]
    cases hd : s.deleting with
    | none => exact .inl ⟨_, rfl, hub⟩
    | some d => exact .inr (hwait (by rw [hpc]; simp) d hd)
  | delete | giveUp =>
    simp only [threadStepOn, hpc, hf]
    by_cases hserver : s.server = .stopping vb.uid
    · exact .inr (.inr ⟨by rw [hpc]; simp, hserver⟩)
    · rw [if_neg hserver]
      exact .inl ⟨_, rfl, hdel⟩
  | _ =>
    simp only [threadStepOn, hpc, hf]
    exact .inl ⟨_, rfl, hub⟩

theorem HeldUp.deleting (hl : Locked s) (hw : HeldUp s uid) : s.deleting ≠ none := by
  rcases hw with ⟨-, d, hd, -⟩ | ⟨hpc, -⟩
  · rw [hd]
    exact nofun
  · have hin : inDelete s (some uid) = true := by rcases hpc with hpc | hpc <;> rw [inDelete, hpc] <;> rfl
    have howner := (hl (some uid)).1 hin
    intro hd
    rw [hd] at howner
    cases howner

/-- It is not the thread that waits which has to go on. -/
theorem HeldUp.freeing (hl : Locked s) (hw : HeldUp s uid) : (freeing s).ofThread uid = false := by
  rcases hw with ⟨-, d, hd, hne⟩ | ⟨hpc, hserver⟩
  · rw [VmManager.freeing, hd, Option.bind_some]
    cases ht : d.thread with
    | none => rfl
    | some u =>
      dsimp only
      split
      · rfl
      · exact decide_eq_false fun he => hne (ht.trans (congrArg some he))
  · have hin : inDelete s (some uid) = true := by rcases hpc with hpc | hpc <;> rw [inDelete, hpc] <;> rfl
    obtain ⟨d, hd, ht⟩ := Option.map_eq_some_iff.1 ((hl (some uid)).1 hin)
    rw [VmManager.freeing, hd, Option.bind_some, ht]
    dsimp only
    rw [if_pos hserver]
    rfl

theorem defined_of_step (hs : step h s a = some s') : s.ub = false := by
  unfold step at hs
  split at hs
  · cases hs
  · exact Bool.eq_false_iff.2 ‹_›

/-- A registered VM whose emulator is dead still has a thread to go on. -/
theorem toGo_of_registered (ht : Threads s) (hi : Exited uid s) (hreg : Registered s uid) : 0 < (s.thread uid).toGo := by
  obtain ⟨vb, hm, rfl⟩ := hreg
  have hgone := (ht.instances vb hm).gone
  have hl := hi.launched
  cases hpc : s.thread vb.uid with
  | none | launch | stuck => rw [hpc] at hl; cases hl
  | done | giveUpNotify => rw [hpc] at hgone; cases hgone
  | _ => exact Nat.succ_pos _

/-- What every step keeps of the locks. -/
structure Ordered (s : Sys κ) : Prop where
  instances : Instances s
  locked : Locked s
  holding : Holding s

theorem ordered_step (hi : Ordered s) (hs : step h s a = some s') : Ordered s' :=
  ⟨instances_step hi.instances hs, locked_step hi.instances.registry hi.locked hs,
    holding_step hi.instances.registry hi.locked hi.holding hs⟩

theorem ordered_init (k : κ) : Ordered (Sys.init k) := ⟨instances_init k, locked_init k, holding_init k⟩

/-- Once the emulator of a VM has exited: as long as the VM is registered its
thread can go on, or waits at a lock and who has the lock can go on, whatever
the others have done; and after at most seven steps of the thread the VM is not
registered any more. -/
theorem exited_vm_is_removed (h : Host κ) (k : κ) (s s' : Sys κ) (as bs : List (Act κ)) (vb : VmBuilderQemu)
    (main : VmProcess) (hr : run (step h) (Sys.init k) as = some s) (hm : vb ∈ s.vmis)
    (hl : (s.thread vb.uid).launched = true) (hmain : vb.mainProc = some main) (hc : main.child = .attached false)
    (hr' : run (step h) s bs = some s') (hub : s'.ub = false) :
    bs.countP (·.ofThread vb.uid) ≤ 7 ∧ (Registered s' vb.uid → bs.countP (·.ofThread vb.uid) < 7 ∧
      (GoesOn h s' vb.uid ∨ HeldUp s' vb.uid ∧
        ∃ s'', step h s' (freeing s') = some s'' ∧ s''.ub = false ∧ holdRank s'' < holdRank s')) := by
  have hi : Ordered s := run_keeps (fun _ _ _ hi hs => ordered_step hi hs) hr (ordered_init k)
  have hexited : Exited vb.uid s := by
    refine ⟨hl, fun vb' hm' hu => ?_⟩
    obtain rfl := hi.instances.registry.eq_of_uid hm' hm hu
    exact ⟨main, hmain, hc⟩
  obtain ⟨hi', hexited', hcount⟩ := run_keeps_past (J := fun as s₁ => Ordered s₁ ∧ Exited vb.uid s₁ ∧
      (s₁.ub = false → as.countP (·.ofThread vb.uid) + (s₁.thread vb.uid).toGo ≤ (s.thread vb.uid).toGo))
    (fun as s₁ a s₂ _ hj hs => by
      obtain ⟨hi, hexited, hcount⟩ := hj
      have hr := hi.instances.registry
      refine ⟨ordered_step hi hs, exited_step hr hexited hs, fun hub => ?_⟩
      have hstep := toGo_step hr hexited hs hub
      have hpast := hcount (defined_of_step hs)
      have hlast : (as ++ [a]).countP (·.ofThread vb.uid) =
          as.countP (·.ofThread vb.uid) + (a.ofThread vb.uid).toNat := by
        rw [List.countP_append, List.countP_singleton]
        cases a.ofThread vb.uid <;> rfl
      omega) hr' ⟨hi, hexited, fun _ => by simp⟩
  have hle := hcount hub
  have hmax := ThreadPc.toGo_le (s.thread vb.uid)
  have hreg' := hi'.instances.registry
  refine ⟨by omega, fun hreg => ⟨?_, ?_⟩⟩
  · have hpos := toGo_of_registered hi'.instances.threads hexited' hreg
    omega
  · refine (exited_goes_on hreg' hi'.instances.threads hi'.locked hexited' hub hreg).imp_right fun hw => ⟨hw, ?_⟩
    exact freeing_goes_on h hreg' hi'.locked hi'.holding hub (hw.deleting hi'.locked)

/-- The emulators of `a` and of `b` exit, and the thread of `b` is in
`DeleteVmInstance` when that of `a` comes there. -/
def bothExit : List (Act Unit) := [.exit 1 0, .thread 1, .thread 1, .recv .listVm, .thread 0]

theorem exited_vm_is_removed_soon : ∃ s s' vb main,
    run (step twoVmHost) (Sys.init ()) (startUp "/a.ini" 0 ++ startUp "/b.ini" 1 ++ [.exit 0 0]) = some s ∧ vb ∈ s.vmis ∧
    vb.uid = 0 ∧ vb.mainProc = some main ∧ main.child = .attached false ∧ run (step twoVmHost) s bothExit = some s' ∧
    (GoesOn twoVmHost s' 0 ∨ HeldUp s' 0 ∧
      ∃ s'', step twoVmHost s' (freeing s') = some s'' ∧ s''.ub = false ∧ holdRank s'' < holdRank s') := by
  have he : (run (step twoVmHost) (Sys.init ()) (startUp "/a.ini" 0 ++ startUp "/b.ini" 1 ++ [.exit 0 0])).map (fun s =>
      ((s.thread 0).launched, s.vmis.map fun vb => (vb.uid, vb.mainProc.map (·.child)))) =
      some (true, [(0, some (.attached false)), (1, some (.attached true))]) := by decide +kernel
  have he' : (run (step twoVmHost) (Sys.init ()) (startUp "/a.ini" 0 ++ startUp "/b.ini" 1 ++ [.exit 0 0] ++ bothExit)).map
      (fun s => (s.ub, s.vmis.map (·.uid))) = some (false, [0, 1]) := by decide +kernel
  obtain ⟨s, hr, he⟩ := Option.map_eq_some_iff.1 he
  obtain ⟨hl, hv⟩ := Prod.mk.inj he
  obtain ⟨vb, rest, hvmis, hvb, -⟩ := List.map_eq_cons_iff.1 hv
  obtain ⟨hu, hchild⟩ := Prod.mk.inj hvb
  obtain ⟨main, hmain, hc⟩ := Option.map_eq_some_iff.1 hchild
  have hm : vb ∈ s.vmis := hvmis ▸ List.mem_cons_self
  obtain ⟨s', hrs', he'⟩ := Option.map_eq_some_iff.1 he'
  obtain ⟨s₁, hs₁, hr'⟩ := run_append.1 hrs'
  cases hr.symm.trans hs₁
  obtain ⟨hub, hv'⟩ := Prod.mk.inj he'
  obtain ⟨vb', rest', hvmis', hu', -⟩ := List.map_eq_cons_iff.1 hv'
  have hreg : Registered s' vb.uid := ⟨vb', hvmis' ▸ List.mem_cons_self, hu'.trans hu.symm⟩
  have hgo := (exited_vm_is_removed twoVmHost () s s' _ _ vb main hr hm (by rw [hu]; exact hl) hmain hc hr' hub).2 hreg
  rw [hu] at hgo
  exact ⟨s, s', vb, main, hr, hm, hu, hmain, hc, hr', hgo.2⟩

/-! ## From every state -/

/-- An emulator that has been launched has been spawned, or could not be. -/
def Begun (vb : VmBuilderQemu) : Prop := ∃ main, vb.mainProc = some main ∧ main.child ≠ .none

theorem stop_begun {p : VmProcess} (hc : p.child ≠ .none) (k : κ) : (p.stop h k).1.child ≠ .none := by
  have hs : (p.stopSimple h k).1.child ≠ .none := by
    unfold VmProcess.stopSimple
    split
    · exact nofun
    · exact hc
  unfold VmProcess.stop
  split <;> exact hs

theorem onProc_begun {vb : VmBuilderQemu} (hb : Begun vb) (i : Nat) {f : VmProcess → VmProcess}
    (hf : ∀ p, p.child ≠ .none → (f p).child ≠ .none) : Begun (onProc i f vb) := by
  obtain ⟨main, hmain, hc⟩ := hb
  cases i with
  | zero => exact ⟨f main, by simp [onProc, hmain], hf main hc⟩
  | succ i => exact ⟨main, hmain, hc⟩

theorem exits_begun {p : VmProcess} (hc : p.child ≠ .none) : p.exits.child ≠ .none := by
  unfold VmProcess.exits
  split
  · exact hc
  · exact nofun
  · exact nofun

theorem attaches_begun {p : VmProcess} (hc : p.child ≠ .none) : p.attaches.child ≠ .none := by
  unfold VmProcess.attaches
  split
  · exact nofun
  · exact hc

theorem Evolves.begun {vb vb' : VmBuilderQemu} (he : Evolves h s a vb vb') (hd : Begun vb)
    (hl : (s.thread vb.uid).launched = true) (hb : s.server.builder ≠ some vb) : Begun vb' := by
  cases he with
  | build p i st q vb' w _ hpc => exact absurd (by rw [hpc]; rfl) hb
  | get env hn => rw [hn] at hl; cases hl
  | launch procs main₀ main k₀ k _ hpc => rw [hpc] at hl; cases hl
  | stop =>
    obtain ⟨main, hmain, hc⟩ := hd
    refine ⟨(main.stop h s.world.kernel).1, ?_, stop_begun hc _⟩
    simp only [VmBuilderQemu.stopVm, VmBuilderQemu.stopProcs, hmain]
  | exits i => exact onProc_begun hd i fun _ => exits_begun
  | attaches i => exact onProc_begun hd i fun _ => attaches_begun
  | _ => exact hd

theorem run_begun {p p' : VmProcess} {k k' : κ} {cmd : String} (hk : p.kind = .simple cmd)
    (hr : p.run h k = some (p', k')) : p'.child ≠ .none := by
  unfold VmProcess.run at hr
  rw [hk] at hr
  dsimp only at hr
  unfold VmProcess.runCmd at hr
  split at hr <;> cases hr
  exact nofun

/-- The launch spawns the emulator. -/
theorem begun_of_runsMain {main : VmProcess} (hi : Instances s) (hs : step h s a = some s')
    (hrun : runsMain h uid s a main) : ∀ vb' ∈ s'.vmis, vb'.uid = uid → Begun vb' := by
  obtain ⟨vb, main₀, procs, k₀, k, hf, -, hmain, hrun, rfl⟩ := runsMain_step hs hrun
  obtain ⟨main₁, cmd, hmain₁, hk, -⟩ := (hi.launches.instances vb (find_some hf).1).main
  obtain rfl := Option.some.inj (hmain.symm.trans hmain₁)
  intro vb' hm hu
  obtain ⟨v, -, -, rfl⟩ := eq_of_mem_updateVm hm hu
  exact ⟨main, rfl, run_begun hk hrun⟩

/-- The thread of VM `uid` takes a step, or its emulator exits and is waited
for. -/
def Act.ofVm (uid : Nat) : Act κ → Prop
  | .thread u => u = uid
  | .exit u i | .attach u i => u = uid ∧ i = 0
  | _ => False

/-- Or, while the thread is held up, whoever has the lock goes on. -/
def Ends (uid : Nat) (s : Sys κ) (a : Act κ) : Prop := a.ofVm uid ∨ HeldUp s uid ∧ a = freeing s

/-- What every step keeps, as far as the end of a VM is concerned. -/
structure Lives (s : Sys κ) : Prop where
  ordered : Ordered s
  unstuck : ∀ uid, s.thread uid ≠ .stuck
  begun : ∀ vb ∈ s.vmis, (s.thread vb.uid).launched = true → Begun vb

theorem lives_step (hi : Lives s) (hs : step h s a = some s') : Lives s' := by
  have hins := hi.ordered.instances
  have hr := hins.registry
  refine ⟨ordered_step hi.ordered hs, unstuck_step hins.launches hi.unstuck hs, fun vb' hm hl' => ?_⟩
  rcases launched_cause hins.launches hs hl' with hl | ⟨main, hrun⟩
  · rcases step_vmis hr hs vb' hm with ⟨p, -, hpc⟩ | ⟨vb, hv, he⟩
    · rw [(hr.builder vb' (by rw [hpc]; rfl)).2.1] at hl
      cases hl
    · rw [he.identity.uid] at hl
      exact he.begun (hi.begun vb hv hl) hl fun hb => ((hr.builder vb hb).2.2.2 vb hv).1 rfl
  · exact begun_of_runsMain hins hs hrun vb' hm rfl

theorem lives_init (k : κ) : Lives (Sys.init k) :=
  ⟨ordered_init k, fun _ => nofun, fun _ hm => nomatch hm⟩

/-- The VM is launched if it has not been. -/
theorem launch_reached (hi : Lives s) (hub : s.ub = false) (hreg : Registered s uid) (hn : s.thread uid ≠ .none) :
    CanReach (step h) (Ends uid)
      (fun s => (Lives s ∧ s.ub = false) ∧ Registered s uid ∧ (s.thread uid).launched = true) s := by
  obtain ⟨vb, hm, rfl⟩ := hreg
  by_cases hpc : s.thread vb.uid = .launch
  · obtain ⟨main₀, procs, k₀, ⟨main, k⟩, hmain, hprocs, hrun⟩ :=
      (hi.ordered.instances.launches.instances vb hm).runs h s.world.kernel
    have hs : step h s (.thread vb.uid) = some (((s.updateVm vb.uid fun vb =>
        { vb with coProcs := procs, mainProc := some main }).setKernel k).setThread vb.uid .booting) := by
      simp only [step, hub, Bool.false_eq_true, if_false, threadStep, threadStepOn, hpc,
        hi.ordered.instances.registry.find hm, hmain, hprocs, Option.bind_some, hrun, Option.map_some]
    refine .next (a := .thread vb.uid) (.inl rfl) hs (.here ⟨⟨lives_step hi hs, hub⟩, ?_, ?_⟩)
    · exact registered_updateVm ⟨vb, hm, rfl⟩ vb.uid fun _ => rfl
    · rw [setThread_self]
      rfl
  · refine .here ⟨⟨hi, hub⟩, ⟨vb, hm, rfl⟩, ?_⟩
    cases hp : s.thread vb.uid with
    | none => exact absurd hp hn
    | launch => exact absurd hp hpc
    | stuck => exact absurd hp (hi.unstuck vb.uid)
    | _ => rfl

theorem attaches_exits {p : VmProcess} (hc : p.child ≠ .none) : p.exits.attaches.child = .attached false := by
  cases hp : p.child <;> simp_all [VmProcess.exits, VmProcess.attaches]

/-- A launched emulator can exit and be waited for. -/
theorem exit_reached (hi : Lives s) (hub : s.ub = false) (hl : (s.thread uid).launched = true) :
    CanReach (step h) (Ends uid) (fun s => Ordered s ∧ Exited uid s ∧ s.ub = false) s := by
  have hexit : step h s (.exit uid 0) = some (s.updateVm uid (onProc 0 VmProcess.exits)) := by
    simp only [step, hub, Bool.false_eq_true, if_false]
  have hattach : step h (s.updateVm uid (onProc 0 VmProcess.exits)) (.attach uid 0) =
      some ((s.updateVm uid (onProc 0 VmProcess.exits)).updateVm uid (onProc 0 VmProcess.attaches)) := by
    simp only [step, Sys.updateVm, hub, Bool.false_eq_true, if_false]
  refine .next (a := .exit uid 0) (.inl ⟨rfl, rfl⟩) hexit
    (.next (a := .attach uid 0) (.inl ⟨rfl, rfl⟩) hattach (.here ?_))
  refine ⟨ordered_step (ordered_step hi.ordered hexit) hattach, ⟨hl, fun vb₂ hm hu => ?_⟩, hub⟩
  obtain ⟨vb₁, hm₁, hu₁, rfl⟩ := eq_of_mem_updateVm hm hu
  obtain ⟨vb, hm₀, rfl, rfl⟩ := eq_of_mem_updateVm hm₁ hu₁
  obtain ⟨main, hmain, hc⟩ := hi.begun vb hm₀ hl
  exact ⟨main.exits.attaches, by simp [onProc, hmain], attaches_exits hc⟩

theorem holdRank_le (s : Sys κ) : holdRank s ≤ 2 := by
  unfold holdRank
  split
  · exact Nat.zero_le _
  · split <;> decide

/-- Every step of its own brings the thread nearer to its end, and so does every
step of whoever holds it up. -/
theorem end_nearer (hi : Ordered s) (hexited : Exited uid s) (hub : s.ub = false) (hreg : Registered s uid) :
    ∃ a s', Ends uid s a ∧ step h s a = some s' ∧ s'.ub = false ∧
      3 * (s'.thread uid).toGo + holdRank s' < 3 * (s.thread uid).toGo + holdRank s := by
  have hr := hi.instances.registry
  rcases exited_goes_on (h := h) hr hi.instances.threads hi.locked hexited hub hreg with ⟨s', hs, hub'⟩ | hw
  · have hlt := toGo_step hr hexited hs hub'
    have hmine : (Act.ofThread uid (.thread uid : Act κ)).toNat = 1 := by simp [Act.ofThread]
    have hle := holdRank_le s'
    exact ⟨.thread uid, s', .inl rfl, hs, hub', by omega⟩
  · obtain ⟨s', hs, hub', hlt⟩ := freeing_goes_on h hr hi.locked hi.holding hub (hw.deleting hi.locked)
    have hsame := thread_of_other hr hs (ThreadPc.started_of_launched hexited.launched) (hw.freeing hi.locked)
    exact ⟨freeing s, s', .inr ⟨hw, rfl⟩, hs, hub', by rw [hsame]; omega⟩

/-- From every state that the manager gets into, a VM whose thread has been
started can come to its end, whatever the server and the other VMs wait for:
besides the VM itself only who holds a lock that it waits for has to go on. -/
theorem vm_can_end (h : Host κ) (k : κ) (s : Sys κ) (as : List (Act κ)) (uid : Nat)
    (hr : run (step h) (Sys.init k) as = some s) (hub : s.ub = false) (hreg : Registered s uid)
    (hn : s.thread uid ≠ .none) :
    CanReach (step h) (Ends uid) (fun s => s.ub = false ∧ ¬ Registered s uid) s := by
  have hi : Lives s := run_keeps (fun _ _ _ hi hs => lives_step hi hs) hr (lives_init k)
  refine (launch_reached hi hub hreg hn).trans fun s₁ h₁ => ?_
  refine (exit_reached h₁.1.1 h₁.1.2 h₁.2.2).trans fun s₂ h₂ => ?_
  refine (canReach_of_rank (I := fun s => Ordered s ∧ Exited uid s ∧ s.ub = false) (P := fun s => ¬ Registered s uid)
    (fun s => 3 * (s.thread uid).toGo + holdRank s) (fun s hi hno => ?_) h₂).imp fun s₃ h₃ => ⟨h₃.1.2.2, h₃.2⟩
  obtain ⟨hi, hexited, hub⟩ := hi
  obtain ⟨a, s', ha, hs, hub', hlt⟩ := end_nearer (h := h) hi hexited hub (not_not.1 hno)
  exact ⟨a, s', ha, hs, ⟨ordered_step hi hs, exited_step hi.instances.registry hexited hs, hub'⟩, hlt⟩

/-- Before its emulator is spawned, while `StartVm` waits for it and the thread
of another VM is in `DeleteVmInstance`. -/
theorem vm_can_end_waiting : ∃ s, run (step twoVmHost) (Sys.init ())
      (startUp "/a.ini" 0 ++ .recv (.startVm "/b.ini" []) :: List.replicate 32 .server ++
        [.exit 0 0, .thread 0, .thread 0]) = some s ∧ s.server = .startWait 1 false ∧ s.deleting = some ⟨some 0, "a"⟩ ∧
    CanReach (step twoVmHost) (Ends 1) (fun s => s.ub = false ∧ ¬ Registered s 1) s := by
  have he : (run (step twoVmHost) (Sys.init ()) (startUp "/a.ini" 0 ++ .recv (.startVm "/b.ini" []) ::
      List.replicate 32 .server ++ [.exit 0 0, .thread 0, .thread 0])).map
      (fun s => (s.server, s.deleting, s.ub, s.thread 1, s.vmis.map (·.uid))) =
      some (.startWait 1 false, some ⟨some 0, "a"⟩, false, .launch, [0, 1]) := by decide +kernel
  obtain ⟨s, hr, he⟩ := Option.map_eq_some_iff.1 he
  obtain ⟨hserver, he⟩ := Prod.mk.inj he
  obtain ⟨hdel, he⟩ := Prod.mk.inj he
  obtain ⟨hub, he⟩ := Prod.mk.inj he
  obtain ⟨hpc, hv⟩ := Prod.mk.inj he
  have hmem : (1 : Nat) ∈ s.vmis.map (·.uid) := by
    rw [hv]
    decide
  obtain ⟨vb, hm, hu⟩ := List.mem_map.1 hmem
  exact ⟨s, hr, hserver, hdel, vm_can_end twoVmHost () s _ 1 hr hub ⟨vb, hm, hu⟩ (hpc ▸ nofun)⟩

end VmManager
