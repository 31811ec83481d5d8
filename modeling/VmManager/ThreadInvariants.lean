import VmManager.ServerInvariants
/-!
# Invariants of the VM threads

As long as a VM's thread still has the latch to count down, the server waits
for it, so nothing else is being started, imported or overwritten. The place of
a thread decides, but for the wait for the guest, whether its VM is running.
-/
open Text Runs

namespace VmManager

variable {κ : Type}

namespace ThreadPc

/-- Before the first count-down. -/
def early : ThreadPc → Bool
  | launch | booting | countDown | stuck => true
  | _ => false

/-- Between the first count-down and the second. -/
def midway : ThreadPc → Bool
  | addPending | waitReady _ | sleepReady _ | notifyReady | giveUpLock | giveUp | giveUpNotify => true
  | _ => false

/-- What the latch holds while the thread is here. -/
def left (p : ThreadPc) (waitReady : Bool) : Nat :=
  if p.early then (if waitReady then 2 else 1) else if p.midway then 1 else 0

/-- The VM cannot be running yet. -/
def unready : ThreadPc → Bool
  | none | launch | booting | countDown | stuck | setReady | addPending => true
  | _ => false

/-- The VM is running. -/
def up : ThreadPc → Bool
  | waitExit | joining | deleteLock | delete | notifyReady => true
  | _ => false

/-- The thread has removed its VM. -/
def gone : ThreadPc → Bool
  | done | giveUpNotify => true
  | _ => false

/-- The thread is in the loop of `WaitVmReady`. -/
def waiting : ThreadPc → Bool
  | waitReady _ | sleepReady _ => true
  | _ => false

end ThreadPc

/-- What the place of a VM's thread says about the VM: its state and, while the
thread waits for the guest, that the listener knows the cid. -/
structure InstanceAt (s : Sys κ) (vb : VmBuilderQemu) : Prop where
  unready : (s.thread vb.uid).unready = true → vb.state ≠ .running
  up : (s.thread vb.uid).up = true → vb.state = .running
  gone : (s.thread vb.uid).gone = false
  awaited : (s.thread vb.uid).waiting = true → vb.state ≠ .running → s.pending vb.vsockCid = some vb.uid

structure Threads (s : Sys κ) : Prop where
  busy : ∀ uid, (s.thread uid).early = true ∨ (s.thread uid).midway = true →
    ∃ waitReady, s.server = .startWait uid waitReady ∧ ((s.thread uid).midway = true → waitReady = true)
  latch : ∀ uid waitReady, s.server = .startWait uid waitReady →
    s.thread uid ≠ .none ∧ s.latch uid = (s.thread uid).left waitReady
  passed : ∀ uid waitReady, s.server = .startState uid waitReady →
    s.thread uid ≠ .none ∧ (s.thread uid).early = false ∧ (s.thread uid).midway = false
  instances : ∀ vb ∈ s.vmis, InstanceAt s vb
  enrolled : ∀ cid uid, s.pending cid = some uid → (s.thread uid).unready = false

/-! ## Steps of a thread -/

theorem deleteVmInstance_frame (h : Host κ) (s : Sys κ) (name : String) :
    (deleteVmInstance h s name).server = s.server ∧ (deleteVmInstance h s name).thread = s.thread ∧
      (deleteVmInstance h s name).latch = s.latch ∧ (deleteVmInstance h s name).pending = s.pending := by
  rcases deleteVmInstance_cases h s name with ⟨-, he⟩ | ⟨_, _, -, -, -, he⟩ <;> rw [he] <;> exact ⟨rfl, rfl, rfl, rfl⟩

/-- What a step of the thread of `uid` keeps: it moves past a count-down as it
takes it, and it leaves the other threads alone. -/
structure Counted (s s' : Sys κ) (uid : Nat) : Prop where
  server : s'.server = s.server
  others : ∀ u, u ≠ uid → s'.thread u = s.thread u ∧ s'.latch u = s.latch u
  started : s.thread uid ≠ .none → s'.thread uid ≠ .none
  early : (s'.thread uid).early = true → (s.thread uid).early = true
  midway : (s'.thread uid).midway = true → (s.thread uid).early = true ∨ (s.thread uid).midway = true
  unready : (s'.thread uid).unready = true → (s.thread uid).unready = true
  count : ∀ waitReady, ((s.thread uid).midway = true → waitReady = true) →
    s.latch uid = (s.thread uid).left waitReady →
    ((s'.thread uid).midway = true → waitReady = true) ∧ s'.latch uid = (s'.thread uid).left waitReady

/-- A step without a count-down. -/
theorem Counted.of_same {s s' : Sys κ} {uid : Nat} {p p' : ThreadPc} (hpc : s.thread uid = p)
    (hserver : s'.server = s.server) (ht : s'.thread = Function.update s.thread uid p') (hl : s'.latch = s.latch)
    (hp : p' ≠ .none ∧ p'.early = p.early ∧ p'.midway = p.midway ∧ (p'.unready = true → p.unready = true)) :
    Counted s s' uid := by
  obtain ⟨hn, he, hm, hu⟩ := hp
  have hpc' : s'.thread uid = p' := by rw [ht, Function.update_self]
  have hleft : p'.left = p.left := by
    funext waitReady
    rw [ThreadPc.left, he, hm, ThreadPc.left]
  refine ⟨hserver, fun u hne => ?_, fun _ => hpc' ▸ hn, ?_, ?_, ?_, fun waitReady hw hc => ?_⟩
  · rw [ht, Function.update_of_ne hne, hl]
    exact ⟨rfl, rfl⟩
  · rw [hpc', he, hpc]; exact id
  · rw [hpc', hm, hpc]; exact .inr
  · rw [hpc', hpc]; exact hu
  · rw [hpc', hm, hleft, ← hpc, hl]
    exact ⟨hw, hc⟩

theorem Counted.of_delete {h : Host κ} {s : Sys κ} {uid : Nat} {p p' : ThreadPc} (name : String)
    (hpc : s.thread uid = p)
    (hp : p' ≠ .none ∧ p'.early = p.early ∧ p'.midway = p.midway ∧ (p'.unready = true → p.unready = true)) :
    Counted s ((deleteVmInstance h s name).setThread uid p') uid := by
  obtain ⟨h1, h2, h3, -⟩ := deleteVmInstance_frame h s name
  exact .of_same hpc h1 (congrArg (fun t : Nat → ThreadPc => Function.update t uid p') h2) h3 hp

/-- A step that counts down. -/
theorem Counted.of_count {s : Sys κ} {uid : Nat} {p p' : ThreadPc} (hpc : s.thread uid = p)
    (hp : p' ≠ .none ∧ p'.early = false ∧ (p'.midway = true → p.early = true) ∧
      (p'.unready = true → p.unready = true))
    (hc : ∀ waitReady, s.latch uid = p.left waitReady →
      (p'.midway = true → waitReady = true) ∧ s.latch uid - 1 = p'.left waitReady) :
    Counted s ((s.tryCountDown uid).setThread uid p') uid := by
  obtain ⟨hn, he, hm, hu⟩ := hp
  have hpc' : ((s.tryCountDown uid).setThread uid p').thread uid = p' := by
    simp only [Sys.setThread, Function.update_self]
  refine ⟨rfl, fun u hne => ?_, fun _ => by rw [hpc']; exact hn, ?_, ?_, ?_, fun waitReady _ hl => ?_⟩
  · simp only [Sys.setThread, Sys.tryCountDown, Function.update_of_ne hne, and_self]
  · rw [hpc', he]; exact fun he => by cases he
  · rw [hpc', hpc]; exact fun h => .inl (hm h)
  · rw [hpc', hpc]; exact hu
  · rw [hpc', Sys.setThread, Sys.tryCountDown]
    dsimp only
    rw [Function.update_self]
    exact hc waitReady (hpc ▸ hl)

theorem ThreadMove.counted {h : Host κ} {s s' : Sys κ} {uid : Nat} (hs : ThreadMove h s uid s') :
    Counted s s' uid := by
  cases hs with
  | undefined => exact ⟨rfl, fun _ _ => ⟨rfl, rfl⟩, id, id, .inr, id, fun _ hm hl => ⟨hm, hl⟩⟩
  | countReady hpc hz => exact .of_count hpc ⟨nofun, rfl, nofun, fun _ => rfl⟩ fun _ _ => ⟨nofun, hz⟩
  | countPending hpc hz =>
    refine .of_count hpc ⟨nofun, rfl, fun _ => rfl, fun _ => rfl⟩ fun waitReady hl => ?_
    cases waitReady
    · exact absurd (by rw [hl]; rfl) hz
    · exact ⟨fun _ => rfl, by rw [hl]; rfl⟩
  | notifyReady hpc =>
    exact .of_count hpc ⟨nofun, rfl, nofun, nofun⟩ fun _ hl => ⟨nofun, by rw [hl]; rfl⟩
  | giveUpNotify hpc =>
    exact .of_count hpc ⟨nofun, rfl, nofun, nofun⟩ fun _ hl => ⟨nofun, by rw [hl]; rfl⟩
  | delete vb hpc => exact .of_delete vb.name hpc ⟨nofun, rfl, rfl, nofun⟩
  | giveUp vb hpc => exact .of_delete vb.name hpc ⟨nofun, rfl, rfl, nofun⟩
  | exited vb _ hpc =>
    rcases hpc with ⟨hpc, -⟩ | ⟨hpc, -⟩ <;> exact .of_same hpc rfl rfl rfl ⟨nofun, rfl, rfl, nofun⟩
  | lock vb p _ _ hpc =>
    rcases hpc with ⟨hpc, rfl⟩ | ⟨hpc, rfl⟩ <;> exact .of_same hpc rfl rfl rfl ⟨nofun, rfl, rfl, nofun⟩
  | _ =>
    apply Counted.of_same
    · assumption
    · rfl
    · rfl
    · rfl
    · refine ⟨nofun, rfl, rfl, ?_⟩
      first | exact fun _ => rfl | exact nofun

/-- From every instance to every instance after a change of one. -/
theorem forall_updateVm {s : Sys κ} {uid : Nat} {f : VmBuilderQemu → VmBuilderQemu} {P Q : VmBuilderQemu → Prop}
    (hp : ∀ vb ∈ s.vmis, P vb) (hother : ∀ vb, vb.uid ≠ uid → P vb → Q vb)
    (hself : ∀ vb, vb.uid = uid → P vb → Q (f vb)) : ∀ vb ∈ (s.updateVm uid f).vmis, Q vb := by
  intro vb' hm
  obtain ⟨vb, hv, rfl⟩ := mem_updateVm.1 hm
  split
  · exact hself vb ‹_› (hp vb hv)
  · exact hother vb ‹_› (hp vb hv)

/-- The thread is where it was, and so is the VM. -/
theorem InstanceAt.frame {s s' : Sys κ} {vb vb' : VmBuilderQemu} (hi : InstanceAt s vb) (hu : vb'.uid = vb.uid)
    (hc : vb'.vsockCid = vb.vsockCid) (hst : vb'.state = vb.state) (ht : s'.thread vb.uid = s.thread vb.uid)
    (hp : (s.thread vb.uid).waiting = true → s.pending vb.vsockCid = some vb.uid →
      s'.pending vb.vsockCid = some vb.uid) : InstanceAt s' vb' := by
  constructor <;> rw [hu, ht]
  · rw [hst]; exact hi.unready
  · rw [hst]; exact hi.up
  · exact hi.gone
  · rw [hst, hc]; exact fun hw hr => hp hw (hi.awaited hw hr)

/-- The thread is at `p`. -/
theorem InstanceAt.of_pc {s : Sys κ} {vb : VmBuilderQemu} {uid : Nat} {p : ThreadPc} (hu : vb.uid = uid)
    (hpc : s.thread uid = p) (hun : p.unready = true → vb.state ≠ .running) (hup : p.up = true → vb.state = .running)
    (hg : p.gone = false) (hw : p.waiting = true → vb.state ≠ .running → s.pending vb.vsockCid = some vb.uid) :
    InstanceAt s vb := by
  constructor <;> rw [hu, hpc] <;> first | assumption | exact hu ▸ hw

@[simp] theorem setThread_self (s : Sys κ) (uid : Nat) (p : ThreadPc) : (s.setThread uid p).thread uid = p := by
  simp [Sys.setThread]

theorem threads_busy {s s' : Sys κ} {uid : Nat} (hi : Threads s) (hc : Counted s s' uid) :
    ∀ u, (s'.thread u).early = true ∨ (s'.thread u).midway = true →
      ∃ waitReady, s'.server = .startWait u waitReady ∧ ((s'.thread u).midway = true → waitReady = true) := by
  intro u hu
  rw [hc.server]
  by_cases he : u = uid
  · subst he
    have hold : (s.thread u).early = true ∨ (s.thread u).midway = true := by
      rcases hu with hu | hu
      · exact .inl (hc.early hu)
      · exact hc.midway hu
    obtain ⟨waitReady, hs, hm⟩ := hi.busy u hold
    exact ⟨waitReady, hs, (hc.count waitReady hm (hi.latch u waitReady hs).2).1⟩
  · rw [(hc.others u he).1] at hu ⊢
    exact hi.busy u hu

theorem threads_latch {s s' : Sys κ} {uid : Nat} (hi : Threads s) (hc : Counted s s' uid) :
    ∀ u waitReady, s'.server = .startWait u waitReady →
      s'.thread u ≠ .none ∧ s'.latch u = (s'.thread u).left waitReady := by
  intro u waitReady hs
  rw [hc.server] at hs
  obtain ⟨hn, hl⟩ := hi.latch u waitReady hs
  by_cases he : u = uid
  · subst he
    refine ⟨hc.started hn, (hc.count waitReady (fun hm => ?_) hl).2⟩
    obtain ⟨wr, hs', hw⟩ := hi.busy u (.inr hm)
    rw [hs] at hs'
    cases hs'
    exact hw hm
  · rw [(hc.others u he).1, (hc.others u he).2]
    exact ⟨hn, hl⟩

theorem threads_passed {s s' : Sys κ} {uid : Nat} (hi : Threads s) (hc : Counted s s' uid) :
    ∀ u waitReady, s'.server = .startState u waitReady →
      s'.thread u ≠ .none ∧ (s'.thread u).early = false ∧ (s'.thread u).midway = false := by
  intro u waitReady hs
  rw [hc.server] at hs
  obtain ⟨hn, he, hm⟩ := hi.passed u waitReady hs
  by_cases heq : u = uid
  · subst heq
    refine ⟨hc.started hn, Bool.eq_false_iff.2 fun h => ?_, Bool.eq_false_iff.2 fun h => ?_⟩
    · rw [hc.early h] at he; cases he
    · rcases hc.midway h with h | h
      · rw [h] at he; cases he
      · rw [h] at hm; cases hm
  · rw [(hc.others u heq).1]
    exact ⟨hn, he, hm⟩

/-- Two threads between their count-downs are one. -/
theorem Threads.midway_unique {s : Sys κ} (hi : Threads s) {uid uid' : Nat} (h : (s.thread uid).midway = true)
    (h' : (s.thread uid').midway = true) : uid = uid' := by
  obtain ⟨_, hs, -⟩ := hi.busy uid (.inr h)
  obtain ⟨_, hs', -⟩ := hi.busy uid' (.inr h')
  rw [hs] at hs'
  cases hs'
  rfl

theorem ThreadPc.midway_of_waiting {p : ThreadPc} (h : p.waiting = true) : p.midway = true := by
  cases p <;> first | rfl | cases h

/-- What a step of a thread leaves of the other VMs. -/
theorem ThreadMove.others {h : Host κ} {s s' : Sys κ} {uid : Nat} (hi : Threads s) (hs : ThreadMove h s uid s')
    {vb : VmBuilderQemu} (hvb : InstanceAt s vb) (hne : vb.uid ≠ uid) : InstanceAt s' vb := by
  have hpend : (s.thread vb.uid).waiting = true → s.pending vb.vsockCid = some vb.uid →
      s'.pending vb.vsockCid = some vb.uid := by
    intro hw hp
    cases hs with
    | addPending vb' hpc =>
      -- Nobody else waits for a guest at this time.
      refine absurd (hi.midway_unique (ThreadPc.midway_of_waiting hw) ?_) hne
      rw [hpc]
      rfl
    | delete vb' => rw [Sys.setThread, (deleteVmInstance_frame h s vb'.name).2.2.2]; exact hp
    | giveUp vb' => rw [Sys.setThread, (deleteVmInstance_frame h s vb'.name).2.2.2]; exact hp
    | _ => exact hp
  exact hvb.frame rfl rfl rfl (hs.counted.others _ hne).1 hpend

theorem threads_instances {h : Host κ} {s s' : Sys κ} {uid : Nat} (hr : Registry s) (hi : Threads s)
    (hs : ThreadMove h s uid s') : ∀ vb ∈ s'.vmis, InstanceAt s' vb := by
  have hno : ∀ {P : Prop}, false = true → P := fun he => absurd he Bool.false_ne_true
  have hother : ∀ vb, vb.uid ≠ uid → InstanceAt s vb → InstanceAt s' vb := fun vb hne hvb => hs.others hi hvb hne
  -- The steps that leave the registry alone, those that change one instance, and those that remove one.
  have hmove : s'.vmis = s.vmis → (∀ vb ∈ s.vmis, vb.uid = uid → InstanceAt s vb → InstanceAt s' vb) →
      ∀ vb ∈ s'.vmis, InstanceAt s' vb := by
    intro hv hself vb hm
    rw [hv] at hm
    by_cases hu : vb.uid = uid
    · exact hself vb hm hu (hi.instances vb hm)
    · exact hother vb hu (hi.instances vb hm)
  have hfind : ∀ vb, s.find uid = some vb → ∀ vb' ∈ s.vmis, vb'.uid = uid → vb' = vb := by
    intro vb hf vb' hm hu
    obtain ⟨hvm, hvu⟩ := find_some hf
    exact hr.eq_of_uid hm hvm (hu.trans hvu.symm)
  have hdel : ∀ vb p, s.find uid = some vb → s' = (deleteVmInstance h s vb.name).setThread uid p →
      ∀ vb ∈ s'.vmis, InstanceAt s' vb := by
    intro vb p hf he vb' hm
    obtain ⟨hvm, hvu⟩ := find_some hf
    have hd : s'.vmis = (deleteVmInstance h s vb.name).vmis := by rw [he]; rfl
    rw [hd, (deleteVmInstance_deleted h hr hvm).mem] at hm
    exact hother vb' (hvu ▸ hm.2) (hi.instances vb' hm.1)
  cases hs with
  | undefined => exact fun vb hm => (hi.instances vb hm).frame rfl rfl rfl rfl fun _ => id
  | noMain vb hpc =>
    refine hmove rfl fun vb _ hu hvb => .of_pc hu (setThread_self ..) (fun _ => ?_) hno rfl hno
    exact hvb.unready (by rw [hu, hpc]; rfl)
  | stuck vb main hpc =>
    refine hmove rfl fun vb _ hu hvb => .of_pc hu (setThread_self ..) (fun _ => ?_) hno rfl hno
    exact hvb.unready (by rw [hu, hpc]; rfl)
  | launch vb procs main₀ main k₀ k hpc =>
    refine forall_updateVm hi.instances hother fun vb hu hvb => ?_
    refine .of_pc hu (setThread_self ..) (fun _ => ?_) hno rfl hno
    exact hvb.unready (by rw [hu, hpc]; rfl)
  | booting vb hpc =>
    refine forall_updateVm hi.instances hother fun vb hu hvb => ?_
    exact .of_pc hu (setThread_self ..) (fun _ he => by cases he) hno rfl hno
  | countReady hpc =>
    refine hmove rfl fun vb _ hu hvb => .of_pc hu (setThread_self ..) (fun _ => ?_) hno rfl hno
    exact hvb.unready (by rw [hu, hpc]; rfl)
  | countPending hpc =>
    refine hmove rfl fun vb _ hu hvb => .of_pc hu (setThread_self ..) (fun _ => ?_) hno rfl hno
    exact hvb.unready (by rw [hu, hpc]; rfl)
  | setReady vb hpc =>
    refine forall_updateVm hi.instances hother fun vb hu hvb => ?_
    exact .of_pc hu (setThread_self ..) hno (fun _ => rfl) rfl hno
  | join vb hpc =>
    refine hmove rfl fun vb _ hu hvb => .of_pc hu (setThread_self ..) hno (fun _ => ?_) rfl hno
    exact hvb.up (by rw [hu, hpc]; rfl)
  | exited vb _ hpc =>
    refine hmove rfl fun vb _ hu hvb => .of_pc hu (setThread_self ..) hno (fun _ => ?_) rfl hno
    rcases hpc with ⟨hpc, -⟩ | ⟨hpc, -⟩ <;> exact hvb.up (by rw [hu, hpc]; rfl)
  | lock vb p _ _ hpc =>
    rcases hpc with ⟨hpc, rfl⟩ | ⟨hpc, rfl⟩
    · refine hmove rfl fun vb _ hu hvb => .of_pc hu (setThread_self ..) hno (fun _ => ?_) rfl hno
      exact hvb.up (by rw [hu, hpc]; rfl)
    · exact hmove rfl fun vb _ hu hvb => .of_pc hu (setThread_self ..) hno hno rfl hno
  | delete vb _ hf => exact hdel vb _ hf rfl
  | addPending vb _ hf =>
    refine hmove rfl fun vb' hm hu hvb => .of_pc hu (setThread_self ..) hno hno rfl fun _ _ => ?_
    rw [hfind vb hf vb' hm hu]
    simp [Sys.setThread, (find_some hf).2]
  | sleep vb n hpc =>
    refine hmove rfl fun vb _ hu hvb => .of_pc hu (setThread_self ..) hno hno rfl fun _ => ?_
    exact hvb.awaited (by rw [hu, hpc]; rfl)
  | givesUp vb n hpc =>
    exact hmove rfl fun vb _ hu hvb => .of_pc hu (setThread_self ..) hno hno rfl hno
  | woken vb n hpc hf hrun =>
    refine hmove rfl fun vb' hm hu hvb => .of_pc hu (setThread_self ..) hno (fun _ => ?_) rfl hno
    rw [hfind vb hf vb' hm hu, hrun]
  | again vb n hpc =>
    refine hmove rfl fun vb _ hu hvb => .of_pc hu (setThread_self ..) hno hno rfl fun _ => ?_
    exact hvb.awaited (by rw [hu, hpc]; rfl)
  | notifyReady hpc =>
    refine hmove rfl fun vb _ hu hvb => .of_pc hu (setThread_self ..) hno (fun _ => ?_) rfl hno
    exact hvb.up (by rw [hu, hpc]; rfl)
  | giveUp vb _ hf => exact hdel vb _ hf rfl
  | giveUpNotify hpc =>
    refine hmove rfl fun vb _ hu hvb => absurd hvb.gone ?_
    rw [hu, hpc]
    exact fun he => by cases he

theorem threads_enrolled {h : Host κ} {s s' : Sys κ} {uid : Nat} (hi : Threads s) (hs : ThreadMove h s uid s') :
    ∀ cid u, s'.pending cid = some u → (s'.thread u).unready = false := by
  have hold : ∀ cid u, s.pending cid = some u → (s'.thread u).unready = false := by
    intro cid u hp
    have hu := hi.enrolled cid u hp
    by_cases he : u = uid
    · subst he
      refine Bool.eq_false_iff.2 fun h => ?_
      rw [hs.counted.unready h] at hu
      cases hu
    · rw [(hs.counted.others u he).1]
      exact hu
  cases hs with
  | addPending vb hpc =>
    intro cid u hp
    simp only [Sys.setThread, PendingVms.add_apply] at hp
    split at hp
    · cases hp
      rw [setThread_self]
      rfl
    · exact hold cid u hp
  | delete vb => rw [Sys.setThread, (deleteVmInstance_frame h s vb.name).2.2.2]; exact hold
  | giveUp vb => rw [Sys.setThread, (deleteVmInstance_frame h s vb.name).2.2.2]; exact hold
  | _ => exact hold

theorem threads_thread {h : Host κ} {s s' : Sys κ} {uid : Nat} (hr : Registry s) (hi : Threads s)
    (hs : ThreadMove h s uid s') : Threads s' :=
  ⟨threads_busy hi hs.counted, threads_latch hi hs.counted, threads_passed hi hs.counted, threads_instances hr hi hs,
    threads_enrolled hi hs⟩

/-! ## Steps of the server and the rest -/

/-- While the server is not in `notify_cont.wait()`, no thread has a latch left
to count down. -/
theorem Threads.idle {s : Sys κ} (hi : Threads s) (hn : ∀ uid waitReady, s.server ≠ .startWait uid waitReady)
    (uid : Nat) : (s.thread uid).early = false ∧ (s.thread uid).midway = false := by
  constructor
  · refine Bool.eq_false_iff.2 fun h => ?_
    obtain ⟨waitReady, hs, -⟩ := hi.busy uid (.inl h)
    exact hn uid waitReady hs
  · refine Bool.eq_false_iff.2 fun h => ?_
    obtain ⟨waitReady, hs, -⟩ := hi.busy uid (.inr h)
    exact hn uid waitReady hs

/-- The VM whose latch the server waits for. -/
def ServerPc.awaited : ServerPc → Option Nat
  | .startWait uid _ => some uid
  | _ => none

/-- The VM whose state `StartVm` is about to read. -/
def ServerPc.asked : ServerPc → Option Nat
  | .startState uid _ => some uid
  | _ => none

theorem ServerPc.ne_startWait {p : ServerPc} (hp : p.awaited = none) (uid : Nat) (waitReady : Bool) :
    p ≠ .startWait uid waitReady := by
  rintro rfl
  cases hp

theorem ServerPc.ne_startState {p : ServerPc} (hp : p.asked = none) (uid : Nat) (waitReady : Bool) :
    p ≠ .startState uid waitReady := by
  rintro rfl
  cases hp

/-- The server moves on from a place outside `notify_cont.wait()` to another
such place that is not before `vb->GetState()`. -/
theorem Threads.serve {s s' : Sys κ} (hi : Threads s) (hn : s.server.awaited = none) (ht : s'.thread = s.thread)
    (hp : s'.pending = s.pending) (hn' : s'.server.awaited = none) (hn'' : s'.server.asked = none)
    (hvb : ∀ vb ∈ s'.vmis, InstanceAt s vb) : Threads s' := by
  have hidle := hi.idle (ServerPc.ne_startWait hn)
  refine ⟨fun uid hu => ?_, fun uid wr h => absurd h (ServerPc.ne_startWait hn' uid wr),
    fun uid wr h => absurd h (ServerPc.ne_startState hn'' uid wr),
    fun vb hm => (hvb vb hm).frame rfl rfl rfl (congrFun ht _) fun _ => hp ▸ id, ?_⟩
  · rw [ht, (hidle uid).1, (hidle uid).2] at hu
    rcases hu with hu | hu <;> cases hu
  · rw [ht, hp]
    exact hi.enrolled

/-- When the latch is down its thread has nothing left to count down. -/
theorem Threads.counted_down {s : Sys κ} (hi : Threads s) {uid : Nat} {waitReady : Bool}
    (hpc : s.server = .startWait uid waitReady) (hl : s.latch uid = 0) :
    (s.thread uid).early = false ∧ (s.thread uid).midway = false := by
  obtain ⟨-, hleft⟩ := hi.latch uid waitReady hpc
  rw [hl, ThreadPc.left] at hleft
  split at hleft
  · split at hleft <;> cases hleft
  · split at hleft
    · cases hleft
    · exact ⟨Bool.eq_false_iff.2 ‹_›, Bool.eq_false_iff.2 ‹_›⟩

theorem ServerPc.plain.awaited {p : ServerPc} (hp : p.plain) : p.awaited = none := by
  obtain ⟨-, hp⟩ := hp
  cases p <;> first | rfl | cases hp

theorem ServerPc.plain.asked {p : ServerPc} (hp : p.plain) : p.asked = none := by
  obtain ⟨-, hp⟩ := hp
  cases p <;> first | rfl | cases hp

theorem ServerPc.plain.no_wait {p : ServerPc} (hp : p.plain) (uid : Nat) (waitReady : Bool) :
    p ≠ .startWait uid waitReady := ServerPc.ne_startWait hp.awaited uid waitReady

theorem ServerPc.plain.no_state {p : ServerPc} (hp : p.plain) (uid : Nat) (waitReady : Bool) :
    p ≠ .startState uid waitReady := ServerPc.ne_startState hp.asked uid waitReady

/-- `StartVm` leaves the instance to a new thread and waits for it. -/
theorem Threads.launch {s : Sys κ} (hr : Registry s) (hi : Threads s) {pos uid : Nat} {env : List String} {waitReady : Bool}
    {vb : VmBuilderQemu} (hpc : s.server = .startGet pos uid env waitReady) (hv : s.vmis[pos]? = some vb) :
    Threads { (s.updateVm vb.uid fun vb => { vb with mainProc := vb.mainProc.map ({ · with envData := env }) }).setThread
        vb.uid .launch with
      latch := Function.update s.latch vb.uid (if waitReady then 2 else 1), server := .startWait vb.uid waitReady } := by
  have hidle := hi.idle (ServerPc.ne_startWait (by rw [hpc]; rfl))
  obtain ⟨-, hnone, -, hpos⟩ := hr.got pos uid env waitReady hpc
  obtain rfl := hpos vb hv
  have hself : Function.update s.thread vb.uid .launch vb.uid = .launch := Function.update_self ..
  have hother : ∀ u, u ≠ vb.uid → Function.update s.thread vb.uid .launch u = s.thread u := fun u hu =>
    Function.update_of_ne hu _ _
  refine ⟨fun u hu => ?_, fun u wr he => ?_, fun _ _ he => (by cases he), ?_, fun cid u hp => ?_⟩
  · by_cases he : u = vb.uid
    · subst he
      refine ⟨waitReady, rfl, fun hm => ?_⟩
      change (Function.update s.thread vb.uid .launch vb.uid).midway = true at hm
      rw [hself] at hm
      cases hm
    · change (Function.update s.thread vb.uid .launch u).early = true ∨
        (Function.update s.thread vb.uid .launch u).midway = true at hu
      rw [hother u he, (hidle u).1, (hidle u).2] at hu
      rcases hu with hu | hu <;> cases hu
  · cases he
    change Function.update s.thread vb.uid .launch vb.uid ≠ .none ∧
      Function.update s.latch vb.uid _ vb.uid = (Function.update s.thread vb.uid .launch vb.uid).left waitReady
    rw [hself, Function.update_self]
    exact ⟨(fun he => by cases he), rfl⟩
  · refine forall_updateVm hi.instances (fun vb' hu hvb => ?_) fun vb' hu hvb => ?_
    · exact hvb.frame rfl rfl rfl (hother _ hu) fun _ hp => hp
    · refine .of_pc hu (Function.update_self ..) (fun _ => ?_) (fun he => by cases he) rfl fun he => by cases he
      exact hvb.unready (by rw [hu, hnone]; rfl)
  · have hne : u ≠ vb.uid := by
      rintro rfl
      have hu := hi.enrolled cid _ hp
      rw [hnone] at hu
      cases hu
    change (Function.update s.thread vb.uid .launch u).unready = false
    rw [hother u hne]
    exact hi.enrolled cid u hp

theorem threads_server {h : Host κ} {s s' : Sys κ} (hr : Registry s) (hi : Threads s) (hs : ServerMove h s s') :
    Threads s' := by
  -- From a known place that is not `notify_cont.wait()`.
  have hfrom : ∀ p : ServerPc, s.server = p → p.awaited = none → s.server.awaited = none := fun p hp hn => hp ▸ hn
  have hnew : ∀ vb, s.server.builder = some vb → ∀ vb' ∈ s.vmis ++ [vb], InstanceAt s vb' := by
    intro vb hb vb' hm
    rcases List.mem_append.1 hm with hm | hm
    · exact hi.instances vb' hm
    · obtain rfl := List.mem_singleton.1 hm
      obtain ⟨-, ht, hst, -⟩ := hr.builder vb' hb
      exact .of_pc rfl ht (fun _ => hst) (fun he => by cases he) rfl fun he => by cases he
  cases hs with
  | undefined => exact ⟨hi.busy, hi.latch, hi.passed, fun vb hm => (hi.instances vb hm).frame rfl rfl rfl rfl fun _ => id,
      hi.enrolled⟩
  | quiet s' hc hp hq _ =>
    exact hi.serve hp.awaited hc.thread hc.pending hq.awaited hq.asked (hc.vmis ▸ hi.instances)
  | stop name id vb hpc hv =>
    have hv := vmAt_get hv
    refine hi.serve (hfrom _ hpc rfl) rfl rfl rfl rfl fun vb' hm => ?_
    rcases List.mem_or_eq_of_mem_set hm with hm | rfl
    · exact hi.instances vb' hm
    · exact (hi.instances vb (List.mem_of_getElem? hv)).frame rfl rfl rfl rfl fun _ hp => hp
  | create p name cfg hp _ => exact hi.serve hp.awaited rfl rfl rfl rfl hi.instances
  | lock name cfg hpc => exact hi.serve (hfrom _ hpc rfl) rfl rfl rfl rfl hi.instances
  | overwrite name cfg hpc =>
    obtain ⟨-, h2, -, h4⟩ := deleteVmInstance_frame h s name
    exact hi.serve (hfrom _ hpc rfl) h2 h4 rfl rfl fun vb hm => hi.instances vb (mem_of_mem_delete hm)
  | build p vb vb' w i st q hpc _ hq =>
    rcases hq with ⟨-, rfl⟩ | ⟨-, rfl⟩ | ⟨e, -, rfl⟩ <;>
      exact hi.serve (hfrom _ hpc rfl) rfl rfl rfl rfl hi.instances
  | hang p vb w i st hpc => exact hi.serve (hfrom _ hpc rfl) rfl rfl rfl rfl hi.instances
  | built p vb i hpc => exact hi.serve (hfrom _ hpc rfl) rfl rfl rfl rfl hi.instances
  | insertImport vb hpc => exact hi.serve (hfrom _ hpc rfl) rfl rfl rfl rfl (hnew vb (by rw [hpc]; rfl))
  | insertStart vb env waitReady hpc => exact hi.serve (hfrom _ hpc rfl) rfl rfl rfl rfl (hnew vb (by rw [hpc]; rfl))
  | drop vb q hq =>
    rcases hq with ⟨hpc, rfl⟩ | ⟨e, hpc, rfl⟩ <;>
      exact hi.serve (hfrom _ hpc rfl) rfl rfl rfl rfl hi.instances
  | get pos uid env waitReady vb hpc hv => exact hi.launch hr hpc hv
  | pass uid waitReady hpc hl =>
    obtain ⟨hn, -⟩ := hi.latch uid waitReady hpc
    have hzero := hi.counted_down hpc hl
    refine ⟨fun u hu => ?_, fun _ _ he => (by cases he), fun u wr he => ?_,
      fun vb hm => (hi.instances vb hm).frame rfl rfl rfl rfl fun _ => id, hi.enrolled⟩
    · obtain ⟨wr, hs, -⟩ := hi.busy u hu
      rw [hpc] at hs
      cases hs
      rw [Sys.goto, hzero.1, hzero.2] at hu
      rcases hu with hu | hu <;> cases hu
    · cases he
      exact ⟨hn, hzero⟩
  | answer uid waitReady vb hpc _ => exact hi.serve (hfrom _ hpc rfl) rfl rfl rfl rfl hi.instances

theorem threads_other {s s' : Sys κ} (hi : Threads s) (hs : OtherMove s s') : Threads s' := by
  have hsame : ∀ vb ∈ s.vmis, ∀ s' : Sys κ, s'.thread = s.thread → s'.pending = s.pending → InstanceAt s' vb :=
    fun vb hm s' ht hp => (hi.instances vb hm).frame rfl rfl rfl (congrFun ht _) fun _ => hp ▸ id
  cases hs with
  | undefined => exact ⟨hi.busy, hi.latch, hi.passed, fun vb hm => hsame vb hm _ rfl rfl, hi.enrolled⟩
  | unknown pending hp => exact ⟨hi.busy, hi.latch, hi.passed, fun vb hm => hsame vb hm _ rfl hp, hp ▸ hi.enrolled⟩
  | host k => exact ⟨hi.busy, hi.latch, hi.passed, fun vb hm => hsame vb hm _ rfl rfl, hi.enrolled⟩
  | proc uid f hf =>
    refine ⟨hi.busy, hi.latch, hi.passed, forall_updateVm hi.instances (fun vb _ hvb => ?_) fun vb _ hvb => ?_,
      hi.enrolled⟩
    · exact hvb.frame rfl rfl rfl rfl fun _ => id
    · exact hvb.frame (hf.uid vb) (hf.cid vb) (hf.state vb) rfl fun _ => id
  | vmReady cid uid vb hp hf =>
    refine ⟨hi.busy, hi.latch, hi.passed, forall_updateVm hi.instances (fun vb' hu hvb => ?_) fun vb' hu hvb => ?_,
      fun c u he => ?_⟩
    · -- The entry that goes is not this VM's.
      refine hvb.frame rfl rfl rfl rfl fun _ he => ?_
      change s.pending.remove cid vb'.vsockCid = some vb'.uid
      rw [PendingVms.remove_apply, if_neg, he]
      rintro hc
      rw [hc, hp] at he
      cases he
      exact hu rfl
    · refine .of_pc hu rfl (fun h => ?_) (fun _ => rfl) (hu ▸ hvb.gone) fun _ h => absurd rfl h
      have hun := hi.enrolled cid uid hp
      rw [show (s.thread uid).unready = true from h] at hun
      cases hun
    · change s.pending.remove cid c = some u at he
      rw [PendingVms.remove_apply] at he
      split at he
      · cases he
      · exact hi.enrolled c u he

theorem threads_step {h : Host κ} {s s' : Sys κ} {a : Act κ} (hr : Registry s) (hi : Threads s)
    (hs : step h s a = some s') : Threads s' := by
  rcases step_move hs with ⟨-, hm⟩ | ⟨uid, -, hm⟩ | hm
  · exact threads_server hr hi hm
  · exact threads_thread hr hi hm
  · exact threads_other hi hm

theorem threads_init (k : κ) : Threads (Sys.init k) :=
  ⟨fun _ hu => (by rcases hu with hu | hu <;> cases hu), fun _ _ he => (nomatch he), fun _ _ he => (nomatch he),
    fun _ hm => (nomatch hm), fun _ _ he => nomatch he⟩

/-- Both hold in every state that a run of the server reaches. -/
theorem reachable_invariants {h : Host κ} {k : κ} {s : Sys κ} (hs : Reachable (step h) (Sys.init k) s) :
    Registry s ∧ Threads s :=
  hs.keeps (I := fun s => Registry s ∧ Threads s)
    (fun _ _ _ hi hs => ⟨registry_step hi.1 hs, threads_step hi.1 hi.2 hs⟩) ⟨registry_init k, threads_init k⟩

end VmManager
