import VmManager.StartTheorems
/-!
# Theorems about the start-up listener

The VM thread enters its cid in `pending_vms_` after it has launched the
emulator, and only a `VmReady` takes it out again.
-/
open Text Runs

namespace VmManager

variable {κ : Type}

/-! ## Entries of `pending_vms_` -/

/-- `WaitVmReady` gives a VM up only when its entry is gone. -/
def keepsPending (s : Sys κ) : Act κ → Bool
  | .thread uid =>
    match s.thread uid, s.find uid with
    | .waitReady n, some vb => (n < 200 && vb.mainProc.any (·.running)) || s.pending vb.vsockCid ≠ some uid
    | _, _ => true
  | _ => true

/-- VM `uid` is registered, has the cid and is waiting in `WaitVmReady`. -/
def WaitsFor (s : Sys κ) (cid uid : Nat) : Prop :=
  ∃ vb ∈ s.vmis, vb.uid = uid ∧ vb.vsockCid = cid ∧ vb.state ≠ .running ∧ (s.thread uid).waiting = true

def PendingWaits (s : Sys κ) : Prop := ∀ cid uid, s.pending cid = some uid → WaitsFor s cid uid

/-- While there is an entry, the server is in `notify_cont.wait()`. -/
theorem PendingWaits.server {s : Sys κ} (hi : PendingWaits s) (ht : Threads s) {cid uid : Nat}
    (hp : s.pending cid = some uid) : ∃ waitReady, s.server = .startWait uid waitReady ∧ s.latch uid ≠ 0 := by
  obtain ⟨vb, -, -, -, -, hw⟩ := hi cid uid hp
  have hm := ThreadPc.midway_of_waiting hw
  obtain ⟨waitReady, hs, -⟩ := ht.busy uid (.inr hm)
  refine ⟨waitReady, hs, ?_⟩
  rw [(ht.latch uid waitReady hs).2, ThreadPc.left, hm]
  split
  · split <;> exact fun he => by cases he
  · exact fun he => by cases he

theorem ServerMove.pending {h : Host κ} {s s' : Sys κ} (hs : ServerMove h s s') : s'.pending = s.pending := by
  cases hs with
  | quiet s' hc => exact hc.pending
  | overwrite name => exact (deleteVmInstance_frame h s name).2.2.2
  | _ => rfl

/-- In `notify_cont.wait()` the server does nothing before the latch is
down. -/
theorem ServerMove.of_wait {h : Host κ} {s s' : Sys κ} (hs : ServerMove h s s') {uid : Nat} {waitReady : Bool}
    (hw : s.server = .startWait uid waitReady) : (∃ accesses, s' = { s with accesses }.undefined) ∨ s.latch uid = 0 := by
  cases hs with
  | undefined accesses => exact .inl ⟨accesses, rfl⟩
  | quiet s' _ hp => exact absurd hw (hp.no_wait uid waitReady)
  | create _ _ _ hp => exact absurd hw (hp.no_wait uid waitReady)
  | drop vb q hq => rcases hq with ⟨hpc, -⟩ | ⟨e, hpc, -⟩ <;> rw [hw] at hpc <;> cases hpc
  | pass u wr hpc hl => rw [hw] at hpc; cases hpc; exact .inr hl
  | stop _ _ _ hpc | lock _ _ hpc | overwrite _ _ hpc | build _ _ _ _ _ _ _ hpc | hang _ _ _ _ _ hpc | built _ _ _ hpc
  | insertImport _ hpc | insertStart _ _ _ hpc | get _ _ _ _ _ hpc | answer _ _ _ hpc =>
    rw [hw] at hpc
    cases hpc

theorem pendingWaits_server {h : Host κ} {s s' : Sys κ} (ht : Threads s) (hi : PendingWaits s)
    (hs : ServerMove h s s') : PendingWaits s' := by
  intro cid uid hp
  rw [hs.pending] at hp
  obtain ⟨waitReady, hw, hl⟩ := hi.server ht hp
  rcases hs.of_wait hw with ⟨accesses, rfl⟩ | hz
  · exact hi cid uid hp
  · exact absurd hz hl

/-- The VM of an entry is another one than that of the step. -/
theorem WaitsFor.of_other {h : Host κ} {s s' : Sys κ} {u cid uid : Nat} (hr : Registry s) (hw : WaitsFor s cid uid)
    (hs : ThreadMove h s u s') (hne : uid ≠ u) : WaitsFor s' cid uid := by
  obtain ⟨vb, hm, hu, hc, hst, hwait⟩ := hw
  have hpc : (s'.thread uid).waiting = true := by rw [(hs.counted.others uid hne).1]; exact hwait
  have hupdate : ∀ f, vb ∈ (s.updateVm u f).vmis := fun f =>
    mem_updateVm.2 ⟨vb, hm, if_neg (hu ▸ hne)⟩
  have hdel : ∀ vb' p, s.find u = some vb' → vb ∈ ((deleteVmInstance h s vb'.name).setThread u p).vmis := by
    intro vb' p hf
    obtain ⟨hm', hu'⟩ := find_some hf
    refine ((deleteVmInstance_deleted h hr hm').mem vb).2 ⟨hm, ?_⟩
    rw [hu, hu']
    exact hne
  refine ⟨vb, ?_, hu, hc, hst, hpc⟩
  cases hs with
  | launch => exact hupdate _
  | booting => exact hupdate _
  | setReady => exact hupdate _
  | delete vb' _ hf => exact hdel vb' _ hf
  | giveUp vb' _ hf => exact hdel vb' _ hf
  | _ => exact hm

/-- A thread that waits for its guest goes on waiting, or it finds its VM
running, or it gives up. -/
theorem WaitsFor.of_self {h : Host κ} {s s' : Sys κ} {cid uid : Nat} (hr : Registry s) (hw : WaitsFor s cid uid)
    (hp : s.pending cid = some uid) (hg : keepsPending s (.thread uid) = true) (hs : ThreadMove h s uid s') :
    WaitsFor s' cid uid := by
  obtain ⟨vb, hm, hu, hc, hst, hwait⟩ := hw
  have hfind : ∀ vb', s.find uid = some vb' → vb' = vb := fun vb' hf =>
    hr.eq_of_uid (find_some hf).1 hm ((find_some hf).2.trans hu.symm)
  cases hs with
  | undefined => exact ⟨vb, hm, hu, hc, hst, hwait⟩
  | sleep vb' n hpc => exact ⟨vb, hm, hu, hc, hst, by rw [setThread_self]; rfl⟩
  | again vb' n hpc => exact ⟨vb, hm, hu, hc, hst, by rw [setThread_self]; rfl⟩
  | woken vb' n hpc hf hrun => exact absurd (hfind vb' hf ▸ hrun) hst
  | givesUp vb' n hpc hf hno =>
    have hcid : s.pending vb'.vsockCid = some uid := by rw [hfind vb' hf, hc, hp]
    refine absurd ?_ hno
    simpa [keepsPending, hpc, hf, hcid] using hg
  | exited vb' _ hpc | lock vb' p _ _ hpc => rcases hpc with ⟨hpc, -⟩ | ⟨hpc, -⟩ <;> rw [hpc] at hwait <;> cases hwait
  | noMain _ hpc | stuck _ _ hpc | launch _ _ _ _ _ _ hpc | booting _ hpc | countReady hpc | countPending hpc
  | setReady _ hpc | join _ hpc | delete _ hpc | addPending _ hpc | notifyReady hpc | giveUp _ hpc | giveUpNotify hpc =>
    rw [hpc] at hwait
    cases hwait

theorem ThreadMove.pending {h : Host κ} {s s' : Sys κ} {uid : Nat} (hs : ThreadMove h s uid s') :
    s'.pending = s.pending ∨ ∃ vb, s.thread uid = .addPending ∧ s.find uid = some vb ∧ s'.vmis = s.vmis ∧
      s'.thread uid = .waitReady 0 ∧ s'.pending = s.pending.add vb.vsockCid uid := by
  cases hs with
  | addPending vb hpc hf => exact .inr ⟨vb, hpc, hf, rfl, setThread_self .., rfl⟩
  | delete vb => exact .inl (deleteVmInstance_frame h s vb.name).2.2.2
  | giveUp vb => exact .inl (deleteVmInstance_frame h s vb.name).2.2.2
  | _ => exact .inl rfl

theorem pendingWaits_thread {h : Host κ} {s s' : Sys κ} {u : Nat} (hr : Registry s) (ht : Threads s)
    (hi : PendingWaits s) (hg : keepsPending s (.thread u) = true) (hs : ThreadMove h s u s') : PendingWaits s' := by
  have hold : ∀ cid uid, s.pending cid = some uid → WaitsFor s' cid uid := by
    intro cid uid hp
    by_cases he : uid = u
    · subst he
      exact (hi cid uid hp).of_self hr hp hg hs
    · exact (hi cid uid hp).of_other hr hs he
  rcases hs.pending with he | ⟨vb, hpc, hf, hv, hpc', he⟩
  · intro cid uid hp
    exact hold cid uid (he ▸ hp)
  · intro cid uid hp
    rw [he, PendingVms.add_apply] at hp
    split at hp
    · -- The new entry
      rename_i hc
      cases hp
      obtain ⟨hm, hu⟩ := find_some hf
      refine ⟨vb, hv ▸ hm, hu, hc.symm, (ht.instances vb hm).unready ?_, by rw [hpc']; rfl⟩
      rw [hu, hpc]
      rfl
    · exact hold cid uid hp

theorem pendingWaits_other {s s' : Sys κ} (hr : Registry s) (hi : PendingWaits s) (hs : OtherMove s s') :
    PendingWaits s' := by
  cases hs with
  | undefined => exact hi
  | unknown pending hp => exact fun cid uid h => hi cid uid (hp ▸ h)
  | host k => exact hi
  | proc u f hf =>
    intro cid uid hp
    obtain ⟨vb, hm, hu, hc, hst, hw⟩ := hi cid uid hp
    refine ⟨_, mem_updateVm.2 ⟨vb, hm, rfl⟩, ?_, ?_, ?_, hw⟩
    · rw [apply_ite VmBuilderQemu.uid, hf.uid, ite_self, hu]
    · rw [apply_ite VmBuilderQemu.vsockCid, hf.cid, ite_self, hc]
    · rw [apply_ite VmBuilderQemu.state, hf.state, ite_self]
      exact hst
  | vmReady c u vb hp hf =>
    intro cid uid hp'
    change s.pending.remove c cid = some uid at hp'
    rw [PendingVms.remove_apply] at hp'
    split at hp'
    · cases hp'
    · rename_i hne
      obtain ⟨vb', hm, hu, hc, hst, hw⟩ := hi cid uid hp'
      -- A VM has one cid, so the entry that is left is another VM's.
      have hnu : uid ≠ u := by
        rintro rfl
        obtain ⟨vb'', hm', hu', hc', -⟩ := hi c uid hp
        rw [hr.eq_of_uid hm hm' (hu.trans hu'.symm), hc'] at hc
        exact hne hc.symm
      exact ⟨vb', mem_updateVm.2 ⟨vb', hm, if_neg (hu ▸ hnu)⟩, hu, hc, hst, hw⟩

theorem pendingWaits_step {h : Host κ} {s s' : Sys κ} {a : Act κ} (hr : Registry s) (ht : Threads s)
    (hi : PendingWaits s) (hg : keepsPending s a = true) (hs : step h s a = some s') : PendingWaits s' := by
  rcases step_move hs with ⟨-, hm⟩ | ⟨uid, rfl, hm⟩ | hm
  · exact pendingWaits_server ht hi hm
  · exact pendingWaits_thread hr ht hi hg hm
  · exact pendingWaits_other hr hi hm

/-- With entries of registered VMs only, no callback goes through a dangling
pointer. -/
theorem PendingWaits.rpc_ub {s : Sys κ} (hi : PendingWaits s) (hr : Registry s) (peer : String) :
    (rpcVmReady s peer).2.ub = s.ub := by
  unfold rpcVmReady
  by_cases hp : ∀ cid, parsePeer peer = some cid → s.pending cid = none
  · obtain ⟨msg, he⟩ := vmReady_unknown hp
    rw [he]
  · push Not at hp
    obtain ⟨cid, hc, hne⟩ := hp
    obtain ⟨uid, hp⟩ := Option.ne_none_iff_exists'.1 hne
    obtain ⟨vb, hm, hu, -⟩ := hi cid uid hp
    rw [vmReady_known hc hp]
    dsimp only
    rw [← hu, hr.find hm]
    rfl

/-- In every interleaving in which `WaitVmReady` gives a VM up only once its
entry is gone: each entry is that of a registered VM with this cid that waits
in `WaitVmReady`, and no `VmReady` runs a callback for a VM that is gone. -/
theorem pending_vms_wait (h : Host κ) (k : κ) (s : Sys κ) (as : List (Act κ))
    (hr : run (step h) (Sys.init k) as = some s)
    (hg : Guarded (step h) (fun s a => keepsPending s a = true) (Sys.init k) as) :
    (∀ cid uid, s.pending cid = some uid → WaitsFor s cid uid) ∧ ∀ peer, (rpcVmReady s peer).2.ub = s.ub := by
  have hi : (Registry s ∧ Threads s) ∧ PendingWaits s := by
    refine run_keeps_guarded (I := fun s => (Registry s ∧ Threads s) ∧ PendingWaits s) (fun s a s' hi hg hs => ?_) hr hg
      ⟨⟨registry_init k, threads_init k⟩, fun _ _ he => nomatch he⟩
    obtain ⟨⟨hr, ht⟩, hp⟩ := hi
    exact ⟨⟨registry_step hr hs, threads_step hr ht hs⟩, pendingWaits_step hr ht hp hg hs⟩
  exact ⟨hi.2, hi.2.rpc_ub hi.1.1⟩

/-- A VM with `wait_ready` is started, launched and entered. -/
def waitVm : List (Act Unit) := startVm ++ [.thread 0, .attach 0 0, .thread 0, .thread 0, .thread 0]

theorem pending_vms_wait_vm : ∃ s, run (step (vmHost "wait_ready=true\n")) (Sys.init ()) waitVm = some s ∧
    s.pending 1000 = some 0 ∧ WaitsFor s 1000 0 := by
  have hp : (run (step (vmHost "wait_ready=true\n")) (Sys.init ()) waitVm).map (·.pending 1000) = some (some 0) := by
    decide +kernel
  have hg : Guarded (step (vmHost "wait_ready=true\n")) (fun s a => keepsPending s a = true) (Sys.init ()) waitVm := by
    decide
  obtain ⟨s, hs, hp⟩ := Option.map_eq_some_iff.1 hp
  exact ⟨s, hs, hp, (pending_vms_wait (vmHost "wait_ready=true\n") () s _ hs hg).1 1000 0 hp⟩

/-- The emulator dies, the VM is given up and removed. Its entry stays, and the
next guest with this cid that reports ready runs the callback. -/
theorem pending_vm_deleted : ∃ s, run (step (vmHost "wait_ready=true\n")) (Sys.init ())
      (waitVm ++ [.exit 0 0, .thread 0, .thread 0, .thread 0]) = some s ∧
    s.pending 1000 = some 0 ∧ ¬ Registered s 0 ∧ ¬ WaitsFor s 1000 0 ∧ s.ub = false ∧
    (rpcVmReady s "vsock:1000").2.ub = true := by
  have he : (run (step (vmHost "wait_ready=true\n")) (Sys.init ()) (waitVm ++ [.exit 0 0, .thread 0, .thread 0, .thread 0])).map
      (fun s => (s.pending 1000, s.vmis, s.ub, (rpcVmReady s "vsock:1000").2.ub)) = some (some 0, [], false, true) := by
    decide +kernel
  obtain ⟨s, hs, he⟩ := Option.map_eq_some_iff.1 he
  obtain ⟨hp, he⟩ := Prod.mk.inj he
  obtain ⟨hv, he⟩ := Prod.mk.inj he
  obtain ⟨hub, hrpc⟩ := Prod.mk.inj he
  have hreg : ¬ Registered s 0 := by
    rintro ⟨vb, hm, -⟩
    rw [hv] at hm
    cases hm
  exact ⟨s, hs, hp, hreg, fun ⟨vb, hm, hu, _⟩ => hreg ⟨vb, hm, hu⟩, hub, hrpc⟩

/-! ## Notifications -/

theorem find_updateVm (s : Sys κ) (uid u : Nat) {f : VmBuilderQemu → VmBuilderQemu} (hf : ∀ vb, (f vb).uid = vb.uid) :
    (s.updateVm u f).find uid = (s.find uid).map fun vb => if vb.uid = u then f vb else vb := by
  rw [Sys.find, Sys.updateVm, Sys.find, List.find?_map]
  congr 2
  funext vb
  rw [Function.comp_apply, apply_ite VmBuilderQemu.uid, hf, ite_self]

/-- The RPC is answered with success and sets VM `uid` ready. -/
def Notified (s : Sys κ) (peer : String) (uid : Nat) : Prop :=
  (rpcVmReady s peer).1 = .ok ∧ ((rpcVmReady s peer).2.find uid).map (·.state) = some .running

/-- An entry that is not this VM's does not set this VM ready. -/
theorem not_notified {s : Sys κ} {peer : String} {vb : VmBuilderQemu} {uid : Nat} (hf : s.find uid = some vb)
    (hst : vb.state ≠ .running) (hp : ∀ cid, s.pending cid ≠ some uid) : ¬ Notified s peer uid := by
  rintro ⟨hok, hrun⟩
  unfold rpcVmReady at hok hrun
  by_cases hu : ∀ cid, parsePeer peer = some cid → s.pending cid = none
  · obtain ⟨msg, he⟩ := vmReady_unknown hu
    rw [he] at hok
    cases hok
  · push Not at hu
    obtain ⟨cid, hc, hne⟩ := hu
    obtain ⟨u, hpu⟩ := Option.ne_none_iff_exists'.1 hne
    rw [vmReady_known hc hpu] at hrun
    dsimp only at hrun
    have hne : uid ≠ u := by
      rintro rfl
      exact hp cid hpu
    cases hfu : s.find u with
    | none =>
      rw [hfu] at hrun
      change (s.find uid).map (·.state) = some .running at hrun
      rw [hf] at hrun
      exact hst (Option.some.inj hrun)
    | some vb' =>
      rw [hfu] at hrun
      change ((s.updateVm u ({ · with state := .running })).find uid).map (·.state) = some .running at hrun
      rw [find_updateVm s uid u (f := ({ · with state := .running })) fun _ => rfl, hf, Option.map_some,
        if_neg ((find_some hf).2 ▸ hne)] at hrun
      exact hst (Option.some.inj hrun)

theorem notified_of_pending {s : Sys κ} {peer : String} {vb : VmBuilderQemu} {uid : Nat} (hf : s.find uid = some vb)
    (hc : parsePeer peer = some vb.vsockCid) (hp : s.pending vb.vsockCid = some uid) : Notified s peer uid := by
  unfold Notified rpcVmReady
  rw [vmReady_known hc hp]
  dsimp only
  rw [hf]
  refine ⟨rfl, ?_⟩
  change ((s.updateVm uid ({ · with state := .running })).find uid).map (·.state) = some .running
  rw [find_updateVm s uid uid (f := ({ · with state := .running })) fun _ => rfl, hf, Option.map_some, if_pos (find_some hf).2]
  rfl

theorem ThreadPc.waiting_or_unready {p : ThreadPc} (hl : p.launched = true) (hup : p.up = false) (hgone : p.gone = false)
    (hg : p ≠ .giveUpLock ∧ p ≠ .giveUp) : (∃ n, p = .waitReady n ∨ p = .sleepReady n) ∨ p.unready = true := by
  cases p with
  | waitReady n => exact .inl ⟨n, .inl rfl⟩
  | sleepReady n => exact .inl ⟨n, .inr rfl⟩
  | none | launch | stuck => cases hl
  | waitExit | joining | deleteLock | delete | notifyReady => cases hup
  | done | giveUpNotify => cases hgone
  | giveUpLock => exact absurd rfl hg.1
  | giveUp => exact absurd rfl hg.2
  | booting | countDown | setReady | addPending => exact .inr rfl

/-- In every reachable state in which a VM has been launched, is not running
and has not been given up: a `VmReady` from its cid sets it ready exactly if its
thread has already called `AddPendingVM`. -/
theorem vmReady_notifies_iff (h : Host κ) (k : κ) (s : Sys κ) (vb : VmBuilderQemu) (peer : String)
    (hr : Reachable (step h) (Sys.init k) s) (hm : vb ∈ s.vmis) (hl : (s.thread vb.uid).launched = true)
    (hst : vb.state ≠ .running) (hg : s.thread vb.uid ≠ .giveUpLock ∧ s.thread vb.uid ≠ .giveUp)
    (hc : parsePeer peer = some vb.vsockCid) :
    Notified s peer vb.uid ↔ ∃ n, s.thread vb.uid = .waitReady n ∨ s.thread vb.uid = .sleepReady n := by
  obtain ⟨hreg, hthr⟩ := reachable_invariants hr
  have hf := hreg.find hm
  have hat := hthr.instances vb hm
  constructor
  · intro hn
    have hup : (s.thread vb.uid).up = false := Bool.eq_false_iff.2 fun hup => hst (hat.up hup)
    rcases ThreadPc.waiting_or_unready hl hup hat.gone hg with hw | hun
    · exact hw
    · refine absurd hn (not_notified hf hst fun cid hp => ?_)
      rw [hthr.enrolled cid vb.uid hp] at hun
      cases hun
  · rintro ⟨n, hpc | hpc⟩ <;> exact notified_of_pending hf hc (hat.awaited (by rw [hpc]; rfl) hst)

theorem vmReady_notifies_vm : ∃ s vb, run (step (vmHost "wait_ready=true\n")) (Sys.init ()) waitVm = some s ∧
    vb ∈ s.vmis ∧ s.server = .startWait vb.uid true ∧ Notified s "vsock:1000" vb.uid := by
  have he : (run (step (vmHost "wait_ready=true\n")) (Sys.init ()) waitVm).map
      (fun s => (s.server, s.thread 0, s.vmis.map fun vb => (vb.uid, vb.vsockCid, vb.state))) =
        some (.startWait 0 true, .waitReady 0, [(0, 1000, .booting)]) := rfl
  obtain ⟨s, hs, he⟩ := Option.map_eq_some_iff.1 he
  obtain ⟨hserver, he⟩ := Prod.mk.inj he
  obtain ⟨hthread, hv⟩ := Prod.mk.inj he
  obtain ⟨vb, rest, hvmis, hvb, -⟩ := List.map_eq_cons_iff.1 hv
  obtain ⟨hu, hvb⟩ := Prod.mk.inj hvb
  obtain ⟨hc, hst⟩ := Prod.mk.inj hvb
  have hm : vb ∈ s.vmis := hvmis ▸ List.mem_cons_self
  refine ⟨s, vb, hs, hm, hu ▸ hserver, ?_⟩
  refine (vmReady_notifies_iff (vmHost "wait_ready=true\n") () s vb "vsock:1000" ⟨_, hs⟩ hm ?_ ?_ ?_ ?_).2 ⟨0, .inl ?_⟩
  · rw [hu, hthread]; rfl
  · rw [hst]; exact nofun
  · rw [hu, hthread]; exact ⟨nofun, nofun⟩
  · rw [hc]; rfl
  · rw [hu, hthread]

/-- The guest reports between the launch and `AddPendingVM`: its one
notification is turned down. -/
theorem vmReady_lost : ∃ s vb, run (step (vmHost "wait_ready=true\n")) (Sys.init ())
      (startVm ++ [.thread 0, .attach 0 0, .thread 0, .thread 0]) = some s ∧
    vb ∈ s.vmis ∧ s.server = .startWait vb.uid true ∧ s.thread vb.uid = .addPending ∧ vb.vsockCid = 1000 ∧
    (rpcVmReady s "vsock:1000").1 = .failedPrecondition "VM is unknown" ∧ ¬ Notified s "vsock:1000" vb.uid := by
  have he : (run (step (vmHost "wait_ready=true\n")) (Sys.init ())
      (startVm ++ [.thread 0, .attach 0 0, .thread 0, .thread 0])).map
      (fun s => (s.server, s.thread 0, s.vmis.map (fun vb => (vb.uid, vb.vsockCid)), (rpcVmReady s "vsock:1000").1)) =
        some (.startWait 0 true, .addPending, [(0, 1000)], .failedPrecondition "VM is unknown") := by decide +kernel
  obtain ⟨s, hs, he⟩ := Option.map_eq_some_iff.1 he
  obtain ⟨hserver, he⟩ := Prod.mk.inj he
  obtain ⟨hthread, he⟩ := Prod.mk.inj he
  obtain ⟨hv, hrpc⟩ := Prod.mk.inj he
  obtain ⟨vb, rest, hvmis, hvb, -⟩ := List.map_eq_cons_iff.1 hv
  obtain ⟨hu, hc⟩ := Prod.mk.inj hvb
  refine ⟨s, vb, hs, hvmis ▸ List.mem_cons_self, hu ▸ hserver, hu ▸ hthread, hc, hrpc, fun hn => ?_⟩
  rw [Notified, hrpc] at hn
  cases hn.1

end VmManager
