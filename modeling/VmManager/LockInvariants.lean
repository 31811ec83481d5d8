import VmManager.StartTheorems
/-!
# Invariants of `vmis_mutex_`

One `DeleteVmInstance` runs at a time: that of the VM thread that is in it, or
that of `ImportVm`. Whoever holds the mutex can go on, if need be after the
server has left the `StopVm` of the VM that is removed.
-/
open Text Runs

namespace VmManager

variable {κ : Type} {h : Host κ} {s s' : Sys κ} {a : Act κ}

/-- The thread is in `DeleteVmInstance`. -/
def ThreadPc.deletes : ThreadPc → Bool
  | delete | giveUp => true
  | _ => false

/-- The server is. -/
def ServerPc.deletes : ServerPc → Bool
  | importDelete .. => true
  | _ => false

/-- Who is in `DeleteVmInstance`: a VM thread, or the server. -/
def inDelete (s : Sys κ) : Option Nat → Bool
  | some uid => (s.thread uid).deletes
  | none => s.server.deletes

/-- `vmis_mutex_` is held by who is in `DeleteVmInstance`. -/
def Locked (s : Sys κ) : Prop := Mutex.Held (inDelete s) (s.deleting.map (·.thread))

theorem locked_init (k : κ) : Locked (Sys.init k) := by
  intro o
  cases o <;> exact ⟨nofun, nofun⟩

/-! ## Steps of the server -/

theorem deleteVmInstance_deleting (h : Host κ) (s : Sys κ) (name : String) :
    (deleteVmInstance h s name).deleting = none := by
  rcases deleteVmInstance_cases h s name with ⟨-, he⟩ | ⟨_, _, -, -, -, he⟩ <;> rw [he]

/-- What a step of the server has to do with `vmis_mutex_`. -/
inductive ServerLock (s s' : Sys κ) : Prop
  | aside : s'.deleting = s.deleting → s'.server.deletes = s.server.deletes → ServerLock s s'
  | lock (name : String) : s.deleting = none → s'.deleting = some ⟨none, name⟩ → s'.server.deletes = true →
      ServerLock s s'
  | unlock : s.server.deletes = true → s'.deleting = none → s'.server.deletes = false → ServerLock s s'

theorem ServerLock.of_server {p q : ServerPc} (hp : s.server = p) (hq : s'.server = q) (hd : s'.deleting = s.deleting)
    (hpq : q.deletes = p.deletes) : ServerLock s s' := .aside hd (by rw [hp, hq, hpq])

theorem serverStep_lock (hs : serverStep h s = some s') : ServerLock s s' := by
  cases hpc : s.server <;> simp only [serverStep, hpc] at hs
  case loop | exited | hung => cases hs
  case importRead path | startRead path env =>
    cases hs
    obtain ⟨q, he, rfl | ⟨e, -, -, rfl⟩ | ⟨cfg, -, rfl⟩⟩ := readConfig_cases h s path _ <;> rw [he] <;>
      exact .of_server hpc rfl rfl rfl
  case importLock cfg name =>
    obtain ⟨s₁, hlock, rfl⟩ := Option.map_eq_some_iff.1 hs
    obtain ⟨hno, rfl⟩ := lockVmis_some hlock
    exact .lock name hno rfl rfl
  case importDelete cfg name =>
    cases hs
    exact .unlock (by rw [hpc]; rfl) (deleteVmInstance_deleting h s name) rfl
  case building p vb i =>
    cases hs
    rcases buildStep_cases h s p vb i with ⟨-, he⟩ | ⟨st, -, ⟨vb', w, q, hq, he⟩ | ⟨w, -, he⟩⟩ <;> rw [he]
    · exact .of_server hpc rfl rfl rfl
    · rcases hq with ⟨-, rfl⟩ | ⟨-, rfl⟩ | ⟨e, -, rfl⟩ <;> exact .of_server hpc rfl rfl rfl
    · exact .of_server hpc rfl rfl rfl
  case insert p vb =>
    split at hs
    · cases hs
      exact .of_server hpc hpc rfl rfl
    · cases p <;> cases hs <;> exact .of_server hpc rfl rfl rfl
  case stopRpc name id cid =>
    cases hs
    by_cases hok : (h.shutdown s.world.kernel cid).1 = true
    · rw [if_pos hok]
      exact .of_server hpc rfl rfl rfl
    · rw [if_neg hok]
      exact .of_server hpc rfl rfl rfl
  all_goals
    repeat' split at hs
    all_goals cases hs
    all_goals first | exact .of_server hpc hpc rfl rfl | exact .of_server hpc rfl rfl rfl

/-- No thread comes into `DeleteVmInstance` by a step of the server: the one
that `StartVm` makes was not there before. -/
theorem server_deletes (hr : Registry s) (hm : ServerMove h s s') (uid : Nat) :
    (s'.thread uid).deletes = (s.thread uid).deletes := by
  cases hm with
  | quiet s' hc => rw [hc.thread]
  | overwrite name => exact congrArg ThreadPc.deletes (congrFun (deleteVmInstance_frame h s name).2.1 uid)
  | get pos u env waitReady vb hpc hv =>
    obtain ⟨-, hnone, -, hu⟩ := hr.got pos u env waitReady hpc
    change (Function.update s.thread vb.uid .launch uid).deletes = _
    by_cases he : uid = vb.uid
    · subst he
      rw [Function.update_self, hu vb hv, hnone]
      rfl
    · rw [Function.update_of_ne he]
  | _ => rfl

theorem locked_server (hr : Registry s) (hi : Locked s) (hs : serverStep h s = some s') : Locked s' := by
  have hthreads := server_deletes hr (serverStep_move hs)
  have hothers : ∀ o, o ≠ none → inDelete s' o = inDelete s o := fun o ho => by
    obtain ⟨uid, rfl⟩ := Option.ne_none_iff_exists'.1 ho
    exact hthreads uid
  unfold Locked
  cases serverStep_lock hs with
  | aside hd hp =>
    rw [hd]
    refine hi.keep fun o => ?_
    cases o with
    | none => exact hp
    | some uid => exact hthreads uid
  | lock name hno hd hp =>
    rw [hd]
    rw [Locked, hno] at hi
    exact hi.lock hp hothers
  | unlock hp hd hp' =>
    rw [hd]
    exact hi.unlock (a := none) hp hp' hothers

/-! ## Steps of a thread -/

/-- What a step of the thread of VM `uid` has to do with `vmis_mutex_`. -/
inductive ThreadLock (s s' : Sys κ) (uid : Nat) : Prop
  | aside : s'.deleting = s.deleting → (s'.thread uid).deletes = (s.thread uid).deletes → ThreadLock s s' uid
  | lock (name : String) : s.deleting = none → s'.deleting = some ⟨some uid, name⟩ → (s'.thread uid).deletes = true →
      ThreadLock s s' uid
  | unlock : (s.thread uid).deletes = true → s'.deleting = none → (s'.thread uid).deletes = false → ThreadLock s s' uid

theorem ThreadMove.locking {uid : Nat} (hm : ThreadMove h s uid s') : ThreadLock s s' uid := by
  cases hm with
  | undefined => exact .aside rfl rfl
  | lock vb p _ hno hpc =>
    refine .lock vb.name hno rfl ?_
    rcases hpc with ⟨-, rfl⟩ | ⟨-, rfl⟩ <;> rw [setThread_self] <;> rfl
  | delete vb hpc | giveUp vb hpc =>
    exact .unlock (by rw [hpc]; rfl) (deleteVmInstance_deleting h s vb.name) (by rw [setThread_self]; rfl)
  | exited vb _ hpc =>
    rcases hpc with ⟨hpc, -⟩ | ⟨hpc, -⟩ <;> exact .aside rfl (by rw [setThread_self, hpc]; rfl)
  | _ =>
    refine .aside rfl ?_
    rw [setThread_self, ‹s.thread uid = _›]
    rfl

theorem locked_thread {uid : Nat} (hi : Locked s) (hm : ThreadMove h s uid s') : Locked s' := by
  have hc := hm.counted
  have hothers : ∀ o, o ≠ some uid → inDelete s' o = inDelete s o := fun o ho => by
    cases o with
    | none => exact congrArg ServerPc.deletes hc.server
    | some u => exact congrArg ThreadPc.deletes (hc.others u fun he => ho (he ▸ rfl)).1
  unfold Locked
  cases hm.locking with
  | aside hd hp =>
    rw [hd]
    refine hi.keep fun o => ?_
    by_cases ho : o = some uid
    · exact ho ▸ hp
    · exact hothers o ho
  | lock name hno hd hp =>
    rw [hd]
    rw [Locked, hno] at hi
    exact hi.lock hp hothers
  | unlock hp hd hp' =>
    rw [hd]
    exact hi.unlock (a := some uid) hp hp' hothers

theorem OtherMove.deleting (hm : OtherMove s s') : s'.deleting = s.deleting := by
  cases hm <;> rfl

theorem locked_step (hr : Registry s) (hi : Locked s) (hs : step h s a = some s') : Locked s' := by
  have hframe : s'.deleting = s.deleting → s'.thread = s.thread → s'.server.deletes = s.server.deletes → Locked s' := by
    intro hd ht hserver
    rw [Locked, hd]
    refine hi.keep fun o => ?_
    cases o with
    | none => exact hserver
    | some uid => exact congrArg ThreadPc.deletes (congrFun ht uid)
  unfold step at hs
  split at hs
  · cases hs
  · cases a with
    | recv r =>
      dsimp only [recv] at hs
      split at hs <;> cases hs
      rename_i hloop
      refine hframe rfl rfl ?_
      rw [hloop]
      cases r <;> rfl
    | server => exact locked_server hr hi hs
    | thread uid => exact locked_thread hi (threadStep_move hs)
    | vmReady peer =>
      cases hs
      have hm := rpcVmReady_move s peer
      exact hframe hm.deleting hm.frame.2 (by rw [hm.frame.1])
    | exit | attach | host =>
      cases hs
      exact hframe rfl rfl rfl

/-! ## Who holds the mutex goes on -/

/-- A thread in `DeleteVmInstance` still has its VM: nobody else can remove
it. -/
def Holding (s : Sys κ) : Prop := ∀ uid, (s.thread uid).deletes = true → Registered s uid

theorem ServerMove.registered {uid : Nat} (hm : ServerMove h s s') (hd : s.server.deletes = false)
    (hi : Registered s uid) : Registered s' uid := by
  have hinsert : ∀ vb p, Registered ({ s with vmis := s.vmis ++ [vb] }.goto p) uid := fun vb p => by
    obtain ⟨vb', hm, hu⟩ := hi
    exact ⟨vb', List.mem_append_left _ hm, hu⟩
  cases hm with
  | quiet s' hc =>
    obtain ⟨vb, hm, hu⟩ := hi
    exact ⟨vb, hc.vmis ▸ hm, hu⟩
  | stop name id vb hpc hv =>
    obtain ⟨vb', hm, hu⟩ := hi
    have huids : (s.vmis.set id (vb.stopVm h s.world).1).map (·.uid) = s.vmis.map (·.uid) := map_set_of (vmAt_get hv) rfl
    have hmem : uid ∈ (s.vmis.set id (vb.stopVm h s.world).1).map (·.uid) :=
      huids ▸ List.mem_map.2 ⟨vb', hm, hu⟩
    exact List.mem_map.1 hmem
  | overwrite name cfg hpc =>
    rw [hpc] at hd
    cases hd
  | insertImport vb => exact hinsert vb _
  | insertStart vb => exact hinsert vb _
  | get pos u env waitReady vb => exact registered_updateVm hi vb.uid fun _ => rfl
  | _ => exact hi

theorem holding_step (hr : Registry s) (hl : Locked s) (hi : Holding s) (hs : step h s a = some s') : Holding s' := by
  intro uid hp
  rcases step_move hs with ⟨-, hm⟩ | ⟨u, -, hm⟩ | hm
  · rw [server_deletes hr hm] at hp
    refine hm.registered (Bool.eq_false_iff.2 fun hd => ?_) (hi uid hp)
    cases hl.unique (a := none) (b := some uid) hd hp
  · by_cases hu : u = uid
    · subst hu
      cases hm with
      | undefined => exact hi u hp
      | lock vb p hf => exact ⟨vb, (find_some hf).1, (find_some hf).2⟩
      | exited vb _ hpc => rw [setThread_self] at hp; cases hp
      | _ => rw [setThread_self] at hp; cases hp
    · rw [(hm.counted.others uid (Ne.symm hu)).1] at hp
      exact hm.registered hr (hi uid hp) fun he => absurd he hu
  · rw [hm.frame.2] at hp
    exact hm.registered (hi uid hp)

theorem holding_init (k : κ) : Holding (Sys.init k) := nofun

/-- The next step of the `DeleteVmInstance` that holds `vmis_mutex_`: that of
its VM thread, but the server's while it is in `StopVm` of the VM that goes. -/
def freeing (s : Sys κ) : Act κ :=
  match s.deleting.bind (·.thread) with
  | some uid => if s.server = .stopping uid then .server else .thread uid
  | none => .server

/-- How many of these steps it takes until the mutex is free. -/
def holdRank (s : Sys κ) : Nat :=
  match s.deleting with
  | none => 0
  | some d => if d.thread.any (s.server = .stopping ·) then 2 else 1

/-- While `vmis_mutex_` is held, who holds it can go on, and at most two steps
free it. -/
theorem freeing_goes_on (h : Host κ) (hr : Registry s) (hl : Locked s) (hh : Holding s) (hub : s.ub = false)
    (hd : s.deleting ≠ none) : ∃ s', step h s (freeing s) = some s' ∧ s'.ub = false ∧ holdRank s' < holdRank s := by
  obtain ⟨⟨o, name⟩, hd⟩ := Option.ne_none_iff_exists'.1 hd
  have hin : inDelete s o = true := (hl o).2 (by rw [hd]; rfl)
  have hbind : s.deleting.bind (·.thread) = o := by rw [hd]; rfl
  have hdel : ∀ name, (deleteVmInstance h s name).ub = false := fun name => by
    rcases deleteVmInstance_cases h s name with ⟨-, he⟩ | ⟨_, _, -, -, -, he⟩ <;> rw [he] <;> exact hub
  rw [freeing, hbind]
  unfold step
  rw [hub, if_neg Bool.false_ne_true]
  cases o with
  | none =>
    replace hin : s.server.deletes = true := hin
    cases hpc : s.server <;> rw [hpc] at hin <;> try cases hin
    rename_i cfg name'
    have hrank : holdRank s = 1 := by simp [holdRank, hd]
    refine ⟨startBuild (deleteVmInstance h s name') .import name' cfg, by simp only [serverStep, hpc], hdel name', ?_⟩
    rw [hrank, holdRank, startBuild, deleteVmInstance_deleting]
    exact Nat.zero_lt_one
  | some uid =>
    replace hin : (s.thread uid).deletes = true := hin
    by_cases hserver : s.server = .stopping uid
    · have hrank : holdRank s = 2 := by simp [holdRank, hd, hserver]
      refine ⟨s.goto (.reply 0), by simp only [serverStep, hserver, if_true], hub, ?_⟩
      rw [hrank]
      simp [holdRank, Sys.goto, hd]
    · have hrank : holdRank s = 1 := by simp [holdRank, hd, hserver]
      obtain ⟨vb, hm, rfl⟩ := hh uid hin
      have hgo : ∃ p, threadStep h s vb.uid = some ((deleteVmInstance h s vb.name).setThread vb.uid p) := by
        cases hpc : s.thread vb.uid <;> rw [hpc] at hin <;> try cases hin
        · exact ⟨.done, by simp only [threadStep, threadStepOn, hpc, hr.find hm, if_neg hserver]⟩
        · exact ⟨.giveUpNotify, by simp only [threadStep, threadStepOn, hpc, hr.find hm, if_neg hserver]⟩
      obtain ⟨p, hgo⟩ := hgo
      refine ⟨(deleteVmInstance h s vb.name).setThread vb.uid p, by simpa only [if_neg hserver] using hgo, hdel vb.name,
        ?_⟩
      rw [hrank, holdRank, Sys.setThread, deleteVmInstance_deleting]
      exact Nat.zero_lt_one

end VmManager
