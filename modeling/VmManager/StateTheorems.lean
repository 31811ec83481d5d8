import VmManager.StateInvariants
/-!
# Theorems about the states of the VMs

The builder, the thread and the listener write the state without its lock. The
order of their writes is kept by other means: the latch, and the enrolment that
comes after the thread has set `kVmBooting`.
-/
open Text Runs

namespace VmManager

open VmBuilderQemu

variable {κ : Type}

/-! ## The states in their order -/

/-- The states a VM goes through. -/
def stateOrder : List VmState := [.empty, .created, .booting, .running]

def VmState.rank (st : VmState) : Nat := stateOrder.idxOf st

theorem VmState.rank_le_running {st : VmState} (hst : st ∈ stateOrder) : st.rank ≤ VmState.running.rank := by
  revert st
  decide

theorem Boots.early {s : Sys κ} (hi : Boots s) {vb : VmBuilderQemu} (hm : vb ∈ live s)
    (hb : (s.thread vb.uid).booted = false) : vb.state = .empty ∨ vb.state = .created := by
  rcases mem_live.1 hm with hm | hm
  · exact (hi.instances vb hm).before hb
  · exact (hi.builder vb hm).1

theorem Boots.stateOrder {s : Sys κ} (hi : Boots s) {vb : VmBuilderQemu} (hm : vb ∈ live s) :
    vb.state ∈ VmManager.stateOrder := by
  cases hb : (s.thread vb.uid).booted with
  | false => rcases hi.early hm hb with he | he <;> rw [he] <;> decide
  | true =>
    rcases mem_live.1 hm with hm | hm
    · rcases (hi.instances vb hm).booted hb with he | he <;> rw [he] <;> decide
    · rcases (hi.builder vb hm).1 with he | he <;> rw [he] <;> decide

theorem Evolves.rank {h : Host κ} {s : Sys κ} {a : Act κ} {vb vb' : VmBuilderQemu} (hi : Boots s) (hm : vb ∈ live s)
    (he : Evolves h s a vb vb') : vb.state.rank ≤ vb'.state.rank := by
  have hlast := VmState.rank_le_running (hi.stateOrder hm)
  cases he with
  | build p i st q vb' w _ hpc hst hq =>
    rcases (build_all (buildSteps_cidStep hst vb s.world) hq).same.state with hs | hs
    · rw [hs]
    · rw [hs]
      rcases (hi.builder vb (by rw [hpc]; rfl)).1 with he | he <;> rw [he]
      decide
  | booting _ hpc =>
    change vb.state.rank ≤ VmState.booting.rank
    rcases hi.early hm (by rw [hpc]; rfl) with he | he <;> rw [he] <;> decide
  | setReady => exact hlast
  | vmReady => exact hlast
  | exits i => cases i <;> exact Nat.le_refl _
  | attaches i => cases i <;> exact Nat.le_refl _
  | _ => exact Nat.le_refl _

/-- The VM `uid` has been made, and wherever it is now its state has at least
rank `r`. -/
structure AtLeast (uid r : Nat) (s : Sys κ) : Prop where
  made : uid < s.nextUid
  rank : ∀ vb ∈ live s, vb.uid = uid → r ≤ vb.state.rank

theorem atLeast_step {h : Host κ} {s s' : Sys κ} {a : Act κ} {uid r : Nat} (hi : Instances s) (hr : AtLeast uid r s)
    (hs : step h s a = some s') : AtLeast uid r s' := by
  refine ⟨Nat.lt_of_lt_of_le hr.made (step_nextUid hs), fun vb' hm hu => ?_⟩
  rcases step_live hi.registry hs vb' hm with ⟨name, cfg, rfl⟩ | ⟨vb, hv, he⟩
  · exact absurd hu (Nat.ne_of_gt hr.made)
  · calc r ≤ vb.state.rank := hr.rank vb hv (he.identity.uid.symm.trans hu)
      _ ≤ vb'.state.rank := he.rank hi.boots hv

/-- The state of a VM never goes back. -/
theorem rank_mono {h : Host κ} {s s' : Sys κ} {as : List (Act κ)} (hi : Instances s) (hr : run (step h) s as = some s')
    {vb vb' : VmBuilderQemu} (hm : vb ∈ live s) (hm' : vb' ∈ live s') (hu : vb'.uid = vb.uid) :
    vb.state.rank ≤ vb'.state.rank := by
  have hstart : AtLeast vb.uid vb.state.rank s := by
    refine ⟨hi.registry.live_lt hm, fun v hv he => ?_⟩
    rw [hi.registry.eq_of_live hv hm he]
  have hend := run_keeps (I := fun s => Instances s ∧ AtLeast vb.uid vb.state.rank s)
    (fun _ _ _ hi hs => ⟨instances_step hi.1 hs, atLeast_step hi.1 hi.2 hs⟩) hr ⟨hi, hstart⟩
  exact hend.2.rank vb' hm' hu

/-! ## Where a VM that boots comes from -/

/-- `BuildVmArgs` returns true for the VM `uid`. -/
def returnsArgs (h : Host κ) (uid : Nat) (s : Sys κ) (a : Act κ) : Prop :=
  ∃ p vb i, a = .server ∧ s.server = .building p vb i ∧ (buildSteps h)[i]? = none ∧ vb.uid = uid

/-- The thread of the VM `uid` calls `main_proc_->Run()`, which returns `main`. -/
def runsMain (h : Host κ) (uid : Nat) (s : Sys κ) (a : Act κ) (main : VmProcess) : Prop :=
  ∃ vb main₀ procs k₀ k, a = .thread uid ∧ s.thread uid = .launch ∧ s.find uid = some vb ∧ vb.mainProc = some main₀ ∧
    launchProcs h vb.coProcs s.world.kernel = some (procs, k₀) ∧ main₀.run h k₀ = some (main, k)

theorem runsMain_step {h : Host κ} {s s' : Sys κ} {a : Act κ} {uid : Nat} {main : VmProcess}
    (hs : step h s a = some s') (hrun : runsMain h uid s a main) : ∃ vb main₀ procs k₀ k, s.find uid = some vb ∧
      s.thread uid = .launch ∧ vb.mainProc = some main₀ ∧ main₀.run h k₀ = some (main, k) ∧
      s' = ((s.updateVm uid fun vb => { vb with coProcs := procs, mainProc := some main }).setKernel k).setThread uid
        .booting := by
  obtain ⟨vb, main₀, procs, k₀, k, rfl, hpc, hf, hmain, hprocs, hrun⟩ := hrun
  refine ⟨vb, main₀, procs, k₀, k, hf, hpc, hmain, hrun, ?_⟩
  unfold step at hs
  split at hs
  · cases hs
  · simp only [threadStep, threadStepOn, hpc, hf, hmain, hprocs, Option.bind_some, hrun, Option.map_some,
      Option.some.injEq] at hs
    exact hs.symm

/-- `BuildVmArgs` has returned true for the VM `uid`: it is registered or about
to be. -/
def Complete (uid : Nat) (s : Sys κ) : Prop :=
  (∃ vb ∈ s.vmis, vb.uid = uid) ∨ ∃ p vb, s.server = .insert p vb ∧ vb.uid = uid

theorem complete_cause {h : Host κ} {s s' : Sys κ} {a : Act κ} {uid : Nat} (hr : Registry s)
    (hs : step h s a = some s') (hc : Complete uid s') : Complete uid s ∨ returnsArgs h uid s a := by
  rcases hc with ⟨vb', hm, hu⟩ | ⟨p, vb, hpc, hu⟩
  · rcases step_vmis hr hs vb' hm with ⟨p, -, hpc⟩ | ⟨vb, hv, he⟩
    · exact .inl (.inr ⟨p, vb', hpc, hu⟩)
    · exact .inl (.inl ⟨vb, hv, he.identity.uid.symm.trans hu⟩)
  · rcases step_insert hs hpc with hpc | ⟨i, ha, hpc, hn⟩
    · exact .inl (.inr ⟨p, vb, hpc, hu⟩)
    · exact .inr ⟨p, vb, i, ha, hpc, hn, hu⟩

/-- Only the launch takes a thread past the launch. -/
theorem launched_cause {h : Host κ} {s s' : Sys κ} {a : Act κ} {uid : Nat} (hl : Launches s) (hs : step h s a = some s')
    (hp : (s'.thread uid).launched = true) : (s.thread uid).launched = true ∨ ∃ main, runsMain h uid s a main := by
  rcases step_move hs with ⟨-, hm⟩ | ⟨u, ha, hm⟩ | hm
  · rcases hm.thread uid with he | he <;> rw [he] at hp
    · exact .inl hp
    · cases hp
  · by_cases he : uid = u
    · subst he
      cases hm with
      | undefined => exact .inl hp
      | noMain vb _ hf hnone =>
        obtain ⟨main, cmd, hmain, -⟩ := (hl.instances vb (find_some hf).1).main
        rw [hnone] at hmain
        cases hmain
      | stuck vb main =>
        rw [setThread_self] at hp
        cases hp
      | launch vb procs main₀ main k₀ k hpc hf hmain hprocs hrun =>
        exact .inr ⟨main, vb, main₀, procs, k₀, k, ha, hpc, hf, hmain, hprocs, hrun⟩
      | exited vb _ hpc => rcases hpc with ⟨hpc, -⟩ | ⟨hpc, -⟩ <;> rw [hpc] <;> exact .inl rfl
      | lock vb p _ _ hpc => rcases hpc with ⟨hpc, -⟩ | ⟨hpc, -⟩ <;> rw [hpc] <;> exact .inl rfl
      | _ => rw [‹s.thread uid = _›]; exact .inl rfl
    · rw [(hm.counted.others uid he).1] at hp
      exact .inl hp
  · cases hm <;> exact .inl hp

/-- A VM that boots or runs is registered, and its thread has launched it. -/
theorem Boots.launched {s : Sys κ} (hi : Boots s) {vb : VmBuilderQemu} (hm : vb ∈ live s)
    (hst : vb.state = .booting ∨ vb.state = .running) :
    vb ∈ s.vmis ∧ (s.thread vb.uid).launched = true := by
  have hbooted : (s.thread vb.uid).booted = true := by
    refine Bool.eq_true_of_not_eq_false fun hb => ?_
    rcases hi.early hm hb with he | he <;> rw [he] at hst <;> simp at hst
  constructor
  · refine (mem_live.1 hm).resolve_right fun hb => ?_
    rcases (hi.builder vb hb).1 with he | he <;> rw [he] at hst <;> simp at hst
  · cases hpc : s.thread vb.uid <;> rw [hpc] at hbooted <;> first | rfl | cases hbooted

/-! ## What the clients are shown -/

/-- What a step shows: nothing, or the state of the instance at an index of the
handler, under the name the handler has for it. That is what it stores. -/
inductive Showing (s s' : Sys κ) : Prop
  | nothing : s'.shown = s.shown → s'.vmLists = s.vmLists ∨ s'.vmLists = [] →
      (∀ info, s'.vmInfo = some info → s.vmInfo = some info ∨ info.state = .unknown) → Showing s s'
  | info (name : String) (id cid : Nat) (vb : VmBuilderQemu) : s.server.uses = some ⟨.found, some name, id⟩ →
      s.vmAt id = some vb → s'.shown = s.shown ++ [s.shows name vb.state] → s'.vmLists = s.vmLists →
      s'.vmInfo = some ⟨cid, vb.state⟩ → Showing s s'
  | line (name : String) (i : Nat) (vb : VmBuilderQemu) : s.server.uses = some ⟨.counted, some name, i⟩ →
      s.vmAt i = some vb → s'.shown = s.shown ++ [s.shows name vb.state] →
      s'.vmLists = s.vmLists ++ [(s.shows name vb.state).text] → s'.vmInfo = s.vmInfo → Showing s s'

section

variable {h : Host κ} {s s' : Sys κ} {a : Act κ}

theorem Showing.of_same (h1 : s'.shown = s.shown) (h2 : s'.vmLists = s.vmLists) (h3 : s'.vmInfo = s.vmInfo) :
    Showing s s' := .nothing h1 (.inl h2) fun _ he => .inl (h3 ▸ he)

theorem Showing.of_delete {name : String} (h1 : s'.shown = (deleteVmInstance h s name).shown)
    (h2 : s'.vmLists = (deleteVmInstance h s name).vmLists) (h3 : s'.vmInfo = (deleteVmInstance h s name).vmInfo) :
    Showing s s' := by
  rcases deleteVmInstance_cases h s name with ⟨-, he⟩ | ⟨_, _, -, -, -, he⟩ <;> rw [he] at h1 h2 h3 <;>
    exact .of_same h1 h2 h3

theorem serverStep_showing (hs : serverStep h s = some s') : Showing s s' := by
  cases hpc : s.server <;> simp only [serverStep, hpc] at hs
  case loop | exited | hung => cases hs
  case infoConstruct name id =>
    split at hs <;> cases hs
    · exact .nothing rfl (.inl rfl) fun info he => .inr (by cases he; rfl)
    · exact .nothing rfl (.inl rfl) fun _ he => by cases he
  case infoCid name id =>
    split at hs <;> cases hs
    · exact .of_same rfl rfl rfl
    · exact .nothing rfl (.inl rfl) fun info he => .inr (by cases he; rfl)
  case infoState name id cid =>
    split at hs <;> cases hs
    · exact .of_same rfl rfl rfl
    · rename_i vb hv
      exact .info name id cid vb (by rw [hpc]; rfl) hv rfl rfl rfl
  case listConstruct =>
    split at hs
    · cases hs
      exact .of_same rfl rfl rfl
    · split at hs <;> cases hs
      · exact .nothing rfl (.inr rfl) fun _ he => .inl he
      · exact .of_same rfl rfl rfl
  case listState i name =>
    split at hs
    · cases hs
      exact .of_same rfl rfl rfl
    · rename_i vb hv
      split at hs <;> cases hs
      · exact .line name i vb (by rw [hpc]; rfl) hv rfl rfl rfl
      · exact .of_same rfl rfl rfl
  case importRead path | startRead path env =>
    cases hs
    obtain ⟨q, he, -⟩ := readConfig_cases h s path _
    rw [he]
    exact .of_same rfl rfl rfl
  case importLock cfg name =>
    obtain ⟨s₁, hlock, rfl⟩ := Option.map_eq_some_iff.1 hs
    obtain ⟨-, rfl⟩ := lockVmis_some hlock
    exact .of_same rfl rfl rfl
  case importDelete cfg name =>
    cases hs
    exact .of_delete (h := h) rfl rfl rfl
  case building p vb i =>
    cases hs
    rcases buildStep_cases h s p vb i with ⟨-, he⟩ | ⟨st, -, ⟨vb', w, q, -, he⟩ | ⟨w, -, he⟩⟩ <;> rw [he] <;>
      exact .of_same rfl rfl rfl
  case insert p vb =>
    split at hs
    · cases hs
      exact .of_same rfl rfl rfl
    · cases p <;> cases hs <;> exact .of_same rfl rfl rfl
  all_goals
    repeat' split at hs
    all_goals first | (cases hs; done) | (cases hs; exact .of_same rfl rfl rfl)

theorem step_showing (hs : step h s a = some s') : Showing s s' := by
  unfold step at hs
  split at hs
  · cases hs
  · cases a with
    | recv r =>
      dsimp only [recv] at hs
      split at hs <;> cases hs
      exact .of_same rfl rfl rfl
    | server => exact serverStep_showing hs
    | thread uid =>
      cases threadStep_move hs with
      | delete | giveUp => exact .of_delete (h := h) rfl rfl rfl
      | _ => exact .of_same rfl rfl rfl
    | vmReady peer =>
      have hm := rpcVmReady_move s peer
      rw [Option.some.inj hs] at hm
      cases hm <;> exact .of_same rfl rfl rfl
    | exit | attach | host =>
      cases hs
      exact .of_same rfl rfl rfl

/-- What the handlers have stored for the clients is what they have shown. -/
structure Stored (s : Sys κ) : Prop where
  lists : s.vmLists.Sublist (s.shown.map Shown.text)
  info : ∀ info, s.vmInfo = some info → info.state = .unknown ∨ ∃ e ∈ s.shown, e.state = info.state

theorem stored_step (hi : Stored s) (hs : step h s a = some s') : Stored s' := by
  cases step_showing hs with
  | nothing hshown hlists hinfo =>
    refine ⟨?_, fun info he => ?_⟩
    · rw [hshown]
      rcases hlists with hl | hl <;> rw [hl]
      · exact hi.lists
      · exact List.nil_sublist _
    · rw [hshown]
      rcases hinfo info he with he | he
      · exact hi.info info he
      · exact .inl he
  | info name id cid vb _ _ hshown hlists hinfo =>
    refine ⟨?_, fun info he => .inr ?_⟩
    · rw [hshown, hlists, List.map_append]
      exact hi.lists.trans (List.sublist_append_left _ _)
    · cases hinfo.symm.trans he
      rw [hshown]
      exact ⟨_, List.mem_append_right _ (List.mem_singleton.2 rfl), rfl⟩
  | line name i vb _ _ hshown hlists hinfo =>
    refine ⟨?_, fun info he => ?_⟩
    · rw [hshown, hlists, List.map_append]
      exact hi.lists.append (List.Sublist.refl _)
    · rw [hshown]
      rcases hi.info info (hinfo ▸ he) with he | ⟨e, hm, he⟩
      · exact .inl he
      · exact .inr ⟨e, List.mem_append_left _ hm, he⟩

theorem stored_init (k : κ) : Stored (Sys.init k) := ⟨List.nil_sublist _, nofun⟩

/-- As long as the handlers hold the right index, what a step shows is the state
of the VM that has the name. -/
theorem Showing.of_held (hr : Registry s) (hh : Held (· ≠ .inserted) s) (hs : Showing s s') :
    s'.shown = s.shown ∨ ∃ name, ∃ vb ∈ s.vmis, s'.shown = s.shown ++ [⟨name, some vb.uid, vb.state⟩] := by
  have hown : ∀ {name : String} {o : Origin} {id : Nat} {vb : VmBuilderQemu}, o ≠ .inserted →
      s.server.uses = some ⟨o, some name, id⟩ → s.vmAt id = some vb →
      vb ∈ s.vmis ∧ s.shows name vb.state = ⟨name, some vb.uid, vb.state⟩ := by
    intro name o id vb ho hu hv
    obtain ⟨vb', hv', hn⟩ := hh _ hu (decide_eq_true ho)
    cases hv.symm.trans hv'
    have hm := List.mem_of_getElem? (vmAt_get hv)
    refine ⟨hm, ?_⟩
    have hfind : s.vmis.find? (·.name = name) = some vb := by
      cases hf : s.vmis.find? (·.name = name) with
      | none => exact absurd (hn name rfl) (by simpa using List.find?_eq_none.1 hf vb hm)
      | some vb' =>
        have hn' : vb'.name = name := by simpa using List.find?_some hf
        rw [hr.eq_of_name (List.mem_of_find?_eq_some hf) hm (hn'.trans (hn name rfl).symm)]
    rw [Sys.shows, hfind]
    rfl
  cases hs with
  | nothing hshown => exact .inl hshown
  | info name id cid vb hu hv hshown | line name id vb hu hv hshown =>
    obtain ⟨hm, he⟩ := hown (by decide) hu hv
    exact .inr ⟨name, vb, hm, he ▸ hshown⟩

/-- Each VM that was shown has at least the state it was shown in, and what is
shown of it goes forward. -/
structure ShownForward (s : Sys κ) : Prop where
  known : ∀ e ∈ s.shown, ∃ uid, e.vm = some uid ∧ AtLeast uid e.state.rank s
  forward : s.shown.Pairwise fun x y => x.vm = y.vm → x.state.rank ≤ y.state.rank

theorem shownForward_step (hi : Instances s) (hh : Held (· ≠ .inserted) s) (hf : ShownForward s)
    (hs : step h s a = some s') : ShownForward s' := by
  have hknown : ∀ e ∈ s.shown, ∃ uid, e.vm = some uid ∧ AtLeast uid e.state.rank s' := fun e hm => by
    obtain ⟨uid, hu, ha⟩ := hf.known e hm
    exact ⟨uid, hu, atLeast_step hi ha hs⟩
  rcases (step_showing hs).of_held hi.registry hh with he | ⟨name, vb, hm, he⟩
  · exact ⟨he ▸ hknown, he ▸ hf.forward⟩
  · have hlive : vb ∈ live s := mem_live.2 (.inl hm)
    refine ⟨fun e hme => ?_, ?_⟩
    · rw [he] at hme
      rcases List.mem_append.1 hme with hold | hnew
      · exact hknown e hold
      · rw [List.mem_singleton.1 hnew]
        refine ⟨vb.uid, rfl, atLeast_step hi ⟨hi.registry.live_lt hlive, fun v hv hu => ?_⟩ hs⟩
        rw [hi.registry.eq_of_live hv hlive hu]
    · rw [he, List.pairwise_append]
      refine ⟨hf.forward, List.pairwise_singleton _ _, fun x hx y hy hxy => ?_⟩
      cases List.mem_singleton.1 hy
      obtain ⟨uid, hu, ha⟩ := hf.known x hx
      exact ha.rank vb hlive (Option.some.inj (hxy.symm.trans hu))

end

/-- In every run a VM's state moves forward only, and once it boots or runs
`BuildVmArgs` has returned true for it and `main_proc_->Run()` has been called.
As long as a VM thread never removes an instance at or before an index that was
looked up or counted and is still used, what the clients are shown moves forward
too. -/
theorem states_go_forward (h : Host κ) (k : κ) (s₁ s₂ : Sys κ) (as₁ as₂ : List (Act κ))
    (h₁ : run (step h) (Sys.init k) as₁ = some s₁) (h₂ : run (step h) s₁ as₂ = some s₂) :
    (∀ vb₁ ∈ live s₁, ∀ vb₂ ∈ live s₂, vb₂.uid = vb₁.uid → vb₁.state.rank ≤ vb₂.state.rank) ∧
    (∀ vb ∈ live s₁, vb.state ∈ stateOrder) ∧
    (∀ vb ∈ live s₁, vb.state = .booting ∨ vb.state = .running →
      Happened (step h) (returnsArgs h vb.uid) (Sys.init k) as₁ ∧
      Happened (step h) (fun s a => ∃ main, runsMain h vb.uid s a main) (Sys.init k) as₁) ∧
    Stored s₁ ∧
    (Guarded (step h) (fun s a => keepsUse (· ≠ .inserted) s a = true) (Sys.init k) as₁ →
      (∀ e ∈ s₁.shown, e.vm ≠ none) ∧ s₁.shown.Pairwise fun x y => x.vm = y.vm → x.state.rank ≤ y.state.rank) := by
  have hi := run_keeps (fun _ _ _ hi hs => instances_step hi hs) h₁ (instances_init k)
  refine ⟨fun vb₁ hm₁ vb₂ hm₂ hu => rank_mono hi h₂ hm₁ hm₂ hu, fun vb hm => hi.boots.stateOrder hm,
    fun vb hm hst => ?_, run_keeps (fun _ _ _ hi hs => stored_step hi hs) h₁ (stored_init k), fun hg => ?_⟩
  · obtain ⟨hreg, hl⟩ := hi.boots.launched hm hst
    have hall : Guarded (step h) (fun _ _ => True) (Sys.init k) as₁ := guarded_of_forall fun _ _ => trivial
    constructor
    · refine (run_happened (I := Instances) (fun _ _ _ hi _ hs => instances_step hi hs)
        (fun _ _ _ hi _ hs hc => complete_cause hi.registry hs hc) h₁ hall (instances_init k)
        (.inl ⟨vb, hreg, rfl⟩)).resolve_left ?_
      rintro (⟨_, hm, -⟩ | ⟨_, _, he, -⟩)
      · cases hm
      · cases he
    · exact (run_happened (I := Instances) (Q := fun s => (s.thread vb.uid).launched = true)
        (fun _ _ _ hi _ hs => instances_step hi hs) (fun _ _ _ hi _ hs hp => launched_cause hi.launches hs hp) h₁ hall
        (instances_init k) hl).resolve_left nofun
  · have hend : Instances s₁ ∧ Held (· ≠ .inserted) s₁ ∧ ShownForward s₁ := by
      refine run_keeps_guarded (I := fun s => Instances s ∧ Held (· ≠ .inserted) s ∧ ShownForward s)
        (fun s a s' hi hg hs => ?_) h₁ hg ⟨instances_init k, .of_none rfl, nofun, .nil⟩
      exact ⟨instances_step hi.1 hs, held_step hi.2.1 hg hs, shownForward_step hi.1 hi.2.1 hi.2.2 hs⟩
    refine ⟨fun e hm he => ?_, hend.2.2.forward⟩
    obtain ⟨uid, hu, -⟩ := hend.2.2.known e hm
    rw [he] at hu
    cases hu

/-- Configs of three VMs. -/
def threeVmHost : Host Unit :=
  stillHost [("/a.ini", "[global]\nname=a\n[firmware]\ntype=unified\n"),
    ("/b.ini", "[global]\nname=b\n[firmware]\ntype=unified\n"),
    ("/c.ini", "[global]\nname=c\n[firmware]\ntype=unified\n")] []

/-- `a` and `b` are started, `c` is imported, and `GetVmInfo` shows the state of
`b`. -/
def askedForB : List (Act Unit) :=
  startUp "/a.ini" 0 ++ startUp "/b.ini" 1 ++ .recv (.importVm "/c.ini") :: List.replicate 33 .server ++
    .recv (.getVmInfo "b") :: List.replicate 6 .server

/-- `a` exits, and `b` is asked for again: `a` is removed before the lookup, or
before the last read. -/
def askedAgain (early : Bool) : List (Act Unit) :=
  let gone := [.thread 0, .thread 0]
  [.exit 0 0, .thread 0] ++ (if early then gone else []) ++
    .recv (.getVmInfo "b") :: List.replicate 3 .server ++ (if early then [] else gone) ++ [.server]

/-- `GetVmInfo` is answered, and `ListVm` shows the two VMs that are left. -/
def listed : List (Act Unit) := List.replicate 2 .server ++ .recv .listVm :: List.replicate 8 .server

/-- `a` is gone before `b` is looked up again. -/
theorem states_go_forward_b : ∃ s, run (step threeVmHost) (Sys.init ()) (askedForB ++ askedAgain true ++ listed) = some s ∧
    s.shown = [⟨"b", some 1, .running⟩, ⟨"b", some 1, .running⟩, ⟨"b", some 1, .running⟩, ⟨"c", some 2, .created⟩] ∧
    s.vmLists = ["b:Running", "c:Created"] ∧ Stored s ∧
    s.shown.Pairwise fun x y => x.vm = y.vm → x.state.rank ≤ y.state.rank := by
  have he : (run (step threeVmHost) (Sys.init ()) (askedForB ++ askedAgain true ++ listed)).map
      (fun s => (s.shown, s.vmLists)) =
      some ([⟨"b", some 1, .running⟩, ⟨"b", some 1, .running⟩, ⟨"b", some 1, .running⟩, ⟨"c", some 2, .created⟩],
        ["b:Running", "c:Created"]) := by decide +kernel
  obtain ⟨s, hs, he⟩ := Option.map_eq_some_iff.1 he
  obtain ⟨hshown, hlists⟩ := Prod.mk.inj he
  have hall := (states_go_forward threeVmHost () s s _ [] hs rfl).2.2.2
  exact ⟨s, hs, hshown, hlists, hall.1, (hall.2 (by decide +kernel)).2⟩

/-- `a` goes between the lookup and the read: `b`, which is running, is shown
in the state of `c`. -/
theorem getVmInfo_shows_earlier_state : ∃ s, run (step threeVmHost) (Sys.init ()) (askedForB ++ askedAgain false) = some s ∧
    s.shown = [⟨"b", some 1, .running⟩, ⟨"b", some 1, .created⟩] ∧ s.vmInfo.map (·.state) = some .created ∧
    (s.find 1).map (·.state) = some .running ∧
    ¬ s.shown.Pairwise fun x y => x.vm = y.vm → x.state.rank ≤ y.state.rank := by
  have he : (run (step threeVmHost) (Sys.init ()) (askedForB ++ askedAgain false)).map
      (fun s => (s.shown, s.vmInfo.map (·.state), (s.find 1).map (·.state))) =
        some ([⟨"b", some 1, .running⟩, ⟨"b", some 1, .created⟩], some .created, some .running) := by decide +kernel
  obtain ⟨s, hs, he⟩ := Option.map_eq_some_iff.1 he
  obtain ⟨hshown, he⟩ := Prod.mk.inj he
  obtain ⟨hinfo, hown⟩ := Prod.mk.inj he
  refine ⟨s, hs, hshown, hinfo, hown, ?_⟩
  rw [hshown]
  decide

end VmManager
