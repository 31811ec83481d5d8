import VmManager.ThreadInvariants
/-!
# Invariants of the processes

Every registered VM has a main process with a command in it, so that `Run`
returns, and that process has its monitor from the launch on for as long as
`StartVm` waits.
-/
open Text Runs

namespace VmManager

open VmBuilderQemu

variable {κ : Type}

/-! ## What the operations on processes keep -/

/-- `Run` sets the monitor of a simple process and keeps its command. -/
theorem run_simple {h : Host κ} {p p' : VmProcess} {k k' : κ} {cmd : String} (hk : p.kind = .simple cmd)
    (hr : p.run h k = some (p', k')) : p'.kind = .simple cmd ∧ p'.mon = true := by
  unfold VmProcess.run at hr
  rw [hk] at hr
  dsimp only at hr
  unfold VmProcess.runCmd at hr
  split at hr <;> cases hr
  exact ⟨hk, rfl⟩

theorem runCmd_kind {h : Host κ} {p p' : VmProcess} {k k' : κ} {cmd : String}
    (hr : p.runCmd h cmd k = some (p', k')) : p'.kind = p.kind := by
  unfold VmProcess.runCmd at hr
  split at hr <;> cases hr
  rfl

theorem run_kind {h : Host κ} {p p' : VmProcess} {k k' : κ} (hr : p.run h k = some (p', k')) : p'.kind = p.kind := by
  unfold VmProcess.run at hr
  split at hr
  · exact runCmd_kind hr
  · exact runCmd_kind hr
  · split at hr
    · cases hr; rfl
    · exact runCmd_kind hr

theorem stop_kind (h : Host κ) (p : VmProcess) (k : κ) : (p.stop h k).1.kind = p.kind := by
  have hs : (p.stopSimple h k).1.kind = p.kind := by
    unfold VmProcess.stopSimple
    split <;> rfl
  unfold VmProcess.stop
  split <;> exact hs

theorem launchProcs_kinds {h : Host κ} {ps ps' : List VmProcess} {k k' : κ}
    (hl : launchProcs h ps k = some (ps', k')) : ps'.map (·.kind) = ps.map (·.kind) := by
  induction ps generalizing ps' k k' with
  | nil => cases hl; rfl
  | cons p ps ih =>
    rw [launchProcs] at hl
    obtain ⟨⟨p₁, k₁⟩, hp, hl⟩ := Option.bind_eq_some_iff.1 hl
    obtain ⟨⟨ps₁, k₂⟩, hps, he⟩ := Option.map_eq_some_iff.1 hl
    cases he
    rw [List.map_cons, List.map_cons, ih hps]
    split at hp
    · cases hp; rfl
    · rw [run_kind hp]

/-- Processes that can be run are run. -/
theorem launchProcs_of_runnable (h : Host κ) {ps : List VmProcess} (hp : ∀ p ∈ ps, p.Runnable) (k : κ) :
    ∃ r, launchProcs h ps k = some r := by
  induction ps generalizing k with
  | nil => exact ⟨_, rfl⟩
  | cons p ps ih =>
    have hr : ∃ r, (if p.running then some (p, k) else p.run h k) = some r := by
      split
      · exact ⟨_, rfl⟩
      · exact VmProcess.run_of_runnable (hp p List.mem_cons_self) h k
    obtain ⟨⟨p₁, k₁⟩, hr⟩ := hr
    obtain ⟨⟨ps₁, k₂⟩, hl⟩ := ih (fun p hm => hp p (List.mem_cons_of_mem _ hm)) k₁
    refine ⟨(p₁ :: ps₁, k₂), ?_⟩
    rw [launchProcs, hr, Option.bind_some]
    dsimp only
    rw [hl]
    rfl

/-! ## Instances that can be launched -/

structure Launchable (vb : VmBuilderQemu) : Prop where
  procs : ∀ p ∈ vb.coProcs, p.Runnable
  main : ∃ main cmd, vb.mainProc = some main ∧ main.kind = .simple cmd ∧ NonBlank cmd

theorem Launchable.main_runnable {vb : VmBuilderQemu} (hl : Launchable vb) :
    ∃ main, vb.mainProc = some main ∧ main.Runnable := by
  obtain ⟨main, cmd, hmain, hk, hc⟩ := hl.main
  refine ⟨main, hmain, ?_⟩
  intro cmd' hk'
  rw [hk] at hk'
  cases hk'
  exact hc

/-- All its processes are run, the main one last. -/
theorem Launchable.runs {vb : VmBuilderQemu} (hl : Launchable vb) (h : Host κ) (k : κ) : ∃ main procs k' r,
    vb.mainProc = some main ∧ launchProcs h vb.coProcs k = some (procs, k') ∧ main.run h k' = some r := by
  obtain ⟨main, hmain, hrun⟩ := hl.main_runnable
  obtain ⟨⟨procs, k'⟩, hprocs⟩ := launchProcs_of_runnable h hl.procs k
  obtain ⟨r, hr⟩ := VmProcess.run_of_runnable hrun h k'
  exact ⟨main, procs, k', r, hmain, hprocs, hr⟩

theorem runnable_of_kinds {ps ps' : List VmProcess} (hk : ps'.map (·.kind) = ps.map (·.kind))
    (hp : ∀ p ∈ ps, p.Runnable) : ∀ p ∈ ps', p.Runnable := by
  intro p hm cmd hc
  have hmem : p.kind ∈ ps.map (·.kind) := hk ▸ List.mem_map_of_mem hm
  obtain ⟨q, hq, he⟩ := List.mem_map.1 hmem
  exact hp q hq cmd (he.trans hc)

/-- Whether a VM can be launched is a matter of the kinds of its processes. -/
theorem Launchable.of_kinds {vb vb' : VmBuilderQemu} (hl : Launchable vb)
    (hp : vb'.coProcs.map (·.kind) = vb.coProcs.map (·.kind)) (hm : vb'.mainProc.map (·.kind) = vb.mainProc.map (·.kind)) :
    Launchable vb' := by
  obtain ⟨main, cmd, hmain, hk, hc⟩ := hl.main
  rw [hmain] at hm
  obtain ⟨main', hmain', he⟩ := Option.map_eq_some_iff.1 hm
  exact ⟨runnable_of_kinds hp hl.procs, main', cmd, hmain', he.trans hk, hc⟩

theorem Launchable.stopVm {vb : VmBuilderQemu} (hl : Launchable vb) (h : Host κ) (w : World κ) :
    Launchable (vb.stopVm h w).1 := by
  obtain ⟨main, cmd, hmain, hk, hc⟩ := hl.main
  refine ⟨fun p hm => (nomatch hm), (main.stop h w.kernel).1, cmd, ?_, (stop_kind h main _).trans hk, hc⟩
  simp only [VmBuilderQemu.stopVm, VmBuilderQemu.stopProcs, hmain]

theorem Launchable.same {vb : VmBuilderQemu} (hl : Launchable vb) {f : VmBuilderQemu → VmBuilderQemu}
    (hf : SameInstance f) : Launchable (f vb) := by
  refine hl.of_kinds (hf.procs vb) ?_
  have hm := congrArg (Option.map Prod.fst) (hf.main vb)
  simpa [Option.map_map, Function.comp_def] using hm

/-! ## The last steps of `BuildVmArgs` -/

theorem addProcs_emulCmd (srvs : List String) (vb : VmBuilderQemu) :
    (srvs.foldl (fun vb srv => if (trim srv).isEmpty then vb else vb.addProc (.simple (trim srv))) vb).emulCmd =
      vb.emulCmd := by
  induction srvs generalizing vb with
  | nil => rfl
  | cons srv srvs ih =>
    rw [List.foldl_cons, ih]
    split <;> rfl

theorem setExtraServices_emulCmd (vb : VmBuilderQemu) : vb.setExtraServices.emulCmd = vb.emulCmd := by
  unfold setExtraServices
  dsimp only
  split
  · rfl
  · exact addProcs_emulCmd _ vb

theorem flushAaf_emulCmd {h : Host κ} {vb vb' : VmBuilderQemu} {w w' : World κ} (hf : flushAaf h vb w = .ok vb' w') :
    vb'.emulCmd = vb.emulCmd := by
  unfold flushAaf at hf
  split at hf
  · cases hf; rfl
  · split at hf
    · cases hf
    · cases hf; rfl

/-- From `BuildFixedCmd` on there is a command, and after the last step it is
the main process. -/
def CommandAt (vb : VmBuilderQemu) (i : Nat) : Prop :=
  (ArgStep.fixed.idx < i → NonBlank vb.emulCmd) ∧
    (ArgStep.created.idx < i → vb.mainProc = some { kind := .simple vb.emulCmd })

/-- All but these come before `BuildFixedCmd`. -/
theorem ArgStep.idx_lt_fixed (b : ArgStep) (hb : b ∉ [.fixed, .extraServices, .flush, .created]) :
    b.idx < ArgStep.fixed.idx := by
  have hall : ∀ b ∈ argSteps, b ∉ [.fixed, .extraServices, .flush, .created] → b.idx < ArgStep.fixed.idx := by decide
  exact hall b (argSteps_spec.2 b) hb

theorem commandAt_next {h : Host κ} {vb vb' : VmBuilderQemu} {w w' : World κ} {i : Nat} {st : Step κ}
    (hc : CommandAt vb i) (hst : (buildSteps h)[i]? = some st) (he : st vb w = .ok vb' w') : CommandAt vb' (i + 1) := by
  obtain ⟨b, rfl, rfl⟩ := buildSteps_at hst
  by_cases hb : b ∈ [.fixed, .extraServices, .flush, .created]
  · simp only [List.mem_cons, List.not_mem_nil, or_false] at hb
    rcases hb with rfl | rfl | rfl | rfl
    · obtain ⟨rfl, -⟩ := Outcome.ok.inj he
      refine ⟨fun _ => ?_, fun h => absurd h (by decide)⟩
      exact NonBlank.append_right (show NonBlank _ by decide) _
    · obtain ⟨rfl, -⟩ := Outcome.ok.inj he
      refine ⟨fun _ => ?_, fun h => absurd h (by decide)⟩
      rw [setExtraServices_emulCmd]
      exact hc.1 (by decide)
    · refine ⟨fun _ => ?_, fun h => absurd h (by decide)⟩
      rw [flushAaf_emulCmd he]
      exact hc.1 (by decide)
    · obtain ⟨rfl, -⟩ := Outcome.ok.inj he
      exact ⟨fun _ => hc.1 (by decide), fun _ => rfl⟩
  · have hlt := b.idx_lt_fixed hb
    have hlast : ArgStep.fixed.idx < ArgStep.created.idx := by decide
    exact ⟨fun h => by omega, fun h => by omega⟩

/-! ## The invariant -/

/-- After the launch. -/
def ThreadPc.launched : ThreadPc → Bool
  | none | launch | stuck => false
  | _ => true

structure Launches (s : Sys κ) : Prop where
  builder : ∀ vb, s.server.builder = some vb → ∀ p ∈ vb.coProcs, p.Runnable
  building : ∀ p vb i, s.server = .building p vb i → CommandAt vb i
  insert : ∀ p vb, s.server = .insert p vb → Launchable vb
  instances : ∀ vb ∈ s.vmis, Launchable vb
  mon : ∀ uid waitReady, s.server.started = some (uid, waitReady) → (s.thread uid).launched = true →
    ∀ vb ∈ s.vmis, vb.uid = uid → vb.mainProc.any (·.mon) = true

/-- The server moves to a place where it neither builds nor has started a
VM. -/
theorem Launches.serve {s : Sys κ} (hq : s.server.plain) (hi : ∀ vb ∈ s.vmis, Launchable vb) : Launches s := by
  refine ⟨fun vb he => absurd he (hq.no_builder vb), fun p vb i he => ?_, fun p vb he => ?_, hi, fun uid wr he => ?_⟩
  · exact absurd (by rw [he]; rfl) (hq.no_builder vb)
  · exact absurd (by rw [he]; rfl) (hq.no_builder vb)
  · rw [hq.2] at he
    cases he

theorem launches_server {h : Host κ} {s s' : Sys κ} (hr : Registry s) (hi : Launches s) (hs : ServerMove h s s') :
    Launches s' := by
  have hnew : ∀ p vb, s.server = .insert p vb → ∀ vb' ∈ s.vmis ++ [vb], Launchable vb' := by
    intro p vb hpc vb' hm
    rcases List.mem_append.1 hm with hm | hm
    · exact hi.instances vb' hm
    · rw [List.mem_singleton.1 hm]
      exact hi.insert p vb hpc
  cases hs with
  | undefined => exact ⟨hi.builder, hi.building, hi.insert, hi.instances, hi.mon⟩
  | quiet s' hc _ hq _ => exact .serve hq (hc.vmis ▸ hi.instances)
  | stop name id vb hpc hv =>
    have hv := vmAt_get hv
    refine .serve ⟨rfl, rfl⟩ fun vb' hm => ?_
    rcases List.mem_or_eq_of_mem_set hm with hm | rfl
    · exact hi.instances vb' hm
    · exact (hi.instances vb (List.mem_of_getElem? hv)).stopVm h s.world
  | create p name cfg =>
    refine ⟨fun vb he => ?_, fun p vb i he => ?_, fun _ _ he => (by cases he), hi.instances, fun _ _ he => by cases he⟩
    · cases he; exact fun _ hm => by cases hm
    · cases he; exact ⟨(fun hle => by cases hle), (fun hle => by cases hle)⟩
  | lock => exact .serve ⟨rfl, rfl⟩ hi.instances
  | overwrite name cfg hpc =>
    refine ⟨fun vb he => ?_, fun p vb i he => ?_, fun _ _ he => (by cases he), fun vb hm => ?_, fun _ _ he => by cases he⟩
    · cases he; exact fun _ hm => by cases hm
    · cases he; exact ⟨(fun hle => by cases hle), (fun hle => by cases hle)⟩
    · exact hi.instances vb (mem_of_mem_delete hm)
  | build p vb vb' w i st q hpc hst hq =>
    have hsame := (build_all (buildSteps_cidStep hst vb s.world) hq).same
    have hprocs := hsame.procs (hi.builder vb (by rw [hpc]; rfl))
    rcases hq with ⟨he, rfl⟩ | ⟨-, rfl⟩ | ⟨e, -, rfl⟩
    · refine ⟨fun vb'' hb => ?_, fun p vb'' j hb => ?_, fun _ _ he => (by cases he), hi.instances, fun _ _ he => by cases he⟩
      · cases hb; exact hprocs
      · cases hb; exact commandAt_next (hi.building p vb i hpc) hst he
    · refine ⟨fun vb'' hb => ?_, fun _ _ _ hb => (by cases hb), fun _ _ he => (by cases he), hi.instances,
        fun _ _ he => by cases he⟩
      cases hb; exact hprocs
    · refine ⟨fun vb'' hb => ?_, fun _ _ _ hb => (by cases hb), fun _ _ he => (by cases he), hi.instances,
        fun _ _ he => by cases he⟩
      cases hb; exact hprocs
  | hang => exact .serve ⟨rfl, rfl⟩ hi.instances
  | built p vb i hpc hn =>
    have hpast := ArgStep.idx_lt_of_end hn
    obtain ⟨hc, hm⟩ := hi.building p vb i hpc
    have hprocs := hi.builder vb (by rw [hpc]; rfl)
    refine ⟨fun vb' hb => ?_, fun _ _ _ hb => (by cases hb), fun p' vb' hb => ?_, hi.instances, fun _ _ he => by cases he⟩
    · cases hb; exact hprocs
    · cases hb; exact ⟨hprocs, _, _, hm (hpast _), rfl, hc (hpast _)⟩
  | insertImport vb hpc => exact .serve ⟨rfl, rfl⟩ (hnew _ vb hpc)
  | insertStart vb env waitReady hpc =>
    obtain ⟨-, hnone, -, -⟩ := hr.builder vb (by rw [hpc]; rfl)
    refine ⟨fun _ hb => (by cases hb), fun _ _ _ hb => (by cases hb), fun _ _ hb => (by cases hb), hnew _ vb hpc,
      fun uid wr he hl => ?_⟩
    cases he
    change (s.thread vb.uid).launched = true at hl
    rw [hnone] at hl
    cases hl
  | drop vb q hq => rcases hq with ⟨-, rfl⟩ | ⟨e, -, rfl⟩ <;> exact .serve ⟨rfl, rfl⟩ hi.instances
  | get pos uid env waitReady vb hpc hv =>
    refine ⟨fun _ hb => (by cases hb), fun _ _ _ hb => (by cases hb), fun _ _ hb => (by cases hb), ?_, fun u wr he hl => ?_⟩
    · refine forall_updateVm hi.instances (fun _ _ hl => hl) fun vb' _ hl => hl.of_kinds rfl ?_
      simp [Option.map_map, Function.comp_def]
    · cases he
      change (Function.update s.thread vb.uid .launch vb.uid).launched = true at hl
      rw [Function.update_self] at hl
      cases hl
  | pass uid waitReady hpc _ =>
    refine ⟨fun _ hb => (by cases hb), fun _ _ _ hb => (by cases hb), fun _ _ hb => (by cases hb), hi.instances,
      fun u wr he => ?_⟩
    exact hi.mon u wr (by rw [hpc]; exact he)
  | answer => exact .serve ⟨rfl, rfl⟩ hi.instances

/-- What every instance has after a step of a thread. -/
theorem launchable_thread {h : Host κ} {s s' : Sys κ} {uid : Nat} (hr : Registry s) (hi : Launches s)
    (hs : ThreadMove h s uid s') : ∀ vb ∈ s'.vmis, Launchable vb := by
  cases hs with
  | launch vb procs main₀ main k₀ k hpc hf hmain hprocs hrun =>
    obtain ⟨hm, hu⟩ := find_some hf
    have hp : ∀ vb' ∈ s.vmis, Launchable vb' ∧ (vb'.uid = uid → vb' = vb) := fun vb' hm' =>
      ⟨hi.instances vb' hm', fun he => hr.eq_of_uid hm' hm (he.trans hu.symm)⟩
    refine forall_updateVm hp (fun _ _ hl => hl.1) fun vb' he hl => hl.1.of_kinds ?_ ?_
    · rw [hl.2 he]
      exact launchProcs_kinds hprocs
    · rw [hl.2 he, hmain]
      exact congrArg some (run_kind hrun)
  | booting vb => exact forall_updateVm hi.instances (fun _ _ hl => hl) fun _ _ hl => hl.of_kinds rfl rfl
  | setReady vb => exact forall_updateVm hi.instances (fun _ _ hl => hl) fun _ _ hl => hl.of_kinds rfl rfl
  | delete | giveUp => exact fun vb hm => hi.instances vb (mem_of_mem_delete hm)
  | _ => exact hi.instances

/-- The launch gives the main process its monitor, and no later step of a
thread takes it away. -/
theorem mon_thread {h : Host κ} {s s' : Sys κ} {u : Nat} (hi : Launches s) (hs : ThreadMove h s u s')
    {uid : Nat} {waitReady : Bool} (hstart : s.server.started = some (uid, waitReady))
    (hl : (s'.thread uid).launched = true) : ∀ vb ∈ s'.vmis, vb.uid = uid → vb.mainProc.any (·.mon) = true := by
  have hdel : (s.thread uid).launched = true → ∀ name p, ∀ vb ∈ ((deleteVmInstance h s name).setThread u p).vmis,
      vb.uid = uid → vb.mainProc.any (·.mon) = true := by
    exact fun hold name p vb hm => hi.mon uid waitReady hstart hold vb (mem_of_mem_delete hm)
  by_cases he : uid = u
  · subst he
    have hfrom : ∀ p : ThreadPc, s.thread uid = p → p.launched = true →
        ∀ vb ∈ s.vmis, vb.uid = uid → vb.mainProc.any (·.mon) = true := fun p hpc hp =>
      hi.mon uid waitReady hstart (hpc ▸ hp)
    cases hs with
    | undefined => exact hi.mon uid waitReady hstart hl
    | noMain vb _ hf hnone =>
      obtain ⟨main, cmd, hmain, -⟩ := (hi.instances vb (find_some hf).1).main
      rw [hnone] at hmain
      cases hmain
    | stuck vb main =>
      rw [setThread_self] at hl
      cases hl
    | launch vb procs main₀ main k₀ k hpc hf hmain _ hrun =>
      obtain ⟨main', cmd, hmain', hk, -⟩ := (hi.instances vb (find_some hf).1).main
      rw [hmain, Option.some.injEq] at hmain'
      obtain ⟨-, hmon⟩ := run_simple (hmain' ▸ hk) hrun
      exact forall_updateVm (P := fun _ => True) (fun _ _ => trivial) (fun vb hne _ hu => absurd hu hne)
        fun _ _ _ _ => hmon
    | booting vb hpc => exact forall_updateVm (hfrom _ hpc rfl) (fun _ _ hm => hm) fun _ _ hm => hm
    | setReady vb hpc => exact forall_updateVm (hfrom _ hpc rfl) (fun _ _ hm => hm) fun _ _ hm => hm
    | delete vb hpc => exact hdel (hpc ▸ rfl) vb.name _
    | giveUp vb hpc => exact hdel (hpc ▸ rfl) vb.name _
    | exited vb _ hpc | lock vb p _ _ hpc => rcases hpc with ⟨hpc, -⟩ | ⟨hpc, -⟩ <;> exact hfrom _ hpc rfl
    | _ => exact hfrom _ ‹_› rfl
  · rw [(hs.counted.others uid he).1] at hl
    have hold := hi.mon uid waitReady hstart hl
    cases hs with
    | launch vb procs main₀ main k₀ k =>
      exact forall_updateVm hold (fun _ _ hm => hm) fun vb hu _ he' => absurd (he'.symm.trans hu) he
    | booting vb => exact forall_updateVm hold (fun _ _ hm => hm) fun _ _ hm => hm
    | setReady vb => exact forall_updateVm hold (fun _ _ hm => hm) fun _ _ hm => hm
    | delete vb => exact hdel hl vb.name _
    | giveUp vb => exact hdel hl vb.name _
    | _ => exact hold

theorem launches_thread {h : Host κ} {s s' : Sys κ} {uid : Nat} (hr : Registry s) (hi : Launches s)
    (hs : ThreadMove h s uid s') : Launches s' := by
  have hserver := hs.counted.server
  refine ⟨hserver ▸ hi.builder, hserver ▸ hi.building, hserver ▸ hi.insert, launchable_thread hr hi hs, ?_⟩
  intro u wr he hl
  exact mon_thread hi hs (hserver ▸ he) hl

theorem launches_other {s s' : Sys κ} (hi : Launches s) (hs : OtherMove s s') : Launches s' := by
  cases hs with
  | proc uid f hf =>
    refine ⟨hi.builder, hi.building, hi.insert, forall_updateVm hi.instances (fun _ _ hl => hl) fun _ _ hl => hl.same hf,
      fun u wr he hl => ?_⟩
    refine forall_updateVm (hi.mon u wr he hl) (fun _ _ hm => hm) fun vb _ hm hu => ?_
    have hm := hm (by rw [← hu, hf.uid])
    have hmain := congrArg (Option.any Prod.snd) (hf.main vb)
    simp only [Option.any_map] at hmain
    exact hmain.trans hm
  | vmReady cid uid vb =>
    refine ⟨hi.builder, hi.building, hi.insert,
      forall_updateVm hi.instances (fun _ _ hl => hl) fun _ _ hl => hl.of_kinds rfl rfl, fun u wr he hl => ?_⟩
    exact forall_updateVm (hi.mon u wr he hl) (fun _ _ hm => hm) fun _ _ hm => hm
  | _ => exact ⟨hi.builder, hi.building, hi.insert, hi.instances, hi.mon⟩

theorem launches_step {h : Host κ} {s s' : Sys κ} {a : Act κ} (hr : Registry s) (hi : Launches s)
    (hs : step h s a = some s') : Launches s' := by
  rcases step_move hs with ⟨-, hm⟩ | ⟨uid, -, hm⟩ | hm
  · exact launches_server hr hi hm
  · exact launches_thread hr hi hm
  · exact launches_other hi hm

theorem launches_init (k : κ) : Launches (Sys.init k) :=
  .serve ⟨rfl, rfl⟩ fun _ hm => nomatch hm

/-! ## No thread hangs in `Run` -/

theorem ServerMove.thread {h : Host κ} {s s' : Sys κ} (hs : ServerMove h s s') (uid : Nat) :
    s'.thread uid = s.thread uid ∨ s'.thread uid = .launch := by
  cases hs with
  | quiet s' hc => exact .inl (congrFun hc.thread uid)
  | overwrite name => exact .inl (congrFun (deleteVmInstance_frame h s name).2.1 uid)
  | get pos u env waitReady vb =>
    by_cases he : uid = vb.uid
    · subst he; exact .inr (Function.update_self ..)
    · exact .inl (Function.update_of_ne he ..)
  | _ => exact .inl rfl

/-- A VM that can be launched is launched. -/
theorem Launchable.not_stuck {vb : VmBuilderQemu} {main : VmProcess} (hl : Launchable vb) (h : Host κ) (k : κ)
    (hmain : vb.mainProc = some main) : ¬ ∀ procs k', launchProcs h vb.coProcs k = some (procs, k') →
      main.run h k' = none := by
  intro hno
  obtain ⟨main', procs, k', r, hmain', hprocs, hr⟩ := hl.runs h k
  obtain rfl : main = main' := Option.some.inj (hmain.symm.trans hmain')
  rw [hno procs k' hprocs] at hr
  cases hr

theorem unstuck_step {h : Host κ} {s s' : Sys κ} {a : Act κ} (hi : Launches s) (hu : ∀ uid, s.thread uid ≠ .stuck)
    (hs : step h s a = some s') : ∀ uid, s'.thread uid ≠ .stuck := by
  intro uid
  rcases step_move hs with ⟨-, hm⟩ | ⟨u, -, hm⟩ | hm
  · rcases hm.thread uid with he | he <;> rw [he]
    · exact hu uid
    · exact nofun
  · by_cases he : uid = u
    · subst he
      cases hm with
      | undefined => exact hu uid
      | stuck vb main _ hf hmain hno =>
        exact absurd hno ((hi.instances vb (find_some hf).1).not_stuck h s.world.kernel hmain)
      | lock vb p _ _ hpc => rcases hpc with ⟨-, rfl⟩ | ⟨-, rfl⟩ <;> rw [setThread_self] <;> exact nofun
      | _ => rw [setThread_self]; exact nofun
    · rw [(hm.counted.others uid he).1]
      exact hu uid
  · cases hm <;> exact hu uid

end VmManager
