import VmManager.InstanceMoves
/-!
# Invariants of the states

Three parties write the state of an instance: the builder before it is
registered, its thread, and the listener. The place of the thread says which of
them have done so.
-/
open Text Runs

namespace VmManager

open VmBuilderQemu

variable {κ : Type}

/-- The thread has set `kVmBooting`. -/
def ThreadPc.booted : ThreadPc → Bool
  | none | launch | booting | stuck => false
  | _ => true

/-- The state of a VM whose thread is at `p`. -/
structure BootsAt (p : ThreadPc) (st : VmState) : Prop where
  booted : p.booted = true → st = .booting ∨ st = .running
  before : p.booted = false → st = .empty ∨ st = .created

structure Boots (s : Sys κ) : Prop where
  instances : ∀ vb ∈ s.vmis, BootsAt (s.thread vb.uid) vb.state
  builder : ∀ vb, s.server.builder = some vb →
    (vb.state = .empty ∨ vb.state = .created) ∧ vb.mainProc.all (·.child = .none) = true

theorem BootsAt.of_booted {p p' : ThreadPc} {st : VmState} (hi : BootsAt p st) (hp : p'.booted = p.booted) :
    BootsAt p' st := by
  refine ⟨fun h => hi.booted (hp ▸ h), fun h => hi.before (hp ▸ h)⟩

/-- Neither the instances nor the threads have changed. -/
theorem Boots.serve {s s' : Sys κ} (hi : Boots s) (hv : ∀ vb ∈ s'.vmis, vb ∈ s.vmis) (ht : s'.thread = s.thread)
    (hb : ∀ vb, s'.server.builder = some vb →
      (vb.state = .empty ∨ vb.state = .created) ∧ vb.mainProc.all (·.child = .none) = true) : Boots s' := by
  refine ⟨fun vb hm => ?_, hb⟩
  rw [ht]
  exact hi.instances vb (hv vb hm)

theorem Boots.update {s s' : Sys κ} (hi : Boots s) {uid : Nat} {f : VmBuilderQemu → VmBuilderQemu}
    (hv : s'.vmis = (s.updateVm uid f).vmis) (hserver : s'.server = s.server)
    (hu : ∀ vb, (f vb).uid = vb.uid) (hother : ∀ u, u ≠ uid → s'.thread u = s.thread u)
    (hf : ∀ vb, vb.uid = uid → BootsAt (s.thread uid) vb.state → BootsAt (s'.thread uid) (f vb).state) : Boots s' := by
  refine ⟨?_, hserver ▸ hi.builder⟩
  rw [hv]
  refine forall_updateVm hi.instances (fun vb hne hb => ?_) fun vb he hb => ?_
  · rw [hother vb.uid hne]
    exact hb
  · rw [hu, he]
    exact hf vb he (he ▸ hb)

theorem boots_server {h : Host κ} {s s' : Sys κ} (hr : Registry s) (hi : Boots s) (hs : ServerMove h s s') :
    Boots s' := by
  have hnew : ∀ p vb, s.server = .insert p vb → ∀ vb' ∈ s.vmis ++ [vb], BootsAt (s.thread vb'.uid) vb'.state := by
    intro p vb hpc vb' hm
    rcases List.mem_append.1 hm with hm | hm
    · exact hi.instances vb' hm
    · have hb : s.server.builder = some vb := by rw [hpc]; rfl
      rw [List.mem_singleton.1 hm, (hr.builder vb hb).2.1]
      exact ⟨nofun, fun _ => (hi.builder vb hb).1⟩
  cases hs with
  | undefined => exact ⟨hi.instances, hi.builder⟩
  | quiet s' hc _ hq _ => exact hi.serve (hc.vmis ▸ fun _ hm => hm) hc.thread fun vb he => absurd he (hq.no_builder vb)
  | stop name id vb hpc hv =>
    refine ⟨fun vb' hm => ?_, fun _ he => nomatch he⟩
    rcases List.mem_or_eq_of_mem_set hm with hm | rfl
    · exact hi.instances vb' hm
    · exact hi.instances vb (List.mem_of_getElem? (vmAt_get hv))
  | create p name cfg =>
    refine hi.serve (fun _ hm => hm) rfl fun vb he => ?_
    cases he
    exact ⟨.inl rfl, rfl⟩
  | lock => exact hi.serve (fun _ hm => hm) rfl fun _ he => nomatch he
  | overwrite name cfg =>
    refine hi.serve (fun _ => mem_of_mem_delete) (deleteVmInstance_frame h s name).2.1 fun vb he => ?_
    cases he
    exact ⟨.inl rfl, rfl⟩
  | build p vb vb' w i st q hpc hst hq =>
    refine hi.serve (fun _ hm => hm) rfl fun vb'' he => ?_
    have hb : q.builder = some vb' := build_builder hq
    obtain rfl := Option.some.inj (hb.symm.trans he)
    obtain ⟨hstate, hchild⟩ := hi.builder vb (by rw [hpc]; rfl)
    constructor
    · rcases (build_all (buildSteps_cidStep hst vb s.world) hq).same.state with hs | hs <;> rw [hs]
      · exact hstate
      · exact .inr rfl
    · rcases build_all (buildSteps_main hst vb s.world) hq with hm | ⟨kind, hm⟩ <;> rw [hm]
      · exact hchild
      · rfl
  | hang => exact hi.serve (fun _ hm => hm) rfl fun _ he => nomatch he
  | built p vb i hpc =>
    refine hi.serve (fun _ hm => hm) rfl fun vb' he => ?_
    cases he
    exact hi.builder vb (by rw [hpc]; rfl)
  | insertImport vb hpc => exact ⟨hnew _ vb hpc, fun _ he => nomatch he⟩
  | insertStart vb env waitReady hpc => exact ⟨hnew _ vb hpc, fun _ he => nomatch he⟩
  | drop vb q hq =>
    refine hi.serve (fun _ hm => hm) rfl fun vb' he => ?_
    rcases hq with ⟨-, rfl⟩ | ⟨e, -, rfl⟩ <;> cases he
  | get pos uid env waitReady vb hpc hv =>
    obtain ⟨-, hnone, -, hu⟩ := hr.got pos uid env waitReady hpc
    obtain rfl := hu vb hv
    refine ⟨forall_updateVm hi.instances (fun vb' hne hb => ?_) fun vb' he hb => ?_, fun _ he => nomatch he⟩
    · change BootsAt (Function.update s.thread vb.uid .launch vb'.uid) vb'.state
      rw [Function.update_of_ne hne]
      exact hb
    · change BootsAt (Function.update s.thread vb.uid .launch vb'.uid) vb'.state
      rw [he, Function.update_self]
      rw [he, hnone] at hb
      exact hb.of_booted rfl
  | pass => exact hi.serve (fun _ hm => hm) rfl fun _ he => nomatch he
  | answer => exact hi.serve (fun _ hm => hm) rfl fun _ he => nomatch he

theorem boots_thread {h : Host κ} {s s' : Sys κ} {uid : Nat} (hr : Registry s) (hl : Launches s) (hi : Boots s)
    (hs : ThreadMove h s uid s') : Boots s' := by
  have hother : ∀ u, u ≠ uid → s'.thread u = s.thread u := fun u hu => (hs.counted.others u hu).1
  -- The thread moves on and its VM is as it was.
  have hmove : s'.vmis = s.vmis → (s'.thread uid).booted = (s.thread uid).booted → Boots s' := by
    intro hv hb
    refine ⟨fun vb hm => ?_, hs.counted.server ▸ hi.builder⟩
    have hold := hi.instances vb (hv ▸ hm)
    by_cases he : vb.uid = uid
    · rw [he] at hold ⊢
      exact hold.of_booted hb
    · rw [hother vb.uid he]
      exact hold
  have hfrom : ∀ {p p' : ThreadPc}, s.thread uid = p → p'.booted = p.booted → p'.booted = (s.thread uid).booted :=
    fun hp hb => hp ▸ hb
  have hdel : ∀ vb, s.find uid = some vb → s'.vmis = (deleteVmInstance h s vb.name).vmis → Boots s' := by
    intro vb hf hv
    obtain ⟨hm, rfl⟩ := find_some hf
    refine ⟨fun vb' hm' => ?_, hs.counted.server ▸ hi.builder⟩
    rw [hv, (deleteVmInstance_deleted h hr hm).mem] at hm'
    rw [hother vb'.uid hm'.2]
    exact hi.instances vb' hm'.1
  cases hs with
  | undefined => exact ⟨hi.instances, hi.builder⟩
  | noMain vb hpc hf hnone =>
    obtain ⟨main, cmd, hmain, -⟩ := (hl.instances vb (find_some hf).1).main
    rw [hnone] at hmain
    cases hmain
  | launch vb procs main₀ main k₀ k hpc =>
    refine hi.update rfl rfl (fun _ => rfl) hother fun vb' he hb => ?_
    exact hb.of_booted (by rw [setThread_self, hpc]; rfl)
  | booting vb hpc =>
    refine hi.update rfl rfl (fun _ => rfl) hother fun vb' he hb => ?_
    rw [setThread_self]
    exact ⟨fun _ => .inl rfl, nofun⟩
  | setReady vb hpc =>
    refine hi.update rfl rfl (fun _ => rfl) hother fun vb' he hb => ?_
    rw [setThread_self]
    exact ⟨fun _ => .inr rfl, nofun⟩
  | delete vb hpc hf => exact hdel vb hf rfl
  | giveUp vb hpc hf => exact hdel vb hf rfl
  | exited vb hf hpc =>
    refine hmove rfl ?_
    rw [setThread_self]
    rcases hpc with ⟨hpc, -⟩ | ⟨hpc, -⟩ <;> exact hfrom hpc rfl
  | lock vb p hf _ hpc =>
    refine hmove rfl ?_
    rw [setThread_self]
    rcases hpc with ⟨hpc, rfl⟩ | ⟨hpc, rfl⟩ <;> exact hfrom hpc rfl
  | _ =>
    refine hmove rfl ?_
    rw [setThread_self]
    apply hfrom
    · assumption
    · rfl

theorem boots_other {s s' : Sys κ} (ht : Threads s) (hi : Boots s) (hs : OtherMove s s') : Boots s' := by
  cases hs with
  | proc uid f hf =>
    refine hi.update rfl rfl hf.uid (fun _ _ => rfl) fun vb _ hb => ?_
    rw [hf.state]
    exact hb
  | vmReady cid uid vb hp =>
    -- A thread enrols its VM after it has set the state.
    have hun := ht.enrolled cid uid hp
    have hbooted : (s.thread uid).booted = true := by
      cases hpc : s.thread uid <;> rw [hpc] at hun <;> first | rfl | cases hun
    refine hi.update rfl rfl (fun _ => rfl) (fun _ _ => rfl) fun vb' _ _ => ⟨fun _ => .inr rfl, fun hb => ?_⟩
    exact absurd (hbooted.symm.trans hb) nofun
  | _ => exact ⟨hi.instances, hi.builder⟩

theorem boots_step {h : Host κ} {s s' : Sys κ} {a : Act κ} (hr : Registry s) (ht : Threads s) (hl : Launches s)
    (hi : Boots s) (hs : step h s a = some s') : Boots s' := by
  rcases step_move hs with ⟨-, hm⟩ | ⟨uid, -, hm⟩ | hm
  · exact boots_server hr hi hm
  · exact boots_thread hr hl hi hm
  · exact boots_other ht hi hm

theorem boots_init (k : κ) : Boots (Sys.init k) := ⟨fun _ hm => (nomatch hm), fun _ he => nomatch he⟩

/-- What holds of the instances in every state that a run of the server
reaches. -/
structure Instances (s : Sys κ) : Prop where
  registry : Registry s
  threads : Threads s
  launches : Launches s
  boots : Boots s

theorem instances_step {h : Host κ} {s s' : Sys κ} {a : Act κ} (hi : Instances s) (hs : step h s a = some s') :
    Instances s' :=
  ⟨registry_step hi.registry hs, threads_step hi.registry hi.threads hs, launches_step hi.registry hi.launches hs,
    boots_step hi.registry hi.threads hi.launches hi.boots hs⟩

theorem instances_init (k : κ) : Instances (Sys.init k) :=
  ⟨registry_init k, threads_init k, launches_init k, boots_init k⟩

end VmManager
