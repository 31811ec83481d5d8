import VmManager.Lib.Fleet
import VmManager.ListenerTheorems
import VmManager.ManagerTheorems
import VmManager.StateInvariants
/-!
# The VMs as a fleet

What the server thread, the VM threads and the listener do to `vmis_` between
them, seen as a fleet: VMs join under names that are free, go from created over
booting to running, and leave for good.
-/
open Runs

namespace VmManager

open VmBuilderQemu

variable {κ : Type} {h : Host κ} {s s' : Sys κ} {a : Act κ}

/-- A VM joins before it boots, and the states follow each other. -/
def stateCourse : Fleet.Course VmState where
  first st := st = .empty ∨ st = .created
  next st st' := ((st = .empty ∨ st = .created) ∧ st' = .booting) ∨ (st = .booting ∧ st' = .running)

/-- The VMs in `vmis_`. The uid of a builder that a handler still owns is not
taken yet. -/
def fleet (s : Sys κ) : Fleet Nat String VmState where
  member uid := (s.find uid).map fun vb => (vb.name, vb.state)
  taken := {uid | uid < s.nextUid ∧ ∀ vb, s.server.builder = some vb → vb.uid ≠ uid}

/-- Who does it, and what gives him the right to: the handlers of `ImportVm` and
`StartVm`, the VM's own thread, or a guest that `AddPendingVM` has let in. -/
def Entitled (s : Sys κ) (a : Act κ) : Fleet.Event Nat String VmState → Prop
  | .join uid name st => a = .server ∧ ∃ p vb, s.server = .insert p vb ∧ vb.uid = uid ∧ vb.name = name ∧ vb.state = st
  | .advance uid st => a = .thread uid ∨
      ∃ peer cid, a = .vmReady peer ∧ parsePeer peer = some cid ∧ s.pending cid = some uid ∧ st = .running
  | .leave uid => a = .thread uid ∨
      (a = .server ∧ ∃ cfg vb, s.server = .importDelete cfg vb.name ∧ s.find uid = some vb)
  | .waste uid => a = .server ∧ ∃ vb, s.server.builder = some vb ∧ vb.uid = uid

/-- The action shows as one event of the fleet, or as none. -/
def Shows (s : Sys κ) (a : Act κ) (s' : Sys κ) : Prop :=
  fleet s' = fleet s ∨ ∃ e, Entitled s a e ∧ Fleet.step stateCourse (fleet s) e = some (fleet s')

theorem fleet_eq {m : Nat → Option (String × VmState)} {t : Set Nat}
    (hm : ∀ u, ((s'.find u).map fun vb => (vb.name, vb.state)) = m u)
    (ht : ∀ u, u ∈ t ↔ u < s'.nextUid ∧ ∀ vb, s'.server.builder = some vb → vb.uid ≠ u) : fleet s' = ⟨m, t⟩ := by
  unfold fleet
  congr
  · exact funext hm
  · exact (Set.ext ht).symm

/-- What the fleet shows of an instance. -/
def VmBuilderQemu.face (vb : VmBuilderQemu) : Nat × String × VmState := (vb.uid, vb.name, vb.state)

theorem member_eq (s : Sys κ) (u : Nat) :
    (fleet s).member u = ((s.vmis.map face).find? (·.1 = u)).map (·.2) := by
  rw [List.find?_map, Option.map_map]
  rfl

/-- What the fleet is told by. -/
theorem fleet_congr (hv : s'.vmis.map face = s.vmis.map face) (hn : s'.nextUid = s.nextUid)
    (hb : s'.server.builder.map (·.uid) = s.server.builder.map (·.uid)) : fleet s' = fleet s := by
  refine fleet_eq (fun u => ?_) fun u => ?_
  · calc (fleet s').member u = ((s'.vmis.map face).find? (·.1 = u)).map (·.2) := member_eq s' u
      _ = (fleet s).member u := by rw [hv, ← member_eq]
  · have huid : ∀ b : Option VmBuilderQemu, (∀ vb, b = some vb → vb.uid ≠ u) ↔ b.map (·.uid) ≠ some u := by
      intro b
      cases b <;> simp
    rw [huid, hb, hn, ← huid]
    exact Iff.rfl

theorem Registry.find_iff (hr : Registry s) {u : Nat} {vb : VmBuilderQemu} :
    s.find u = some vb ↔ vb ∈ s.vmis ∧ vb.uid = u := by
  refine ⟨find_some, fun ⟨hm, hu⟩ => ?_⟩
  rw [← hu]
  exact hr.find hm

/-- The state of one VM is set. -/
theorem fleet_advance {uid : Nat} {vb : VmBuilderQemu} {st : VmState} (hf : s.find uid = some vb)
    (hv : s'.vmis = (s.updateVm uid ({ · with state := st })).vmis) (hn : s'.nextUid = s.nextUid)
    (hb : s'.server = s.server) : fleet s' = (fleet s).apply (.advance uid st) := by
  refine fleet_eq (fun u => ?_) fun u => by rw [hn, hb]; exact Iff.rfl
  have hfind : s'.find u = (s.updateVm uid ({ · with state := st })).find u := by rw [Sys.find, hv]; rfl
  rw [hfind, find_updateVm (f := ({ · with state := st })) s u uid fun _ => rfl]
  by_cases he : u = uid
  · subst he
    simp [fleet, hf, (find_some hf).2]
  · rw [Function.update_of_ne he, Option.map_map]
    cases hu : s.find u with
    | none => simp [fleet, hu]
    | some vb' => simp [fleet, hu, (find_some hu).2, he]

/-- An advance that the course allows, or none at all. -/
theorem shows_advance {uid : Nat} {vb : VmBuilderQemu} {st : VmState} (hf : s.find uid = some vb)
    (hv : s'.vmis = (s.updateVm uid ({ · with state := st })).vmis) (hn : s'.nextUid = s.nextUid)
    (hb : s'.server = s.server) (he : Entitled s a (.advance uid st))
    (hst : vb.state = st ∨ stateCourse.next vb.state st) : Shows s a s' := by
  have heq := fleet_advance hf hv hn hb
  have hmem : (fleet s).member uid = some (vb.name, vb.state) := by simp [fleet, hf]
  rcases hst with rfl | hnext
  · exact .inl (heq.trans (Fleet.apply_advance_self hmem))
  · exact .inr ⟨_, he, Fleet.step_eq.2 ⟨⟨_, _, hmem, hnext⟩, heq.symm⟩⟩

/-- A VM is removed. -/
theorem shows_leave (hr : Registry s) (hr' : Registry s') {vb : VmBuilderQemu} (hf : s.find vb.uid = some vb)
    (hv : ∀ vb', vb' ∈ s'.vmis ↔ vb' ∈ s.vmis ∧ vb'.uid ≠ vb.uid)
    (ht : ∀ u, u ∈ (fleet s).taken ↔ u ∈ (fleet s').taken) (he : Entitled s a (.leave vb.uid)) : Shows s a s' := by
  have hallowed : Fleet.Allowed stateCourse (fleet s) (.leave vb.uid) := by
    change (s.find vb.uid).map _ ≠ none
    rw [hf]
    exact Option.some_ne_none _
  refine .inr ⟨_, he, Fleet.step_eq.2 ⟨hallowed, ((fleet_eq fun u => ?_) ht).symm⟩⟩
  by_cases hu : u = vb.uid
  · rw [hu, Function.update_self, Option.map_eq_none_iff]
    refine Option.eq_none_iff_forall_not_mem.2 fun vb' hf' => ?_
    obtain ⟨hm, hu'⟩ := find_some hf'
    exact ((hv vb').1 hm).2 hu'
  · rw [Function.update_of_ne hu]
    refine congrArg (Option.map _) (Option.ext fun vb' => ?_)
    rw [hr'.find_iff, hr.find_iff, hv]
    constructor
    · exact fun hm => ⟨hm.1.1, hm.2⟩
    · exact fun hm => ⟨⟨hm.1, fun he => hu (hm.2.symm.trans he)⟩, hm.2⟩

/-- The uid of a builder that is no longer owned is taken. -/
theorem taken_builder (hr : Registry s) {vb : VmBuilderQemu} (hb : s.server.builder = some vb)
    (hn : s'.nextUid = s.nextUid) (hb' : s'.server.builder = none) (u : Nat) :
    u ∈ insert vb.uid (fleet s).taken ↔ u < s'.nextUid ∧ ∀ vb', s'.server.builder = some vb' → vb'.uid ≠ u := by
  rw [hn, hb']
  constructor
  · rintro (rfl | ⟨hu, -⟩)
    · exact ⟨(hr.builder vb hb).1, fun _ he => (by cases he)⟩
    · exact ⟨hu, fun _ he => (by cases he)⟩
  · rintro ⟨hu, -⟩
    by_cases he : u = vb.uid
    · exact .inl he
    · refine .inr ⟨hu, fun vb' he' => ?_⟩
      obtain rfl := Option.some.inj (hb.symm.trans he')
      exact Ne.symm he

/-- A VM is inserted. -/
theorem shows_join (hr : Registry s) (hr' : Registry s') {p : Purpose} {vb : VmBuilderQemu} (ha : a = .server)
    (hpc : s.server = .insert p vb) (hst : stateCourse.first vb.state) (hv : s'.vmis = s.vmis ++ [vb])
    (hn : s'.nextUid = s.nextUid) (hb : s'.server.builder = none) : Shows s a s' := by
  have hbuilder : s.server.builder = some vb := by rw [hpc]; rfl
  obtain ⟨-, -, -, hfree⟩ := hr.builder vb hbuilder
  have hallowed : Fleet.Allowed stateCourse (fleet s) (.join vb.uid vb.name vb.state) := by
    refine ⟨fun ht => ht.2 vb hbuilder rfl, fun u st hm => ?_, hst⟩
    obtain ⟨vb', hf, he⟩ := Option.map_eq_some_iff.1 hm
    exact (hfree vb' (find_some hf).1).2 (Prod.mk.inj he).1
  refine .inr ⟨.join vb.uid vb.name vb.state, ⟨ha, p, vb, hpc, rfl, rfl, rfl⟩,
    Fleet.step_eq.2 ⟨hallowed, ((fleet_eq fun u => ?_) (taken_builder hr hbuilder hn hb)).symm⟩⟩
  by_cases hu : u = vb.uid
  · rw [hu, Function.update_self, hr'.find (hv ▸ List.mem_append_right _ (List.mem_singleton.2 rfl))]
    rfl
  · rw [Function.update_of_ne hu]
    refine congrArg (Option.map _) (Option.ext fun vb' => ?_)
    rw [hr'.find_iff, hr.find_iff, hv, List.mem_append, List.mem_singleton]
    constructor
    · rintro ⟨hm | rfl, hu'⟩
      · exact ⟨hm, hu'⟩
      · exact absurd hu'.symm hu
    · exact fun ⟨hm, hu'⟩ => ⟨.inl hm, hu'⟩

/-- A builder is given up. -/
theorem shows_waste (hr : Registry s) {vb : VmBuilderQemu} (ha : a = .server) (hb : s.server.builder = some vb)
    (hv : s'.vmis = s.vmis) (hn : s'.nextUid = s.nextUid) (hb' : s'.server.builder = none) : Shows s a s' := by
  refine .inr ⟨.waste vb.uid, ⟨ha, vb, hb, rfl⟩, Fleet.step_eq.2 ⟨fun ht => ht.2 vb hb rfl,
    ((fleet_eq fun u => ?_) (taken_builder hr hb hn hb')).symm⟩⟩
  rw [Sys.find, hv]
  rfl

/-- A builder that is begun takes its uid when it is done. -/
theorem taken_startBuild (hb : s.server.builder = none) (p : Purpose) (name : String) (cfg : CivConfig) (u : Nat) :
    u ∈ (fleet s).taken ↔ u ∈ (fleet (startBuild s p name cfg)).taken := by
  change (u < s.nextUid ∧ ∀ vb, s.server.builder = some vb → vb.uid ≠ u) ↔
    u < s.nextUid + 1 ∧ ∀ vb, some ({ uid := s.nextUid, name, cfg } : VmBuilderQemu) = some vb → vb.uid ≠ u
  rw [hb]
  constructor
  · rintro ⟨hlt, -⟩
    refine ⟨Nat.lt_succ_of_lt hlt, fun vb he => ?_⟩
    cases he
    exact Nat.ne_of_gt hlt
  · rintro ⟨hlt, hne⟩
    have := hne _ rfl
    dsimp only at this
    exact ⟨by omega, fun _ he => (by cases he)⟩

/-! ## Every step -/

theorem shows_server (hi : Instances s) (hr' : Registry s') (ha : a = .server ∨ s.server = .loop)
    (hm : ServerMove h s s') : Shows s a s' := by
  have hact : s.server ≠ .loop → a = .server := fun hn => ha.resolve_right hn
  have hfirst : ∀ vb, s.server.builder = some vb → stateCourse.first vb.state := fun vb hb => (hi.boots.builder vb hb).1
  cases hm with
  | undefined => exact .inl rfl
  | quiet s' hc hp hq => exact .inl (fleet_congr (by rw [hc.vmis]) hc.nextUid (by rw [hp.1, hq.1]))
  | stop name id vb hpc hv => exact .inl (fleet_congr (map_set_of (vmAt_get hv) rfl) rfl (by rw [hpc]; rfl))
  | lock name cfg hpc => exact .inl (fleet_congr rfl rfl (by rw [hpc]; rfl))
  | create p name cfg hp =>
    refine .inl (fleet_eq (fun _ => rfl) fun u => ?_)
    exact taken_startBuild hp.1 p name cfg u
  | overwrite name cfg hpc =>
    have hact := hact (by rw [hpc]; exact fun he => by cases he)
    have htaken := fun u => taken_startBuild (s := deleteVmInstance h s name)
      (by rw [(deleteVmInstance_frame h s name).1, hpc]; rfl) .import name cfg u
    have hsame : (fleet (deleteVmInstance h s name)).taken = (fleet s).taken := by
      unfold fleet
      rw [(deleteVmInstance_frame h s name).1, deleteVmInstance_nextUid]
    rw [hsame] at htaken
    rcases deleteVmInstance_cases h s name with ⟨-, he⟩ | ⟨id, vb, -, hv, rfl, -⟩
    · rw [he] at htaken ⊢
      exact .inl (fleet_eq (fun _ => rfl) htaken)
    · have hm := List.mem_of_getElem? hv
      exact shows_leave hi.registry hr' (hi.registry.find hm) (deleteVmInstance_deleted h hi.registry hm).mem htaken
        (.inr ⟨hact, cfg, vb, hpc, hi.registry.find hm⟩)
  | build p vb vb' w i st q hpc hst hq =>
    have hu := (build_all (buildSteps_cidStep hst vb s.world) hq).same.uid
    refine .inl (fleet_congr rfl rfl ?_)
    change q.builder.map _ = _
    rw [hpc, build_builder hq]
    exact congrArg some hu
  | hang p vb w i st hpc =>
    exact shows_waste hi.registry (hact (by rw [hpc]; exact fun he => by cases he)) (by rw [hpc]; rfl) rfl rfl rfl
  | built p vb i hpc => exact .inl (fleet_congr rfl rfl (by rw [hpc]; rfl))
  | insertImport vb hpc =>
    exact shows_join hi.registry hr' (hact (by rw [hpc]; exact fun he => by cases he)) hpc
      (hfirst vb (by rw [hpc]; rfl)) rfl rfl rfl
  | insertStart vb env waitReady hpc =>
    exact shows_join hi.registry hr' (hact (by rw [hpc]; exact fun he => by cases he)) hpc
      (hfirst vb (by rw [hpc]; rfl)) rfl rfl rfl
  | drop vb q hq =>
    rcases hq with ⟨hpc, rfl⟩ | ⟨e, hpc, rfl⟩
    · exact shows_waste hi.registry (hact (by rw [hpc]; exact fun he => by cases he)) (by rw [hpc]; rfl) rfl rfl rfl
    · exact shows_waste hi.registry (hact (by rw [hpc]; exact fun he => by cases he)) (by rw [hpc]; rfl) rfl rfl rfl
  | get pos uid env waitReady vb hpc hv =>
    exact .inl (fleet_congr (updateVm_map s vb.uid fun _ => rfl) rfl (by rw [hpc]; rfl))
  | pass uid waitReady hpc => exact .inl (fleet_congr rfl rfl (by rw [hpc]; rfl))
  | answer uid waitReady vb hpc => exact .inl (fleet_congr rfl rfl (by rw [hpc]; rfl))

theorem shows_thread {uid : Nat} (hi : Instances s) (hr' : Registry s') (ha : a = .thread uid)
    (hm : ThreadMove h s uid s') : Shows s a s' := by
  have hdelete : ∀ {vb p}, s.find uid = some vb → s' = (deleteVmInstance h s vb.name).setThread uid p →
      Shows s a s' := by
    rintro vb p hf rfl
    obtain ⟨hv, rfl⟩ := find_some hf
    refine shows_leave hi.registry hr' hf (deleteVmInstance_deleted h hi.registry hv).mem (fun u => ?_) (.inl ha)
    change _ ↔ u < (deleteVmInstance h s vb.name).nextUid ∧
      ∀ v, (deleteVmInstance h s vb.name).server.builder = some v → v.uid ≠ u
    rw [(deleteVmInstance_frame h s vb.name).1, deleteVmInstance_nextUid]
    exact Iff.rfl
  cases hm with
  | launch vb procs main₀ main k₀ k => exact .inl (fleet_congr (updateVm_map s uid fun _ => rfl) rfl rfl)
  | booting vb hpc hf =>
    have hbefore := (hi.boots.instances vb (find_some hf).1).before (by rw [(find_some hf).2, hpc]; rfl)
    exact shows_advance hf rfl rfl rfl (.inl ha) (.inr (.inl ⟨hbefore, rfl⟩))
  | setReady vb hpc hf =>
    have hbooted := (hi.boots.instances vb (find_some hf).1).booted (by rw [(find_some hf).2, hpc]; rfl)
    exact shows_advance hf rfl rfl rfl (.inl ha) (hbooted.symm.imp_right fun hst => .inr ⟨hst, rfl⟩)
  | delete vb hpc hf => exact hdelete hf rfl
  | giveUp vb hpc hf => exact hdelete hf rfl
  | _ => exact .inl rfl

theorem ThreadPc.booted_of_ready {p : ThreadPc} (hp : p.unready = false) : p.booted = true := by
  cases p <;> first | rfl | cases hp

theorem shows_rpc {peer : String} (hi : Instances s) (ha : a = .vmReady peer) : Shows s a (rpcVmReady s peer).2 := by
  unfold rpcVmReady
  by_cases hp : ∀ cid, parsePeer peer = some cid → s.pending cid = none
  · obtain ⟨msg, he⟩ := vmReady_unknown hp
    rw [he]
    exact .inl rfl
  · push Not at hp
    obtain ⟨cid, hc, hne⟩ := hp
    obtain ⟨uid, hp⟩ := Option.ne_none_iff_exists'.1 hne
    rw [vmReady_known hc hp]
    dsimp only
    cases hf : s.find uid with
    | none => exact .inl rfl
    | some vb =>
      obtain ⟨hm, rfl⟩ := find_some hf
      -- A thread enrols its VM after it has set the state.
      have hbooted := (hi.boots.instances vb hm).booted (ThreadPc.booted_of_ready (hi.threads.enrolled cid _ hp))
      exact shows_advance hf rfl rfl rfl (.inr ⟨peer, cid, ha, hc, hp, rfl⟩)
        (hbooted.symm.imp_right fun hst => .inr ⟨hst, rfl⟩)

theorem onProc_face (i : Nat) (f : VmProcess → VmProcess) (vb : VmBuilderQemu) : (onProc i f vb).face = vb.face := by
  cases i <;> rfl

theorem shows_step (hi : Instances s) (hs : step h s a = some s') : Shows s a s' := by
  have hr' := registry_step hi.registry hs
  unfold step at hs
  split at hs
  · cases hs
  · split at hs
    · refine shows_server (h := h) hi hr' (.inr ?_) (recv_move hs)
      unfold recv at hs
      split at hs
      · assumption
      · cases hs
    · exact shows_server hi hr' (.inl rfl) (serverStep_move hs)
    · exact shows_thread hi hr' rfl (threadStep_move hs)
    · cases hs
      exact .inl (fleet_congr (updateVm_map s _ (onProc_face _ VmProcess.exits)) rfl rfl)
    · cases hs
      exact .inl (fleet_congr (updateVm_map s _ (onProc_face _ VmProcess.attaches)) rfl rfl)
    · cases hs
      exact shows_rpc hi rfl
    · cases hs
      exact .inl rfl

/-- The server shows as a fleet. -/
theorem simulates_fleet (h : Host κ) : SimulatesOn Instances (step h) (Fleet.step stateCourse) fleet where
  keeps _ _ _ hi hs := instances_step hi hs
  shows s a s' hi hs := by
    rcases shows_step hi hs with he | ⟨e, -, he⟩
    · exact ⟨[], congrArg some he.symm⟩
    · exact ⟨[e], Manager.run_one he⟩

theorem fleet_init (k : κ) : fleet (Sys.init k) = Fleet.empty :=
  fleet_eq (fun _ => rfl) fun u => ⟨fun hu => hu.elim, fun hu => absurd hu.1 (Nat.not_lt_zero u)⟩

theorem reachable_instances {k : κ} (hr : Reachable (step h) (Sys.init k) s) : Instances s :=
  hr.keeps (I := Instances) (fun _ _ _ hi hs => instances_step hi hs) (instances_init k)

theorem reachable_sound {k : κ} (hr : Reachable (step h) (Sys.init k) s) : Fleet.Sound (fleet s) :=
  (fleet_init k ▸ Fleet.sound_empty).reachable ((simulates_fleet h).reachable (instances_init k) hr)

end VmManager

/-! ## The whole manager -/

namespace VmManager.Manager

variable {κ : Type} {h : Host κ} {s s' : State κ} {k₀ : κ}

theorem sys_of_handler (hs : handlerStep h s = some s') : VmManager.step h s.sys .server = some s'.sys := by
  unfold handlerStep at hs
  split at hs
  · cases hs
  · cases hs
  · cases hs
  · obtain ⟨sys, hsys, hs⟩ := Option.bind_eq_some_iff.1 hs
    obtain ⟨m, -, rfl⟩ := Option.map_eq_some_iff.1 hs
    exact hsys
  · obtain ⟨sys, hsys, hs⟩ := Option.bind_eq_some_iff.1 hs
    split at hs
    · obtain ⟨m, -, rfl⟩ := Option.map_eq_some_iff.1 hs
      exact hsys
    · cases hs
      exact hsys

theorem fleet_of_recv {x x' : Sys κ} {r : Request} (hs : VmManager.step h x (.recv r) = some x') :
    fleet x' = fleet x := by
  unfold VmManager.step at hs
  split at hs
  · cases hs
  · simp only [recv] at hs
    split at hs <;> cases hs
    rename_i hpc
    refine fleet_congr rfl rfl ?_
    rw [hpc]
    cases r <;> rfl

/-- Between the handlers the fleet does not change. -/
theorem fleet_of_loop (hs : loopStep h s = some s') : fleet s'.sys = fleet s.sys := by
  obtain ⟨m, -, hs⟩ := Option.bind_eq_some_iff.1 hs
  split at hs
  · unfold enterHandler at hs
    split at hs
    · obtain ⟨m', -, rfl⟩ := Option.map_eq_some_iff.1 hs
      rfl
    · cases hs
    · obtain ⟨sys, hsys, rfl⟩ := Option.map_eq_some_iff.1 hs
      exact fleet_of_recv hsys
  · rename_i hpc
    obtain ⟨sys, hsys, rfl⟩ := Option.map_eq_some_iff.1 hs
    have hsys := serverStep_of_step hsys
    simp only [serverStep, hpc, Option.some.injEq] at hsys
    subst hsys
    exact fleet_congr rfl rfl (by rw [hpc]; rfl)
  · cases hs
    rfl

/-- Only the handlers, the VM threads and the listener change the fleet. -/
theorem sys_of_step {a : Act κ} (hs : step h s a = some s') :
    fleet s'.sys = fleet s.sys ∨ ∃ b, a = .sys b ∧ VmManager.step h s.sys b = some s'.sys := by
  unfold step at hs
  split at hs
  · split at hs <;> cases hs
    exact .inl rfl
  · split at hs
    · cases hs
    · split at hs
      · cases hs
      · split at hs <;> cases hs <;> exact .inl rfl
  · split at hs <;> cases hs
    exact .inl rfl
  · unfold call at hs
    split at hs
    · cases hs
    · split at hs
      · cases hs
      · obtain ⟨m, -, rfl⟩ := Option.map_eq_some_iff.1 hs
        exact .inl rfl
  · exact .inl (fleet_of_loop hs)
  · cases hs
  · obtain ⟨m, -, rfl⟩ := Option.map_eq_some_iff.1 hs
    exact .inl rfl
  · exact .inr ⟨_, rfl, sys_of_handler hs⟩
  · cases hs
  · obtain ⟨sys, hsys, rfl⟩ := Option.map_eq_some_iff.1 hs
    exact .inr ⟨_, rfl, hsys⟩

/-- However clients, handlers, VM threads and guests interleave, the VMs are a
fleet: every step is at most one event of it, by someone entitled to it. So a VM
that has gone never comes back, one that stays keeps its name and its state
goes along the course, and its name comes to another only when it has gone. -/
theorem vms_are_a_fleet (hr : Reachable (step h) (init k₀) s) :
    (∀ a s', step h s a = some s' → fleet s'.sys = fleet s.sys ∨ ∃ b e, a = .sys b ∧ Entitled s.sys b e ∧
      Fleet.step stateCourse (fleet s.sys) e = some (fleet s'.sys)) ∧
    ∀ s', Reachable (step h) s s' → ∀ uid,
      (s.sys.find uid = none → uid ∈ (fleet s.sys).taken → s'.sys.find uid = none) ∧
      ∀ vb, s.sys.find uid = some vb →
        (∀ vb', s'.sys.find uid = some vb' →
          vb'.name = vb.name ∧ Relation.ReflTransGen stateCourse.next vb.state vb'.state) ∧
        ∀ vb' ∈ s'.sys.vmis, vb'.name = vb.name → vb'.uid ≠ uid → s'.sys.find uid = none := by
  have hsys := reachable_sys hr
  have hi := reachable_instances hsys
  have hsound := reachable_sound hsys
  have hmem : ∀ {x : Sys κ} {u : Nat} {vb : VmBuilderQemu}, x.find u = some vb →
      (fleet x).member u = some (vb.name, vb.state) := fun hf => by simp [fleet, hf]
  have hnone : ∀ {x : Sys κ} {u : Nat}, (fleet x).member u = none ↔ x.find u = none := Option.map_eq_none_iff
  refine ⟨fun a s' hs => ?_, fun s' hr' uid => ?_⟩
  · rcases sys_of_step hs with he | ⟨b, rfl, hb⟩
    · exact .inl he
    · exact (shows_step hi hb).imp_right fun ⟨e, hent, he⟩ => ⟨b, e, rfl, hent, he⟩
  · have hsys' := (simulates_sys h).reachable hr'
    have hi' := reachable_instances (hsys.trans hsys')
    have hfleet := (simulates_fleet h).reachable hi hsys'
    refine ⟨fun hn ht => ?_, fun vb hf => ⟨fun vb' hf' => ?_, fun vb' hm' hname hne => ?_⟩⟩
    · exact hnone.1 (Fleet.stays_gone hfleet ht (hnone.2 hn))
    · exact Fleet.goes_along hsound hfleet (hmem hf) (hmem hf')
    · have hf' := hmem (hi'.registry.find hm')
      rw [hname] at hf'
      exact hnone.1 (Fleet.name_passes_on hsound hfleet (hmem hf) hf' hne)

/-- Process 7 starts `a`, whose emulator exits; its thread is about to delete it. -/
def aExits : List (Act Unit) :=
  [.construct 7, .prepare 7 (.start "/a.ini" [] 2), .mail (.notify 7 .startVm)] ++
    List.replicate 7 (.mail (.client 7)) ++ List.replicate 4 (.mail .server) ++ List.replicate 32 (.sys .server) ++
    [.sys (.thread 0), .sys (.attach 0 0)] ++ List.replicate 4 (.sys (.thread 0)) ++
    [.sys (.exit 0 0), .sys (.thread 0), .sys (.thread 0)]

theorem vms_are_a_fleet_exit : ∃ s s' e, run (step twoVmHost) (init ()) aExits = some s ∧
    step twoVmHost s (.sys (.thread 0)) = some s' ∧ (fleet s.sys).member 0 = some ("a", .running) ∧
    (fleet s'.sys).member 0 = none ∧ Entitled s.sys (.thread 0) e ∧
    Fleet.step stateCourse (fleet s.sys) e = some (fleet s'.sys) := by
  have he : (run (step twoVmHost) (init ()) aExits).bind (fun s =>
      (step twoVmHost s (.sys (.thread 0))).map fun s' => ((fleet s.sys).member 0, (fleet s'.sys).member 0)) =
      some (some ("a", .running), none) := by decide +kernel
  obtain ⟨s, hs, he⟩ := Option.bind_eq_some_iff.1 he
  obtain ⟨s', hs', he⟩ := Option.map_eq_some_iff.1 he
  obtain ⟨hm, hm'⟩ := Prod.mk.inj he
  rcases (vms_are_a_fleet ⟨_, hs⟩).1 _ s' hs' with hsame | ⟨b, e, ha, hent, hstep⟩
  · rw [hsame, hm] at hm'
    cases hm'
  · cases ha
    exact ⟨s, s', e, hs, hs', hm, hm', hent, hstep⟩

end VmManager.Manager
