import VmManager.CidTheorems
import VmManager.CommandSteps
/-!
# What a step can do to an instance

The steps of `Server.lean` once more, seen from one instance: where it comes
from, how it changes, and when its `StopVm` runs. An instance lives in the
server's hands while it is built, then in the registry.
-/
open Text Runs

namespace VmManager

open VmBuilderQemu

variable {κ : Type}

/-- The instance whose `StopVm` the action runs, the destructor's included. -/
def stopping (s : Sys κ) : Act κ → Option VmBuilderQemu
  | .server =>
    match s.server with
    | .stopStop _ id => s.vmAt id
    | .importDelete _ name => (findVmInstance s.vmis name).bind (s.vmis[·]?)
    | .discard vb | .unwind _ vb => some vb
    | _ => none
  | .thread uid =>
    match s.thread uid with
    | .delete | .giveUp => s.find uid
    | _ => none
  | _ => none

/-- The instance that is stopped is one of those there are. -/
theorem stopping_live {s : Sys κ} {a : Act κ} {vb : VmBuilderQemu} (hs : stopping s a = some vb) : vb ∈ live s := by
  unfold stopping at hs
  split at hs
  · split at hs <;> rename_i hpc
    · exact mem_live.2 (.inl (List.mem_of_getElem? (vmAt_get hs)))
    · obtain ⟨id, -, hv⟩ := Option.bind_eq_some_iff.1 hs
      exact mem_live.2 (.inl (List.mem_of_getElem? hv))
    · cases hs
      exact mem_live.2 (.inr (by rw [hpc]; rfl))
    · cases hs
      exact mem_live.2 (.inr (by rw [hpc]; rfl))
    · cases hs
  · split at hs
    · exact mem_live.2 (.inl (find_some hs).1)
    · exact mem_live.2 (.inl (find_some hs).1)
    · cases hs
  · cases hs

/-- How the action changes an instance. -/
inductive Evolves (h : Host κ) (s : Sys κ) (a : Act κ) (vb : VmBuilderQemu) : VmBuilderQemu → Prop
  | same : Evolves h s a vb vb
  /-- A step of `BuildVmArgs` left it so. -/
  | build (p : Purpose) (i : Nat) (st : Step κ) (q : ServerPc) (vb' : VmBuilderQemu) (w : World κ) : a = .server →
      s.server = .building p vb i → (buildSteps h)[i]? = some st →
      (st vb s.world = .ok vb' w ∧ q = .building p vb' (i + 1)) ∨ (st vb s.world = .failed vb' w ∧ q = .discard vb') ∨
        (∃ e, st vb s.world = .threw e vb' w ∧ q = .unwind e vb') → Evolves h s a vb vb'
  | stop : stopping s a = some vb → Evolves h s a vb (vb.stopVm h s.world).1
  | get (env : List String) : s.thread vb.uid = .none →
      Evolves h s a vb { vb with mainProc := vb.mainProc.map ({ · with envData := env }) }
  | launch (procs : List VmProcess) (main₀ main : VmProcess) (k₀ k : κ) : a = .thread vb.uid →
      s.thread vb.uid = .launch → vb.mainProc = some main₀ →
      launchProcs h vb.coProcs s.world.kernel = some (procs, k₀) → main₀.run h k₀ = some (main, k) →
      Evolves h s a vb { vb with coProcs := procs, mainProc := some main }
  | booting : a = .thread vb.uid → s.thread vb.uid = .booting → Evolves h s a vb { vb with state := .booting }
  | setReady : a = .thread vb.uid → s.thread vb.uid = .setReady → Evolves h s a vb { vb with state := .running }
  | vmReady (peer : String) (cid : Nat) : a = .vmReady peer → parsePeer peer = some cid →
      s.pending cid = some vb.uid → Evolves h s a vb { vb with state := .running }
  | exits (i : Nat) : Evolves h s a vb (onProc i VmProcess.exits vb)
  | attaches (i : Nat) : Evolves h s a vb (onProc i VmProcess.attaches vb)

/-- What every change keeps. -/
structure SameIdentity (vb vb' : VmBuilderQemu) : Prop where
  uid : vb'.uid = vb.uid
  name : vb'.name = vb.name
  cfg : vb'.cfg = vb.cfg

theorem onProc_identity (i : Nat) (f : VmProcess → VmProcess) (vb : VmBuilderQemu) : SameIdentity vb (onProc i f vb) := by
  cases i <;> exact ⟨rfl, rfl, rfl⟩

theorem Evolves.identity {h : Host κ} {s : Sys κ} {a : Act κ} {vb vb' : VmBuilderQemu} (he : Evolves h s a vb vb') :
    SameIdentity vb vb' := by
  cases he with
  | build p i st q vb' w _ _ hst hq =>
    have hsame := (build_all (buildSteps_cidStep hst vb s.world) hq).same
    exact ⟨hsame.uid, hsame.name, hsame.cfg⟩
  | exits i => exact onProc_identity i _ vb
  | attaches i => exact onProc_identity i _ vb
  | _ => exact ⟨rfl, rfl, rfl⟩

/-- Once it is registered, the command of a VM stays. -/
theorem Evolves.command {h : Host κ} {s : Sys κ} {a : Act κ} {vb vb' : VmBuilderQemu} (he : Evolves h s a vb vb')
    (hb : s.server.builder ≠ some vb) :
    vb'.emulCmd = vb.emulCmd ∧ vb'.mainProc.map (·.kind) = vb.mainProc.map (·.kind) := by
  have hproc : ∀ {f : VmBuilderQemu → VmBuilderQemu}, SameInstance f →
      (f vb).mainProc.map (·.kind) = vb.mainProc.map (·.kind) := by
    intro f hf
    have hm := congrArg (Option.map Prod.fst) (hf.main vb)
    simpa [Option.map_map, Function.comp_def] using hm
  cases he with
  | build p i st q vb' w _ hpc => exact absurd (by rw [hpc]; rfl) hb
  | stop =>
    refine ⟨rfl, ?_⟩
    simp only [VmBuilderQemu.stopVm, VmBuilderQemu.stopProcs]
    cases vb.mainProc with
    | none => rfl
    | some p => exact congrArg some (stop_kind h p _)
  | get env => exact ⟨rfl, by simp [Option.map_map, Function.comp_def]⟩
  | launch procs main₀ main k₀ k _ _ hmain _ hrun =>
    rw [hmain]
    exact ⟨rfl, congrArg some (run_kind hrun)⟩
  | exits i =>
    exact ⟨by cases i <;> rfl, hproc (onProc_same i (fun p => (exits_same p).1) fun p => (exits_same p).2)⟩
  | attaches i =>
    exact ⟨by cases i <;> rfl, hproc (onProc_same i (fun p => (attaches_same p).1) fun p => (attaches_same p).2)⟩
  | _ => exact ⟨rfl, rfl⟩

/-! ## Registered instances -/

section

variable {h : Host κ} {s s' : Sys κ} {a : Act κ}

/-- One instance is changed in place. -/
theorem evolves_updateVm {uid : Nat} {f : VmBuilderQemu → VmBuilderQemu}
    (hf : ∀ vb ∈ s.vmis, vb.uid = uid → Evolves h s a vb (f vb)) :
    ∀ vb' ∈ (s.updateVm uid f).vmis, ∃ vb ∈ s.vmis, Evolves h s a vb vb' := by
  intro vb' hm
  obtain ⟨vb, hv, rfl⟩ := mem_updateVm.1 hm
  refine ⟨vb, hv, ?_⟩
  split
  · exact hf vb hv ‹_›
  · exact .same

theorem evolves_of_subset (hsub : ∀ vb ∈ s'.vmis, vb ∈ s.vmis) : ∀ vb' ∈ s'.vmis, ∃ vb ∈ s.vmis, Evolves h s a vb vb' :=
  fun vb' hm => ⟨vb', hsub vb' hm, .same⟩

theorem server_vmis (hr : Registry s) (ha : a = .server) (hs : ServerMove h s s') : ∀ vb' ∈ s'.vmis,
    (∃ p, s.server = .insert p vb') ∨ ∃ vb ∈ s.vmis, Evolves h s a vb vb' := by
  have hnew : ∀ p vb, s.server = .insert p vb → ∀ vb' ∈ s.vmis ++ [vb],
      (∃ p, s.server = .insert p vb') ∨ ∃ vb ∈ s.vmis, Evolves h s a vb vb' := by
    intro p vb hpc vb' hm
    rcases List.mem_append.1 hm with hm | hm
    · exact .inr ⟨vb', hm, .same⟩
    · rw [List.mem_singleton.1 hm]
      exact .inl ⟨p, hpc⟩
  intro vb' hm
  cases hs with
  | insertImport vb hpc => exact hnew _ vb hpc vb' hm
  | insertStart vb env waitReady hpc => exact hnew _ vb hpc vb' hm
  | quiet s' hc => exact .inr ⟨vb', hc.vmis ▸ hm, .same⟩
  | stop name id vb hpc hv =>
    rcases List.mem_or_eq_of_mem_set hm with hm | rfl
    · exact .inr ⟨vb', hm, .same⟩
    · refine .inr ⟨vb, List.mem_of_getElem? (vmAt_get hv), .stop ?_⟩
      simp only [ha, stopping, hpc, hv]
  | overwrite name cfg => exact .inr ⟨vb', mem_of_mem_delete hm, .same⟩
  | get pos uid env waitReady vb hpc hv =>
    obtain ⟨-, hnone, -, hu⟩ := hr.got pos uid env waitReady hpc
    refine .inr (evolves_updateVm (fun v _ he => .get env ?_) vb' hm)
    rw [he, hu vb hv]
    exact hnone
  | _ => exact .inr ⟨vb', hm, .same⟩

theorem thread_vmis {uid : Nat} (hr : Registry s) (ha : a = .thread uid) (hs : ThreadMove h s uid s') :
    ∀ vb' ∈ s'.vmis, ∃ vb ∈ s.vmis, Evolves h s a vb vb' := by
  cases hs with
  | launch vb procs main₀ main k₀ k hpc hf hmain hprocs hrun =>
    obtain ⟨hm, hu⟩ := find_some hf
    refine evolves_updateVm fun v hv he => ?_
    obtain rfl := hr.eq_of_uid hv hm (he.trans hu.symm)
    exact .launch procs main₀ main k₀ k (he ▸ ha) (he ▸ hpc) hmain hprocs hrun
  | booting vb hpc => exact evolves_updateVm fun v _ he => .booting (he ▸ ha) (he ▸ hpc)
  | setReady vb hpc => exact evolves_updateVm fun v _ he => .setReady (he ▸ ha) (he ▸ hpc)
  | delete vb => exact evolves_of_subset fun _ => mem_of_mem_delete
  | giveUp vb => exact evolves_of_subset fun _ => mem_of_mem_delete
  | _ => exact evolves_of_subset fun _ hm => hm

theorem rpc_vmis {peer : String} (ha : a = .vmReady peer) :
    ∀ vb' ∈ (rpcVmReady s peer).2.vmis, ∃ vb ∈ s.vmis, Evolves h s a vb vb' := by
  unfold rpcVmReady
  by_cases hp : ∀ cid, parsePeer peer = some cid → s.pending cid = none
  · obtain ⟨msg, he⟩ := vmReady_unknown hp
    rw [he]
    exact evolves_of_subset fun _ hm => hm
  · push Not at hp
    obtain ⟨cid, hc, hne⟩ := hp
    obtain ⟨uid, hp⟩ := Option.ne_none_iff_exists'.1 hne
    rw [vmReady_known hc hp]
    dsimp only
    split
    · exact evolves_of_subset fun _ hm => hm
    · exact evolves_updateVm fun v _ he => .vmReady peer cid ha hc (he ▸ hp)

/-- Every registered instance has just been inserted, or was registered. -/
theorem step_vmis (hr : Registry s) (hs : step h s a = some s') : ∀ vb' ∈ s'.vmis,
    (∃ p, a = .server ∧ s.server = .insert p vb') ∨ ∃ vb ∈ s.vmis, Evolves h s a vb vb' := by
  unfold step at hs
  split at hs
  · cases hs
  · intro vb' hm
    split at hs
    · unfold recv at hs
      split at hs <;> cases hs
      exact .inr ⟨vb', hm, .same⟩
    · rcases server_vmis hr rfl (serverStep_move hs) vb' hm with ⟨p, hpc⟩ | hold
      · exact .inl ⟨p, rfl, hpc⟩
      · exact .inr hold
    · exact .inr (thread_vmis hr rfl (threadStep_move hs) vb' hm)
    · cases hs
      exact .inr (evolves_updateVm (fun _ _ _ => .exits _) vb' hm)
    · cases hs
      exact .inr (evolves_updateVm (fun _ _ _ => .attaches _) vb' hm)
    · cases hs
      exact .inr (rpc_vmis rfl vb' hm)
    · cases hs
      exact .inr ⟨vb', hm, .same⟩

theorem deleteVmInstance_nextUid (h : Host κ) (s : Sys κ) (name : String) :
    (deleteVmInstance h s name).nextUid = s.nextUid := by
  rcases deleteVmInstance_cases h s name with ⟨-, he⟩ | ⟨_, _, -, -, -, he⟩ <;> rw [he]

/-- The builder that a handler owns is new, or it was there before. It is not
stopped while it is built. -/
theorem step_builder (hs : step h s a = some s') {vb' : VmBuilderQemu} (hb : s'.server.builder = some vb') :
    (∃ name cfg, vb' = { uid := s.nextUid, name, cfg }) ∨
      ∃ vb, s.server.builder = some vb ∧ Evolves h s a vb vb' ∧ vb'.stopped = vb.stopped := by
  rcases step_move hs with ⟨ha, hm⟩ | ⟨uid, -, hm⟩ | hm
  · cases hm with
    | undefined => exact .inr ⟨vb', hb, .same, rfl⟩
    | quiet s' _ _ hq => exact absurd hb (hq.no_builder vb')
    | create p name cfg =>
      cases hb
      exact .inl ⟨name, cfg, rfl⟩
    | overwrite name cfg =>
      have hnext : (deleteVmInstance h s name).nextUid = s.nextUid := deleteVmInstance_nextUid h s name
      cases hb
      exact .inl ⟨name, cfg, by rw [hnext]⟩
    | build p vb vb'' w i st q hpc hst hq =>
      have hq' : q.builder = some vb'' := build_builder hq
      obtain rfl := Option.some.inj (hq'.symm.trans hb)
      have ha : a = .server := ha.resolve_right fun hl => by rw [hpc] at hl; cases hl
      have hstopped := (build_all (buildSteps_cidStep hst vb s.world) hq).same.stopped
      exact .inr ⟨vb, by rw [hpc]; rfl, .build p i st q vb'' w ha hpc hst hq, hstopped⟩
    | built p vb i hpc =>
      cases hb
      exact .inr ⟨vb', by rw [hpc]; rfl, .same, rfl⟩
    | drop vb q hq => rcases hq with ⟨-, rfl⟩ | ⟨e, -, rfl⟩ <;> cases hb
    | _ => cases hb
  · rw [hm.counted.server] at hb
    exact .inr ⟨vb', hb, .same, rfl⟩
  · rw [hm.frame.1] at hb
    exact .inr ⟨vb', hb, .same, rfl⟩

theorem step_nextUid (hs : step h s a = some s') : s.nextUid ≤ s'.nextUid := by
  rcases step_move hs with ⟨-, hm⟩ | ⟨uid, -, hm⟩ | hm
  · cases hm with
    | quiet s' hc => exact hc.nextUid ▸ Nat.le_refl _
    | create => exact Nat.le_succ _
    | overwrite name => exact deleteVmInstance_nextUid h s name ▸ Nat.le_succ _
    | _ => exact Nat.le_refl _
  · cases hm with
    | delete vb => exact (deleteVmInstance_nextUid h s vb.name).symm ▸ Nat.le_refl _
    | giveUp vb => exact (deleteVmInstance_nextUid h s vb.name).symm ▸ Nat.le_refl _
    | _ => exact Nat.le_refl _
  · cases hm <;> exact Nat.le_refl _

/-- What is about to be inserted has just been built. -/
theorem step_insert (hs : step h s a = some s') {p : Purpose} {vb : VmBuilderQemu} (hpc : s'.server = .insert p vb) :
    s.server = .insert p vb ∨ (∃ i, a = .server ∧ s.server = .building p vb i ∧ (buildSteps h)[i]? = none) := by
  rcases step_move hs with ⟨ha, hm⟩ | ⟨uid, -, hm⟩ | hm
  · cases hm with
    | undefined => exact .inl hpc
    | quiet s' _ _ hq => exact absurd (by rw [hpc]; rfl) (hq.no_builder vb)
    | build p vb vb' w i st q _ _ hq => rcases hq with ⟨-, rfl⟩ | ⟨-, rfl⟩ | ⟨e, -, rfl⟩ <;> cases hpc
    | built p vb i hb hn =>
      cases hpc
      have ha : a = .server := ha.resolve_right fun hl => by rw [hb] at hl; cases hl
      exact .inr ⟨i, ha, hb, hn⟩
    | drop vb q hq => rcases hq with ⟨-, rfl⟩ | ⟨e, -, rfl⟩ <;> cases hpc
    | _ => cases hpc
  · exact .inl (hm.counted.server ▸ hpc)
  · exact .inl (hm.frame.1 ▸ hpc)

theorem buildStep_leaves {p : Purpose} {vb : VmBuilderQemu} {i : Nat} :
    (buildStep h s p vb i).server ≠ .building p vb i := by
  rcases buildStep_cases h s p vb i with ⟨-, he⟩ | ⟨st, -, ⟨vb', w, q, hq, he⟩ | ⟨w, -, he⟩⟩ <;> rw [he]
  · exact fun hpc => by cases hpc
  · rcases hq with ⟨-, rfl⟩ | ⟨-, rfl⟩ | ⟨e, -, rfl⟩ <;> exact fun hpc => by cases hpc
  · exact fun hpc => by cases hpc

/-- A handler that builds has begun to, or the last step of `BuildVmArgs` has
returned true. -/
theorem step_building (hs : step h s a = some s') {p : Purpose} {vb' : VmBuilderQemu} {i' : Nat}
    (hpc : s'.server = .building p vb' i') :
    (a ≠ .server ∧ s.server = .building p vb' i') ∨ (i' = 0 ∧ ∃ name cfg, vb' = { uid := s.nextUid, name, cfg }) ∨
      ∃ vb i st w, a = .server ∧ i' = i + 1 ∧ s.server = .building p vb i ∧ (buildSteps h)[i]? = some st ∧
        st vb s.world = .ok vb' w := by
  rcases step_server hs with ⟨ha, hs⟩ | ⟨r, -, hr⟩ | ⟨ha, hsame⟩
  · cases serverStep_move hs with
    | undefined =>
      simp only [serverStep, show s.server = .building p vb' i' from hpc, Option.some.injEq] at hs
      exact absurd (congrArg Sys.server hs) buildStep_leaves
    | quiet s' _ _ hq => exact absurd (by rw [hpc]; rfl) (hq.no_builder vb')
    | create p name cfg =>
      cases hpc
      exact .inr (.inl ⟨rfl, name, cfg, rfl⟩)
    | overwrite name cfg =>
      have hnext : (deleteVmInstance h s name).nextUid = s.nextUid := deleteVmInstance_nextUid h s name
      cases hpc
      exact .inr (.inl ⟨rfl, name, cfg, by rw [hnext]⟩)
    | build p vb vb'' w i st q hb hst hq =>
      rcases hq with ⟨he, rfl⟩ | ⟨-, rfl⟩ | ⟨e, -, rfl⟩ <;> cases hpc
      exact .inr (.inr ⟨vb, i, st, w, ha, rfl, hb, hst, he⟩)
    | drop vb q hq => rcases hq with ⟨-, rfl⟩ | ⟨e, -, rfl⟩ <;> cases hpc
    | _ => cases hpc
  · rw [hr] at hpc
    cases r <;> cases hpc
  · exact .inl ⟨ha, hsame ▸ hpc⟩

/-- Every instance there is was there before, but for a new builder. -/
theorem step_live (hr : Registry s) (hs : step h s a = some s') : ∀ vb' ∈ live s',
    (∃ name cfg, vb' = { uid := s.nextUid, name, cfg }) ∨ ∃ vb ∈ live s, Evolves h s a vb vb' := by
  intro vb' hm
  rcases mem_live.1 hm with hm | hb
  · rcases step_vmis hr hs vb' hm with ⟨p, -, hpc⟩ | ⟨vb, hv, he⟩
    · exact .inr ⟨vb', mem_live.2 (.inr (by rw [hpc]; rfl)), .same⟩
    · exact .inr ⟨vb, mem_live.2 (.inl hv), he⟩
  · rcases step_builder hs hb with hnew | ⟨vb, hv, he, -⟩
    · exact .inl hnew
    · exact .inr ⟨vb, mem_live.2 (.inr hv), he⟩

/-- `DeleteVmInstance` removes the instance of that name and no other. -/
theorem deleteVmInstance_stays (hr : Registry s) (name : String) {vb : VmBuilderQemu} (hm : vb ∈ s.vmis) :
    vb ∈ (deleteVmInstance h s name).vmis ∨ (findVmInstance s.vmis name).bind (s.vmis[·]?) = some vb := by
  rcases deleteVmInstance_cases h s name with ⟨-, he⟩ | ⟨id, vb', hf, hv, rfl, -⟩
  · rw [he]
    exact .inl hm
  · by_cases hu : vb.uid = vb'.uid
    · rw [hf, hr.eq_of_uid hm (List.mem_of_getElem? hv) hu]
      exact .inr hv
    · exact .inl (((deleteVmInstance_deleted h hr (List.mem_of_getElem? hv)).mem vb).2 ⟨hm, hu⟩)

theorem server_stays (hr : Registry s) (ha : a = .server ∨ s.server = .loop) (hs : ServerMove h s s')
    {vb : VmBuilderQemu} (hm : vb ∈ live s) :
    (∃ vb' ∈ live s', vb'.uid = vb.uid) ∨ stopping s a = some vb ∨ s'.server = .hung := by
  have hact : s.server ≠ .loop → a = .server := fun hn => ha.resolve_right hn
  -- The registered instances are changed in place.
  have hvmis : s'.vmis.map (·.uid) = s.vmis.map (·.uid) → vb ∈ s.vmis → ∃ vb' ∈ live s', vb'.uid = vb.uid := by
    intro hu hv
    have hmem : vb.uid ∈ s'.vmis.map (·.uid) := hu ▸ List.mem_map_of_mem hv
    obtain ⟨vb', hv', he⟩ := List.mem_map.1 hmem
    exact ⟨vb', mem_live.2 (.inl hv'), he⟩
  -- There is no builder.
  have hplain : s.server.builder = none → vb ∈ s.vmis := fun hn =>
    (mem_live.1 hm).resolve_right fun hb => by rw [hn] at hb; cases hb
  cases hs with
  | undefined => exact .inl ⟨vb, hm, rfl⟩
  | quiet s' hc hp => exact .inl (hvmis (by rw [hc.vmis]) (hplain hp.1))
  | stop name id v hpc hv => exact .inl (hvmis (map_set_of (vmAt_get hv) rfl) (hplain (by rw [hpc]; rfl)))
  | create p name cfg hp => exact .inl (hvmis rfl (hplain hp.1))
  | lock name cfg hpc => exact .inl (hvmis rfl (hplain (by rw [hpc]; rfl)))
  | overwrite name cfg hpc =>
    rcases deleteVmInstance_stays (h := h) hr name (hplain (by rw [hpc]; rfl)) with hv | hv
    · exact .inl ⟨vb, mem_live.2 (.inl hv), rfl⟩
    · refine .inr (.inl ?_)
      rw [hact (by rw [hpc]; exact nofun)]
      simp only [stopping, hpc, hv]
  | build p v v' w i st q hpc hst hq =>
    have hb' : q.builder = some v' := build_builder hq
    rcases mem_live.1 hm with hv | hb
    · exact .inl (hvmis rfl hv)
    · rw [hpc] at hb
      cases hb
      have hsame := (build_all (buildSteps_cidStep hst vb s.world) hq).same
      exact .inl ⟨v', mem_live.2 (.inr hb'), hsame.uid⟩
  | hang => exact .inr (.inr rfl)
  | built p v i hpc =>
    rcases mem_live.1 hm with hv | hb
    · exact .inl (hvmis rfl hv)
    · rw [hpc] at hb
      cases hb
      exact .inl ⟨vb, mem_live.2 (.inr rfl), rfl⟩
  | insertImport v hpc | insertStart v _ _ hpc =>
    rcases mem_live.1 hm with hv | hb
    · exact .inl ⟨vb, mem_live.2 (.inl (List.mem_append_left _ hv)), rfl⟩
    · rw [hpc] at hb
      cases hb
      exact .inl ⟨vb, mem_live.2 (.inl (List.mem_append_right _ List.mem_cons_self)), rfl⟩
  | drop v q hq =>
    rcases mem_live.1 hm with hv | hb
    · exact .inl (hvmis rfl hv)
    · refine .inr (.inl ?_)
      rcases hq with ⟨hpc, -⟩ | ⟨e, hpc, -⟩ <;> rw [hpc] at hb <;> cases hb <;>
        rw [hact (by rw [hpc]; exact nofun)] <;> simp only [stopping, hpc]
  | get pos uid env waitReady v hpc =>
    refine .inl (hvmis ?_ (hplain (by rw [hpc]; rfl)))
    exact updateVm_map s v.uid (f := fun vb => { vb with mainProc := vb.mainProc.map ({ · with envData := env }) })
      fun _ => rfl
  | pass uid waitReady hpc => exact .inl (hvmis rfl (hplain (by rw [hpc]; rfl)))
  | answer uid waitReady v hpc => exact .inl (hvmis rfl (hplain (by rw [hpc]; rfl)))

theorem thread_stays {uid : Nat} (hr : Registry s) (hs : ThreadMove h s uid s') {vb : VmBuilderQemu}
    (hv : vb ∈ s.vmis) : Registered s' vb.uid ∨ stopping s (Act.thread uid : Act κ) = some vb := by
  by_cases hdel : uid = vb.uid ∧ (s.thread vb.uid = .delete ∨ s.thread vb.uid = .giveUp)
  · obtain ⟨rfl, hpc⟩ := hdel
    refine .inr ?_
    rcases hpc with hpc | hpc <;> simp only [stopping, hpc, hr.find hv]
  · refine .inl (hs.registered hr ⟨vb, hv, rfl⟩ fun he => ⟨fun hpc => ?_, fun hpc => ?_⟩)
    · exact hdel ⟨he, .inl hpc⟩
    · exact hdel ⟨he, .inr hpc⟩

/-- An instance there is stays, but for one that is stopped for good and one
that is lost in a build that hangs. -/
theorem live_stays (hr : Registry s) (hs : step h s a = some s') {vb : VmBuilderQemu} (hm : vb ∈ live s) :
    (∃ vb' ∈ live s', vb'.uid = vb.uid) ∨ stopping s a = some vb ∨ s'.server = .hung := by
  have hlive : Registered s' vb.uid → ∃ vb' ∈ live s', vb'.uid = vb.uid := by
    rintro ⟨vb', hv, hu⟩
    exact ⟨vb', mem_live.2 (.inl hv), hu⟩
  have hbuilder : s'.server = s.server → s.server.builder = some vb → ∃ vb' ∈ live s', vb'.uid = vb.uid :=
    fun he hb => ⟨vb, mem_live.2 (.inr (he ▸ hb)), rfl⟩
  rcases step_move hs with ⟨ha, hmove⟩ | ⟨uid, rfl, hmove⟩ | hmove
  · exact server_stays hr ha hmove hm
  · rcases mem_live.1 hm with hv | hb
    · rcases thread_stays hr hmove hv with hreg | hst
      · exact .inl (hlive hreg)
      · exact .inr (.inl hst)
    · exact .inl (hbuilder hmove.counted.server hb)
  · rcases mem_live.1 hm with hv | hb
    · exact .inl (hlive (hmove.registered ⟨vb, hv, rfl⟩))
    · exact .inl (hbuilder hmove.frame.1 hb)

/-- No two instances there are have one `uid`. -/
theorem Registry.eq_of_live (hr : Registry s) {vb vb' : VmBuilderQemu} (hm : vb ∈ live s) (hm' : vb' ∈ live s)
    (he : vb.uid = vb'.uid) : vb = vb' := by
  rcases mem_live.1 hm with hm | hb <;> rcases mem_live.1 hm' with hm' | hb'
  · exact hr.eq_of_uid hm hm' he
  · exact absurd he ((hr.builder vb' hb').2.2.2 vb hm).1
  · exact absurd he.symm ((hr.builder vb hb).2.2.2 vb' hm').1
  · exact Option.some.inj (hb.symm.trans hb')

theorem Registry.live_lt (hr : Registry s) {vb : VmBuilderQemu} (hm : vb ∈ live s) : vb.uid < s.nextUid := by
  rcases mem_live.1 hm with hm | hb
  · exact hr.lt vb hm
  · exact (hr.builder vb hb).1

end

/-! ## The world that the builders share -/

/-- What the action does to the world: it stops an instance, it takes a step of
`BuildVmArgs`, or it changes nothing but the host. -/
inductive WorldMove (h : Host κ) (s : Sys κ) (a : Act κ) : World κ → Prop
  | host (k : κ) : stopping s a = none → WorldMove h s a { s.world with kernel := k }
  | stop (vb : VmBuilderQemu) : stopping s a = some vb → WorldMove h s a (vb.stopVm h s.world).2
  | build (p : Purpose) (vb : VmBuilderQemu) (i : Nat) (st : Step κ) : a = .server → s.server = .building p vb i →
      (buildSteps h)[i]? = some st → WorldMove h s a (st vb s.world).world

section

variable {h : Host κ} {s s' : Sys κ}

theorem readConfig_world (path : String) (next : CivConfig → String → ServerPc) :
    (readConfig h s path next).world = s.world := by
  obtain ⟨q, he, -⟩ := readConfig_cases h s path next
  rw [he]
  rfl

theorem buildStep_world {p : Purpose} {vb : VmBuilderQemu} {i : Nat} (hpc : s.server = .building p vb i) :
    WorldMove h s .server (buildStep h s p vb i).world := by
  rcases buildStep_cases h s p vb i with ⟨-, he⟩ | ⟨st, hst, hst'⟩
  · rw [he]
    exact .host s.world.kernel (by simp only [stopping, hpc])
  · have hw := WorldMove.build p vb i st rfl hpc hst
    rcases hst' with ⟨vb', w, q, ⟨ho, -⟩ | ⟨ho, -⟩ | ⟨e, ho, -⟩, he⟩ | ⟨w, ho, he⟩ <;> rw [ho] at hw <;> rw [he] <;> exact hw

/-- The name of a registered instance is its own. -/
theorem deleteVmInstance_world (name : String) :
    (∃ vb, (findVmInstance s.vmis name).bind (s.vmis[·]?) = some vb ∧
      (deleteVmInstance h s name).world = (vb.stopVm h s.world).2) ∨
    ((findVmInstance s.vmis name).bind (s.vmis[·]?) = none ∧ (deleteVmInstance h s name).world = s.world) := by
  rcases deleteVmInstance_cases h s name with ⟨hf, he⟩ | ⟨id, vb, hf, hv, -, he⟩ <;> rw [he, hf]
  · exact .inr ⟨rfl, rfl⟩
  · exact .inl ⟨vb, hv, rfl⟩

theorem serverStep_world (hs : serverStep h s = some s') : WorldMove h s .server s'.world := by
  have hhost : ∀ {w : World κ} (k : κ), stopping s .server = none → w = { s.world with kernel := k } →
      WorldMove h s .server w := fun k hno he => he ▸ .host k hno
  cases hpc : s.server <;> simp only [serverStep, hpc] at hs
  case loop | exited | hung => cases hs
  case stopStop name id =>
    cases hv : s.vmAt id <;> rw [hv] at hs <;> cases hs
    · exact .host s.world.kernel (by simp only [stopping, hpc, hv])
    · exact .stop _ (by simp only [stopping, hpc, hv])
  case importLock cfg name =>
    obtain ⟨s₁, hlock, rfl⟩ := Option.map_eq_some_iff.1 hs
    obtain ⟨-, rfl⟩ := lockVmis_some hlock
    exact .host s.world.kernel (by simp only [stopping, hpc])
  case importDelete cfg name =>
    cases hs
    rcases deleteVmInstance_world (h := h) (s := s) name with ⟨vb, hv, hw⟩ | ⟨hv, hw⟩
    · rw [startBuild, hw]
      exact .stop vb (by simp only [stopping, hpc, hv])
    · exact hhost s.world.kernel (by simp only [stopping, hpc, hv]) hw
  case importRead path | startRead path env =>
    cases hs
    exact hhost s.world.kernel (by simp only [stopping, hpc]) (readConfig_world path _)
  case building p vb i =>
    cases hs
    exact buildStep_world hpc
  case discard vb | unwind e vb =>
    cases hs
    exact .stop vb (by simp only [stopping, hpc])
  case insert p vb =>
    have hno : stopping s .server = none := by simp only [stopping, hpc]
    split at hs
    · cases hs
      exact hhost _ hno rfl
    · cases p <;> cases hs <;> exact hhost _ hno rfl
  all_goals
    have hno : stopping s .server = none := by simp only [stopping, hpc]
    repeat' split at hs
    all_goals first | (cases hs; done) | (cases hs; exact hhost _ hno rfl)

theorem threadStep_world {uid : Nat} (hr : Registry s) (hs : threadStep h s uid = some s') :
    WorldMove h s (.thread uid) s'.world := by
  cases hst : stopping s (.thread uid) with
  | none =>
    cases threadStep_move hs with
    | delete vb hpc hf => simp only [stopping, hpc, hf, reduceCtorEq] at hst
    | giveUp vb hpc hf => simp only [stopping, hpc, hf, reduceCtorEq] at hst
    | launch vb procs main₀ main k₀ k => exact .host k hst
    | _ => exact .host s.world.kernel hst
  | some vb =>
    obtain ⟨hpc, hf⟩ : (s.thread uid = .delete ∨ s.thread uid = .giveUp) ∧ s.find uid = some vb := by
      simp only [stopping] at hst
      split at hst <;> simp_all
    have hdel : ∀ p, WorldMove h s (.thread uid) ((deleteVmInstance h s vb.name).setThread uid p).world := by
      intro p
      rw [Sys.setThread, (deleteVmInstance_deleted h hr (find_some hf).1).eq]
      exact .stop vb hst
    rcases hpc with hpc | hpc <;> simp only [threadStep, threadStepOn, hpc, hf] at hs <;> split at hs <;> cases hs <;>
      exact hdel _

theorem rpcVmReady_world (peer : String) : (rpcVmReady s peer).2.world = s.world := by
  unfold rpcVmReady
  split
  · rfl
  · split <;> rfl

theorem step_world {a : Act κ} (hr : Registry s) (hs : step h s a = some s') : WorldMove h s a s'.world := by
  unfold step at hs
  split at hs
  · cases hs
  · split at hs
    · unfold recv at hs
      split at hs <;> cases hs
      exact .host s.world.kernel rfl
    · exact serverStep_world hs
    · exact threadStep_world hr hs
    · cases hs
      exact .host s.world.kernel rfl
    · cases hs
      exact .host s.world.kernel rfl
    · rename_i peer
      cases hs
      rw [rpcVmReady_world]
      exact .host s.world.kernel rfl
    · cases hs
      exact .host _ rfl

end

end VmManager
