import VmManager.LookupTheorems
/-!
# Invariants of the registry

Instances are told apart by `uid` and by name, and the one a handler is about
to insert is neither in the registry nor does it have a thread.
-/
open Text Runs

namespace VmManager

variable {κ : Type}

theorem find_some {s : Sys κ} {uid : Nat} {vb : VmBuilderQemu} (h : s.find uid = some vb) :
    vb ∈ s.vmis ∧ vb.uid = uid :=
  ⟨List.mem_of_find?_eq_some h, by simpa using List.find?_some h⟩

theorem mem_updateVm {s : Sys κ} {uid : Nat} {f : VmBuilderQemu → VmBuilderQemu} {vb' : VmBuilderQemu} :
    vb' ∈ (s.updateVm uid f).vmis ↔ ∃ vb ∈ s.vmis, (if vb.uid = uid then f vb else vb) = vb' := List.mem_map

theorem eq_of_mem_updateVm {s : Sys κ} {uid : Nat} {f : VmBuilderQemu → VmBuilderQemu} {vb' : VmBuilderQemu}
    (hm : vb' ∈ (s.updateVm uid f).vmis) (hu : vb'.uid = uid) :
    ∃ vb ∈ s.vmis, vb.uid = uid ∧ vb' = f vb := by
  obtain ⟨vb, hv, rfl⟩ := mem_updateVm.1 hm
  by_cases he : vb.uid = uid
  · exact ⟨vb, hv, he, if_pos he⟩
  · rw [if_neg he] at hu
    exact absurd hu he

/-- Whatever a change of one instance keeps, the registry keeps. -/
theorem updateVm_map {α : Type} (s : Sys κ) (uid : Nat) {f : VmBuilderQemu → VmBuilderQemu} {g : VmBuilderQemu → α}
    (hf : ∀ vb, g (f vb) = g vb) : (s.updateVm uid f).vmis.map g = s.vmis.map g := by
  rw [Sys.updateVm, List.map_map]
  refine List.map_congr_left fun vb _ => ?_
  rw [Function.comp_apply]
  split
  · exact hf vb
  · rfl

structure Registry (s : Sys κ) : Prop where
  uids : (s.vmis.map (·.uid)).Nodup
  names : (s.vmis.map (·.name)).Nodup
  lt : ∀ vb ∈ s.vmis, vb.uid < s.nextUid
  fresh : ∀ uid, s.nextUid ≤ uid → s.thread uid = .none
  builder : ∀ vb, s.server.builder = some vb → vb.uid < s.nextUid ∧ s.thread vb.uid = .none ∧ vb.state ≠ .running ∧
    ∀ vb' ∈ s.vmis, vb'.uid ≠ vb.uid ∧ vb'.name ≠ vb.name
  got : ∀ pos uid env waitReady, s.server = .startGet pos uid env waitReady → uid < s.nextUid ∧
    s.thread uid = .none ∧ s.vmis.length ≤ pos + 1 ∧ ∀ vb, s.vmis[pos]? = some vb → vb.uid = uid

theorem Registry.eq_of_uid {s : Sys κ} (hi : Registry s) {vb vb' : VmBuilderQemu} (h : vb ∈ s.vmis) (h' : vb' ∈ s.vmis)
    (he : vb.uid = vb'.uid) : vb = vb' := List.inj_on_of_nodup_map hi.uids h h' he

theorem Registry.eq_of_name {s : Sys κ} (hi : Registry s) {vb vb' : VmBuilderQemu} (h : vb ∈ s.vmis)
    (h' : vb' ∈ s.vmis) (he : vb.name = vb'.name) : vb = vb' := List.inj_on_of_nodup_map hi.names h h' he

theorem Registry.find {s : Sys κ} (hi : Registry s) {vb : VmBuilderQemu} (h : vb ∈ s.vmis) :
    s.find vb.uid = some vb := by
  cases hf : s.find vb.uid with
  | none =>
    rw [Sys.find, List.find?_eq_none] at hf
    exact absurd (decide_eq_true rfl) (hf vb h)
  | some vb' =>
    obtain ⟨hm, hu⟩ := find_some hf
    rw [hi.eq_of_uid hm h hu]

/-- The state after `DeleteVmInstance` of a registered VM: that VM is gone and
nothing else is. -/
structure Deleted (h : Host κ) (s : Sys κ) (vb : VmBuilderQemu) (s' : Sys κ) : Prop where
  mem : ∀ vb', vb' ∈ s'.vmis ↔ vb' ∈ s.vmis ∧ vb'.uid ≠ vb.uid
  sub : s'.vmis.Sublist s.vmis
  eq : s' = { s with vmis := s'.vmis, world := (vb.stopVm h s.world).2, deleting := none }

theorem deleteVmInstance_deleted (h : Host κ) {s : Sys κ} (hi : Registry s) {vb : VmBuilderQemu} (hm : vb ∈ s.vmis) :
    Deleted h s vb (deleteVmInstance h s vb.name) := by
  rcases deleteVmInstance_cases h s vb.name with ⟨hn, -⟩ | ⟨id, vb', -, hv, hn, he⟩
  · exact absurd rfl (findVmInstance_none.1 hn vb hm)
  · have hm' := List.mem_of_getElem? hv
    obtain rfl := hi.eq_of_name hm' hm hn
    rw [he]
    refine ⟨fun vb'' => ?_, List.eraseIdx_sublist _ _, rfl⟩
    have hnd : s.vmis.Nodup := .of_map _ hi.uids
    obtain ⟨hlt, hget⟩ := List.getElem?_eq_some_iff.1 hv
    dsimp only
    rw [← hnd.erase_getElem id hlt, hget, hnd.mem_erase_iff]
    constructor
    · rintro ⟨hne, hmem⟩
      exact ⟨hmem, fun he => hne (hi.eq_of_uid hmem hm he)⟩
    · rintro ⟨hmem, hne⟩
      exact ⟨fun he => hne (he ▸ rfl), hmem⟩

/-- What the registry owes to a change that only removes instances or changes
them in place. -/
theorem Registry.shrink {s s' : Sys κ} (hi : Registry s) (hu : (s'.vmis.map (·.uid)).Sublist (s.vmis.map (·.uid)))
    (hn : (s'.vmis.map (·.name)).Sublist (s.vmis.map (·.name))) (hserver : s'.server = s.server)
    (hnext : s'.nextUid = s.nextUid) (hthread : ∀ uid, s.thread uid = .none → s'.thread uid = .none)
    (hpos : ∀ id vb', s.vmis.length ≤ id + 1 → s'.vmis[id]? = some vb' → ∃ vb, s.vmis[id]? = some vb ∧ vb'.uid = vb.uid) :
    Registry s' := by
  have hmem : ∀ vb' ∈ s'.vmis, ∃ vb ∈ s.vmis, vb.uid = vb'.uid := fun vb' hm => by
    simpa using hu.subset (List.mem_map_of_mem hm)
  have hname : ∀ vb' ∈ s'.vmis, ∃ vb ∈ s.vmis, vb.name = vb'.name := fun vb' hm => by
    simpa using hn.subset (List.mem_map_of_mem hm)
  have hlen : s'.vmis.length ≤ s.vmis.length := by simpa using hu.length_le
  refine ⟨hi.uids.sublist hu, hi.names.sublist hn, ?_, ?_, ?_, ?_⟩
  · intro vb' hm
    obtain ⟨vb, hv, he⟩ := hmem vb' hm
    rw [← he, hnext]
    exact hi.lt vb hv
  · intro uid hle
    exact hthread uid (hi.fresh uid (hnext ▸ hle))
  · intro vb hb
    rw [hserver] at hb
    obtain ⟨h1, h2, h3, h4⟩ := hi.builder vb hb
    refine ⟨hnext ▸ h1, hthread _ h2, h3, fun vb' hm => ⟨?_, ?_⟩⟩
    · obtain ⟨vb0, hv, he⟩ := hmem vb' hm
      rw [← he]
      exact (h4 vb0 hv).1
    · obtain ⟨vb0, hv, he⟩ := hname vb' hm
      rw [← he]
      exact (h4 vb0 hv).2
  · intro pos uid env waitReady hg
    rw [hserver] at hg
    obtain ⟨h1, h2, h3, h4⟩ := hi.got pos uid env waitReady hg
    refine ⟨hnext ▸ h1, hthread _ h2, by omega, fun vb' hv => ?_⟩
    obtain ⟨vb, hv0, he⟩ := hpos pos vb' h3 hv
    rw [he]
    exact h4 vb hv0

theorem Registry.update {s s' : Sys κ} (hi : Registry s) {uid : Nat} {f : VmBuilderQemu → VmBuilderQemu}
    (hu : ∀ vb, (f vb).uid = vb.uid) (hn : ∀ vb, (f vb).name = vb.name) (hv : s'.vmis = (s.updateVm uid f).vmis)
    (hserver : s'.server = s.server) (hnext : s'.nextUid = s.nextUid)
    (hthread : ∀ uid, s.thread uid = .none → s'.thread uid = .none) : Registry s' := by
  refine hi.shrink ?_ ?_ hserver hnext hthread ?_
  · rw [hv, updateVm_map s uid hu]
  · rw [hv, updateVm_map s uid hn]
  · intro id vb' _ hid
    rw [hv, updateVm_getElem?] at hid
    obtain ⟨vb, hvb, he⟩ := Option.map_eq_some_iff.1 hid
    refine ⟨vb, hvb, ?_⟩
    rw [← he]
    split
    · exact hu vb
    · rfl

theorem Registry.delete {h : Host κ} {s s' : Sys κ} (hi : Registry s) {name : String}
    (hv : s'.vmis = (deleteVmInstance h s name).vmis) (hserver : s'.server = s.server) (hnext : s'.nextUid = s.nextUid)
    (hthread : ∀ uid, s.thread uid = .none → s'.thread uid = .none) : Registry s' := by
  rcases deleteVmInstance_cases h s name with ⟨-, he⟩ | ⟨i, vb, -, hvb, -, he⟩ <;> rw [he] at hv
  · exact hi.shrink (by rw [hv]) (by rw [hv]) hserver hnext hthread fun id vb' _ hid => ⟨vb', hv ▸ hid, rfl⟩
  · have hsub : s'.vmis.Sublist s.vmis := hv ▸ List.eraseIdx_sublist _ _
    refine hi.shrink (hsub.map _) (hsub.map _) hserver hnext hthread fun id vb' hle hid => ?_
    -- Past the end there is nothing any more.
    obtain ⟨hlt, -⟩ := List.getElem?_eq_some_iff.1 hvb
    obtain ⟨hlt', -⟩ := List.getElem?_eq_some_iff.1 hid
    rw [hv, List.length_eraseIdx_of_lt hlt] at hlt'
    omega

/-- The step left the registry and the threads alone. -/
theorem Registry.core {s s' : Sys κ} (hi : Registry s) (hv : s'.vmis = s.vmis) (ht : s'.thread = s.thread)
    (hnext : s'.nextUid = s.nextUid)
    (hb : ∀ vb, s'.server.builder = some vb → vb.uid < s.nextUid ∧ s.thread vb.uid = .none ∧ vb.state ≠ .running ∧
      ∀ vb' ∈ s.vmis, vb'.uid ≠ vb.uid ∧ vb'.name ≠ vb.name)
    (hg : ∀ pos uid env waitReady, s'.server ≠ .startGet pos uid env waitReady) : Registry s' := by
  refine ⟨hv ▸ hi.uids, hv ▸ hi.names, by rw [hv, hnext]; exact hi.lt, by rw [ht, hnext]; exact hi.fresh, ?_, ?_⟩
  · intro vb he
    rw [hv, ht, hnext]
    exact hb vb he
  · intro pos uid env waitReady he
    exact absurd he (hg pos uid env waitReady)

theorem ServerPc.plain.no_builder {p : ServerPc} (hp : p.plain) (vb : VmBuilderQemu) : p.builder ≠ some vb := by
  rw [hp.1]
  exact nofun

theorem ServerPc.plain.no_get {p : ServerPc} (hp : p.plain) (pos uid : Nat) (env : List String) (waitReady : Bool) :
    p ≠ .startGet pos uid env waitReady := by
  rintro rfl
  cases hp.2

/-- The server moves on to a place with nothing in its hands. -/
theorem Registry.serve {s s' : Sys κ} (hi : Registry s) (hv : s'.vmis = s.vmis) (ht : s'.thread = s.thread)
    (hn : s'.nextUid = s.nextUid) (hq : s'.server.plain) : Registry s' :=
  hi.core hv ht hn (fun vb he => absurd he (hq.no_builder vb)) hq.no_get

/-- A fresh builder for a name that is not taken. -/
theorem Registry.startBuild {s : Sys κ} (hi : Registry s) {name : String} (hn : ∀ vb ∈ s.vmis, vb.name ≠ name)
    (p : Purpose) (cfg : CivConfig) : Registry (startBuild s p name cfg) := by
  refine ⟨hi.uids, hi.names, fun vb hm => ?_, fun uid hle => ?_, fun vb he => ?_, fun _ _ _ _ he => nomatch he⟩
  · exact Nat.lt_succ_of_lt (hi.lt vb hm)
  · exact hi.fresh uid (Nat.le_of_succ_le hle)
  · cases he
    refine ⟨Nat.lt_succ_self _, hi.fresh _ (Nat.le_refl _), nofun, fun vb' hm => ⟨?_, hn vb' hm⟩⟩
    exact Nat.ne_of_lt (hi.lt vb' hm)

/-- The builder a handler owns joins the registry. -/
theorem Registry.insert {s : Sys κ} (hi : Registry s) {vb : VmBuilderQemu} (hb : s.server.builder = some vb)
    {q : ServerPc} (hq : q.builder = none)
    (hg : ∀ pos uid env waitReady, q = .startGet pos uid env waitReady → pos = s.vmis.length ∧ uid = vb.uid) :
    Registry ({ s with vmis := s.vmis ++ [vb] }.goto q) := by
  obtain ⟨h1, h2, -, h4⟩ := hi.builder vb hb
  constructor
  · simp only [Sys.goto, List.map_append, List.map_cons, List.map_nil]
    refine List.nodup_append.2 ⟨hi.uids, List.nodup_singleton _, ?_⟩
    simp only [List.mem_map, List.mem_singleton]
    rintro _ ⟨vb', hm, rfl⟩ _ rfl
    exact (h4 vb' hm).1
  · simp only [Sys.goto, List.map_append, List.map_cons, List.map_nil]
    refine List.nodup_append.2 ⟨hi.names, List.nodup_singleton _, ?_⟩
    simp only [List.mem_map, List.mem_singleton]
    rintro _ ⟨vb', hm, rfl⟩ _ rfl
    exact (h4 vb' hm).2
  · intro vb' hm
    rcases List.mem_append.1 hm with hm | hm
    · exact hi.lt vb' hm
    · rw [List.mem_singleton.1 hm]; exact h1
  · exact hi.fresh
  · intro vb' he
    rw [Sys.goto] at he
    dsimp only at he
    rw [hq] at he
    cases he
  · intro pos uid env waitReady he
    obtain ⟨rfl, rfl⟩ := hg pos uid env waitReady he
    refine ⟨h1, h2, by simp [Sys.goto], fun vb' hv => ?_⟩
    simp only [Sys.goto, List.getElem?_concat_length, Option.some.injEq] at hv
    rw [hv]

/-- After `DeleteVmInstance` the name is free. -/
theorem deleteVmInstance_free (h : Host κ) {s : Sys κ} (hi : Registry s) (name : String) :
    ∀ vb ∈ (deleteVmInstance h s name).vmis, vb.name ≠ name := by
  by_cases hn : ∃ vb ∈ s.vmis, vb.name = name
  · obtain ⟨vb, hm, rfl⟩ := hn
    intro vb' hm' he
    obtain ⟨hm'', hne⟩ := ((deleteVmInstance_deleted h hi hm).mem vb').1 hm'
    exact hne (congrArg _ (hi.eq_of_name hm'' hm he))
  · push Not at hn
    rcases deleteVmInstance_cases h s name with ⟨-, he⟩ | ⟨id, vb, -, hv, hvn, -⟩
    · rw [he]; exact hn
    · exact absurd hvn (hn vb (List.mem_of_getElem? hv))

/-- A replaced instance that is still the same VM. -/
theorem map_set_of {α : Type} {vmis : List VmBuilderQemu} {id : Nat} {vb vb' : VmBuilderQemu} {g : VmBuilderQemu → α}
    (hv : vmis[id]? = some vb) (hg : g vb' = g vb) : (vmis.set id vb').map g = vmis.map g := by
  obtain ⟨hlt, hget⟩ := List.getElem?_eq_some_iff.1 hv
  rw [List.map_set, hg, ← hget, ← List.getElem_map g (h := by simpa using hlt), List.set_getElem_self]

theorem registry_server {h : Host κ} {s s' : Sys κ} (hi : Registry s) (hs : ServerMove h s s') : Registry s' := by
  cases hs with
  | undefined => exact ⟨hi.uids, hi.names, hi.lt, hi.fresh, hi.builder, hi.got⟩
  | quiet s' hc _ hq _ =>
    exact hi.serve hc.vmis hc.thread hc.nextUid hq
  | stop name id vb hpc hv =>
    have hv := vmAt_get hv
    have h1 : Registry { s with vmis := s.vmis.set id (vb.stopVm h s.world).1 } := by
      have hu : (s.vmis.set id (vb.stopVm h s.world).1).map (·.uid) = s.vmis.map (·.uid) := map_set_of hv rfl
      have hn : (s.vmis.set id (vb.stopVm h s.world).1).map (·.name) = s.vmis.map (·.name) := map_set_of hv rfl
      refine hi.shrink (by rw [hu]) (by rw [hn]) rfl rfl (fun _ ht => ht) fun pos vb' _ hp => ?_
      · dsimp only at hp
        rw [List.getElem?_set] at hp
        split at hp
        · split at hp
          · rename_i he _
            cases hp
            exact ⟨vb, he ▸ hv, rfl⟩
          · cases hp
        · exact ⟨vb', hp, rfl⟩
    exact h1.serve rfl rfl rfl ⟨rfl, rfl⟩
  | create p name cfg _ hn => exact hi.startBuild (findVmInstance_none.1 hn) p cfg
  | lock name cfg => exact hi.serve rfl rfl rfl ⟨rfl, rfl⟩
  | overwrite name cfg hpc =>
    have hnext : (deleteVmInstance h s name).nextUid = s.nextUid := by
      rcases deleteVmInstance_cases h s name with ⟨-, he⟩ | ⟨_, _, -, -, -, he⟩ <;> rw [he]
    have hsame : (deleteVmInstance h s name).server = s.server ∧ (deleteVmInstance h s name).thread = s.thread := by
      rcases deleteVmInstance_cases h s name with ⟨-, he⟩ | ⟨_, _, -, -, -, he⟩ <;> rw [he] <;> exact ⟨rfl, rfl⟩
    have h1 : Registry (deleteVmInstance h s name) :=
      hi.delete rfl hsame.1 hnext fun uid hu => by rw [hsame.2]; exact hu
    exact h1.startBuild (deleteVmInstance_free h hi name) .import cfg
  | build p vb vb' w i st q hpc hst hq =>
    obtain ⟨h1, h2, h3, h4⟩ := hi.builder vb (by rw [hpc]; rfl)
    have hsame := (build_all (buildSteps_cidStep hst vb s.world) hq).same
    have hstate : vb'.state ≠ .running := by
      rcases hsame.state with he | he <;> rw [he]
      · exact h3
      · exact nofun
    have hb : q.builder = some vb' := build_builder hq
    refine hi.core rfl rfl rfl (fun vb'' he => ?_) ?_
    · dsimp only at he
      rw [hb, Option.some.injEq] at he
      rw [← he, hsame.uid, hsame.name]
      exact ⟨h1, h2, hstate, h4⟩
    · intro _ _ _ _ he
      rcases hq with ⟨-, rfl⟩ | ⟨-, rfl⟩ | ⟨e, -, rfl⟩ <;> cases he
  | hang => exact hi.serve rfl rfl rfl ⟨rfl, rfl⟩
  | built p vb i hpc _ =>
    refine hi.core rfl rfl rfl (fun vb' he => ?_) (fun _ _ _ _ he => by cases he)
    cases he
    exact hi.builder vb (by rw [hpc]; rfl)
  | insertImport vb hpc =>
    exact hi.insert (by rw [hpc]; rfl) rfl fun _ _ _ _ he => by cases he
  | insertStart vb env waitReady hpc =>
    refine hi.insert (by rw [hpc]; rfl) rfl fun _ _ _ _ he => ?_
    cases he
    exact ⟨rfl, rfl⟩
  | drop vb q hq =>
    rcases hq with ⟨-, rfl⟩ | ⟨e, -, rfl⟩ <;> exact hi.serve rfl rfl rfl ⟨rfl, rfl⟩
  | get pos uid env waitReady vb hpc hv =>
    have h1 : Registry (s.updateVm vb.uid fun vb => { vb with mainProc := vb.mainProc.map ({ · with envData := env }) }) :=
      .update hi (f := fun vb => { vb with mainProc := vb.mainProc.map ({ · with envData := env }) }) (fun _ => rfl)
        (fun _ => rfl) rfl rfl rfl fun _ ht => ht
    refine ⟨h1.uids, h1.names, h1.lt, fun u hle => ?_, fun _ he => (by cases he), fun _ _ _ _ he => by cases he⟩
    have hlt := hi.lt vb (List.mem_of_getElem? hv)
    have hne : u ≠ vb.uid := by
      rintro rfl
      exact absurd hlt (Nat.not_lt.2 hle)
    simp only [Sys.setThread, Function.update_of_ne hne]
    exact hi.fresh u hle
  | pass uid waitReady hpc _ =>
    exact hi.core rfl rfl rfl (fun _ he => by cases he) fun _ _ _ _ he => by cases he
  | answer uid waitReady vb hpc _ => exact hi.serve rfl rfl rfl ⟨rfl, rfl⟩

theorem setThread_none {s : Sys κ} {uid : Nat} (hne : s.thread uid ≠ .none) (p : ThreadPc) :
    ∀ u, s.thread u = .none → (s.setThread uid p).thread u = .none := by
  intro u hu
  have hu' : u ≠ uid := by
    rintro rfl
    exact hne hu
  simp only [Sys.setThread, Function.update_of_ne hu']
  exact hu

/-- Only the thread's place and its latch change. -/
theorem Registry.setThread {s s' : Sys κ} (hi : Registry s) {uid : Nat} (hne : s.thread uid ≠ .none) {p : ThreadPc}
    (hv : s'.vmis = s.vmis) (ht : s'.thread = (s.setThread uid p).thread) (hserver : s'.server = s.server)
    (hnext : s'.nextUid = s.nextUid) : Registry s' :=
  hi.shrink (by rw [hv]) (by rw [hv]) hserver hnext (ht ▸ setThread_none hne p) fun _ vb' _ hid => ⟨vb', hv ▸ hid, rfl⟩

/-- A thread that takes a step has been started. -/
theorem ThreadMove.started {h : Host κ} {s s' : Sys κ} {uid : Nat} (hs : ThreadMove h s uid s') :
    s' = s.undefined ∨ s.thread uid ≠ .none := by
  cases hs with
  | undefined => exact .inl rfl
  | exited vb _ hpc | lock vb p _ _ hpc => rcases hpc with ⟨hpc, -⟩ | ⟨hpc, -⟩ <;> rw [hpc] <;> exact .inr nofun
  | _ => refine .inr ?_; rw [‹s.thread uid = _›]; exact nofun

theorem registry_thread {h : Host κ} {s s' : Sys κ} {uid : Nat} (hi : Registry s) (hs : ThreadMove h s uid s') :
    Registry s' := by
  rcases hs.started with rfl | hp
  · exact ⟨hi.uids, hi.names, hi.lt, hi.fresh, hi.builder, hi.got⟩
  have hdel : ∀ name p, Registry ((deleteVmInstance h s name).setThread uid p) := by
    intro name p
    rcases deleteVmInstance_cases h s name with ⟨-, he⟩ | ⟨_, _, -, -, -, he⟩
    · rw [he]; exact hi.setThread hp rfl rfl rfl rfl
    · have hd : ((deleteVmInstance h s name).setThread uid p).vmis = (deleteVmInstance h s name).vmis := rfl
      refine hi.delete hd (by rw [he]; rfl) (by rw [he]; rfl) ?_
      rw [he]
      exact setThread_none hp p
  cases hs with
  | undefined => exact ⟨hi.uids, hi.names, hi.lt, hi.fresh, hi.builder, hi.got⟩
  | launch vb procs main₀ main k₀ k =>
    exact hi.update (f := fun vb => { vb with coProcs := procs, mainProc := some main }) (fun _ => rfl) (fun _ => rfl)
      rfl rfl rfl (setThread_none hp _)
  | booting vb =>
    exact hi.update (f := ({ · with state := .booting })) (fun _ => rfl) (fun _ => rfl) rfl rfl rfl
      (setThread_none hp _)
  | setReady vb =>
    exact hi.update (f := ({ · with state := .running })) (fun _ => rfl) (fun _ => rfl) rfl rfl rfl
      (setThread_none hp _)
  | delete vb => exact hdel vb.name _
  | giveUp vb => exact hdel vb.name _
  | _ => exact hi.setThread hp rfl rfl rfl rfl

theorem registry_other {s s' : Sys κ} (hi : Registry s) (hs : OtherMove s s') : Registry s' := by
  cases hs with
  | proc uid f hf => exact hi.update hf.uid hf.name rfl rfl rfl fun _ ht => ht
  | vmReady cid uid vb =>
    exact hi.update (f := ({ · with state := .running })) (fun _ => rfl) (fun _ => rfl) rfl rfl rfl fun _ ht => ht
  | _ => exact ⟨hi.uids, hi.names, hi.lt, hi.fresh, hi.builder, hi.got⟩

theorem registry_step {h : Host κ} {s s' : Sys κ} {a : Act κ} (hi : Registry s) (hs : step h s a = some s') :
    Registry s' := by
  rcases step_move hs with ⟨-, hm⟩ | ⟨uid, -, hm⟩ | hm
  · exact registry_server hi hm
  · exact registry_thread hi hm
  · exact registry_other hi hm

theorem registry_init (k : κ) : Registry (Sys.init k) :=
  ⟨List.nodup_nil, List.nodup_nil, fun _ hm => (nomatch hm), fun _ _ => rfl, fun _ he => (nomatch he),
    fun _ _ _ _ he => nomatch he⟩

end VmManager
