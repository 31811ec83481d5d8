import VmManager.ServerMoves
/-!
# Theorems about the indices that handlers use

A handler looks a VM up once and then uses the index. The index stays good as
long as no VM thread removes an instance at or before it.
-/
open Text Runs

namespace VmManager

variable {κ : Type}

/-- `DeleteVmInstance` removes the first instance of that name, if there is
one, and runs its destructor. -/
theorem deleteVmInstance_cases (h : Host κ) (s : Sys κ) (name : String) :
    (findVmInstance s.vmis name = none ∧ deleteVmInstance h s name = { s with deleting := none }) ∨
    ∃ id vb, findVmInstance s.vmis name = some id ∧ s.vmis[id]? = some vb ∧ vb.name = name ∧
      deleteVmInstance h s name =
        { s with vmis := s.vmis.eraseIdx id, world := (vb.stopVm h s.world).2, deleting := none } := by
  unfold deleteVmInstance
  cases hf : findVmInstance s.vmis name with
  | none => exact .inl ⟨rfl, rfl⟩
  | some id =>
    obtain ⟨vb, hv, hn⟩ := findVmInstance_some hf
    refine .inr ⟨id, vb, rfl, hv, hn, ?_⟩
    dsimp only
    rw [hv]

theorem mem_of_mem_delete {h : Host κ} {s : Sys κ} {name : String} {vb : VmBuilderQemu}
    (hm : vb ∈ (deleteVmInstance h s name).vmis) : vb ∈ s.vmis := by
  rcases deleteVmInstance_cases h s name with ⟨-, he⟩ | ⟨_, _, -, -, -, he⟩ <;> rw [he] at hm
  · exact hm
  · exact List.mem_of_mem_eraseIdx hm

/-- The thread has called `DeleteVmInstance`, or is about to. -/
def ThreadPc.leaving : ThreadPc → Bool
  | deleteLock | delete | giveUpLock | giveUp => true
  | _ => false

/-- Where the thread of VM `uid` removes its instance, from the call of
`DeleteVmInstance` on. -/
def Sys.removal (s : Sys κ) (uid : Nat) : Option Nat :=
  if (s.thread uid).leaving then (s.find uid).bind fun vb => findVmInstance s.vmis vb.name else none

/-- A VM thread that removes its instance removes one after the index that a
handler uses, if the index is of these origins. -/
def keepsUse (origins : Origin → Bool) (s : Sys κ) : Act κ → Bool
  | .thread uid =>
    match s.server.uses, s.removal uid with
    | some u, some i => !origins u.origin || u.id < i
    | _, _ => true
  | _ => true

/-- The index that a handler uses, if it is of these origins, is good. -/
def Held (origins : Origin → Bool) (s : Sys κ) : Prop :=
  ∀ u, s.server.uses = some u → origins u.origin = true → u.Good s

/-- The second is the first, later on. -/
structure StillVm (vb vb' : VmBuilderQemu) : Prop where
  uid : vb'.uid = vb.uid
  name : vb'.name = vb.name
  cid : vb'.vsockCid = vb.vsockCid

/-- The VM at an index in `s` is there in `s'`. -/
def Sys.Still (s s' : Sys κ) (id : Nat) : Prop :=
  ∀ vb, s.vmAt id = some vb → ∃ vb', s'.vmAt id = some vb' ∧ StillVm vb vb'

section

variable {h : Host κ} {s s' : Sys κ} {origins : Origin → Bool}

theorem Held.of_none (hn : s.server.uses = none) : Held origins s := by
  intro u hu
  rw [hn] at hu
  cases hu

theorem Sys.Still.of_same (hv : s'.vmis = s.vmis) (hd : s'.deleting = s.deleting) (id : Nat) : s.Still s' id := by
  intro vb hvb
  refine ⟨vb, ?_, rfl, rfl, rfl⟩
  unfold Sys.vmAt Sys.erasePos at *
  rw [hv, hd]
  exact hvb

theorem findVmInstance_map {vmis : List VmBuilderQemu} {f : VmBuilderQemu → VmBuilderQemu}
    (hf : ∀ vb, (f vb).name = vb.name) (name : String) : findVmInstance (vmis.map f) name = findVmInstance vmis name := by
  unfold findVmInstance
  rw [List.findIdx?_map]
  congr 1
  funext vb
  simp [hf]

theorem updateVm_getElem? (s : Sys κ) (uid id : Nat) (f : VmBuilderQemu → VmBuilderQemu) :
    (s.updateVm uid f).vmis[id]? = s.vmis[id]?.map fun vb => if vb.uid = uid then f vb else vb := by
  simp [Sys.updateVm]

/-- Only an instance changes, and it stays the same VM. -/
theorem Sys.Still.updateVm {uid : Nat} {f : VmBuilderQemu → VmBuilderQemu} (hv : s'.vmis = (s.updateVm uid f).vmis)
    (hd : s'.deleting = s.deleting) (hf : ∀ vb, StillVm vb (f vb)) (id : Nat) : s.Still s' id := by
  intro vb hvb
  obtain ⟨hvb, hpos⟩ := vmAt_some hvb
  have hsame : ∀ vb, StillVm vb (if vb.uid = uid then f vb else vb) := fun vb => by
    split
    · exact hf vb
    · exact ⟨rfl, rfl, rfl⟩
  have herase : s'.erasePos = s.erasePos := by
    unfold Sys.erasePos
    rw [hd, hv]
    exact congrArg _ (funext fun d => findVmInstance_map (fun vb => (hsame vb).name) d.name)
  exact ⟨_, vmAt_of (by rw [hv, updateVm_getElem?, hvb]; rfl) (herase ▸ hpos), hsame vb⟩

/-- The index is before the place where an instance is going to be removed. -/
theorem Sys.Still.lock {thread : Option Nat} {name : String} {id : Nat}
    (hlt : ∀ i, findVmInstance s.vmis name = some i → id < i) :
    s.Still { s with deleting := some ⟨thread, name⟩ } id :=
  fun vb hv => ⟨vb, vmAt_of (vmAt_some hv).1 hlt, rfl, rfl, rfl⟩

theorem Sys.Still.delete {name : String} {id : Nat} (hlt : ∀ i, findVmInstance s.vmis name = some i → id < i) :
    s.Still (deleteVmInstance h s name) id := by
  intro vb hv
  obtain ⟨hv, -⟩ := vmAt_some hv
  rcases deleteVmInstance_cases h s name with ⟨-, he⟩ | ⟨i, vb', hf, -, -, he⟩ <;> rw [he]
  · exact ⟨vb, vmAt_still hv rfl, rfl, rfl, rfl⟩
  · refine ⟨vb, vmAt_still ?_ rfl, rfl, rfl, rfl⟩
    rw [List.getElem?_eraseIdx_of_lt (hlt i hf)]
    exact hv

theorem still_thread {uid : Nat} {u : Use} (hu : s.server.uses = some u) (ho : origins u.origin = true)
    (hg : keepsUse origins s (.thread uid) = true) (hs : ThreadMove h s uid s') : s.Still s' u.id := by
  -- What the thread removes comes after the index.
  have hlt : ∀ {vb : VmBuilderQemu}, s.find uid = some vb → (s.thread uid).leaving = true →
      ∀ i, findVmInstance s.vmis vb.name = some i → u.id < i := by
    intro vb hv hpc i hf
    have hr : s.removal uid = some i := by
      rw [Sys.removal, if_pos hpc, hv]
      exact hf
    simpa [keepsUse, hu, hr, ho] using hg
  cases hs with
  | launch | booting | setReady =>
    apply Sys.Still.updateVm rfl rfl
    exact fun _ => ⟨rfl, rfl, rfl⟩
  | lock vb p hv _ hpc =>
    refine .lock (hlt hv ?_)
    rcases hpc with ⟨hpc, -⟩ | ⟨hpc, -⟩ <;> rw [hpc] <;> rfl
  | delete vb hpc hv | giveUp vb hpc hv => exact Sys.Still.delete (hlt hv (hpc ▸ rfl))
  | _ => exact .of_same rfl rfl u.id

theorem still_other (hs : OtherMove s s') (id : Nat) : s.Still s' id := by
  cases hs with
  | proc uid f hf => exact .updateVm rfl rfl (fun vb => ⟨hf.uid vb, hf.name vb, hf.cid vb⟩) id
  | vmReady cid uid vb =>
    apply Sys.Still.updateVm rfl rfl
    exact fun _ => ⟨rfl, rfl, rfl⟩
  | _ => exact .of_same rfl rfl id

theorem thread_server {uid : Nat} (hs : ThreadMove h s uid s') : s'.server = s.server := by
  cases hs with
  | delete vb | giveUp vb =>
    rcases deleteVmInstance_cases h s vb.name with ⟨-, he⟩ | ⟨i, vb', -, -, -, he⟩ <;> rw [Sys.setThread, he]
  | _ => rfl

theorem other_server (hs : OtherMove s s') : s'.server = s.server := by
  cases hs <;> rfl

/-- Besides its own steps only the arrival of a request moves the server. -/
theorem step_server {a : Act κ} (hs : step h s a = some s') :
    (a = .server ∧ serverStep h s = some s') ∨ (∃ r, s.server = .loop ∧ s'.server = Request.entry r) ∨
      (a ≠ .server ∧ s'.server = s.server) := by
  unfold step at hs
  split at hs
  · cases hs
  · cases a with
    | recv r =>
      dsimp only [recv] at hs
      split at hs <;> cases hs
      exact .inr (.inl ⟨r, ‹_›, rfl⟩)
    | server => exact .inl ⟨rfl, hs⟩
    | thread uid => exact .inr (.inr ⟨nofun, thread_server (threadStep_move hs)⟩)
    | vmReady peer =>
      cases hs
      exact .inr (.inr ⟨nofun, other_server (rpcVmReady_move s peer)⟩)
    | exit | attach | host =>
      cases hs
      exact .inr (.inr ⟨nofun, rfl⟩)

theorem recv_of_step {r : Request} (hs : step h s (.recv r) = some s') :
    s.server = .loop ∧ s'.server = r.entry := by
  unfold step at hs
  split at hs
  · cases hs
  · simp only [recv] at hs
    split at hs <;> cases hs
    exact ⟨‹_›, rfl⟩

/-- The server thread moves by its own steps and when a request arrives. -/
theorem server_of_other {a : Act κ} (hs : step h s a = some s') (ha : a ≠ .server)
    (hr : ∀ r, a ≠ .recv r) : s'.server = s.server := by
  unfold step at hs
  split at hs
  · cases hs
  · cases a with
    | recv r => exact absurd rfl (hr r)
    | server => exact absurd rfl ha
    | thread uid => exact thread_server (threadStep_move hs)
    | vmReady peer =>
      cases hs
      exact other_server (rpcVmReady_move s peer)
    | exit | attach | host =>
      cases hs
      rfl

/-- While the others go on, an index in use leads to the same VM. -/
theorem still_step {a : Act κ} {u : Use} (hu : s.server.uses = some u) (ho : origins u.origin = true)
    (hg : keepsUse origins s a = true) (hs : step h s a = some s') :
    a = .server ∨ (s.Still s' u.id ∧ s'.server = s.server) := by
  rcases step_move hs with ⟨rfl | hl, -⟩ | ⟨uid, rfl, hm⟩ | hm
  · exact .inl rfl
  · rw [hl] at hu
    cases hu
  · exact .inr ⟨still_thread hu ho hg hm, thread_server hm⟩
  · exact .inr ⟨still_other hm u.id, other_server hm⟩

theorem Use.Good.still {u : Use} (hg : u.Good s) (hs : s.Still s' u.id) : u.Good s' := by
  obtain ⟨vb, hv, hn⟩ := hg
  obtain ⟨vb', hv', hsame⟩ := hs vb hv
  exact ⟨vb', hv', fun name hm => hsame.name.trans (hn name hm)⟩

theorem held_server (hi : Held origins s) (hs : ServerMove h s s') : Held origins s' := by
  cases hs with
  | undefined => exact fun u hu ho => (hi u hu ho).still (.of_same rfl rfl u.id)
  | quiet s' hc _ _ hh =>
    intro u hu ho
    rcases hh u hu with hold | hgood
    · exact (hi u hold ho).still (.of_same hc.vmis hc.deleting u.id)
    · exact hgood.still (.of_same hc.vmis hc.deleting u.id)
  | insertStart vb env waitReady hpc hm =>
    intro u hu _
    cases hu
    refine ⟨vb, vmAt_still ?_ hm, nofun⟩
    exact List.getElem?_concat_length
  | build p vb vb' w i st q _ _ hq =>
    rcases hq with ⟨-, rfl⟩ | ⟨-, rfl⟩ | ⟨e, -, rfl⟩ <;> exact .of_none rfl
  | drop vb q hq => rcases hq with ⟨-, rfl⟩ | ⟨e, -, rfl⟩ <;> exact .of_none rfl
  | _ => exact .of_none rfl

theorem held_step {a : Act κ} (hi : Held origins s) (hg : keepsUse origins s a = true) (hs : step h s a = some s') :
    Held origins s' := by
  rcases step_move hs with ⟨-, hm⟩ | ⟨uid, rfl, hm⟩ | hm
  · exact held_server hi hm
  · intro u hu ho
    rw [thread_server hm] at hu
    exact (hi u hu ho).still (still_thread hu ho hg hm)
  · intro u hu ho
    rw [other_server hm] at hu
    exact (hi u hu ho).still (still_other hm u.id)

end

/-! ## What the handlers do through an index -/

theorem buildStep_accesses (h : Host κ) (s : Sys κ) (p : Purpose) (vb : VmBuilderQemu) (i : Nat) :
    (buildStep h s p vb i).accesses = s.accesses := by
  rcases buildStep_cases h s p vb i with ⟨-, he⟩ | ⟨st, -, ⟨vb', w, q, -, he⟩ | ⟨w, -, he⟩⟩ <;>
    simp only [he, Sys.goto]

theorem deleteVmInstance_accesses (h : Host κ) (s : Sys κ) (name : String) :
    (deleteVmInstance h s name).accesses = s.accesses := by
  rcases deleteVmInstance_cases h s name with ⟨-, he⟩ | ⟨id, vb, -, -, -, he⟩ <;> rw [he]

/-- What a step adds to the log: a call through the index that the handler
uses, on what stands there. -/
def Logs (s s' : Sys κ) : Prop :=
  s'.accesses = s.accesses ∨ ∃ name member id, s.server.uses = some ⟨.found, some name, id⟩ ∧
    s'.accesses = (s.access name member (s.vmAt id)).accesses

section

variable {h : Host κ} {s s' : Sys κ}

theorem Logs.of_use {p : ServerPc} {name : String} {id : Nat} (member : Member) (hpc : s.server = p)
    (hu : p.uses = some ⟨.found, some name, id⟩)
    (he : s'.accesses = (s.access name member (s.vmAt id)).accesses) : Logs s s' :=
  .inr ⟨name, member, id, by rw [hpc, hu], he⟩

theorem serverStep_logs (hs : serverStep h s = some s') : Logs s s' := by
  cases hpc : s.server <;> simp only [serverStep, hpc] at hs
  case loop | exited | hung => cases hs
  case stopName name id =>
    split at hs <;> cases hs <;> rename_i hv <;> exact .of_use .getName hpc rfl (hv ▸ rfl)
  case stopCid name id | infoCid name id =>
    split at hs <;> cases hs <;> rename_i hv <;> exact .of_use .getCid hpc rfl (hv ▸ rfl)
  case stopStop name id =>
    split at hs <;> cases hs <;> rename_i hv <;> exact .of_use .stopVm hpc rfl (hv ▸ rfl)
  case infoState name id cid =>
    split at hs <;> cases hs <;> rename_i hv <;> exact .of_use .getState hpc rfl (hv ▸ rfl)
  case importState cfg name id =>
    split at hs
    · cases hs
      exact .of_use .getState hpc rfl (by rw [‹s.vmAt id = none›]; rfl)
    · rename_i hv
      refine .of_use .getState hpc rfl ?_
      rw [hv]
      split at hs <;> cases hs <;> rfl
  case importRead path | startRead path env =>
    cases hs
    obtain ⟨q, he, -⟩ := readConfig_cases h s path _
    exact .inl (by rw [he]; rfl)
  case importLock cfg name =>
    obtain ⟨s₁, hlock, rfl⟩ := Option.map_eq_some_iff.1 hs
    obtain ⟨-, rfl⟩ := lockVmis_some hlock
    exact .inl rfl
  case importDelete cfg name =>
    cases hs
    exact .inl (deleteVmInstance_accesses h s name)
  case building p vb i =>
    cases hs
    exact .inl (buildStep_accesses h s p vb i)
  case insert p vb =>
    refine .inl ?_
    split at hs
    · cases hs
      rfl
    · cases p <;> cases hs <;> rfl
  all_goals
    refine .inl ?_
    repeat' split at hs
    all_goals first | (cases hs; done) | (cases hs; rfl)

theorem step_logs {a : Act κ} (hs : step h s a = some s') : Logs s s' := by
  unfold step at hs
  split at hs
  · cases hs
  · cases a with
    | recv r =>
      refine .inl ?_
      dsimp only [recv] at hs
      split at hs <;> cases hs
      rfl
    | server => exact serverStep_logs hs
    | thread uid =>
      refine .inl ?_
      cases threadStep_move hs with
      | delete | giveUp => exact deleteVmInstance_accesses h s _
      | _ => rfl
    | vmReady peer =>
      have hm := rpcVmReady_move s peer
      rw [Option.some.inj hs] at hm
      cases hm <;> exact .inl rfl
    | exit | attach | host =>
      cases hs
      exact .inl rfl

end

/-- An index in use and the cid that the handler has got through it. -/
def ServerPc.carried : ServerPc → Option (Nat × Nat)
  | .stopRpc _ id cid | .infoState _ id cid => some (id, cid)
  | _ => none

/-- The cid that a handler carries on is that of the VM at its index. -/
def CidHeld (s : Sys κ) : Prop :=
  ∀ id cid, s.server.carried = some (id, cid) → ∃ vb, s.vmAt id = some vb ∧ vb.vsockCid = cid

section

variable {h : Host κ} {s s' : Sys κ}

theorem CidHeld.of_none (hn : s.server.carried = none) : CidHeld s := by
  intro id cid hc
  rw [hn] at hc
  cases hc

theorem cidHeld_server (hi : CidHeld s) (hs : serverStep h s = some s') : CidHeld s' := by
  cases hpc : s.server <;> simp only [serverStep, hpc] at hs
  case loop | exited | hung => cases hs
  case stopCid name id | infoCid name id =>
    split at hs <;> cases hs
    · exact hi
    · rename_i vb hv
      intro id' cid hc
      cases hc
      exact ⟨vb, hv, rfl⟩
  case importRead path | startRead path env =>
    cases hs
    obtain ⟨q, he, rfl | ⟨e, -, -, rfl⟩ | ⟨cfg, -, rfl⟩⟩ := readConfig_cases h s path _ <;> rw [he] <;>
      exact .of_none rfl
  case importLock cfg name =>
    obtain ⟨s₁, hlock, rfl⟩ := Option.map_eq_some_iff.1 hs
    exact .of_none rfl
  case building p vb i =>
    cases hs
    rcases buildStep_cases h s p vb i with ⟨-, he⟩ | ⟨st, -, ⟨vb', w, q, hq, he⟩ | ⟨w, -, he⟩⟩ <;> rw [he]
    · exact .of_none rfl
    · rcases hq with ⟨-, rfl⟩ | ⟨-, rfl⟩ | ⟨e, -, rfl⟩ <;> exact .of_none rfl
    · exact .of_none rfl
  case stopRpc name id cid =>
    cases hs
    by_cases hok : (h.shutdown s.world.kernel cid).1 = true
    · rw [if_pos hok]
      exact .of_none rfl
    · rw [if_neg hok]
      exact .of_none rfl
  -- Everywhere else the handler has no cid, before the step and after it.
  all_goals
    repeat' split at hs
    all_goals first | (cases hs; done) | (cases hs; exact hi) | (cases hs; exact .of_none rfl)

theorem cidHeld_step {a : Act κ} (hi : CidHeld s) (hg : keepsUse (· = .found) s a = true)
    (hs : step h s a = some s') : CidHeld s' := by
  intro id cid hc
  rcases step_server hs with ⟨-, hs⟩ | ⟨r, -, he⟩ | ⟨ha, he⟩
  · exact cidHeld_server hi hs id cid hc
  · rw [he] at hc
    cases r <;> cases hc
  · rw [he] at hc
    obtain ⟨vb, hv, rfl⟩ := hi id cid hc
    obtain ⟨name, hu⟩ : ∃ name, s.server.uses = some ⟨.found, some name, id⟩ := by
      cases hpc : s.server <;> rw [hpc] at hc <;> cases hc <;> exact ⟨_, rfl⟩
    obtain ⟨hstill, -⟩ := (still_step hu rfl hg hs).resolve_left ha
    obtain ⟨vb', hv', hsame⟩ := hstill vb hv
    exact ⟨vb', hv', hsame.cid⟩

/-- Every call through an index that was looked up has met an instance of the
name asked for. -/
def CallsNamed (s : Sys κ) : Prop := ∀ a ∈ s.accesses, ∃ uid, a.on = some (uid, a.asked)

theorem callsNamed_step {a : Act κ} (hh : Held (· = .found) s) (hi : CallsNamed s) (hs : step h s a = some s') :
    CallsNamed s' := by
  intro e hm
  rcases step_logs hs with he | ⟨name, member, id, hu, he⟩ <;> rw [he] at hm
  · exact hi e hm
  · rcases List.mem_append.1 hm with hm | hm
    · exact hi e hm
    · obtain ⟨vb, hv, hn⟩ := hh _ hu rfl
      rw [List.mem_singleton.1 hm, hv]
      exact ⟨vb.uid, congrArg (fun n => some (vb.uid, n)) (hn name rfl)⟩

/-- What a handler has called, and what its next step does through the index:
it all concerns an instance of the name asked for. -/
structure OnNamed (h : Host κ) (s : Sys κ) : Prop where
  calls : CallsNamed s
  rpc : ∀ name id cid, s.server = .stopRpc name id cid → ∃ vb ∈ s.vmis, vb.name = name ∧ vb.vsockCid = cid
  stops : ∀ name id s', s.server = .stopStop name id → step h s .server = some s' →
    ∃ vb, s.vmis[id]? = some vb ∧ vb.name = name ∧ s'.vmis = s.vmis.set id (vb.stopVm h s.world).1
  shows : ∀ name id cid s', s.server = .infoState name id cid → step h s .server = some s' →
    ∃ vb ∈ s.vmis, vb.name = name ∧ s'.vmInfo = some ⟨vb.vsockCid, vb.state⟩
  decides : ∀ cfg name id s', s.server = .importState cfg name id → step h s .server = some s' →
    ∃ vb ∈ s.vmis, vb.name = name ∧
      s'.server = if vb.state ≠ .created ∧ vb.state ≠ .empty then .reply (-1) else .importLock cfg name

theorem onNamed_of (hh : Held (· = .found) s) (hc : CidHeld s) (hl : CallsNamed s) : OnNamed h s := by
  have hat : ∀ {p : ServerPc} {name : String} {id : Nat}, s.server = p → p.uses = some ⟨.found, some name, id⟩ →
      ∃ vb, s.vmAt id = some vb ∧ s.vmis[id]? = some vb ∧ vb.name = name := by
    intro p name id hpc hu
    obtain ⟨vb, hv, hn⟩ := hh _ (by rw [hpc, hu]) rfl
    exact ⟨vb, hv, vmAt_get hv, hn name rfl⟩
  refine ⟨hl, fun name id cid hpc => ?_, fun name id s' hpc hs => ?_, fun name id cid s' hpc hs => ?_,
    fun cfg name id s' hpc hs => ?_⟩
  · obtain ⟨vb, hv, hm, hn⟩ := hat hpc rfl
    obtain ⟨vb', hv', he⟩ := hc id cid (by rw [hpc]; rfl)
    cases hv.symm.trans hv'
    exact ⟨vb, List.mem_of_getElem? hm, hn, he⟩
  all_goals
    obtain ⟨vb, hv, hm, hn⟩ := hat hpc rfl
    have hs := serverStep_of_step hs
    simp only [serverStep, hpc, hv] at hs
  · cases hs
    exact ⟨vb, hm, hn, rfl⟩
  · obtain ⟨vb', hv', he⟩ := hc id cid (by rw [hpc]; rfl)
    cases hv.symm.trans hv'
    cases hs
    exact ⟨vb, List.mem_of_getElem? hm, hn, by rw [he]; rfl⟩
  · refine ⟨vb, List.mem_of_getElem? hm, hn, ?_⟩
    split at hs <;> cases hs <;> rename_i hst
    · rw [if_pos hst]
      rfl
    · rw [if_neg hst]
      rfl

end

/-- Whatever the registry holds when the server takes up its requests, and in
every interleaving in which a VM thread never removes an instance at or before
an index that was looked up and is still used: a handler acts on the VM that
was asked for. -/
theorem handlers_use_named_vm (h : Host κ) (s₀ s : Sys κ) (as : List (Act κ)) (h0 : s₀.server = .loop)
    (hl : s₀.accesses = []) (hr : run (step h) s₀ as = some s)
    (hg : Guarded (step h) (fun s a => keepsUse (· = .found) s a = true) s₀ as) : OnNamed h s := by
  have hkeep : Held (· = .found) s ∧ CidHeld s ∧ CallsNamed s := by
    refine run_keeps_guarded (I := fun s => Held (· = .found) s ∧ CidHeld s ∧ CallsNamed s)
      (fun s a s' hi hg hs => ⟨held_step hi.1 hg hs, cidHeld_step hi.2.1 hg hs, callsNamed_step hi.1 hi.2.2 hs⟩) hr hg ?_
    exact ⟨.of_none (by rw [h0]; rfl), .of_none (by rw [h0]; rfl), fun a hm => by rw [hl] at hm; cases hm⟩
  exact onNamed_of hkeep.1 hkeep.2.1 hkeep.2.2

/-- A VM that was started, with its emulator still there or not. -/
def startedVm (uid : Nat) (name : String) (alive : Bool) : VmBuilderQemu where
  uid := uid
  name := name
  cfg := {}
  vsockCid := 1000 + uid
  state := .running
  mainProc := some { kind := .simple "qemu-system-x86_64", mon := true, child := .attached alive }

/-- Three VMs; the emulators of the first and of the last have exited. -/
def threeVms : Sys Unit where
  vmis := [startedVm 0 "a" false, startedVm 1 "b" true, startedVm 2 "c" false]
  world := { kernel := () }
  thread uid := if uid = 1 then .joining else .deleteLock
  nextUid := 3

/-- The last VM goes while the first is being stopped. -/
theorem handlers_use_named_vm_a : ∃ s, run (step (stillHost [] [])) threeVms
      [.recv (.stopVm "a"), .server, .thread 2, .server, .server, .thread 2, .server, .server] = some s ∧
    s.accesses.map (·.member) = [.getName, .getCid, .stopVm] ∧ OnNamed (stillHost [] []) s := by
  have hlog : (run (step (stillHost [] [])) threeVms
      [.recv (.stopVm "a"), .server, .thread 2, .server, .server, .thread 2, .server, .server]).map
        (·.accesses.map (·.member)) = some [.getName, .getCid, .stopVm] := rfl
  obtain ⟨s, hs, hlog⟩ := Option.map_eq_some_iff.1 hlog
  exact ⟨s, hs, hlog, handlers_use_named_vm _ threeVms s _ rfl rfl hs (by decide)⟩

/-- The first VM goes while the second is being stopped: `StopVm` is called on
the third. -/
theorem stopVm_stops_another : ∃ s, run (step (stillHost [] [])) threeVms
      [.recv (.stopVm "b"), .server, .server, .server, .thread 0, .thread 0, .server, .server] = some s ∧
    s.accesses = [⟨"b", .getName, some (1, "b")⟩, ⟨"b", .getCid, some (1, "b")⟩, ⟨"b", .stopVm, some (2, "c")⟩] ∧
    s.vmis.map (fun vb => (vb.name, vb.stopped)) = [("b", false), ("c", true)] ∧ ¬ OnNamed (stillHost [] []) s := by
  have hpc : (run (step (stillHost [] [])) threeVms
      [.recv (.stopVm "b"), .server, .server, .server, .thread 0, .thread 0, .server, .server]).map
        (fun s => (s.accesses, s.vmis.map fun vb => (vb.name, vb.stopped))) =
      some ([⟨"b", .getName, some (1, "b")⟩, ⟨"b", .getCid, some (1, "b")⟩, ⟨"b", .stopVm, some (2, "c")⟩],
        [("b", false), ("c", true)]) := rfl
  obtain ⟨s, hs, he⟩ := Option.map_eq_some_iff.1 hpc
  obtain ⟨hlog, hvmis⟩ := Prod.mk.inj he
  refine ⟨s, hs, hlog, hvmis, fun hn => ?_⟩
  obtain ⟨uid, hon⟩ := hn.calls ⟨"b", .stopVm, some (2, "c")⟩ (by rw [hlog]; simp)
  simp at hon

end VmManager
