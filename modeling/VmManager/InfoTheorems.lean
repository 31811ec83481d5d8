import VmManager.Client
import VmManager.LookupTheorems
/-!
# Theorems about `GetCivVmInfo`

The server replaces the object `VmInfo` in the client's segment when it finds a
VM, and leaves it alone otherwise. The client takes what is there, so a request
that finds no VM is answered with that of an earlier call.
-/
open Runs

namespace VmManager

variable {κ : Type}

/-! ## What a request leaves in the segment -/

/-- The request so far, in a segment that had `old` in it. -/
def Asked (old : Option CivVmInfo) (p : Sys κ × Found) : Prop :=
  match p.1.server with
  | .infoFind _ => p.2 = {} ∧ p.1.vmInfo = old
  | .infoConstruct .. | .infoCid .. | .infoState .. => p.2 = ⟨true, none⟩
  | .reply _ | .clear | .loop | .exited _ =>
    p.1.vmInfo = (if p.2.listed then p.2.info else old) ∧ (p.2.listed = false → p.2.info = none)
  | _ => False

theorem deleteVmInstance_vmInfo (h : Host κ) (s : Sys κ) (name : String) :
    (deleteVmInstance h s name).server = s.server ∧ (deleteVmInstance h s name).vmInfo = s.vmInfo := by
  rcases deleteVmInstance_cases h s name with ⟨-, he⟩ | ⟨_, _, -, -, -, he⟩ <;> rw [he] <;> exact ⟨rfl, rfl⟩

theorem ThreadMove.vmInfo {h : Host κ} {s s' : Sys κ} {uid : Nat} (hs : ThreadMove h s uid s') :
    s'.server = s.server ∧ s'.vmInfo = s.vmInfo := by
  cases hs with
  | delete vb => exact deleteVmInstance_vmInfo h s vb.name
  | giveUp vb => exact deleteVmInstance_vmInfo h s vb.name
  | _ => exact ⟨rfl, rfl⟩

theorem OtherMove.vmInfo {s s' : Sys κ} (hs : OtherMove s s') : s'.server = s.server ∧ s'.vmInfo = s.vmInfo := by
  cases hs <;> exact ⟨rfl, rfl⟩

/-- Nobody but the server gets at the segment. -/
theorem vmInfo_aside {h : Host κ} {s s' : Sys κ} {a : Act κ} (ha : a.isRecv = false) (hs : step h s a = some s') :
    (a = .server ∧ serverStep h s = some s') ∨
      (s'.server = s.server ∧ s'.vmInfo = s.vmInfo ∧ ∀ f, look s a f = f) := by
  have hother : ∀ {s'}, OtherMove s s' → s'.server = s.server ∧ s'.vmInfo = s.vmInfo := OtherMove.vmInfo
  unfold step at hs
  split at hs
  · cases hs
  · cases a with
    | recv r => cases ha
    | server => exact .inl ⟨rfl, hs⟩
    | thread uid =>
      obtain ⟨h1, h2⟩ := (threadStep_move hs).vmInfo
      exact .inr ⟨h1, h2, fun _ => rfl⟩
    | exit uid i => cases hs; exact .inr ⟨rfl, rfl, fun _ => rfl⟩
    | attach uid i => cases hs; exact .inr ⟨rfl, rfl, fun _ => rfl⟩
    | vmReady peer =>
      cases hs
      obtain ⟨h1, h2⟩ := hother (rpcVmReady_move s peer)
      exact .inr ⟨h1, h2, fun _ => rfl⟩
    | host k => cases hs; exact .inr ⟨rfl, rfl, fun _ => rfl⟩

theorem asked_server {h : Host κ} {old : Option CivVmInfo} {s s' : Sys κ} {f : Found} (hi : Asked old (s, f))
    (hs : serverStep h s = some s') : Asked old (s', look s .server f) := by
  unfold Asked at hi
  cases hpc : s.server <;> simp only [hpc] at hi <;> simp only [serverStep, hpc] at hs
  case infoFind name =>
    obtain ⟨rfl, hold⟩ := hi
    split at hs <;> rename_i hm
    · cases hs
      simp [Asked, Sys.undefined, look, hpc, hold, hm]
    · cases hf : findVmInstance s.vmis name <;> rw [hf] at hs <;> cases hs <;>
        simp [Asked, Sys.goto, look, hpc, hf, hold, hm]
  case infoConstruct name id =>
    subst hi
    split at hs <;> cases hs <;> simp [Asked, Sys.goto, Sys.setKernel, look, hpc]
  case infoCid name id =>
    subst hi
    split at hs <;> cases hs <;> simp [Asked, Sys.access, Sys.goto, Sys.undefined, look, hpc]
  case infoState name id cid =>
    subst hi
    cases hv : s.vmAt id <;> rw [hv] at hs <;> cases hs <;>
      simp [Asked, Sys.access, Sys.showInfo, Sys.goto, Sys.undefined, look, hpc, hv]
  case reply | clear =>
    cases hs
    simpa [Asked, Sys.goto, look, hpc] using hi
  case loop | exited => cases hs

theorem asked_step {h : Host κ} {old : Option CivVmInfo} {p p' : Sys κ × Found} {a : Act κ} (hi : Asked old p)
    (ha : a.isRecv = false) (hs : withHistory (step h) look p a = some p') : Asked old p' := by
  obtain ⟨s, f⟩ := p
  obtain ⟨s', f'⟩ := p'
  obtain ⟨hstep, rfl⟩ := withHistory_eq.1 hs
  rcases vmInfo_aside ha hstep with ⟨rfl, hserve⟩ | ⟨hserver, hinfo, hlook⟩
  · exact asked_server hi hserve
  · unfold Asked at hi ⊢
    rw [hlook]
    dsimp only at hi ⊢
    rw [hserver, hinfo]
    exact hi

/-- A request that has found a VM listed leaves what it found out about it in
the segment, and any other request leaves what was there. -/
theorem serveGetVmInfo_vmInfo {h : Host κ} {s : Sys κ} {shm shm' : ClientShm} {acts : List (Act κ)} {f : Found}
    (hs : serveGetVmInfo h s shm acts = some (f, shm')) :
    shm'.vmInfo = (if f.listed then f.info else shm.vmInfo) ∧ (f.listed = false → f.info = none) := by
  simp only [serveGetVmInfo, Option.bind_eq_bind, Option.bind_eq_some_iff] at hs
  obtain ⟨name, -, s₁, hrecv, ⟨s₂, f₂⟩, hrun, hs⟩ := hs
  split at hs
  · rename_i hdone
    simp only [Bool.and_eq_true, Bool.not_eq_true', List.any_eq_false, Bool.not_eq_true] at hdone
    cases hs
    have h0 : Asked shm.vmInfo (s₁, ({} : Found)) := by
      unfold recv at hrecv
      split at hrecv
      · cases hrecv
        exact ⟨rfl, rfl⟩
      · cases hrecv
    have hi : Asked shm.vmInfo (s₂, f₂) :=
      run_keeps_guarded (fun _ _ _ hi ha hs => asked_step hi ha hs) hrun (guarded_of_forall hdone.2) h0
    unfold Asked at hi
    dsimp only at hi ⊢
    cases hpc : s₂.server <;> simp only [hpc, ServerPc.handled, Bool.false_eq_true, false_and] at hdone hi
    · exact hi
    · exact hi
  · cases hs

/-! ## What a request finds -/

/-- What the registry has under a name. -/
def entryOf (vmis : List VmBuilderQemu) (name : String) : Found :=
  match findVmInstance vmis name with
  | none => {}
  | some id => ⟨true, vmis[id]?.map fun vb => ⟨vb.vsockCid, vb.state⟩⟩

/-- The request for `name` so far, with the registry as it was. -/
def Looks (vmis : List VmBuilderQemu) (name : String) (p : Sys κ × Found) : Prop :=
  p.1.vmis = vmis ∧
    match p.1.server with
    | .infoFind n => n = name ∧ p.2 = {}
    | .infoConstruct _ id | .infoCid _ id => findVmInstance vmis name = some id ∧ p.2 = ⟨true, none⟩
    | .infoState _ id cid =>
      findVmInstance vmis name = some id ∧ p.2.listed = true ∧ vmis[id]?.map (·.vsockCid) = some cid
    | .reply _ | .clear | .loop => p.2 = entryOf vmis name
    | .exited _ => p.2.listed = (entryOf vmis name).listed ∧ p.2.info = none
    | _ => False

theorem looks_server {h : Host κ} {vmis : List VmBuilderQemu} {name : String} {s s' : Sys κ} {f : Found}
    (hi : Looks vmis name (s, f)) (hs : serverStep h s = some s') : Looks vmis name (s', look s .server f) := by
  obtain ⟨rfl, hi⟩ := hi
  cases hpc : s.server <;> simp only [hpc] at hi <;> simp only [serverStep, hpc] at hs
  case infoFind n =>
    obtain ⟨rfl, rfl⟩ := hi
    split at hs <;> rename_i hm
    · cases hs
      simp [Looks, Sys.undefined, look, hpc, hm]
    · cases hf : findVmInstance s.vmis n <;> rw [hf] at hs <;> cases hs <;>
        simp [Looks, Sys.goto, look, hpc, hf, entryOf, hm]
  case infoConstruct n id =>
    obtain ⟨hf, rfl⟩ := hi
    split at hs <;> cases hs <;> simp [Looks, Sys.goto, Sys.setKernel, look, hpc, hf, entryOf]
  case infoCid n id =>
    obtain ⟨hf, rfl⟩ := hi
    cases hv : s.vmAt id <;> rw [hv] at hs <;> cases hs
    · simp [Looks, Sys.access, Sys.undefined, look, hpc, hf]
    · simp [Looks, Sys.access, Sys.goto, look, hpc, hf, vmAt_get hv]
  case infoState n id cid =>
    obtain ⟨hf, hl, hcid⟩ := hi
    cases hv : s.vmAt id <;> rw [hv] at hs <;> cases hs
    · simp [Looks, Sys.access, Sys.undefined, look, hpc, hf, hl, hcid]
    · rename_i vb
      rw [vmAt_get hv] at hcid
      cases hcid
      simp [Looks, Sys.access, Sys.showInfo, Sys.goto, look, hpc, hf, hv, vmAt_get hv, hl, entryOf]
  case reply | clear =>
    cases hs
    simpa [Looks, Sys.goto, look, hpc] using hi
  case loop | exited => cases hs

/-- When no other thread gets in between, a request for `name` finds the VM that
is registered under that very name, and what it finds out about it is its cid
and state. -/
theorem serveGetVmInfo_finds {h : Host κ} {s : Sys κ} {shm shm' : ClientShm} {name : String} {steps : Nat} {f : Found}
    (hn : shm.vmName = some name) (hs : serveGetVmInfo h s shm (List.replicate steps .server) = some (f, shm')) :
    f.listed = (entryOf s.vmis name).listed ∧ ∀ vi, f.info = some vi → (entryOf s.vmis name).info = some vi := by
  simp only [serveGetVmInfo, Option.bind_eq_bind, Option.bind_eq_some_iff] at hs
  obtain ⟨n, hn', s₁, hrecv, ⟨s₂, f₂⟩, hrun, hs⟩ := hs
  cases hn.symm.trans hn'
  split at hs
  · rename_i hdone
    cases hs
    have h0 : Looks s.vmis name (s₁, {}) := by
      unfold recv at hrecv
      split at hrecv
      · cases hrecv
        exact ⟨rfl, rfl, rfl⟩
      · cases hrecv
    obtain ⟨-, hi⟩ : Looks s.vmis name (s₂, f₂) := by
      refine run_keeps_guarded (I := Looks s.vmis name) (G := fun _ a => a = Act.server) ?_ hrun
        (guarded_of_forall fun a ha => List.eq_of_mem_replicate ha) h0
      rintro ⟨s, f⟩ _ ⟨s', f'⟩ hl rfl hstep
      obtain ⟨hserve, rfl⟩ := withHistory_eq.1 hstep
      exact looks_server hl (serverStep_of_step hserve)
    dsimp only at hdone hi
    cases hpc : s₂.server <;> simp only [hpc, ServerPc.handled, Bool.false_and, Bool.false_eq_true] at hdone hi
    · rw [hi]
      exact ⟨rfl, fun _ hvi => hvi⟩
    · rw [hi.1, hi.2]
      exact ⟨rfl, nofun⟩
  · cases hs

/-! ## One call -/

/-- What `GetVmInfo` found in the call. -/
def InfoCall.found (h : Host κ) (c : InfoCall κ) (shm : ClientShm) : Found :=
  match c.request with
  | .served s acts => ((serveGetVmInfo h s { shm with vmName := some c.name } acts).map (·.1)).getD {}
  | _ => {}

/-- The call returns the cid and state that `GetVmInfo` found for this request,
and `(0, kVmUnknown)` when it found none. -/
def Answered (h : Host κ) (shm : ClientShm) (c : InfoCall κ) : Prop :=
  ∀ r, getCivVmInfo h c shm = some r → r.1 = .ok ((c.found h shm).info.getD ⟨0, .unknown⟩)

/-- There is no `VmInfo` and room for one, or one that says `(0, kVmUnknown)`. -/
def Blank (shm : ClientShm) (fits : Bool) : Prop := shm.vmInfo = some ⟨0, .unknown⟩ ∨ (shm.vmInfo = none ∧ fits = true)

/-- The name fits, `Notify` does not throw, and the server finds a VM of the
name and the answer fits, or no answer of an earlier call is in the segment. -/
def Fresh (h : Host κ) (shm : ClientShm) (c : InfoCall κ) : Prop :=
  c.nameFits = true ∧
    match c.request with
    | .threw _ => False
    | .unserved => Blank shm c.infoFits
    | .served s acts =>
      ∀ f shm', serveGetVmInfo h s { shm with vmName := some c.name } acts = some (f, shm') →
        if f.listed then f.info.isSome = true ∨ c.infoFits = true else Blank shm c.infoFits

theorem findOrConstruct_blank (shm : ClientShm) (fits : Bool) :
    (findOrConstructVmInfo shm fits).1 = .ok ⟨0, .unknown⟩ ↔ Blank shm fits := by
  unfold findOrConstructVmInfo Blank
  cases shm.vmInfo with
  | none => cases fits <;> simp
  | some vi => simp

theorem findOrConstruct_found {shm : ClientShm} {info : Option CivVmInfo} (hs : shm.vmInfo = info) (fits : Bool) :
    (findOrConstructVmInfo shm fits).1 = .ok (info.getD ⟨0, .unknown⟩) ↔ info.isSome = true ∨ fits = true := by
  unfold findOrConstructVmInfo
  rw [hs]
  cases info with
  | none => cases fits <;> simp
  | some vi => simp

theorem answered_iff (h : Host κ) (shm : ClientShm) (c : InfoCall κ) : Answered h shm c ↔ Fresh h shm c := by
  unfold Answered Fresh getCivVmInfo prepareGetGuestInfoClientShm InfoCall.found
  by_cases hfits : c.nameFits = true
  · simp only [hfits, if_true, true_and]
    cases c.request with
    | threw e => simp
    | unserved =>
      simp only [Option.some.injEq, forall_eq', Option.getD_none]
      exact findOrConstruct_blank { shm with vmName := some c.name } c.infoFits
    | served s acts =>
      rcases hserve : serveGetVmInfo h s { shm with vmName := some c.name } acts with _ | ⟨f, shm₁⟩
      · simp [hserve]
      · obtain ⟨hinfo, hunlisted⟩ := serveGetVmInfo_vmInfo hserve
        simp only [hserve, Option.map_some, Option.getD_some, Option.some.injEq, forall_eq', Prod.mk.injEq, and_imp]
        have hcall : (findOrConstructVmInfo shm₁ c.infoFits).1 = .ok (f.info.getD ⟨0, .unknown⟩) ↔
            if f.listed then f.info.isSome = true ∨ c.infoFits = true else Blank shm c.infoFits := by
          by_cases hl : f.listed = true
          · rw [if_pos hl] at hinfo ⊢
            exact findOrConstruct_found hinfo c.infoFits
          · rw [if_neg hl] at hinfo ⊢
            rw [hunlisted (by simpa using hl), Blank, ← hinfo]
            exact findOrConstruct_blank shm₁ c.infoFits
        rw [hcall]
        exact ⟨fun hc _ _ hf _ => hf ▸ hc, fun hc => hc f shm₁ rfl rfl⟩
  · simp [hfits]

/-! ## Any number of calls -/

/-- In every sequence of calls on one client, for all names, all states of the
server and all that happens meanwhile: the calls that return what was found for
their own name, and `(0, kVmUnknown)` when nothing was, are exactly those that
find no answer of an earlier call, or whose name the server finds. -/
theorem info_answered_iff (h : Host κ) (cs : List (InfoCall κ)) :
    Guarded (infoStep h) (Answered h) {} cs ↔ Guarded (infoStep h) (Fresh h) {} cs :=
  guarded_congr (I := fun _ => True) (fun _ _ _ _ _ _ => trivial) (fun shm c _ => answered_iff h shm c) trivial

/-- One VM is registered, by the name `a`. -/
def oneVm : Sys Unit where
  vmis := [startedVm 0 "a" true]
  world := { kernel := () }
  nextUid := 1

/-- A call that the server takes up in this state, with so many steps. -/
def callOn (name : String) (steps : Nat) : InfoCall Unit where
  name := name
  request := .served oneVm (List.replicate steps .server)

/-- After a call for `a`, a call for `b`, which the server does not have,
returns the cid and state of `a`. -/
theorem info_of_another : ∃ shm, infoStep (stillHost [] []) {} (callOn "a" 6) = some shm ∧
    (getCivVmInfo (stillHost [] []) (callOn "b" 3) shm).map (·.1) = some (.ok ⟨1000, .running⟩) ∧
    (callOn "b" 3).found (stillHost [] []) shm = {} ∧
    ¬ Guarded (infoStep (stillHost [] [])) (Answered (stillHost [] [])) {} [callOn "a" 6, callOn "b" 3] := by
  refine ⟨⟨some "a", some ⟨1000, .running⟩⟩, by rfl, by rfl, by rfl, fun hg => ?_⟩
  obtain ⟨-, hrest⟩ := hg
  have hb := (hrest ⟨some "a", some ⟨1000, .running⟩⟩ (by rfl)).1 (.ok ⟨1000, .running⟩, ⟨some "b", some ⟨1000, .running⟩⟩)
    (by rfl)
  exact absurd hb (by decide)

end VmManager
