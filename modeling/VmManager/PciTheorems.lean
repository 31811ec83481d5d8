import VmManager.Lib.Bus
import VmManager.SysfsTheorems
/-!
# Theorems about PCI passthrough

`PassthroughOnePciDev` hands the devices of an IOMMU group to `vfio-pci`, which
is the stub driver of the bus, and takes them back. The steps of its loop are
those of `Bus.State`, so what it does to a group is known from there.
-/
open Text Bus

namespace VmManager

variable {κ : Type}

def groupDir (pciId : String) : String := kPciDevicePath ++ pciId ++ "/iommu_group/devices"

def driverLink (pciId x : String) : String := groupDir pciId ++ "/" ++ x ++ "/driver"

/-- The text that `PassthroughOnePciDev` writes for a device. -/
def venDev (h : Host κ) (pciId x : String) (k : κ) : String :=
  let path := groupDir pciId ++ "/" ++ x
  hex (readSysFileOf (h.readFile k (path ++ "/vendor")) 16 (h.uninit k)) ++ " " ++
    hex (readSysFileOf (h.readFile k (path ++ "/device")) 16 (h.uninit k))

def vfioLink (h : Host κ) (k : κ) (path : String) : Bool := h.isSymlink k path && h.symlinkName k path == "vfio-pci"

/-- What is assumed of the kernel, for a group with the devices `devs`. The link
to the driver of a device that was unbound may be there for a while, and nobody
knows then what it points to: it is `stale`. -/
structure PciKernel (h : Host κ) (pciId : String) (devs : List String) (bus : κ → Bus.State String String)
    (stale : κ → String → Bool) (ident : String → String) (hasNative : String → Bool) : Prop where
  nodup : devs.Nodup
  loaded : ∀ k, h.pathExists k kVfioModulePath = true ∧ h.pathExists k kVfioPciModulePath = true
  group : ∀ k, h.pathExists k (groupDir pciId) = true ∧ h.isDirectory k (groupDir pciId) = true ∧
    h.listDir k (groupDir pciId) = devs
  reads : ∀ k, ∀ x ∈ devs, venDev h pciId x k = ident x
  driver : ∀ k, ∀ x ∈ devs, h.pathExists k (driverLink pciId x) = true ↔ (bus k).binding x ≠ .none ∨ stale k x = true
  vfio : ∀ k, ∀ x ∈ devs, stale k x = false → (vfioLink h k (driverLink pciId x) = true ↔ (bus k).binding x = .stub)
  newId : ∀ k v, bus (h.writeFile k kVfioPciNewId v) = (bus k).newId ident v
  removeId : ∀ k v, bus (h.writeFile k kVfioPciRemoveId v) = (bus k).removeId v
  unbind : ∀ k, ∀ x ∈ devs, bus (h.writeFile k (driverLink pciId x ++ "/unbind") x) = (bus k).unbind x
  stubUnbind : ∀ k x, bus (h.writeFile k kVfioPciUnbind x) = (bus k).stubUnbind x
  probe : ∀ k x, bus (h.writeFile k kPciDriverProbe x) = (bus k).probe ident hasNative x
  sleep : ∀ k, bus (h.sleep k) = bus k
  staleWrite : ∀ k file s y, file ∈ [kVfioPciNewId, kVfioPciRemoveId, kVfioPciUnbind, kPciDriverProbe] →
    stale (h.writeFile k file s) y = true → stale k y = true
  staleUnbind : ∀ k, ∀ x ∈ devs, ∀ y, stale (h.writeFile k (driverLink pciId x ++ "/unbind") x) y = true →
    y = x ∨ stale k y = true
  staleSleep : ∀ k y, stale (h.sleep k) y = true → stale k y = true

theorem loadKernelModule_run {h : Host κ} {path module : String} {k : κ} (hp : h.pathExists k path = true) :
    (loadKernelModule h path module).run k = (true, k) := by
  unfold loadKernelModule
  simp only [run_bind, run_get, hp]
  rfl

theorem isVfioDriver_run (h : Host κ) (path : String) (k : κ) :
    (isVfioDriver h path).run k = (vfioLink h k path, k) := rfl

/-- `new_id` is written once, as the result of that is 0. -/
theorem writeNewId_run (h : Host κ) (id : String) (k : κ) :
    (writeNewId h id).run k = (true, h.writeFile k kVfioPciNewId id) := rfl

/-- The device was unbound, and its id removed before when it was with
`vfio-pci`. -/
def afterUnbind (h : Host κ) (pciId : String) (ident : String → String) (k : κ) (x : String) : κ :=
  h.writeFile (if vfioLink h k (driverLink pciId x) then h.writeFile k kVfioPciRemoveId (ident x) else k)
    (driverLink pciId x ++ "/unbind") x

section Kernel
variable {h : Host κ} {pciId : String} {devs : List String} {bus : κ → Bus.State String String}
  {stale : κ → String → Bool} {ident : String → String} {hasNative : String → Bool}
  (hk : PciKernel h pciId devs bus stale ident hasNative)
include hk

theorem passthroughOnePciDev_run (action : PciPassthroughAction) (k : κ) :
    (passthroughOnePciDev h pciId action).run k = (passthroughGroup h (groupDir pciId) action devs).run k := by
  obtain ⟨hv, hvp⟩ := hk.loaded k
  obtain ⟨hd, hdir, hl⟩ := hk.group k
  unfold groupDir at hd hdir hl
  unfold passthroughOnePciDev
  simp only [run_bind, loadKernelModule_run hv, loadKernelModule_run hvp, run_get, hd, hdir, hl, Bool.not_true,
    Bool.or_self, Bool.false_eq_true, if_false]
  rfl

/-! ## One device -/

/-- Waiting for the link changes nothing on the bus. -/
theorem waitUnbound_run (driver : String) (n : Nat) (k : κ) :
    let r := (waitUnbound h driver n).run k
    bus r.2 = bus k ∧ (∀ y, stale r.2 y = true → stale k y = true) ∧ (r.1 = true → h.pathExists r.2 driver = false) := by
  induction n generalizing k with
  | zero => exact ⟨rfl, fun _ hy => hy, fun hr => (by cases hr)⟩
  | succ n ih =>
    unfold waitUnbound
    simp only [run_bind, run_get]
    by_cases hp : h.pathExists k driver = true
    · simp only [hp, Bool.not_true, Bool.false_eq_true, if_false, run_bind, run_modify]
      obtain ⟨hb, hs, hr⟩ := ih (h.sleep k)
      exact ⟨hb.trans (hk.sleep k), fun y hy => hk.staleSleep k y (hs y hy), hr⟩
    · rw [Bool.not_eq_true] at hp
      simp only [hp, Bool.not_false, if_true]
      exact ⟨rfl, fun _ hy => hy, fun _ => hp⟩

/-- What the body of the loop does before it writes `new_id`. -/
theorem passthroughGroupDev_run {x : String} (hx : x ∈ devs) (k : κ) :
    (passthroughGroupDev h (groupDir pciId) .passthrough x).run k =
      if h.pathExists k (driverLink pciId x) then
        let r := (waitUnbound h (driverLink pciId x) 2000).run (afterUnbind h pciId ident k x)
        if r.1 then (true, h.writeFile r.2 kVfioPciNewId (ident x)) else (false, r.2)
      else (true, h.writeFile k kVfioPciNewId (ident x)) := by
  have hid := hk.reads k x hx
  unfold venDev at hid
  unfold afterUnbind driverLink passthroughGroupDev
  simp only [run_bind, readSysFile_run, hid, run_get]
  by_cases hp : h.pathExists k (groupDir pciId ++ "/" ++ x ++ "/driver") = true
  · simp only [hp, if_true, run_bind, isVfioDriver_run]
    by_cases hv : vfioLink h k (groupDir pciId ++ "/" ++ x ++ "/driver") = true
    · simp only [hv, if_true, run_bind, writeSysFile_run]
      generalize (waitUnbound h _ 2000).run _ = r
      rcases r with ⟨_ | _, k'⟩ <;> rfl
    · rw [Bool.not_eq_true] at hv
      simp only [hv, Bool.false_eq_true, if_false, run_bind, writeSysFile_run]
      generalize (waitUnbound h _ 2000).run _ = r
      rcases r with ⟨_ | _, k'⟩ <;> rfl
  · rw [Bool.not_eq_true] at hp
    simp only [hp, Bool.false_eq_true, if_false, writeNewId_run]

theorem bus_afterUnbind {x : String} (hx : x ∈ devs) {k : κ} (hs : stale k x = false) (hb : (bus k).binding x ≠ .none) :
    bus (afterUnbind h pciId ident k x) = (bus k).detach ident x := by
  rw [afterUnbind, hk.unbind _ x hx, State.detach, if_neg hb]
  by_cases hv : vfioLink h k (driverLink pciId x) = true
  · rw [if_pos hv, if_pos ((hk.vfio k x hx hs).1 hv), hk.removeId]
  · rw [if_neg hv, if_neg (fun hst => hv ((hk.vfio k x hx hs).2 hst))]

theorem stale_afterUnbind {x : String} (hx : x ∈ devs) {k : κ} {y : String}
    (hy : stale (afterUnbind h pciId ident k x) y = true) : y = x ∨ stale k y = true := by
  rcases hk.staleUnbind _ x hx y hy with rfl | hy
  · exact .inl rfl
  · right
    split at hy
    · exact hk.staleWrite k _ _ y (by simp) hy
    · exact hy

/-- The device is handed over, or the function returns false with the device
unbound. -/
theorem passthroughGroupDev_take {x : String} (hx : x ∈ devs) {k : κ} (hs : stale k x = false) :
    let r := (passthroughGroupDev h (groupDir pciId) .passthrough x).run k
    (r.1 = true ∧ bus r.2 = (bus k).take ident x ∧ ∀ y, stale r.2 y = true → stale k y = true) ∨
      (r.1 = false ∧ bus r.2 = (bus k).detach ident x ∧ ∀ y, stale r.2 y = true → y = x ∨ stale k y = true) := by
  rw [passthroughGroupDev_run hk hx]
  have hdriver := hk.driver k x hx
  simp only [hs, Bool.false_eq_true, or_false] at hdriver
  by_cases hp : h.pathExists k (driverLink pciId x) = true
  · have hbus := bus_afterUnbind hk hx hs (hdriver.1 hp)
    have hstale := fun y => stale_afterUnbind hk hx (k := k) (y := y)
    obtain ⟨hwb, hws, hwr⟩ := waitUnbound_run hk (driverLink pciId x) 2000 (afterUnbind h pciId ident k x)
    rw [if_pos hp]
    dsimp only
    generalize (waitUnbound h (driverLink pciId x) 2000).run _ = r at hwb hws hwr
    by_cases hr : r.1 = true
    · left
      rw [if_pos hr]
      refine ⟨rfl, ?_, fun y hy => ?_⟩
      · rw [hk.newId, hwb, hbus]
        rfl
      · have hr₂ := hk.staleWrite r.2 _ _ y (by simp) hy
        rcases hstale y (hws y hr₂) with hyx | hk₂
        · -- The link of `x` was seen to be gone.
          have hlink := (hk.driver r.2 x hx).2 (.inr (hyx ▸ hr₂))
          rw [hwr hr] at hlink
          cases hlink
        · exact hk₂
    · right
      rw [if_neg hr]
      exact ⟨rfl, hwb.trans hbus, fun y hy => hstale y (hws y hy)⟩
  · left
    have hb : (bus k).binding x = .none := by
      by_contra hb
      exact hp (hdriver.2 hb)
    rw [if_neg hp]
    refine ⟨rfl, ?_, fun y hy => hk.staleWrite k _ _ y (by simp) hy⟩
    rw [hk.newId, State.take, State.detach, if_pos hb]

theorem passthroughGroupDev_restore_run {x : String} (hx : x ∈ devs) (k : κ) :
    (passthroughGroupDev h (groupDir pciId) .restore x).run k =
      (true, h.writeFile (h.sleep (if vfioLink h k (driverLink pciId x) then
        h.writeFile (h.writeFile k kVfioPciRemoveId (ident x)) kVfioPciUnbind x else k)) kPciDriverProbe x) := by
  have hid := hk.reads k x hx
  unfold venDev at hid
  unfold driverLink passthroughGroupDev
  simp only [run_bind, readSysFile_run, hid, isVfioDriver_run]
  by_cases hv : vfioLink h k (groupDir pciId ++ "/" ++ x ++ "/driver") = true
  · simp only [hv, if_true]
    rfl
  · rw [Bool.not_eq_true] at hv
    simp only [hv, Bool.false_eq_true, if_false]
    rfl

/-- The device is taken back. Where the link is stale it may pass for one to
`vfio-pci`. -/
theorem passthroughGroupDev_release {x : String} (hx : x ∈ devs) {k : κ}
    (hs : stale k x = true → (bus k).binding x = .none) :
    let r := (passthroughGroupDev h (groupDir pciId) .restore x).run k
    r.1 = true ∧ (∀ y, stale r.2 y = true → stale k y = true) ∧
      (bus r.2 = (bus k).release ident hasNative x ∨ ((bus k).binding x = .none ∧
        bus r.2 = (((bus k).removeId (ident x)).stubUnbind x).probe ident hasNative x)) := by
  rw [passthroughGroupDev_restore_run hk hx]
  refine ⟨rfl, fun y hy => ?_, ?_⟩
  · have hy := hk.staleSleep _ y (hk.staleWrite _ _ _ y (by simp) hy)
    split at hy
    · exact hk.staleWrite k _ _ y (by simp) (hk.staleWrite _ _ _ y (by simp) hy)
    · exact hy
  · rw [hk.probe, hk.sleep]
    by_cases hv : vfioLink h k (driverLink pciId x) = true
    · rw [if_pos hv, hk.stubUnbind, hk.removeId]
      cases hst : stale k x with
      | true => exact .inr ⟨hs hst, rfl⟩
      | false =>
        left
        rw [State.release, if_pos ((hk.vfio k x hx hst).1 hv)]
    · left
      have hb : (bus k).binding x ≠ .stub := by
        intro hb
        cases hst : stale k x with
        | true => rw [hs hst] at hb; cases hb
        | false => exact hv ((hk.vfio k x hx hst).2 hb)
      rw [if_neg hv, State.release, if_neg hb]

/-! ## The group -/

/-- The loop hands over all devices, or stops at one after those before it. -/
theorem passthroughGroup_take {post : List String} (hpost : ∀ x ∈ post, x ∈ devs) {k : κ}
    (hs : ∀ y, stale k y = false) :
    let r := (passthroughGroup h (groupDir pciId) .passthrough post).run k
    (r.1 = true ∧ bus r.2 = (bus k).takeAll ident post ∧ ∀ y, stale r.2 y = false) ∨
      (r.1 = false ∧ ∃ p x q, post = p ++ x :: q ∧ bus r.2 = ((bus k).takeAll ident p).detach ident x ∧
        ∀ y, stale r.2 y = true → y = x) := by
  induction post generalizing k with
  | nil => exact .inl ⟨rfl, rfl, hs⟩
  | cons x post ih =>
    unfold passthroughGroup
    simp only [run_bind]
    have hstep := passthroughGroupDev_take hk (hpost x List.mem_cons_self) (hs x)
    generalize (passthroughGroupDev h (groupDir pciId) .passthrough x).run k = r at hstep
    rcases hstep with ⟨hr, hb, hst⟩ | ⟨hr, hb, hst⟩
    · rw [if_pos hr]
      have hs' : ∀ y, stale r.2 y = false := by
        intro y
        rw [← Bool.not_eq_true]
        intro hy
        have := hst y hy
        simp [hs y] at this
      rcases ih (fun y hy => hpost y (List.mem_cons_of_mem x hy)) hs' with ⟨hr', hb', hst'⟩ | ⟨hr', p, z, q, hp, hb', hst'⟩
      · exact .inl ⟨hr', by rw [hb', hb]; rfl, hst'⟩
      · exact .inr ⟨hr', x :: p, z, q, by rw [hp]; rfl, by rw [hb', hb]; rfl, hst'⟩
    · rw [if_neg (by simp [hr])]
      refine .inr ⟨rfl, [], x, post, rfl, hb, fun y hy => ?_⟩
      rcases hst y hy with rfl | hy
      · rfl
      · rw [hs y] at hy
        cases hy

/-- The loop takes back one device after the other. -/
theorem passthroughGroup_restore {pre post : List String} (hd : devs = pre ++ post) {k : κ}
    (hs : ∀ y ∈ post, stale k y = true → (bus k).binding y = .none) (hr : State.Restored ident hasNative devs pre (bus k)) :
    State.Restored ident hasNative devs devs (bus ((passthroughGroup h (groupDir pciId) .restore post).run k).2) := by
  induction post generalizing pre k with
  | nil =>
    rw [List.append_nil] at hd
    exact hd ▸ hr
  | cons x post ih =>
    have hx : x ∈ devs := by simp [hd]
    unfold passthroughGroup
    simp only [run_bind]
    obtain ⟨htrue, hst, hbus⟩ := passthroughGroupDev_release hk hx (hs x List.mem_cons_self)
    generalize (passthroughGroupDev h (groupDir pciId) .restore x).run k = r at htrue hst hbus
    rw [if_pos htrue]
    have hrel : State.Released ident hasNative (bus k) x (bus r.2) := by
      rcases hbus with hbus | ⟨hb, hbus⟩
      · rw [hbus]
        exact State.release_released fun hknown => hr.held_of_known hd hknown
      · rw [hbus]
        exact State.removeId_probe_released hb
    have hd' : devs = pre ++ [x] ++ post := by simp [hd]
    refine ih hd' (fun y hy hsy => ?_) (hr.step hd hk.nodup hrel)
    have hne : y ≠ x := by
      rintro rfl
      have hn := hk.nodup
      rw [hd] at hn
      exact (List.nodup_cons.1 (List.nodup_append.1 hn).2.1).1 hy
    rw [hrel.other y hne]
    exact hs y (List.mem_cons_of_mem x hy) (hst y hsy)

end Kernel

/-! ## All devices are bound, and all go back -/

/-- Of the devices with one id, the last is such that `vfio-pci` gets it. -/
def GroupBindable (b : Bus.State String String) (ident : String → String) (devs : List String) : Prop :=
  ∀ pre x post, devs = pre ++ x :: post → (∀ y ∈ post, ident y ≠ ident x) → b.Bindable ident pre x

/-- Exactly when a passthrough that returns true has bound the whole group. -/
theorem passthrough_binds_iff {h : Host κ} {pciId : String} {devs : List String} {bus : κ → Bus.State String String}
    {stale : κ → String → Bool} {ident : String → String} {hasNative : String → Bool}
    (hk : PciKernel h pciId devs bus stale ident hasNative) {k k' : κ} (hs : ∀ y, stale k y = false)
    (hret : (passthroughOnePciDev h pciId .passthrough).run k = (true, k')) :
    (∀ x ∈ devs, (bus k').binding x = .stub) ↔ GroupBindable (bus k) ident devs := by
  rw [passthroughOnePciDev_run hk] at hret
  have hbus : bus k' = (bus k).takeAll ident devs := by
    rcases passthroughGroup_take hk (fun x hx => hx) hs with ⟨-, hb, -⟩ | ⟨hr, -⟩
    · rw [hret] at hb
      exact hb
    · rw [hret] at hr
      cases hr
  rw [hbus]
  constructor
  · intro hall pre x post hd hlast
    exact (State.takeAll_stub_iff hk.nodup (ident x)).1 (fun y hy _ => hall y hy) pre x post hd rfl hlast
  · intro hb x hx
    refine (State.takeAll_stub_iff hk.nodup (ident x)).2 (fun p z q hd hz hq => ?_) x hx rfl
    exact hb p z q hd (hz.symm ▸ hq)

/-! A network card with two ports, which are one group and have one id. -/

def kPort0 : String := "0000:01:00.0"
def kPort1 : String := "0000:01:00.1"
def ports : List String := [kPort0, kPort1]

/-- The link to the driver of a port. -/
def portLink (b : Bus.State String String) (x : String) : Option String :=
  match b.binding x with
  | .none => none
  | .stub => some "vfio-pci"
  | .native => some "igb"

/-- The machine with this card. Its state is that of the bus. -/
def portsHost : Host (Bus.State String String) :=
  liveHost
    (fun _ f =>
      if ports.any fun x => groupDir kPort0 ++ "/" ++ x ++ "/vendor" = f then some "0x8086"
      else if ports.any fun x => groupDir kPort0 ++ "/" ++ x ++ "/device" = f then some "0x1521"
      else none)
    (fun b f => (ports.find? fun x => driverLink kPort0 x = f).bind (portLink b))
    [(kVfioModulePath, []), (kVfioPciModulePath, []), (groupDir kPort0, ports)]
    (fun b f s =>
      if f = kVfioPciNewId then b.newId (fun _ => "8086 1521") s
      else if f = kVfioPciRemoveId then b.removeId s
      else if f = kVfioPciUnbind then b.stubUnbind s
      else if f = kPciDriverProbe then b.probe (fun _ => "8086 1521") (fun _ => true) s
      else if f = driverLink kPort0 s ++ "/unbind" then b.unbind s
      else b)
    id

/-- The ports are bound like this, and no id is in the table. -/
def portsState (binding₀ binding₁ : Binding) : Bus.State String String where
  binding x := if x = kPort0 then binding₀ else if x = kPort1 then binding₁ else .none
  ids _ := false

theorem portsHost_link (b : Bus.State String String) {x : String} (hx : x ∈ ports) :
    portsHost.pathExists b (driverLink kPort0 x) = (portLink b x).isSome ∧
      vfioLink portsHost b (driverLink kPort0 x) = (portLink b x == some "vfio-pci") := by
  have hfind : ∀ x ∈ ports, (ports.find? fun y => driverLink kPort0 y = driverLink kPort0 x) = some x := by decide
  have hread : ∀ x ∈ ports, portsHost.readFile (portsState .none .none) (driverLink kPort0 x) = none := by decide
  have hdir : ∀ x ∈ ports, portsHost.isDirectory (portsState .none .none) (driverLink kPort0 x) = false := by
    decide
  have hlink : ((ports.find? fun y => driverLink kPort0 y = driverLink kPort0 x).bind (portLink b)) = portLink b x := by
    rw [hfind x hx]
    rfl
  have hexists : portsHost.pathExists b (driverLink kPort0 x) =
      ((portsHost.readFile (portsState .none .none) (driverLink kPort0 x)).isSome ||
        ((ports.find? fun y => driverLink kPort0 y = driverLink kPort0 x).bind (portLink b)).isSome ||
        portsHost.isDirectory (portsState .none .none) (driverLink kPort0 x)) := rfl
  have hvfio : vfioLink portsHost b (driverLink kPort0 x) =
      (((ports.find? fun y => driverLink kPort0 y = driverLink kPort0 x).bind (portLink b)).isSome &&
        ((ports.find? fun y => driverLink kPort0 y = driverLink kPort0 x).bind (portLink b)).getD
          (driverLink kPort0 x) == "vfio-pci") := rfl
  rw [hexists, hvfio, hlink, hread x hx, hdir x hx]
  cases portLink b x <;> simp

theorem portsHost_kernel :
    PciKernel portsHost kPort0 ports (fun b => b) (fun _ _ => false) (fun _ => "8086 1521") (fun _ => true) where
  nodup := by decide
  loaded _ := ⟨rfl, rfl⟩
  group _ := ⟨rfl, rfl, rfl⟩
  reads b x hx := by
    have hall : ∀ x ∈ ports, venDev portsHost kPort0 x (portsState .none .none) = "8086 1521" := by decide
    exact hall x hx
  driver b x hx := by
    rw [(portsHost_link b hx).1, portLink]
    cases b.binding x <;> simp
  vfio b x hx _ := by
    rw [(portsHost_link b hx).2, portLink]
    cases b.binding x <;> decide
  newId _ _ := rfl
  removeId _ _ := rfl
  unbind b x hx := by
    have hne : ∀ x ∈ ports, ∀ f ∈ [kVfioPciNewId, kVfioPciRemoveId, kVfioPciUnbind, kPciDriverProbe],
        driverLink kPort0 x ++ "/unbind" ≠ f := by decide
    have hne := hne x hx
    simp only [List.forall_mem_cons] at hne
    simp [portsHost, liveHost, hne]
  stubUnbind _ _ := rfl
  probe _ _ := rfl
  sleep _ := rfl
  staleWrite _ _ _ _ _ hy := by cases hy
  staleUnbind _ _ _ _ hy := by cases hy
  staleSleep _ _ hy := by cases hy

/-- A port without a driver goes along with the other. -/
theorem ports_bound :
    PciKernel portsHost kPort0 ports (fun b => b) (fun _ _ => false) (fun _ => "8086 1521") (fun _ => true) ∧
      GroupBindable (portsState .native .none) (fun _ => "8086 1521") ports := by
  have hret : ((passthroughOnePciDev portsHost kPort0 .passthrough).run (portsState .native .none)).1 = true := by
    rfl
  refine ⟨portsHost_kernel, (passthrough_binds_iff portsHost_kernel (fun _ => rfl) (Prod.ext hret rfl)).1 ?_⟩
  decide

/-- Of two ports with drivers the second is refused, and left without one. -/
theorem second_port_unbound :
    PciKernel portsHost kPort0 ports (fun b => b) (fun _ _ => false) (fun _ => "8086 1521") (fun _ => true) ∧
      ((passthroughOnePciDev portsHost kPort0 .passthrough).run (portsState .native .native)).1 = true ∧
      ((passthroughOnePciDev portsHost kPort0 .passthrough).run (portsState .native .native)).2.binding kPort1 = .none := by
  refine ⟨portsHost_kernel, ?_, ?_⟩
  · rfl
  · rfl

/-- A group whose ids `vfio-pci` did not know goes back to the host's drivers,
whether or not the passthrough came to its end. -/
theorem restore_undoes_passthrough {h : Host κ} {pciId : String} {devs : List String} {bus : κ → Bus.State String String}
    {stale : κ → String → Bool} {ident : String → String} {hasNative : String → Bool}
    (hk : PciKernel h pciId devs bus stale ident hasNative) {k : κ} (hs : ∀ y, stale k y = false)
    (hnew : ∀ x ∈ devs, (bus k).ids (ident x) = false) :
    let k₁ := ((passthroughOnePciDev h pciId .passthrough).run k).2
    let k₂ := ((passthroughOnePciDev h pciId .restore).run k₁).2
    ∀ x ∈ devs, (bus k₂).binding x ≠ .stub ∧ (hasNative x = true → (bus k₂).binding x = .native) ∧
      (bus k₂).ids (ident x) = false := by
  intro k₁ k₂
  have hstart : (∀ y ∈ devs, stale k₁ y = true → (bus k₁).binding y = .none) ∧
      State.Restored ident hasNative devs [] (bus k₁) := by
    have hend := passthroughGroup_take hk (fun x (hx : x ∈ devs) => hx) hs
    rw [← passthroughOnePciDev_run hk] at hend
    rcases hend with ⟨-, hb, hst⟩ | ⟨-, p, x, q, hd, hb, hst⟩
    · refine ⟨fun y _ hy => ?_, fun y hy => (by cases hy), ?_⟩
      · rw [hst y] at hy
        cases hy
      · rw [hb]
        have hn : (devs ++ []).Nodup := by simpa using hk.nodup
        have hhold := State.holdsFirst_of_takeAll hn (by simpa using hnew)
        rwa [List.append_nil] at hhold
    · refine ⟨fun y _ hy => ?_, fun y hy => (by cases hy), ?_⟩
      · rw [hb, hst y hy, State.detach_binding, if_pos rfl]
      · rw [hb]
        have hhold := State.holdsFirst_of_takeAll (by rw [← hd]; exact hk.nodup) (by rw [← hd]; exact hnew)
        rw [← hd] at hhold
        exact hhold.detach x
  have hd : devs = [] ++ devs := rfl
  have hend := passthroughGroup_restore hk hd hstart.1 hstart.2
  rw [← passthroughOnePciDev_run hk] at hend
  exact hend.back

theorem ports_restored :
    (∀ x ∈ ports, (portsState .native .native).ids ((fun _ => "8086 1521") x) = false) ∧
    let b₁ := ((passthroughOnePciDev portsHost kPort0 .passthrough).run (portsState .native .native)).2
    let b₂ := ((passthroughOnePciDev portsHost kPort0 .restore).run b₁).2
    ∀ x ∈ ports, b₂.binding x ≠ .stub ∧ (true = true → b₂.binding x = .native) ∧ b₂.ids "8086 1521" = false :=
  ⟨fun _ _ => rfl, restore_undoes_passthrough portsHost_kernel (fun _ => rfl) fun _ _ => rfl⟩

end VmManager
