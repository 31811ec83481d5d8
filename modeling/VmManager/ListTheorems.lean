import VmManager.CidTheorems
import VmManager.Segment
/-!
# Theorems about `ListVm`

`ListVm` walks through `vmis_` by an index and does not lock it, so VMs are
removed under it. `Shrinks` sums up what the other threads can do to the names
meanwhile, and the walk is one invariant over it. A line has a name and a state
that are read one after the other: they are of one VM as long as no VM goes in
between that stands there or before it.
-/
open Runs Text

namespace VmManager

variable {κ : Type} {h : Host κ} {s₀ s s' : Sys κ} {g₀ g : Segment} {acts : List (Act κ)} {a : Act κ}

/-- A line of the list: a VM's name and its state. -/
abbrev Entry := String × VmState

def Entry.text (e : Entry) : String := e.1 ++ ":" ++ vmStateToStr e.2

def VmBuilderQemu.entry (vb : VmBuilderQemu) : Entry := (vb.name, vb.state)

def Sys.names (s : Sys κ) : List String := s.vmis.map (·.name)

/-! ## The other threads -/

/-- What is left of the registry when a thread may have removed an instance. -/
structure Shrinks (s s' : Sys κ) : Prop where
  names : s'.names.Sublist s.names
  lists : s'.vmLists = s.vmLists
  server : s'.server = s.server

theorem Shrinks.length_le (hs : Shrinks s s') : s'.vmis.length ≤ s.vmis.length := by
  simpa [Sys.names] using hs.names.length_le

/-! ## The walk -/

/-- No VM is removed at or before the index that the walk reads through. -/
def Steady (h : Host κ) (s₀ : Sys κ) (acts : List (Act κ)) : Prop :=
  Guarded (step h) (fun s a => keepsUse (· = .counted) s a = true) s₀ acts

theorem Steady.of_append {bs : List (Act κ)} (hg : Steady h s₀ (acts ++ bs)) (hr : run (step h) s₀ acts = some s) :
    Steady h s₀ acts := (guarded_append hg hr).1

/-- What the segment holds of the VMs listed so far, in the array that was made
for the names `ns`. -/
structure Listed (h : Host κ) (s₀ : Sys κ) (acts : List (Act κ)) (g : Segment) (es : List Entry) (ns : List String) :
    Prop where
  array : g.listVms = some (es.map Entry.text ++ List.replicate (ns.length - es.length) "")
  made : Passes (step h) (fun s => s.names = ns) s₀ acts
  before : ns.Sublist s₀.names
  names : (es.map (·.1)).Sublist ns
  seen : Steady h s₀ acts → ∀ e ∈ es, Passes (step h) (fun s => ∃ vb ∈ s.vmis, vb.entry = e) s₀ acts

/-- The entries so far, and the names that may still come. -/
def Walk (h : Host κ) (s₀ : Sys κ) (acts : List (Act κ)) (p : Sys κ × Segment) (i : Nat) (rest : List String) : Prop :=
  ∃ es ns, Listed h s₀ acts p.2 es ns ∧ p.1.vmLists = es.map Entry.text ∧ es.length = i ∧
    (es.map (·.1) ++ rest).Sublist ns

theorem Listed.append {es : List Entry} {ns : List String} (hl : Listed h s₀ acts g es ns)
    (hr : run (step h) s₀ acts = some s) (bs : List (Act κ)) : Listed h s₀ (acts ++ bs) g es ns :=
  ⟨hl.array, hl.made.append bs, hl.before, hl.names, fun hg e he => (hl.seen (hg.of_append hr) e he).append bs⟩

theorem Walk.next {i : Nat} {rest rest' : List String} (hw : Walk h s₀ acts (s, g) i rest)
    (hr : run (step h) s₀ acts = some s) (hlists : s'.vmLists = s.vmLists) (hsub : rest'.Sublist rest) :
    Walk h s₀ (acts ++ [a]) (s', g) i rest' := by
  obtain ⟨es, ns, hl, hlists', hlen, hrest⟩ := hw
  exact ⟨es, ns, hl.append hr _, hlists.trans hlists', hlen, ((List.Sublist.refl _).append hsub).trans hrest⟩

end VmManager
