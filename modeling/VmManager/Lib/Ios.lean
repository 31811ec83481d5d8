import VmManager.Lib.Text
/-!
# File streams

A stream of C++ records what went wrong in its state. It throws only for those
parts of the state that its exception mask names, and a new stream's mask names
none.
-/
open Text

namespace Ios

/-- `std::ios_base::iostate`. -/
structure IoState where
  eof : Bool := false
  fail : Bool := false
  bad : Bool := false
  deriving DecidableEq, Repr

namespace IoState

def or (a b : IoState) : IoState := ⟨a.eof || b.eof, a.fail || b.fail, a.bad || b.bad⟩

def meets (a b : IoState) : Bool := a.eof && b.eof || a.fail && b.fail || a.bad && b.bad

@[simp] theorem meets_empty (a : IoState) : a.meets {} = false := by simp [meets]

end IoState

/-- `std::ios_base::failure`. -/
structure Failure where
  state : IoState
  deriving DecidableEq, Repr

structure Stream where
  rdstate : IoState := {}
  exceptions : IoState := {}
  deriving DecidableEq, Repr

namespace Stream

def good (s : Stream) : Bool := s.rdstate = {}

/-- `setstate`, the only place where a stream throws. -/
def setstate (s : Stream) (bits : IoState) : Except Failure Stream :=
  let rdstate := s.rdstate.or bits
  if rdstate.meets s.exceptions then .error ⟨rdstate⟩ else .ok { s with rdstate }

/-- The constructor with a file name. -/
def openFile (opens : Bool) : Except Failure Stream :=
  if opens then .ok {} else setstate {} { fail := true }

/-- An output operation. A stream that is not good does not get as far as the
file. -/
def output (s : Stream) (done : Bool) : Except Failure Stream :=
  if !s.good then s.setstate { fail := true }
  else if done then .ok s
  else s.setstate { bad := true }

/-- `stream << text`, where the buffer takes all of the text or not. -/
def insert (s : Stream) (takes : Bool) : Except Failure Stream := s.output takes

def flush (s : Stream) (syncs : Bool) : Except Failure Stream := s.output syncs

/-- `stream >> n` for an `int`, from a file with this content; `none` leaves
`n` as it is. A stream that is not good, or has only spaces left, does not get
as far as `n`; after that a failure stores something. -/
def extract (s : Stream) (base : Nat) (content : String) : Except Failure (Option Int × Stream) :=
  if !s.good then (s.setstate { fail := true }).map fun s => (none, s)
  else if content.toList.all isSpace then (s.setstate { eof := true, fail := true }).map fun s => (none, s)
  else
    match scan base content.toList with
    | none => (s.setstate { fail := true }).map fun s => (some (extractInt base content), s)
    | some (neg, n, rest) =>
      let fits : Bool := -2 ^ 31 ≤ signed neg n ∧ signed neg n < 2 ^ 31
      (s.setstate { eof := rest.isEmpty, fail := !fits }).map fun s => (some (extractInt base content), s)

/-! ## A stream with the default mask does not throw -/

theorem setstate_default {s : Stream} (hs : s.exceptions = {}) (bits : IoState) :
    s.setstate bits = .ok { s with rdstate := s.rdstate.or bits } := by
  simp [setstate, hs]

theorem openFile_default (opens : Bool) : ∃ s : Stream, openFile opens = .ok s ∧ s.exceptions = {} := by
  cases opens with
  | true => exact ⟨_, rfl, rfl⟩
  | false => exact ⟨_, rfl, rfl⟩

theorem output_default {s : Stream} (hs : s.exceptions = {}) (done : Bool) :
    ∃ s', s.output done = .ok s' ∧ s'.exceptions = {} := by
  unfold output
  split
  · exact ⟨_, setstate_default hs _, hs⟩
  · split
    · exact ⟨s, rfl, hs⟩
    · exact ⟨_, setstate_default hs _, hs⟩

/-- What `stream >> n` does to `n`. -/
theorem extract_default {s : Stream} (hs : s.exceptions = {}) (base : Nat) (content : String) :
    ∃ s', s.extract base content =
      .ok (if s.good && !content.toList.all isSpace then some (extractInt base content) else none, s') := by
  unfold extract
  simp only [setstate_default hs]
  by_cases hg : s.good = true
  · by_cases hb : content.toList.all isSpace = true
    · simp only [hg, hb]
      exact ⟨_, rfl⟩
    · rw [Bool.not_eq_true] at hb
      rcases hn : scan base content.toList with _ | ⟨neg, n, rest⟩
      · simp only [hg, hb]
        exact ⟨_, rfl⟩
      · simp only [hg, hb]
        exact ⟨_, rfl⟩
  · rw [Bool.not_eq_true] at hg
    simp only [hg]
    exact ⟨_, rfl⟩

end Stream

end Ios
