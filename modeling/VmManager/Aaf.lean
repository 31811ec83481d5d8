import VmManager.Host
/-!
# AAF settings (`guest/aaf.cc`)
-/
open Text

namespace VmManager

def kAafKeyGpuType : String := "gpu-type"
def kAafKeySuspend : String := "suspend"
def kAafKeyAudioType : String := "audio-type"

/-- `data_` is a `std::map`, so it is kept in the order of its keys. -/
structure Aaf where
  path : String
  data : List (String × String) := [(kAafKeyAudioType, ""), (kAafKeyGpuType, ""), (kAafKeySuspend, "")]
  deriving DecidableEq, Repr

namespace Aaf

variable {κ : Type}

def set (a : Aaf) (k v : String) : Aaf :=
  { a with data := a.data.map fun e => if e.1 = k then (k, v) else e }

/-- One turn of the copy loop: what is pending and what is written, after the
line. -/
def flushLine (st : Aaf × String) (line : List Char) : Aaf × String :=
  if line.isEmpty then st
  else
    let key : String := .ofList ((cut ':' line).elim line (·.1))
    if key.isEmpty then st
    else
      match st.1.data.find? (·.1 = key) with
      | some (_, v) =>
        if v.isEmpty then (st.1, st.2 ++ .ofList line ++ "\n")
        else (st.1.set key "", st.2 ++ key ++ ":" ++ v ++ "\n")
      | none => (st.1, st.2 ++ .ofList line ++ "\n")

/-- The last loop of `Flush` writes what is still pending. -/
def flushPending (st : Aaf × String) : Aaf × String :=
  ({ st.1 with data := st.1.data.map fun e => (e.1, "") },
   st.1.data.foldl (fun out e => if e.2.isEmpty then out else out ++ e.1 ++ ":" ++ e.2 ++ "\n") st.2)

/-- `Flush`. A renamed file that cannot be opened never reaches `eof`, so the
copy loop does not end: `.error`, with the host as it is then. -/
def flush (h : Host κ) (a : Aaf) (k : κ) : Except κ (Aaf × κ) :=
  if a.path.isEmpty then .ok (a, k)
  else if !h.pathExists k a.path then .ok (a, k)
  else if !h.isDirectory k a.path then .ok (a, k)
  else
    let target := a.path ++ "/" ++ "mixins.spec"
    if h.pathExists k target then
      let hidden := a.path ++ "/" ++ ".mixins.spec~"
      let k := h.rename k target hidden
      let content := h.readFile k hidden
      let k := h.writeFile k target ""
      match content with
      | none => .error k
      | some text =>
        let st := flushPending ((text.toList.splitOn '\n').foldl flushLine (a, ""))
        let k := h.remove k hidden
        .ok (st.1, h.writeFile k target st.2)
    else
      let st := flushPending (a, "")
      .ok (st.1, h.writeFile k target st.2)

end Aaf

end VmManager
