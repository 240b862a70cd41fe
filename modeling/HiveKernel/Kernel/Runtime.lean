import HiveKernel.Lib.Check
import HiveKernel.Lib.Table
import HiveKernel.Process.Types

/-! The runtimes behind the processes. Launching an agent starts an operating system process and
talks to it over the network; whether that works, and at which address, is an input here. -/
namespace HiveKernel
open Lib

def runtimePython : String := "python"
def runtimeClaw : String := "claw"

structure AgentRuntime where
  pid : ℕ
  type : String
  addr : String
  deriving DecidableEq, Repr

structure RuntimeManager where
  runtimes : Table ℕ AgentRuntime

namespace RuntimeManager

def new : RuntimeManager := ⟨.empty⟩

/-- Launch by type. The image was passed in the address field. -/
def spawnReal (proc : Process) (rtType : String) (launch : Except String String) :
    Except String AgentRuntime :=
  if proc.runtimeAddr = "" then .error s!"no RuntimeImage for PID {proc.pid}"
  else if rtType = runtimePython ∨ rtType = runtimeClaw then
    launch.map fun addr => ⟨proc.pid,rtType,addr⟩
  else .error s!"unsupported runtime type {rtType.quote} for PID {proc.pid}"

/-- Start the runtime of a process, a virtual one if it has no image. The address of the runtime
becomes the address of the process. -/
def startRuntime (m : RuntimeManager) (proc : Process) (rtType : String)
    (launch : Except String String) : Except String (AgentRuntime × RuntimeManager) :=
  match m.runtimes.get proc.pid with
  | some _ => .error s!"runtime already running for PID {proc.pid}"
  | none => do
    let rt ← if proc.runtimeAddr = "" ∧ proc.name ≠ "" then
        pure ⟨proc.pid,rtType,s!"virtual://pid-{proc.pid}"⟩
      else spawnReal proc rtType launch
    pure (rt,⟨m.runtimes.set proc.pid rt⟩)

/-- Stop tracking a runtime; the source returns an error if there is none. -/
def stopRuntime (m : RuntimeManager) (pid : ℕ) : RuntimeManager := ⟨m.runtimes.erase pid⟩

/-- A runtime with an image cannot be started: one is tracked already, its type is not supported,
or the launch itself fails. -/
def Refuses (m : RuntimeManager) (pid : ℕ) (rtType : String) (launch : Except String String) : Prop :=
  (m.runtimes.get pid).isSome ∨ ¬(rtType = runtimePython ∨ rtType = runtimeClaw) ∨
    ∃ e, launch = .error e

/-- The same for any process: without an image only a process without a name is refused, unless a
runtime is tracked already. -/
def Fails (m : RuntimeManager) (proc : Process) (rtType : String) (launch : Except String String) :
    Prop :=
  if proc.runtimeAddr = "" then (m.runtimes.get proc.pid).isSome ∨ proc.name = ""
  else m.Refuses proc.pid rtType launch

lemma startRuntime_cases (m : RuntimeManager) (proc : Process) (rtType : String)
    (launch : Except String String) :
    (∃ e, m.startRuntime proc rtType launch = .error e ∧ m.Fails proc rtType launch) ∨
    (∃ rt m', m.startRuntime proc rtType launch = .ok (rt,m') ∧ ¬m.Fails proc rtType launch) := by
  unfold startRuntime Fails Refuses
  cases hrt : m.runtimes.get proc.pid with
  | some rt => exact .inl ⟨_,rfl,by simp⟩
  | none =>
    by_cases haddr : proc.runtimeAddr = ""
    · by_cases hname : proc.name = ""
      · exact .inl ⟨_,by simp [haddr,hname,spawnReal]; rfl,by simp [haddr,hname]⟩
      · exact .inr ⟨_,_,by simp [haddr,hname]; rfl,by simp [haddr,hname]⟩
    · simp only [haddr,false_and,if_false,spawnReal]
      by_cases htype : rtType = runtimePython ∨ rtType = runtimeClaw
      · cases launch with
        | error e => exact .inl ⟨e,by simp [htype,Except.map],by simp⟩
        | ok addr => exact .inr ⟨⟨proc.pid,rtType,addr⟩,_,by simp [htype,Except.map]; rfl,by simp [htype]⟩
      · exact .inl ⟨_,by simp [htype]; rfl,by simp [htype]⟩

end RuntimeManager
end HiveKernel
