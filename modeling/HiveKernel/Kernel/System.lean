import HiveKernel.Kernel.CoreServer
import HiveKernel.Lib.Run
import HiveKernel.Process.TreeInvariant

/-! The running kernel as a transition system. A label is one call, with everything the
environment decides: the clock, the orders of the loops, and the outcome of a launch. -/
namespace HiveKernel
open Lib
namespace King

/-- An exit: the runtime is forgotten and the supervisor decides. -/
def childExit (k : King) (now : ℤ) (pid : ℕ) : King × Option PendingRestart :=
  let (supervisor,registry,pending) := k.supervisor.handleChildExit k.registry now pid
  ({ k with
      supervisor := supervisor
      registry := registry
      runtime := k.runtime.map (fun manager => manager.stopRuntime pid) },pending)

/-- The callback of a restart: start the runtime from the image again. Says whether that worked,
and gives the table and the runtimes afterwards. -/
def onRestart (k : King) (launch : Except String String) (proc : Process) :
    Bool × Registry × Option RuntimeManager :=
  match k.runtime with
  | none => (true,k.registry,none)
  | some manager =>
    let registry := setAddr k.registry proc.pid proc.runtimeImage
    let rtType := if proc.runtimeType = "" then runtimePython else proc.runtimeType
    match manager.startRuntime { proc with runtimeAddr := proc.runtimeImage } rtType launch with
    | .error _ => (false,registry,some manager)
    | .ok (rt,manager') => (true,setAddr registry proc.pid rt.addr,some manager')

/-- A scheduled restart acts. -/
def restart (k : King) (now : ℤ) (launch : Except String String) (proc : Process) : King :=
  let (ok,registry,runtime) := k.onRestart launch proc
  { k with
    registry := if ok then registry.setState now proc.pid .running else registry
    runtime := runtime }

def reapZombies (k : King) (now : ℤ) (order : List ℕ) (childOrder : ℕ → List ℕ) : King :=
  { k with registry := k.registry.reapZombies k.supervisor.config now order childOrder }

/-- Put a process to sleep. Only a dead process is refused. -/
def sleep (k : King) (now : ℤ) (pid : ℕ) : Except String Unit × King :=
  match k.registry.get pid with
  | none => (.error s!"sleep: {Registry.notFound pid}",k)
  | some proc =>
    if proc.state = .dead then (.error s!"sleep: PID {pid} is dead",k)
    else if proc.state = .sleeping then (.ok (),k)
    else (.ok (),{ k with registry := k.registry.setState now pid .sleeping })

/-- Wake a sleeping process: it is continued, then idle. -/
def wake (k : King) (now : ℤ) (pid : ℕ) : Except String Unit × King :=
  match k.registry.get pid with
  | none => (.error s!"wake: {Registry.notFound pid}",k)
  | some proc =>
    if proc.state ≠ .sleeping then
      (.error s!"wake: PID {pid} is {proc.state.string}, not sleeping",k)
    else (.ok (),{ k with registry := (k.registry.send now pid .sigcont).setState now pid .idle })

/-- Neither of the two touches more than the table, and they add no process. -/
lemma sleep_frame (k : King) (now : ℤ) (pid : ℕ) :
    ∃ r, (k.sleep now pid).2 = { k with registry := r } ∧ r.nextPID = k.registry.nextPID := by
  unfold sleep
  cases k.registry.get pid with
  | none => exact ⟨_,rfl,rfl⟩
  | some proc =>
    dsimp only
    split_ifs
    · exact ⟨_,rfl,rfl⟩
    · exact ⟨_,rfl,rfl⟩
    · exact ⟨_,rfl,Registry.nextPID_setState _ _ _ _⟩

lemma wake_frame (k : King) (now : ℤ) (pid : ℕ) :
    ∃ r, (k.wake now pid).2 = { k with registry := r } ∧ r.nextPID = k.registry.nextPID := by
  unfold wake
  cases k.registry.get pid with
  | none => exact ⟨_,rfl,rfl⟩
  | some proc =>
    dsimp only
    split_ifs
    · exact ⟨_,rfl,rfl⟩
    · exact ⟨_,rfl,by rw [Registry.nextPID_setState,Registry.nextPID_send]⟩

/-- Record the result of a task and make the process a zombie. -/
def completeTask (k : King) (now : ℤ) (pid : ℕ) (exitCode : ℤ) (output : List UInt8) (errMsg : String) :
    Except String TaskResult × King :=
  match k.registry.get pid with
  | none => (.error s!"complete: {Registry.notFound pid}",k)
  | some proc =>
    let result : TaskResult := ⟨pid,exitCode,output,errMsg,now-proc.startedAt,now⟩
    (.ok result,{ k with
      results := k.results.set pid result
      registry := (k.registry.setState now pid .zombie).send now proc.ppid .sigchld })

/-- Collect a result, once. -/
def waitResult (k : King) (pid : ℕ) : Option TaskResult × King :=
  (k.results.get pid,{ k with results := k.results.erase pid })

/-- A cron entry that wakes its target. -/
def cronWake (k : King) (now : ℤ) (pid : ℕ) : King :=
  { k with registry := k.registry.setState now pid .running }

end King

/-- A scheduled restart. Whether its process has been killed since is recorded for the statements
about it; no step looks at that. -/
structure Pending where
  restart : PendingRestart
  killed : Bool := false
  deriving DecidableEq

structure System where
  king : King
  pending : List Pending

inductive KernelOp
  | spawnChild (now : ℤ) (launch : Except String String) (req : SpawnRequest)
  | killChild (now : ℤ) (order : List ℕ → List ℕ) (header : Option (List String)) (target : ℕ)
      (recursive : Bool)
  | handleKill (now : ℤ) (order : List ℕ → List ℕ) (caller target : ℕ) (recursive : Bool)
  | requestResources (pid : ℕ) (amount : UInt64)
  | reportMetric (now : ℤ) (pid : ℕ) (tokens : UInt64)
  | release (pid : ℕ) (tier : ModelTier)
  | releaseAll (pid : ℕ)
  | setTrace (pid : ℕ) (traceID traceSpan : String)
  | waitResult (pid : ℕ)
  | childExit (now : ℤ) (pid : ℕ)
  | restart (now : ℤ) (index : ℕ) (launch : Except String String)
  | reapZombies (now : ℤ) (order : List ℕ) (childOrder : ℕ → List ℕ)
  | send (now : ℤ) (pid : ℕ) (sig : Signal)
  | sleep (now : ℤ) (pid : ℕ)
  | wake (now : ℤ) (pid : ℕ)
  | completeTask (now : ℤ) (pid : ℕ) (exitCode : ℤ) (output : List UInt8) (errMsg : String)
  | cronWake (now : ℤ) (pid : ℕ)

namespace System

def boot (cfg : Config) (now : ℤ) (runtime : Option RuntimeManager) : System :=
  ⟨King.new cfg now runtime,[]⟩

/-- Note that these processes were killed. -/
def markKilled (pending : List Pending) (pids : List ℕ) : List Pending :=
  pending.map fun p => if p.restart.proc.pid ∈ pids then { p with killed := true } else p

/-- The state after a kill request. -/
def killed (s : System) (outcome : Except String (List ℕ) × King) : System :=
  match outcome with
  | (.error _,king) => ⟨king,s.pending⟩
  | (.ok pids,king) => ⟨king,markKilled s.pending pids⟩

def step (s : System) : KernelOp → Option System
  | .spawnChild now launch req => some ⟨(s.king.spawnChild now launch req).2,s.pending⟩
  | .killChild now order header target recursive =>
    (s.king.killChild now order header target recursive).map s.killed
  | .handleKill now order caller target recursive =>
    (s.king.handleKill now order caller target recursive).map s.killed
  | .requestResources pid amount => some ⟨(s.king.requestResources pid amount).2,s.pending⟩
  | .reportMetric now pid tokens => some ⟨s.king.reportMetric now pid tokens,s.pending⟩
  | .release pid tier => some ⟨{ s.king with
      budget := (s.king.budget.release s.king.registry pid tier).2 },s.pending⟩
  | .releaseAll pid => some ⟨{ s.king with
      budget := s.king.budget.releaseAll s.king.registry pid },s.pending⟩
  | .setTrace pid traceID traceSpan => some ⟨s.king.setTrace pid traceID traceSpan,s.pending⟩
  | .waitResult pid => some ⟨(s.king.waitResult pid).2,s.pending⟩
  | .childExit now pid =>
    let (king,pending) := s.king.childExit now pid
    some ⟨king,s.pending ++ (pending.map (fun p => (⟨p,false⟩ : Pending))).toList⟩
  | .restart now index launch => do
    let p ← s.pending[index]?
    some ⟨s.king.restart now launch p.restart.proc,s.pending.eraseIdx index⟩
  | .reapZombies now order childOrder =>
    if s.king.registry.Enumerates order ∧ ∀ k ∈ order, s.king.registry.Enumerates (childOrder k) then
      some ⟨s.king.reapZombies now order childOrder,s.pending⟩
    else none
  | .send now pid sig => some ⟨{ s.king with
      registry := s.king.registry.send now pid sig },
      if sig = .sigkill then markKilled s.pending [pid] else s.pending⟩
  | .sleep now pid => some ⟨(s.king.sleep now pid).2,s.pending⟩
  | .wake now pid => some ⟨(s.king.wake now pid).2,s.pending⟩
  | .completeTask now pid exitCode output errMsg =>
    some ⟨(s.king.completeTask now pid exitCode output errMsg).2,s.pending⟩
  | .cronWake now pid => some ⟨s.king.cronWake now pid,s.pending⟩

end System
end HiveKernel
