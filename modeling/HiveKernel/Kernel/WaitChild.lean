import HiveKernel.Kernel.System

/-! Waiting for a child, in both front ends: an answer at once if the child has ended, else a loop
that polls until it has, a deadline passes or the call is cancelled. What the waiter learns is the
result that was stored for the child; the exit code of an exit is not stored anywhere. -/
namespace HiveKernel
open Lib

/-- The conversion to 32 signed bits. -/
def int32 (n : ℤ) : ℤ := n.bmod (2^32)

structure WaitChildRequest where
  targetPid : ℕ
  timeoutSeconds : ℤ

structure WaitChildResponse where
  success : Bool := false
  pid : ℕ := 0
  exitCode : ℤ := 0
  output : List UInt8 := []
  error : String := ""
  deriving DecidableEq

/-- How a wait begins: with an answer, or with polling for some time. -/
inductive WaitStart
  | answer (resp : WaitChildResponse)
  | poll (timeout : ℤ)
  deriving DecidableEq

/-- What a polling call wakes up for. -/
inductive WaitEvent
  | cancelled | deadline | tick
  deriving DecidableEq

namespace CoreServer

def waitChild (k : King) (header : Option (List String)) (req : WaitChildRequest) :
    Except String WaitStart × King :=
  match callerPID header with
  | .error e => (.error e,k)
  | .ok pid => match k.registry.get req.targetPid with
    | none => (.ok (.answer { success := false, error := "process not found" }),k)
    | some target =>
      if target.ppid ≠ pid then
        (.ok (.answer { success := false, error := "can only wait for own children" }),k)
      else if target.state.Terminal then
        match k.waitResult target.pid with
        | (some result,k) =>
          let exitCode := int32 result.exitCode
          (.ok (.answer ⟨true,target.pid,exitCode,result.output,""⟩),k)
        | (none,k) => (.ok (.answer { success := true, pid := target.pid, exitCode := -1 }),k)
      else
        let timeout := req.timeoutSeconds*second
        (.ok (.poll (if timeout ≤ 0 then 60*second else timeout)),k)

/-- One round of the loop: an answer, or nothing yet. -/
def waitRound (k : King) (req : WaitChildRequest) : WaitEvent → Option WaitChildResponse × King
  | .cancelled => (some { success := false, error := "context cancelled" },k)
  | .deadline => (some { success := false, error := "timeout waiting for child" },k)
  | .tick => match k.registry.get req.targetPid with
    | none => (some { success := true, pid := req.targetPid, exitCode := -1 },k)
    | some proc =>
      if proc.state.Terminal then
        match k.waitResult proc.pid with
        | (some result,k) =>
          let exitCode := int32 result.exitCode
          (some ⟨true,proc.pid,exitCode,result.output,""⟩,k)
        | (none,k) => (some { success := true, pid := proc.pid, exitCode := -1 },k)
      else (none,k)

end CoreServer

namespace KernelSyscallHandler

def errResult (msg : String) : WaitChildResponse := { success := false, error := msg }

def okResult (pid : ℕ) (exitCode : ℤ) (output : List UInt8) : WaitChildResponse :=
  { success := true, pid := pid, exitCode := exitCode, output := output }

def handleWaitChild (k : King) (callerPID : ℕ) (req : WaitChildRequest) : WaitStart × King :=
  match k.registry.get req.targetPid with
  | none => (.answer (errResult "process not found"),k)
  | some target =>
    if target.ppid ≠ callerPID then (.answer (errResult "can only wait for own children"),k)
    else if target.state.Terminal then
      match k.waitResult target.pid with
      | (some result,k) => (.answer (okResult target.pid (int32 result.exitCode) result.output),k)
      | (none,k) => (.answer (okResult target.pid (-1) []),k)
    else
      let timeout := req.timeoutSeconds*second
      (.poll (if timeout ≤ 0 then 60*second else timeout),k)

def waitRound (k : King) (req : WaitChildRequest) : WaitEvent → Option WaitChildResponse × King
  | .cancelled => (some (errResult "context cancelled"),k)
  | .deadline => (some (errResult "timeout waiting for child"),k)
  | .tick => match k.registry.get req.targetPid with
    | none => (some (okResult req.targetPid (-1) []),k)
    | some proc =>
      if proc.state.Terminal then
        match k.waitResult proc.pid with
        | (some result,k) => (some (okResult proc.pid (int32 result.exitCode) result.output),k)
        | (none,k) => (some (okResult proc.pid (-1) []),k)
      else (none,k)

end KernelSyscallHandler

/-- The answer about an ended child: its stored result, or an exit code of `-1`. -/
def collected (k : King) (pid : ℕ) : WaitChildResponse :=
  match k.results.get pid with
  | some result => ⟨true,pid,int32 result.exitCode,result.output,""⟩
  | none => ⟨true,pid,-1,[],""⟩

/-- The four places where a wait finds that the child has ended. -/
inductive WaitPoint
  | grpcEntry (header : Option (List String)) | grpcRound | syscallEntry (caller : ℕ) | syscallRound

namespace WaitPoint

/-- The call comes from the parent of the child. Once a call polls, that is not checked again. -/
def ByParent (p : Process) : WaitPoint → Prop
  | grpcEntry header => callerPID header = .ok p.ppid
  | syscallEntry caller => caller = p.ppid
  | grpcRound | syscallRound => True

def answer (k : King) (req : WaitChildRequest) : WaitPoint → Option WaitChildResponse
  | grpcEntry header => match (CoreServer.waitChild k header req).1 with
    | .ok (.answer resp) => some resp
    | _ => none
  | grpcRound => (CoreServer.waitRound k req .tick).1
  | syscallEntry caller => match (KernelSyscallHandler.handleWaitChild k caller req).1 with
    | .answer resp => some resp
    | _ => none
  | syscallRound => (KernelSyscallHandler.waitRound k req .tick).1

end WaitPoint

variable {k : King} {p : Process} {req : WaitChildRequest}

/-- All four places give the same answer. -/
lemma WaitPoint.answer_eq {point : WaitPoint} (hp : k.registry.get req.targetPid = some p)
    (hended : p.state.Terminal) (hparent : point.ByParent p) :
    point.answer k req = some (collected k req.targetPid) := by
  have hpid := Registry.get_pid hp
  cases point with
  | grpcEntry header =>
    rw [answer,CoreServer.waitChild,show callerPID header = .ok p.ppid from hparent]
    cases hr : k.results.get req.targetPid <;> simp [hp,hended,King.waitResult,hpid,hr,collected]
  | grpcRound =>
    rw [answer,CoreServer.waitRound]
    cases hr : k.results.get req.targetPid <;> simp [hp,hended,King.waitResult,hpid,hr,collected]
  | syscallEntry caller =>
    rw [answer,KernelSyscallHandler.handleWaitChild,show caller = p.ppid from hparent]
    cases hr : k.results.get req.targetPid <;>
      simp [hp,hended,King.waitResult,hpid,hr,collected,KernelSyscallHandler.okResult]
  | syscallRound =>
    rw [answer,KernelSyscallHandler.waitRound]
    cases hr : k.results.get req.targetPid <;>
      simp [hp,hended,King.waitResult,hpid,hr,collected,KernelSyscallHandler.okResult]

namespace System

/-- The exit code and the output stored for a process. -/
def stored (s : System) (pid : ℕ) : Option (ℤ × List UInt8) :=
  (s.king.results.get pid).map fun result => (result.exitCode,result.output)

/-- What is stored after a step that collects nothing: a completion of a registered process
replaces it. -/
def storedAfter (pid : ℕ) (old : Option (ℤ × List UInt8)) (e : Transition System KernelOp) :
    Option (ℤ × List UInt8) :=
  match e.label with
  | .completeTask _ q exitCode output _ =>
    if q = pid ∧ (e.source.king.registry.get pid).isSome then some (exitCode,output) else old
  | _ => old

variable {s t : System} {op : KernelOp}

lemma results_killed {outcome : Option (Except String (List ℕ) × King)} {now : ℤ}
    {order : List ℕ → List ℕ} {caller target : ℕ} {recursive : Bool}
    (ho : outcome = s.king.kill now order caller target recursive)
    (hs : outcome.map s.killed = some t) : t.king.results = s.king.results := by
  obtain ⟨⟨result,k'⟩,hout,rfl⟩ := Option.map_eq_some_iff.mp hs
  rw [hout] at ho
  rcases King.kill_cases ho.symm with ⟨rfl,e,rfl⟩ | ⟨_,pids,-,-,-,rfl,rfl⟩
  · rfl
  · exact King.killAll_results s.king now pids

/-- Results are stored by completions and collected by waits; no other step touches them. -/
lemma stored_step {pid : ℕ} (hop : op ≠ .waitResult pid) (h : s.step op = some t) :
    t.stored pid = storedAfter pid (s.stored pid) ⟨s,op,t⟩ := by
  have hsame : t.king.results = s.king.results → t.stored pid = s.stored pid := by
    intro hr
    rw [stored,stored,hr]
  cases op with
  | spawnChild now launch req =>
    cases h
    exact hsame (King.spawnChild_results s.king now launch req)
  | killChild now order header target recursive =>
    refine hsame ?_
    simp only [step,King.killChild] at h
    cases hc : callerPID header with
    | error e =>
      simp only [hc,Option.map_some,Option.some.injEq] at h
      subst h
      rfl
    | ok caller =>
      simp only [hc] at h
      exact results_killed rfl h
  | handleKill now order caller target recursive => exact hsame (results_killed rfl h)
  | requestResources pid' amount =>
    cases h
    refine hsame ?_
    rcases King.requestResources_cases s.king pid' amount with hr | ⟨proc,budget,-,-,hr⟩
    · exact congrArg King.results hr
    · simp only [hr]
  | reportMetric now pid' tokens =>
    cases h
    refine hsame ?_
    unfold King.reportMetric
    cases s.king.registry.get pid' <;> rfl
  | restart now index launch =>
    simp only [step] at h
    obtain ⟨q,-,h⟩ := Option.bind_eq_some_iff.mp h
    cases h
    rfl
  | reapZombies now order childOrder =>
    simp only [step] at h
    split_ifs at h
    cases h
    rfl
  | sleep now pid' =>
    cases h
    obtain ⟨r,hr,-⟩ := s.king.sleep_frame now pid'
    refine hsame ?_
    simp only [hr]
  | wake now pid' =>
    cases h
    obtain ⟨r,hr,-⟩ := s.king.wake_frame now pid'
    refine hsame ?_
    simp only [hr]
  | waitResult q =>
    cases h
    have hq : pid ≠ q := by
      rintro rfl
      exact hop rfl
    simp only [stored,storedAfter,King.waitResult,Table.get_erase_of_ne hq]
  | completeTask now q exitCode output errMsg =>
    cases h
    simp only [stored,storedAfter,King.completeTask]
    cases hreg : s.king.registry.get q with
    | none =>
      rw [if_neg]
      rintro ⟨rfl,hsome⟩
      simp [hreg] at hsome
    | some proc =>
      simp only [Table.get_set]
      by_cases hq : pid = q
      · subst hq
        simp [hreg]
      · simp [hq,Ne.symm hq]
  | _ =>
    cases h
    rfl

/-- What is stored at the end of a run without a collection. -/
lemma stored_of_run {pid : ℕ} {trace : List (Transition System KernelOp)} (run : Run step s trace t)
    (hfirst : ∀ e ∈ trace, e.label ≠ .waitResult pid) :
    t.stored pid = trace.foldl (storedAfter pid) (s.stored pid) := by
  induction run with
  | nil => rfl
  | @cons s t u l trace first rest ih =>
    rw [List.foldl_cons,← stored_step (hfirst ⟨s,l,t⟩ (by simp)) first]
    exact ih (fun e he => hfirst e (by simp [he]))

lemma isSome_storedAfter (trace : List (Transition System KernelOp)) (pid : ℕ) (r : ℤ × List UInt8) :
    (trace.foldl (storedAfter pid) (some r)).isSome := by
  induction trace generalizing r with
  | nil => rfl
  | cons e trace ih =>
    obtain ⟨r',hr'⟩ : ∃ r', storedAfter pid (some r) e = some r' := by
      unfold storedAfter
      split
      · split_ifs
        · exact ⟨_,rfl⟩
        · exact ⟨r,rfl⟩
      · exact ⟨r,rfl⟩
    rw [List.foldl_cons,hr']
    exact ih r'

end System

/-- The news about a child: its process has exited, or its task is complete. -/
inductive ExitReport
  | exited (exitCode : ℤ)
  | completed (exitCode : ℤ) (output : List UInt8) (errMsg : String)
  deriving DecidableEq

namespace ExitReport

/-- The step that brings the news. -/
def op (now : ℤ) (pid : ℕ) : ExitReport → KernelOp
  | exited _ => .childExit now pid
  | completed exitCode output errMsg => .completeTask now pid exitCode output errMsg

/-- The waiter is told what the news says. -/
def AnsweredBy (resp : WaitChildResponse) : ExitReport → Prop
  | exited exitCode => resp.exitCode = exitCode
  | completed exitCode output _ => resp.exitCode = exitCode ∧ resp.output = output

/-- What is stored for the child once the news is in. An exit stores nothing. -/
def leaves (old : Option (ℤ × List UInt8)) : ExitReport → Option (ℤ × List UInt8)
  | exited _ => old
  | completed exitCode output _ => some (exitCode,output)

/-- What is stored is what the news says, in 32 bits; for an exit, an exit code of `-1` goes without
being stored. -/
def Agrees (stored : Option (ℤ × List UInt8)) : ExitReport → Prop
  | exited exitCode => stored.elim (-1) (fun r => int32 r.1) = exitCode
  | completed exitCode output _ => ∃ r ∈ stored, int32 r.1 = exitCode ∧ r.2 = output

end ExitReport

lemma collected_exitCode (s : System) (pid : ℕ) :
    (collected s.king pid).exitCode = (s.stored pid).elim (-1) (fun r => int32 r.1) := by
  unfold collected System.stored
  cases s.king.results.get pid <;> rfl

lemma collected_output {s : System} {pid : ℕ} {r : ℤ × List UInt8} (h : s.stored pid = some r) :
    (collected s.king pid).output = r.2 := by
  unfold System.stored at h
  obtain ⟨result,hr,rfl⟩ := Option.map_eq_some_iff.mp h
  simp only [collected,hr]

/-- The first wait that finds the child ended, wherever and whenever that is, answers with what is
stored. That is what the news says if and only if the two agree; an exit is not stored. -/
theorem exitCode_answered_iff {s s₁ s₂ : System} {now : ℤ} {pid : ℕ} {p q : Process}
    {trace : List (Transition System KernelOp)} {point : WaitPoint} (report : ExitReport) (timeoutSeconds : ℤ)
    (hchild : s.king.registry.get pid = some p) (hnews : s.step (report.op now pid) = some s₁)
    (run : Run System.step s₁ trace s₂) (hfirst : ∀ e ∈ trace, e.label ≠ .waitResult pid)
    (hfound : s₂.king.registry.get pid = some q) (hended : q.state.Terminal)
    (hparent : point.ByParent q) :
    ∃ resp, point.answer s₂.king ⟨pid,timeoutSeconds⟩ = some resp ∧
      (report.AnsweredBy resp ↔
        report.Agrees (trace.foldl (System.storedAfter pid) (report.leaves (s.stored pid)))) := by
  have hnews' : s₁.stored pid = report.leaves (s.stored pid) := by
    rw [System.stored_step (by cases report <;> simp [ExitReport.op]) hnews]
    cases report with
    | exited exitCode => rfl
    | completed exitCode output errMsg => simp [System.storedAfter,ExitReport.op,hchild,ExitReport.leaves]
  have hstored := System.stored_of_run run hfirst
  rw [hnews'] at hstored
  refine ⟨_,WaitPoint.answer_eq hfound hended hparent,?_⟩
  rw [← hstored]
  cases report with
  | exited exitCode => rw [ExitReport.AnsweredBy,ExitReport.Agrees,collected_exitCode]
  | completed exitCode output errMsg =>
    obtain ⟨r,hr⟩ : ∃ r, s₂.stored pid = some r := by
      rw [hstored]
      exact Option.isSome_iff_exists.mp (System.isSome_storedAfter trace pid (exitCode,output))
    simp [ExitReport.AnsweredBy,ExitReport.Agrees,collected_exitCode,collected_output hr,hr]

/-- The kernel and a worker below it, for examples. -/
def kingAndWorker : System where
  king := ((King.new King.exampleConfig 0 none).spawnChild 0 (.ok "")
    { parentPID := 1, name := "worker", role := .worker, cognitiveTier := .operational }).2
  pending := []

theorem exitCode_answered_iff_completed :
    ∃ s₁ s₂ resp, kingAndWorker.step (.completeTask 5 2 7 [104,105] "") = some s₁ ∧
      s₁.step (.childExit 6 2) = some s₂ ∧
      (WaitPoint.grpcEntry (some ["1"])).answer s₂.king ⟨2,0⟩ = some resp ∧
      (resp.exitCode = 7 ∧ resp.output = [104,105]) := by
  obtain ⟨s₁,s₂,p,q,hp,h₁,h₂,hq,hended,hppid⟩ : ∃ s₁ s₂ p q, kingAndWorker.king.registry.get 2 = some p ∧
      kingAndWorker.step (.completeTask 5 2 7 [104,105] "") = some s₁ ∧ s₁.step (.childExit 6 2) = some s₂ ∧
      s₂.king.registry.get 2 = some q ∧ q.state.Terminal ∧ q.ppid = 1 :=
    ⟨_,_,_,_,rfl,rfl,rfl,rfl,.inr rfl,rfl⟩
  have hparent : (WaitPoint.grpcEntry (some ["1"])).ByParent q := by
    rw [WaitPoint.ByParent,hppid]
    decide
  obtain ⟨resp,hresp,hiff⟩ := exitCode_answered_iff (.completed 7 [104,105] "") 0 hp h₁
    (.cons h₂ (.nil s₂)) (by simp) hq hended hparent
  exact ⟨s₁,s₂,resp,h₁,h₂,hresp,hiff.mpr ⟨(7,[104,105]),rfl,by decide,rfl⟩⟩

/-- A worker exits with code 7, and its parent is told `-1`. -/
theorem exitCode_lost : ¬ ∀ (s s₁ s₂ : System) (now : ℤ) (pid : ℕ) (p q : Process) (report : ExitReport)
    (trace : List (Transition System KernelOp)) (point : WaitPoint) (timeoutSeconds : ℤ),
    s.king.registry.get pid = some p → restartPolicyForRole p.role ≠ .always →
    s.step (report.op now pid) = some s₁ → Run System.step s₁ trace s₂ →
    (∀ e ∈ trace, e.label ≠ .waitResult pid) → s₂.king.registry.get pid = some q → q.state.Terminal →
    point.ByParent q →
    ∃ resp, point.answer s₂.king ⟨pid,timeoutSeconds⟩ = some resp ∧ report.AnsweredBy resp := by
  intro h
  obtain ⟨s₁,p,q,hp,hpolicy,h₁,hq,hended,hppid,hanswer⟩ : ∃ s₁ p q,
      kingAndWorker.king.registry.get 2 = some p ∧ restartPolicyForRole p.role ≠ .always ∧
      kingAndWorker.step (.childExit 5 2) = some s₁ ∧ s₁.king.registry.get 2 = some q ∧
      q.state.Terminal ∧ q.ppid = 1 ∧
      (WaitPoint.syscallEntry 1).answer s₁.king ⟨2,0⟩ = some ⟨true,2,-1,[],""⟩ :=
    ⟨_,_,_,rfl,by decide,rfl,rfl,.inr rfl,rfl,rfl⟩
  obtain ⟨resp,hresp,hcode⟩ := h kingAndWorker s₁ s₁ 5 2 p q (.exited 7) [] (.syscallEntry 1) 0 hp hpolicy h₁
    (.nil s₁) (by simp) hq hended hppid.symm
  obtain rfl := Option.some.inj (hanswer.symm.trans hresp)
  cases hcode

end HiveKernel
