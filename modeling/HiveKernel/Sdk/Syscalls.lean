import HiveKernel.Lib.Run
import HiveKernel.Lib.Table

/-! The syscalls of one task over its Execute stream. The coroutines of the agent put their calls on a queue, a
writer sends what is on it, the executor of the kernel handles one call after the other and sends the results,
and a reader hands each result to the coroutine that waits for it. The stream delivers in order and no send
fails. What the kernel does in a call is a parameter. -/
namespace HiveKernel
open Lib

/-- A request, with its data for the handler. -/
inductive SyscallBody (Q : Type)
  | spawn (req : Q)
  | kill (req : Q)
  | send (req : Q)
  | store (req : Q)
  | getArtifact (req : Q)
  | escalate (req : Q)
  | log (req : Q)
  | executeOn (req : Q)
  | waitChild (req : Q)
  | listSiblings
  | unknown
  deriving DecidableEq

structure SystemCall (Q : Type) where
  callID : String
  body : SyscallBody Q
  deriving DecidableEq

structure CallResult (R : Type) where
  callID : String
  response : Option R
  deriving DecidableEq

/-- What the handlers answer, and what they do to the kernel. -/
structure SyscallHandlers (κ Q R : Type) where
  spawn : κ → Q → R × κ
  kill : κ → Q → R × κ
  send : κ → Q → R × κ
  store : κ → Q → R × κ
  getArtifact : κ → Q → R × κ
  escalate : κ → Q → R × κ
  log : κ → Q → R × κ
  executeOn : κ → Q → R × κ
  waitChild : κ → Q → R × κ
  listSiblings : κ → R × κ

section Handlers
variable {κ Q R : Type}

/-- Every handler puts the identifier of the call into its result. -/
def answerCall (callID : String) (answer : R × κ) : CallResult R × κ := (⟨callID,some answer.1⟩,answer.2)

def handleSyscall (h : SyscallHandlers κ Q R) (kernel : κ) (call : SystemCall Q) : CallResult R × κ :=
  match call.body with
  | .spawn req => answerCall call.callID (h.spawn kernel req)
  | .kill req => answerCall call.callID (h.kill kernel req)
  | .send req => answerCall call.callID (h.send kernel req)
  | .store req => answerCall call.callID (h.store kernel req)
  | .getArtifact req => answerCall call.callID (h.getArtifact kernel req)
  | .escalate req => answerCall call.callID (h.escalate kernel req)
  | .log req => answerCall call.callID (h.log kernel req)
  | .executeOn req => answerCall call.callID (h.executeOn kernel req)
  | .waitChild req => answerCall call.callID (h.waitChild kernel req)
  | .listSiblings => answerCall call.callID (h.listSiblings kernel)
  | .unknown => (⟨call.callID,none⟩,kernel)

@[simp] lemma callID_handleSyscall (h : SyscallHandlers κ Q R) (kernel : κ) (call : SystemCall Q) :
    (handleSyscall h kernel call).1.callID = call.callID := by
  unfold handleSyscall
  cases call.body <;> rfl

end Handlers

/-- The result of the task. -/
structure FinalResult where
  exitCode : ℤ
  output : String
  deriving DecidableEq

/-- What goes over the stream to the kernel. -/
inductive TaskProgress (Q : Type)
  | syscall (calls : List (SystemCall Q))
  | completed (result : FinalResult)
  | failed (message : String) (result : FinalResult)
  | update
  | log
  deriving DecidableEq

/-- How `ExecuteTask` returns. -/
inductive ExecutorExit
  | completed (result : FinalResult)
  | failed (result : FinalResult) (text : String)
  deriving DecidableEq

/-- The loop of `ExecuteTask`: it receives, handles the calls of a message, or sends a result. -/
inductive ExecutorStage (Q R : Type)
  | receiving
  | dispatching (calls : List (SystemCall Q))
  | sending (result : CallResult R) (calls : List (SystemCall Q))
  | returned (exit : ExecutorExit)
  deriving DecidableEq

/-- The future of a call, and whether its coroutine has gone on with the result. -/
inductive SyscallFuture (R : Type)
  | waiting
  | resolved (result : CallResult R)
  | resumed (result : CallResult R)
  | cancelled
  deriving DecidableEq

/-- The agent with its table of pending calls, its queue, where `none` tells the writer to stop, and its
reader; the stream in both directions; the executor and the kernel. Beside them stand the calls of the
coroutines by number, all identifiers so far, the calls that were put on the queue before the final result,
what was dispatched, sent and read, and to which coroutines results were given. -/
structure SyscallStream (κ Q R : Type) where
  pending : Table String ℕ
  futures : Table ℕ (SyscallFuture R)
  queue : List (Option (TaskProgress Q))
  taskDone : Bool
  writerDone : Bool
  readerCancelled : Bool
  toKernel : List (TaskProgress Q)
  toAgent : List (CallResult R)
  executor : ExecutorStage Q R
  kernel : κ
  calls : Table ℕ (SystemCall Q)
  issued : List String
  put : List (SystemCall Q)
  dispatched : List (SystemCall Q × CallResult R)
  sent : List (CallResult R)
  read : List (CallResult R)
  applied : List (ℕ × CallResult R)

/-- A step: a coroutine makes a call or is cancelled, the task reports progress or ends, the writer writes, the
reader is cancelled, the executor receives, handles or sends, the reader reads, a coroutine goes on. -/
inductive StreamStep (Q : Type)
  | doSyscall (i : ℕ) (call : SystemCall Q)
  | cancel (i : ℕ)
  | reportProgress
  | complete (result : FinalResult)
  | fail (message : String) (result : FinalResult)
  | write
  | cancelReader
  | receive
  | handle
  | send
  | read
  | resume (i : ℕ)
  deriving DecidableEq

namespace SyscallStream
variable {κ Q R : Type}

def start (kernel : κ) : SyscallStream κ Q R where
  pending := .empty
  futures := .empty
  queue := []
  taskDone := false
  writerDone := false
  readerCancelled := false
  toKernel := []
  toAgent := []
  executor := .receiving
  kernel := kernel
  calls := .empty
  issued := []
  put := []
  dispatched := []
  sent := []
  read := []
  applied := []

/-- Register the future and put the call on the queue. -/
def doSyscall (s : SyscallStream κ Q R) (i : ℕ) (call : SystemCall Q) : SyscallStream κ Q R :=
  { s with
    pending := s.pending.set call.callID i
    futures := s.futures.set i .waiting
    queue := s.queue++[some (.syscall [call])]
    calls := s.calls.set i call
    issued := call.callID::s.issued
    put := if s.taskDone then s.put else s.put++[call] }

/-- The final result and the signal for the writer. -/
def finish (s : SyscallStream κ Q R) (final : TaskProgress Q) : SyscallStream κ Q R :=
  { s with queue := s.queue++[some final,none], taskDone := true }

/-- What the executor does with a message. -/
def received : TaskProgress Q → ExecutorStage Q R
  | .syscall calls => .dispatching calls
  | .completed result => .returned (.completed result)
  | .failed message result =>
    let text := if message = "" then result.output else message
    .returned (.failed result s!"task failed: {text}")
  | .update | .log => .receiving

/-- Give a future its result unless it is done. -/
def setResult (s : SyscallStream κ Q R) (i : ℕ) (result : CallResult R) : SyscallStream κ Q R :=
  match s.futures.get i with
  | some .waiting => { s with futures := s.futures.set i (.resolved result), applied := s.applied++[(i,result)] }
  | _ => s

def resolveSyscall (s : SyscallStream κ Q R) (result : CallResult R) : SyscallStream κ Q R :=
  match s.pending.get result.callID with
  | none => s
  | some i => setResult { s with pending := s.pending.erase result.callID } i result

def step (h : SyscallHandlers κ Q R) (s : SyscallStream κ Q R) : StreamStep Q → Option (SyscallStream κ Q R)
  | .doSyscall i call =>
    if (s.calls.get i).isSome ∨ call.callID ∈ s.issued then none else some (s.doSyscall i call)
  | .cancel i => match s.futures.get i with
    | some .waiting | some (.resolved _) => some { s with futures := s.futures.set i .cancelled }
    | _ => none
  | .reportProgress => some { s with queue := s.queue++[some .update] }
  | .complete result => if s.taskDone then none else some (s.finish (.completed result))
  | .fail message result => if s.taskDone then none else some (s.finish (.failed message result))
  | .write =>
    if s.writerDone then none
    else match s.queue with
      | [] => none
      | some progress::rest => some { s with queue := rest, toKernel := s.toKernel++[progress] }
      | none::rest => some { s with queue := rest, writerDone := true }
  | .cancelReader => if s.writerDone ∧ ¬s.readerCancelled then some { s with readerCancelled := true } else none
  | .receive => match s.executor,s.toKernel with
    | .receiving,progress::rest => some { s with toKernel := rest, executor := received progress }
    | _,_ => none
  | .handle => match s.executor with
    | .dispatching [] => some { s with executor := .receiving }
    | .dispatching (call::calls) =>
      let (result,kernel) := handleSyscall h s.kernel call
      some { s with
        executor := .sending result calls
        kernel := kernel
        dispatched := s.dispatched++[(call,result)] }
    | _ => none
  | .send => match s.executor with
    | .sending result calls => some { s with
        executor := .dispatching calls
        toAgent := s.toAgent++[result]
        sent := s.sent++[result] }
    | _ => none
  | .read =>
    if s.readerCancelled then none
    else match s.toAgent with
      | [] => none
      | result::rest => some (resolveSyscall { s with toAgent := rest, read := s.read++[result] } result)
  | .resume i => match s.futures.get i with
    | some (.resolved result) => some { s with futures := s.futures.set i (.resumed result) }
    | _ => none

/-- The steps that need nobody outside: everything but new calls, cancellations and the end of the task. -/
def Machinery : StreamStep Q → Prop
  | .write | .cancelReader | .receive | .handle | .send | .read | .resume _ => True
  | _ => False

/-- Nothing is under way any more. -/
def Settled (h : SyscallHandlers κ Q R) (s : SyscallStream κ Q R) : Prop :=
  ∀ op : StreamStep Q, Machinery op → s.step h op = none

/-- The coroutine has gone on with a result, or was cancelled. -/
def Done (s : SyscallStream κ Q R) (i : ℕ) : Prop :=
  s.futures.get i = some .cancelled ∨ ∃ result, s.futures.get i = some (.resumed result)

/-- Calls are dispatched in the order of the queue, each at most once; every result bears the identifier of its
call, and they are sent in that order; a coroutine goes on with the result of its own call only; no
coroutine gets two results and no result is given twice. -/
structure Matched (s : SyscallStream κ Q R) : Prop where
  once : (s.put.map SystemCall.callID).Nodup
  order : s.dispatched.map Prod.fst <+: s.put
  ids : ∀ d ∈ s.dispatched, d.2.callID = d.1.callID
  results : s.sent <+: s.dispatched.map Prod.snd
  own : ∀ i result, s.futures.get i = some (.resumed result) →
    ∃ call, s.calls.get i = some call ∧ (call,result) ∈ s.dispatched
  coroutines : (s.applied.map Prod.fst).Nodup
  applied : (s.applied.map (fun a => a.2.callID)).Nodup

/-- When nothing is under way any more, every call that was put on the queue before the final result was
dispatched and its result was sent, and every coroutine whose result was read is done; unless the reader was
cancelled all of them are. -/
structure Served (s : SyscallStream κ Q R) : Prop where
  dispatched : s.dispatched.map Prod.fst = s.put
  sent : s.sent = s.dispatched.map Prod.snd
  read : ∀ i call, s.calls.get i = some call → call.callID ∈ s.read.map CallResult.callID → s.Done i
  all : s.readerCancelled = false → ∀ i call, s.calls.get i = some call → call ∈ s.put → s.Done i

def isFinal : TaskProgress Q → Bool
  | .completed _ | .failed _ _ => true
  | _ => false

/-- The calls ahead of the final result. -/
def waitingCalls : List (Option (TaskProgress Q)) → List (SystemCall Q)
  | [] | none::_ => []
  | some (.syscall calls)::line => calls++waitingCalls line
  | some (.completed _)::_ | some (.failed _ _)::_ => []
  | some .update::line | some .log::line => waitingCalls line

/-- The final result is in the line, before the signal for the writer. -/
def HasFinal : List (Option (TaskProgress Q)) → Prop
  | [] | none::_ => False
  | some progress::line => isFinal progress ∨ HasFinal line

/-- Messages of the task while it runs. -/
def Ordinary (line : List (Option (TaskProgress Q))) : Prop :=
  ∀ item ∈ line, ∃ progress, item = some progress ∧ isFinal progress = false

/-- What is on the stream to the kernel and on the queue. -/
def line (s : SyscallStream κ Q R) : List (Option (TaskProgress Q)) := s.toKernel.map some++s.queue

/-- The calls of the message that the executor is at. -/
def taken : ExecutorStage Q R → List (SystemCall Q)
  | .dispatching calls | .sending _ calls => calls
  | _ => []

/-- The result that the executor is about to send. -/
def unsent : ExecutorStage Q R → List (CallResult R)
  | .sending result _ => [result]
  | _ => []

def Returned (s : SyscallStream κ Q R) : Prop := ∃ exit, s.executor = .returned exit

structure Flow (s : SyscallStream κ Q R) : Prop where
  order : ¬s.Returned → s.put = s.dispatched.map Prod.fst++taken s.executor++waitingCalls s.line
  returned : s.Returned → s.put = s.dispatched.map Prod.fst
  ordinary : s.taskDone = false → Ordinary s.line ∧ ¬s.Returned ∧ s.writerDone = false
  final : s.taskDone = true → ¬s.Returned → HasFinal s.line
  written : s.writerDone = true → ¬s.Returned → HasFinal (s.toKernel.map some)
  ids : ∀ d ∈ s.dispatched, d.2.callID = d.1.callID
  results : s.dispatched.map Prod.snd = s.sent++unsent s.executor
  stream : s.sent = s.read++s.toAgent

variable {h : SyscallHandlers κ Q R} {s t : SyscallStream κ Q R} {op : StreamStep Q}

lemma waitingCalls_ordinary {line : List (Option (TaskProgress Q))} (hline : Ordinary line)
    (later : List (Option (TaskProgress Q))) : waitingCalls (line++later) = waitingCalls line++waitingCalls later := by
  induction line with
  | nil => rfl
  | cons item line ih =>
    have hrest := ih (fun item hitem => hline item (List.mem_cons_of_mem _ hitem))
    obtain ⟨progress,rfl,hfinal⟩ := hline item List.mem_cons_self
    cases progress with
    | syscall calls => simp [waitingCalls,hrest]
    | completed result => cases hfinal
    | failed message result => cases hfinal
    | update => simpa [waitingCalls] using hrest
    | log => simpa [waitingCalls] using hrest

/-- Behind the final result nothing matters. -/
lemma HasFinal.append {line : List (Option (TaskProgress Q))} (hline : HasFinal line)
    (later : List (Option (TaskProgress Q))) :
    HasFinal (line++later) ∧ waitingCalls (line++later) = waitingCalls line := by
  induction line with
  | nil => cases hline
  | cons item line ih =>
    cases item with
    | none => cases hline
    | some progress =>
      cases progress with
      | completed result => exact ⟨.inl rfl,rfl⟩
      | failed message result => exact ⟨.inl rfl,rfl⟩
      | syscall calls =>
        have hrest := ih (hline.resolve_left (by simp [isFinal]))
        exact ⟨.inr hrest.1,by simp [waitingCalls,hrest.2]⟩
      | update =>
        have hrest := ih (hline.resolve_left (by simp [isFinal]))
        exact ⟨.inr hrest.1,by simpa [waitingCalls] using hrest.2⟩
      | log =>
        have hrest := ih (hline.resolve_left (by simp [isFinal]))
        exact ⟨.inr hrest.1,by simpa [waitingCalls] using hrest.2⟩

lemma hasFinal_ordinary_append {line : List (Option (TaskProgress Q))} (hline : Ordinary line)
    {later : List (Option (TaskProgress Q))} (hlater : HasFinal later) : HasFinal (line++later) := by
  induction line with
  | nil => exact hlater
  | cons item line ih =>
    obtain ⟨progress,rfl,-⟩ := hline item List.mem_cons_self
    exact .inr (ih (fun item hitem => hline item (List.mem_cons_of_mem _ hitem)))

/-- The signal for the writer comes behind the final result. -/
lemma HasFinal.before_stop {front : List (TaskProgress Q)} {later : List (Option (TaskProgress Q))}
    (hline : HasFinal (front.map some++none::later)) : HasFinal (front.map some) := by
  induction front with
  | nil => cases hline
  | cons progress front ih => exact hline.imp_right ih

/-- What a step does, case by case. -/
inductive Move (h : SyscallHandlers κ Q R) (s : SyscallStream κ Q R) : StreamStep Q → SyscallStream κ Q R → Prop
  | call {i : ℕ} {call : SystemCall Q} (hi : s.calls.get i = none) (hid : call.callID ∉ s.issued) :
      Move h s (.doSyscall i call) (s.doSyscall i call)
  | cancel {i : ℕ} (hi : s.futures.get i = some .waiting ∨ ∃ result, s.futures.get i = some (.resolved result)) :
      Move h s (.cancel i) { s with futures := s.futures.set i .cancelled }
  | report : Move h s .reportProgress { s with queue := s.queue++[some .update] }
  | finish {op : StreamStep Q} {final : TaskProgress Q} (hop : ¬Machinery op) (hrunning : s.taskDone = false)
      (hfinal : isFinal final = true) : Move h s op (s.finish final)
  | write {progress : TaskProgress Q} {rest : List (Option (TaskProgress Q))} (hwriter : s.writerDone = false)
      (hqueue : s.queue = some progress::rest) :
      Move h s .write { s with queue := rest, toKernel := s.toKernel++[progress] }
  | stop {rest : List (Option (TaskProgress Q))} (hqueue : s.queue = none::rest) :
      Move h s .write { s with queue := rest, writerDone := true }
  | cancelReader (hreader : s.readerCancelled = false) :
      Move h s .cancelReader { s with readerCancelled := true }
  | receive {progress : TaskProgress Q} {rest : List (TaskProgress Q)} (hexecutor : s.executor = .receiving)
      (hstream : s.toKernel = progress::rest) :
      Move h s .receive { s with toKernel := rest, executor := received progress }
  | handled (hexecutor : s.executor = .dispatching []) : Move h s .handle { s with executor := .receiving }
  | handle {call : SystemCall Q} {calls : List (SystemCall Q)} (hexecutor : s.executor = .dispatching (call::calls)) :
      Move h s .handle { s with
        executor := .sending (handleSyscall h s.kernel call).1 calls
        kernel := (handleSyscall h s.kernel call).2
        dispatched := s.dispatched++[(call,(handleSyscall h s.kernel call).1)] }
  | send {result : CallResult R} {calls : List (SystemCall Q)} (hexecutor : s.executor = .sending result calls) :
      Move h s .send { s with
        executor := .dispatching calls
        toAgent := s.toAgent++[result]
        sent := s.sent++[result] }
  | read {result : CallResult R} {rest : List (CallResult R)} (hreader : s.readerCancelled = false)
      (hstream : s.toAgent = result::rest) :
      Move h s .read (resolveSyscall { s with toAgent := rest, read := s.read++[result] } result)
  | resume {i : ℕ} {result : CallResult R} (hi : s.futures.get i = some (.resolved result)) :
      Move h s (.resume i) { s with futures := s.futures.set i (.resumed result) }

lemma move_of_step (hstep : s.step h op = some t) : Move h s op t := by
  cases op with
  | doSyscall i call =>
    simp only [step] at hstep
    split at hstep
    · cases hstep
    next hnew =>
      cases hstep
      push Not at hnew
      exact .call (by simpa using hnew.1) hnew.2
  | cancel i =>
    simp only [step] at hstep
    split at hstep
    next hi =>
      cases hstep
      exact .cancel (.inl hi)
    next result hi =>
      cases hstep
      exact .cancel (.inr ⟨result,hi⟩)
    · cases hstep
  | reportProgress =>
    cases hstep
    exact .report
  | complete result =>
    simp only [step] at hstep
    split at hstep
    · cases hstep
    next hrunning =>
      cases hstep
      exact .finish id (by simpa using hrunning) rfl
  | fail message result =>
    simp only [step] at hstep
    split at hstep
    · cases hstep
    next hrunning =>
      cases hstep
      exact .finish id (by simpa using hrunning) rfl
  | write =>
    simp only [step] at hstep
    split at hstep
    · cases hstep
    next hwriter =>
      split at hstep
      · cases hstep
      next hqueue =>
        cases hstep
        exact .write (by simpa using hwriter) hqueue
      next hqueue =>
        cases hstep
        exact .stop hqueue
  | cancelReader =>
    simp only [step] at hstep
    split at hstep
    next hreader =>
      cases hstep
      exact .cancelReader (by simpa using hreader.2)
    · cases hstep
  | receive =>
    simp only [step] at hstep
    split at hstep
    next hexecutor hstream =>
      cases hstep
      exact .receive hexecutor hstream
    · cases hstep
  | handle =>
    simp only [step] at hstep
    split at hstep
    next hexecutor =>
      cases hstep
      exact .handled hexecutor
    next hexecutor =>
      cases hstep
      exact .handle hexecutor
    · cases hstep
  | send =>
    simp only [step] at hstep
    split at hstep
    next hexecutor =>
      cases hstep
      exact .send hexecutor
    · cases hstep
  | read =>
    simp only [step] at hstep
    split at hstep
    · cases hstep
    next hreader =>
      split at hstep
      · cases hstep
      next hstream =>
        cases hstep
        exact .read (by simpa using hreader) hstream
  | resume i =>
    simp only [step] at hstep
    split at hstep
    next hi =>
      cases hstep
      exact .resume hi
    · cases hstep

lemma flow_start (kernel : κ) : Flow (start kernel : SyscallStream κ Q R) := by
  constructor <;> simp [start,line,taken,unsent,waitingCalls,Ordinary,Returned]

/-- Another message is put on the queue; behind the final result it does not count. -/
lemma Flow.enqueue (hs : Flow s) {progress : TaskProgress Q} (hordinary : isFinal progress = false) : Flow { s with
    queue := s.queue++[some progress]
    put := if s.taskDone then s.put else s.put++waitingCalls [some progress] } := by
  have hline : line { s with
      queue := s.queue++[some progress]
      put := if s.taskDone then s.put else s.put++waitingCalls [some progress] } = s.line++[some progress] :=
    (List.append_assoc _ _ _).symm
  by_cases hdone : s.taskDone = true
  · refine ⟨fun hreturned => ?_,fun hreturned => ?_,fun hdone' => ?_,fun _ hreturned => ?_,hs.written,hs.ids,
      hs.results,hs.stream⟩
    · rw [hline,((hs.final hdone hreturned).append _).2]
      simp only [hdone,if_true]
      exact hs.order hreturned
    · simp only [hdone,if_true]
      exact hs.returned hreturned
    · cases hdone.symm.trans hdone'
    · rw [hline]
      exact ((hs.final hdone hreturned).append _).1
  · have hrunning : s.taskDone = false := by simpa using hdone
    obtain ⟨hs',hreturned,hwriter⟩ := hs.ordinary hrunning
    refine ⟨fun _ => ?_,fun hreturned' => absurd hreturned' hreturned,fun _ => ⟨?_,hreturned,hwriter⟩,
      fun hdone' => absurd hdone' hdone,fun hwriter' => ?_,hs.ids,hs.results,hs.stream⟩
    · rw [hline,waitingCalls_ordinary hs']
      simp only [hrunning,Bool.false_eq_true,if_false]
      rw [hs.order hreturned]
      simp only [List.append_assoc]
    · rw [hline]
      exact List.forall_mem_append.mpr ⟨hs',List.forall_mem_singleton.mpr ⟨progress,rfl,hordinary⟩⟩
    · cases hwriter.symm.trans hwriter'

/-- The task ends. -/
lemma Flow.finish (hs : Flow s) {final : TaskProgress Q} (hrunning : s.taskDone = false)
    (hfinal : isFinal final = true) : Flow (s.finish final) := by
  have hline : (s.finish final).line = s.line++[some final,none] := (List.append_assoc _ _ _).symm
  obtain ⟨hs',hreturned,hwriter⟩ := hs.ordinary hrunning
  have hnone : waitingCalls [some final,none] = [] := by
    cases final with
    | completed result => rfl
    | failed message result => rfl
    | syscall calls => cases hfinal
    | update => rfl
    | log => rfl
  refine ⟨fun _ => ?_,fun hreturned' => absurd hreturned' hreturned,fun hdone => ?_,fun _ _ => ?_,
    fun hwriter' => ?_,hs.ids,hs.results,hs.stream⟩
  · rw [hline,waitingCalls_ordinary hs',hnone,List.append_nil]
    exact hs.order hreturned
  · cases hdone
  · rw [hline]
    exact hasFinal_ordinary_append hs' (.inl hfinal)
  · cases hwriter.symm.trans hwriter'

/-- The writer sends a message. -/
lemma Flow.write (hs : Flow s) {progress : TaskProgress Q} {rest : List (Option (TaskProgress Q))}
    (hwriter : s.writerDone = false) (hqueue : s.queue = some progress::rest) :
    Flow { s with queue := rest, toKernel := s.toKernel++[progress] } := by
  have hline : (s.toKernel++[progress]).map some++rest = s.line := by
    simp [line,hqueue]
  refine ⟨fun hreturned => ?_,hs.returned,fun hdone => ?_,fun hdone hreturned => ?_,fun hwriter' => ?_,hs.ids,
    hs.results,hs.stream⟩
  · simp only [line,hline]
    exact hs.order hreturned
  · simp only [line,hline]
    exact hs.ordinary hdone
  · simp only [line,hline]
    exact hs.final hdone hreturned
  · cases hwriter.symm.trans hwriter'

/-- The writer gets its signal; the final result has been sent by then. -/
lemma Flow.stop (hs : Flow s) {rest : List (Option (TaskProgress Q))} (hqueue : s.queue = none::rest) :
    Flow { s with queue := rest, writerDone := true } := by
  have hdone : s.taskDone = true := by
    by_contra hrunning
    obtain ⟨progress,hnone,-⟩ := (hs.ordinary (by simpa using hrunning)).1 none (by simp [line,hqueue])
    cases hnone
  have hfront : ¬s.Returned → HasFinal (s.toKernel.map some) := by
    intro hreturned
    have hfinal := hs.final hdone hreturned
    rw [line,hqueue] at hfinal
    exact hfinal.before_stop
  refine ⟨fun hreturned => ?_,hs.returned,fun hrunning => ?_,fun _ hreturned => ((hfront hreturned).append _).1,
    fun _ => hfront,hs.ids,hs.results,hs.stream⟩
  · have horder := hs.order hreturned
    rw [line,((hfront hreturned).append _).2] at horder
    simp only [line]
    rw [((hfront hreturned).append _).2]
    exact horder
  · cases hdone.symm.trans hrunning

/-- The executor receives a message. -/
lemma Flow.receive (hs : Flow s) {progress : TaskProgress Q} {rest : List (TaskProgress Q)}
    (hexecutor : s.executor = .receiving) (hstream : s.toKernel = progress::rest) :
    Flow { s with toKernel := rest, executor := received progress } := by
  have hline : s.line = some progress::(rest.map some++s.queue) := by simp [line,hstream]
  have hrunning : ¬s.Returned := by simp [Returned,hexecutor]
  have horder := hs.order hrunning
  rw [hline,hexecutor] at horder
  by_cases hfinal : isFinal progress = true
  · have hdone : s.taskDone = true := by
      by_contra hnot
      obtain ⟨progress',hsame,hordinary⟩ := (hs.ordinary (by simpa using hnot)).1 (some progress) (by simp [hline])
      cases hsame
      cases hfinal.symm.trans hordinary
    have hreturned : ∃ exit, (received progress : ExecutorStage Q R) = .returned exit := by
      cases progress <;> simp [isFinal,received] at hfinal ⊢
    have hput : s.put = s.dispatched.map Prod.fst := by
      rw [horder]
      cases progress <;> simp [isFinal,taken,waitingCalls] at hfinal ⊢
    have hunsent : unsent (received progress : ExecutorStage Q R) = [] := by
      obtain ⟨exit,hexit⟩ := hreturned
      rw [hexit]
      rfl
    refine ⟨fun hnot => absurd hreturned hnot,fun _ => hput,fun hdone' => ?_,fun _ hnot => absurd hreturned hnot,
      fun _ hnot => absurd hreturned hnot,hs.ids,?_,hs.stream⟩
    · cases hdone.symm.trans hdone'
    · rw [hunsent,hs.results,hexecutor]
      rfl
  · have hordinary : isFinal progress = false := by simpa using hfinal
    have hunsent : unsent (received progress : ExecutorStage Q R) = [] := by
      cases progress <;> simp [isFinal,received,unsent] at hordinary ⊢
    have hreturned : ¬∃ exit, (received progress : ExecutorStage Q R) = .returned exit := by
      cases progress <;> simp [isFinal,received] at hordinary ⊢
    have htaken : waitingCalls (some progress::(rest.map some++s.queue)) =
        taken (received progress : ExecutorStage Q R)++waitingCalls (rest.map some++s.queue) := by
      cases progress <;> simp [isFinal,received,taken,waitingCalls] at hordinary ⊢
    refine ⟨fun _ => ?_,fun hreturned' => absurd hreturned' hreturned,fun hdone => ?_,fun hdone _ => ?_,
      fun hwriter _ => ?_,hs.ids,?_,hs.stream⟩
    · rw [htaken] at horder
      simpa [taken,line] using horder
    · obtain ⟨hordinary',-,hwriter⟩ := hs.ordinary hdone
      rw [hline] at hordinary'
      exact ⟨(List.forall_mem_cons.mp hordinary').2,hreturned,hwriter⟩
    · have hfinal' := hs.final hdone hrunning
      rw [hline] at hfinal'
      exact hfinal'.resolve_left hfinal
    · have hfinal' := hs.written hwriter hrunning
      rw [hstream] at hfinal'
      exact hfinal'.resolve_left hfinal
    · rw [hunsent,hs.results,hexecutor]
      rfl

lemma Flow.move (hs : Flow s) (hmove : Move h s op t) : Flow t := by
  cases hmove with
  | @call i call hi hid =>
    have hcall := @Flow.enqueue _ _ _ _ hs (.syscall [call]) rfl
    exact ⟨hcall.order,hcall.returned,hcall.ordinary,hcall.final,hcall.written,hcall.ids,hcall.results,hcall.stream⟩
  | cancel hi => exact ⟨hs.order,hs.returned,hs.ordinary,hs.final,hs.written,hs.ids,hs.results,hs.stream⟩
  | report =>
    have hreport := @Flow.enqueue _ _ _ _ hs .update rfl
    have hput : (if s.taskDone then s.put else s.put++waitingCalls [some .update]) = s.put := by
      simp [waitingCalls]
    rw [hput] at hreport
    exact hreport
  | finish _ hrunning hfinal => exact hs.finish hrunning hfinal
  | write hwriter hqueue => exact hs.write hwriter hqueue
  | stop hqueue => exact hs.stop hqueue
  | cancelReader _ => exact ⟨hs.order,hs.returned,hs.ordinary,hs.final,hs.written,hs.ids,hs.results,hs.stream⟩
  | receive hexecutor hstream => exact hs.receive hexecutor hstream
  | handled hexecutor =>
    have hrunning : ¬s.Returned := by simp [Returned,hexecutor]
    have horder := hs.order hrunning
    have hresults := hs.results
    rw [hexecutor] at horder hresults
    exact ⟨fun _ => horder,fun hreturned => by simp [Returned] at hreturned,
      fun hdone => ⟨(hs.ordinary hdone).1,by simp [Returned],(hs.ordinary hdone).2.2⟩,
      fun hdone _ => hs.final hdone hrunning,fun hwriter _ => hs.written hwriter hrunning,hs.ids,hresults,hs.stream⟩
  | @handle call calls hexecutor =>
    have hrunning : ¬s.Returned := by simp [Returned,hexecutor]
    have horder := hs.order hrunning
    have hresults := hs.results
    rw [hexecutor] at horder hresults
    refine ⟨fun _ => ?_,fun hreturned => by simp [Returned] at hreturned,
      fun hdone => ⟨(hs.ordinary hdone).1,by simp [Returned],(hs.ordinary hdone).2.2⟩,
      fun hdone _ => hs.final hdone hrunning,fun hwriter _ => hs.written hwriter hrunning,?_,?_,hs.stream⟩
    · simpa [taken,line] using horder
    · exact List.forall_mem_append.mpr ⟨hs.ids,List.forall_mem_singleton.mpr (callID_handleSyscall h s.kernel call)⟩
    · simpa [unsent] using hresults
  | @send result calls hexecutor =>
    have hrunning : ¬s.Returned := by simp [Returned,hexecutor]
    have horder := hs.order hrunning
    have hresults := hs.results
    have hstream := hs.stream
    rw [hexecutor] at horder hresults
    refine ⟨fun _ => horder,fun hreturned => by simp [Returned] at hreturned,
      fun hdone => ⟨(hs.ordinary hdone).1,by simp [Returned],(hs.ordinary hdone).2.2⟩,
      fun hdone _ => hs.final hdone hrunning,fun hwriter _ => hs.written hwriter hrunning,hs.ids,?_,?_⟩
    · simpa [unsent] using hresults
    · simp [hstream]
  | @read result rest hreader hstream =>
    have hread : Flow { s with toAgent := rest, read := s.read++[result] } := by
      refine ⟨hs.order,hs.returned,hs.ordinary,hs.final,hs.written,hs.ids,hs.results,?_⟩
      simp only [hs.stream,hstream,List.append_assoc,List.cons_append,List.nil_append]
    unfold resolveSyscall setResult
    split
    · exact hread
    · split <;> exact ⟨hread.order,hread.returned,hread.ordinary,hread.final,hread.written,hread.ids,hread.results,
        hread.stream⟩
  | resume hi => exact ⟨hs.order,hs.returned,hs.ordinary,hs.final,hs.written,hs.ids,hs.results,hs.stream⟩

/-- In any state the dispatched calls are the first ones that were put on the queue. -/
lemma Flow.dispatched_isPrefix (hs : Flow s) : s.dispatched.map Prod.fst <+: s.put := by
  by_cases hreturned : s.Returned
  · simp only [hs.returned hreturned,List.prefix_rfl]
  · rw [hs.order hreturned,List.append_assoc]
    exact List.prefix_append _ _

lemma Flow.sent_isPrefix (hs : Flow s) : s.sent <+: s.dispatched.map Prod.snd := by
  rw [hs.results]
  exact List.prefix_append _ _

end SyscallStream
end HiveKernel
