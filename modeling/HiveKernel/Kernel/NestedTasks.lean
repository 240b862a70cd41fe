import HiveKernel.Kernel.KernelBudget
import HiveKernel.Kernel.System
import HiveKernel.Kernel.SystemTable
import HiveKernel.Lib.Activations
import HiveKernel.Scheduler.Cron

/-! Tasks under execution. The kernel keeps a stream open to the agent of each task and handles the agent's syscalls
one after the other; a syscall may execute a task on a child, and the stream waits until that task is over. -/
namespace HiveKernel
open Lib

structure TaskRequest where
  taskID : String
  description : String
  params : List (String × String)
  timeoutSeconds : ℕ := 0

/-- A stream of `ExecuteTask`: the process that executes, where its agent listens, and the task. -/
structure AgentTask where
  agent : ℕ
  addr : String
  task : Option TaskRequest

def extractTraceFromParams (params : List (String × String)) : String × String :=
  ((params.lookup "trace_id").getD "",(params.lookup "trace_span").getD "")

namespace King

def getRuntime (k : King) (pid : ℕ) : Option AgentRuntime := k.runtime.bind (fun m => m.runtimes.get pid)

/-- The trace of a request, if it has one, becomes the trace of the process. -/
def traceFromParams (k : King) (pid : ℕ) (params : List (String × String)) : King :=
  let (tID,tSpan) := extractTraceFromParams params
  if tID ≠ "" then k.setTrace pid tID tSpan else k

/-- The request of a client: any process that is registered and has a runtime will do. -/
def executeTask (k : King) (executor : Bool) (targetPID : ℕ) (description : String) (params : List (String × String))
    (timeoutSeconds : ℤ) : Except String AgentTask × King :=
  if executor = false then (.error "executor not available",k)
  else match k.runtime with
  | none => (.error "runtime manager not available",k)
  | some m => match k.registry.get targetPID with
    | none => (.error "target process not found",k)
    | some target => match m.runtimes.get targetPID with
      | none => (.error s!"no runtime for PID {targetPID}",k)
      | some rt =>
        let descForID := description.take 20
        let task : TaskRequest :=
          { taskID := s!"ext-{target.pid}-{descForID}"
            description := description
            params := params
            timeoutSeconds := (timeoutSeconds % 2^32).toNat }
        (.ok ⟨targetPID,rt.addr,some task⟩,k.traceFromParams targetPID params)

/-- A cron entry that executes a task, at the given second. Whether the target is registered is not checked. -/
def cronExecute (k : King) (executor : Bool) (second : ℤ) (entry : CronEntry) : Option AgentTask × King :=
  if executor = false then (none,k)
  else match k.getRuntime entry.targetPID with
  | none => (none,k)
  | some rt =>
    let cronTraceID := s!"cron-{entry.id}-{second}"
    let task : TaskRequest :=
      { taskID := cronTraceID
        description := entry.executeDesc
        params := ("trace_id",cronTraceID)::entry.executeParams.filter (fun p => p.1 ≠ "trace_id") }
    (some ⟨entry.targetPID,rt.addr,some task⟩,k.setTrace entry.targetPID cronTraceID "cron")

/-- The syscall of an agent: the target has to be its own child. Without a trace in the request the child takes over
the caller's. -/
def handleExecuteOn (k : King) (executor : Bool) (callerPID targetPID : ℕ) (task : Option TaskRequest) :
    Except String AgentTask × King :=
  match k.registry.get targetPID with
  | none => (.error "target process not found",k)
  | some target =>
    if target.ppid ≠ callerPID then (.error "can only execute_on own children",k)
    else match k.runtime with
    | none => (.error "runtime manager not available",k)
    | some m => match m.runtimes.get targetPID with
      | none => (.error s!"no runtime for PID {targetPID}",k)
      | some rt =>
        if executor = false then (.error "executor not available",k)
        else
          let params := (task.map TaskRequest.params).getD []
          let caller := k.getTrace callerPID
          let k := if (extractTraceFromParams params).1 ≠ "" then k.traceFromParams targetPID params
            else if caller.traceID ≠ "" then k.setTrace targetPID caller.traceID caller.traceSpan
            else k
          (.ok ⟨targetPID,rt.addr,task⟩,k)

end King

/-- The kernel with the tasks under execution. -/
structure TaskSystem where
  system : System
  executor : Bool
  tasks : Table ℕ (Activation AgentTask)

inductive TaskOp
  | kernel (op : KernelOp)
  | executeTask (i targetPID : ℕ) (description : String) (params : List (String × String)) (timeoutSeconds : ℤ)
  | cronExecute (i : ℕ) (second : ℤ) (entry : CronEntry)
  /-- The agent of the task `i` asks for `j`. -/
  | executeOn (i j targetPID : ℕ) (task : Option TaskRequest)
  /-- The agent has reported its result, or its stream has ended. -/
  | finish (i : ℕ)

namespace TaskSystem

def start (cfg : Config) (now : ℤ) (runtime : Option RuntimeManager) (executor : Bool) : TaskSystem :=
  ⟨System.boot cfg now runtime,executor,.empty⟩

def withKing (s : TaskSystem) (king : King) : TaskSystem := { s with system := ⟨king,s.system.pending⟩ }

def step (s : TaskSystem) : TaskOp → Option TaskSystem
  | .kernel op => (s.system.step op).map (fun system => { s with system := system })
  | .executeTask i targetPID description params timeoutSeconds =>
    match s.system.king.executeTask s.executor targetPID description params timeoutSeconds with
    | (.error _,_) => some s
    | (.ok task,king) => (Activation.enter s.tasks i task).map (fun tasks => { s.withKing king with tasks := tasks })
  | .cronExecute i second entry =>
    match s.system.king.cronExecute s.executor second entry with
    | (none,_) => some s
    | (some task,king) => (Activation.enter s.tasks i task).map (fun tasks => { s.withKing king with tasks := tasks })
  | .executeOn i j targetPID task => match s.tasks.get i with
    | none => none
    | some a =>
      -- the loop of the stream handles one syscall at a time
      if a.inner ≠ none then none
      else match s.system.king.handleExecuteOn s.executor a.body.agent targetPID task with
      | (.error _,_) => some s
      | (.ok inner,king) =>
        (Activation.call s.tasks i j inner).map (fun tasks => { s.withKing king with tasks := tasks })
  | .finish i => (Activation.leave s.tasks i).map (fun tasks => { s with tasks := tasks })

/-- The PID of the process that executes. -/
def rank (task : AgentTask) : ℕ := task.agent

variable {s t : TaskSystem}

lemma registry_traceFromParams (k : King) (pid : ℕ) (params : List (String × String)) :
    (k.traceFromParams pid params).registry = k.registry := by
  unfold King.traceFromParams
  dsimp only
  split_ifs
  · rfl
  · rfl

lemma executeTask_effect {k k' : King} {executor : Bool} {targetPID : ℕ} {description : String}
    {params : List (String × String)} {timeoutSeconds : ℤ} {task : AgentTask}
    (h : k.executeTask executor targetPID description params timeoutSeconds = (.ok task,k')) :
    k'.registry = k.registry ∧ task.agent = targetPID ∧ (k.registry.get targetPID).isSome := by
  unfold King.executeTask at h
  split at h
  · cases h
  split at h
  · cases h
  split at h
  · cases h
  next target htarget =>
    split at h
    · cases h
    · cases h
      exact ⟨registry_traceFromParams _ _ _,rfl,by rw [htarget]; rfl⟩

lemma cronExecute_effect {k k' : King} {executor : Bool} {second : ℤ} {entry : CronEntry} {task : AgentTask}
    (h : k.cronExecute executor second entry = (some task,k')) : k'.registry = k.registry := by
  unfold King.cronExecute at h
  split at h
  · cases h
  split at h
  · cases h
  · cases h
    rfl

/-- What is executed is executed on a child, under the trace of the request or else of the caller. -/
lemma handleExecuteOn_effect {k k' : King} {executor : Bool} {callerPID targetPID : ℕ} {task : Option TaskRequest}
    {inner : AgentTask} (h : k.handleExecuteOn executor callerPID targetPID task = (.ok inner,k')) :
    k'.registry = k.registry ∧ inner.agent = targetPID ∧
    (∃ p, k.registry.get targetPID = some p ∧ p.ppid = callerPID) ∧
    ((extractTraceFromParams ((task.map TaskRequest.params).getD [])).1 = "" →
      (k.getTrace callerPID).traceID ≠ "" → k'.getTrace targetPID = k.getTrace callerPID) := by
  unfold King.handleExecuteOn at h
  split at h
  · cases h
  next p hp =>
    split at h
    · cases h
    next hchild =>
      split at h
      · cases h
      split at h
      · cases h
      split at h
      · cases h
      have hfound : ∃ p, k.registry.get targetPID = some p ∧ p.ppid = callerPID := ⟨p,hp,not_not.mp hchild⟩
      dsimp only at h
      split_ifs at h with hparams htrace
      · cases h
        exact ⟨registry_traceFromParams _ _ _,rfl,hfound,fun hnone => absurd hnone hparams⟩
      · cases h
        refine ⟨rfl,rfl,hfound,fun _ _ => ?_⟩
        simp [King.getTrace,King.setTrace]
      · cases h
        exact ⟨rfl,rfl,hfound,fun _ hsome => absurd hsome htrace⟩

/-- Every way a step can go. -/
lemma step_cases {op : TaskOp} (hs : s.step op = some t) :
    (∃ kop, op = .kernel kop ∧ s.system.step kop = some t.system ∧ t.tasks = s.tasks) ∨
    t = s ∨
    (∃ i task, (∀ i j targetPID task, op ≠ .executeOn i j targetPID task) ∧
      t.system.king.registry = s.system.king.registry ∧ Activation.enter s.tasks i task = some t.tasks) ∨
    (∃ i j targetPID request a inner, op = .executeOn i j targetPID request ∧ s.tasks.get i = some a ∧
      s.system.king.handleExecuteOn s.executor a.body.agent targetPID request = (.ok inner,t.system.king) ∧
      Activation.call s.tasks i j inner = some t.tasks) ∨
    ∃ i, op = .finish i ∧ t.system = s.system ∧ Activation.leave s.tasks i = some t.tasks := by
  cases op with
  | kernel kop =>
    obtain ⟨system,hsystem,rfl⟩ := Option.map_eq_some_iff.mp hs
    exact .inl ⟨kop,rfl,hsystem,rfl⟩
  | executeTask i targetPID description params timeoutSeconds =>
    simp only [step] at hs
    split at hs
    · cases hs
      exact .inr (.inl rfl)
    next task king hok =>
      obtain ⟨tasks,htasks,rfl⟩ := Option.map_eq_some_iff.mp hs
      exact .inr (.inr (.inl ⟨i,task,(fun _ _ _ _ h => by cases h),(executeTask_effect hok).1,htasks⟩))
  | cronExecute i second entry =>
    simp only [step] at hs
    split at hs
    · cases hs
      exact .inr (.inl rfl)
    next task king hok =>
      obtain ⟨tasks,htasks,rfl⟩ := Option.map_eq_some_iff.mp hs
      exact .inr (.inr (.inl ⟨i,task,(fun _ _ _ _ h => by cases h),cronExecute_effect hok,htasks⟩))
  | executeOn i j targetPID request =>
    simp only [step] at hs
    split at hs
    · cases hs
    next a ha =>
      split_ifs at hs
      split at hs
      · cases hs
        exact .inr (.inl rfl)
      next inner king hok =>
        obtain ⟨tasks,htasks,rfl⟩ := Option.map_eq_some_iff.mp hs
        exact .inr (.inr (.inr (.inl ⟨i,j,targetPID,request,a,inner,rfl,ha,hok,htasks⟩)))
  | finish i =>
    obtain ⟨tasks,htasks,rfl⟩ := Option.map_eq_some_iff.mp hs
    exact .inr (.inr (.inr (.inr ⟨i,rfl,rfl,htasks⟩)))

/-- Whoever is waited for has been registered, and its PID is above that of the one that waits. -/
structure Sound (s : TaskSystem) : Prop where
  ordered : s.system.king.registry.Ordered
  linked : Activation.Linked rank s.tasks
  known : ∀ j b, s.tasks.get j = some b → b.outer.isSome → b.body.agent < s.system.king.registry.nextPID

lemma Sound.step (h : s.Sound) {op : TaskOp} (hs : s.step op = some t) : t.Sound := by
  rcases step_cases hs with ⟨kop,-,hkernel,htasks⟩ | rfl | ⟨i,task,-,hregistry,henter⟩ |
    ⟨i,j,targetPID,request,a,inner,-,ha,hok,hcall⟩ | ⟨i,-,hsystem,hleave⟩
  · refine ⟨System.ordered_step h.ordered hkernel,by rw [htasks]; exact h.linked,fun j b hb hout => ?_⟩
    rw [htasks] at hb
    exact Nat.lt_of_lt_of_le (h.known j b hb hout) (System.nextPID_le_step hkernel)
  · exact h
  · refine ⟨by rw [hregistry]; exact h.ordered,h.linked.enter henter,fun j b hb hout => ?_⟩
    rw [hregistry]
    obtain ⟨-,htasks⟩ := Activation.enter_eq_some henter
    rw [htasks] at hb
    rcases Table.get_set_some hb with ⟨-,rfl⟩ | ⟨-,hb⟩
    · cases hout
    · exact h.known j b hb hout
  · obtain ⟨hregistry,hagent,⟨p,hp,hppid⟩,-⟩ := handleExecuteOn_effect hok
    refine ⟨by rw [hregistry]; exact h.ordered,h.linked.call hcall (fun a' ha' => ?_),fun k b hb hout => ?_⟩
    · obtain rfl := Option.some.inj (ha.symm.trans ha')
      have hlt := h.ordered.ppid_lt hp
      rw [hppid] at hlt
      unfold rank
      rwa [hagent]
    · rw [hregistry]
      obtain ⟨a',ha',-,-,htasks⟩ := Activation.call_eq_some hcall
      rw [htasks] at hb
      rcases Table.get_set_some hb with ⟨-,rfl⟩ | ⟨-,hb⟩
      · rw [hagent]
        exact (Registry.get_bound hp).2
      · rcases Table.get_set_some hb with ⟨-,rfl⟩ | ⟨-,hb⟩
        · exact h.known i a' ha' hout
        · exact h.known k b hb hout
  · refine ⟨by rw [hsystem]; exact h.ordered,h.linked.leave hleave,fun k b hb hout => ?_⟩
    rw [hsystem]
    obtain ⟨a,-,-,htasks⟩ := Activation.leave_eq_some hleave
    rw [htasks,Activation.get_resume] at hb
    split_ifs at hb
    · obtain ⟨c,hc,rfl⟩ := Option.map_eq_some_iff.mp hb
      exact h.known k c (Table.get_erase_some hc).2 hout
    · exact h.known k b (Table.get_erase_some hb).2 hout

lemma sound_start (cfg : Config) (now : ℤ) (runtime : Option RuntimeManager) (executor : Bool) :
    (start cfg now runtime executor).Sound :=
  ⟨System.ordered_boot cfg now runtime,Activation.linked_empty,(fun j b h => by cases h)⟩

lemma exec_finish {order : List ℕ} {tasks : Table ℕ (Activation AgentTask)}
    (h : exec Activation.leave order s.tasks = some tasks) :
    exec step (order.map TaskOp.finish) s = some { s with tasks := tasks } := by
  induction order generalizing s with
  | nil =>
    cases h
    rfl
  | cons i order ih =>
    obtain ⟨tasks',hleave,hrest⟩ := Option.bind_eq_some_iff.mp h
    have hstep : s.step (.finish i) = some { s with tasks := tasks' } := by
      simp only [step,hleave,Option.map_some]
    rw [List.map_cons,exec_cons hstep]
    exact ih hrest

lemma sound_of_run {cfg : Config} {now : ℤ} {runtime : Option RuntimeManager} {executor : Bool}
    {trace : List (Transition TaskSystem TaskOp)} (run : Run step (start cfg now runtime executor) trace s) : s.Sound :=
  (run.invariant (fun _ _ _ h hs => h.step hs) (sound_start cfg now runtime executor)).2

/-- The PIDs of a chain are below the next one to be given out. -/
lemma Sound.chain_le (h : s.Sound) {path : List ℕ} (hpath : path.IsChain (Activation.Waits s.tasks)) :
    path.length ≤ s.system.king.registry.nextPID := by
  have hpos := s.system.king.registry.nextPID_pos
  cases path with
  | nil => exact Nat.zero_le _
  | cons i rest =>
    by_cases hrest : rest = []
    · rw [hrest]
      exact hpos
    · obtain ⟨j,rest,rfl⟩ := List.exists_cons_of_ne_nil hrest
      obtain ⟨⟨a,ha,-⟩,-⟩ := List.isChain_cons_cons.mp hpath
      have hlt := h.linked.length_lt h.known hpath ha hrest
      rw [List.length_cons]
      omega

/-- In every run of the kernel with its tasks each stream is waited for by one other at most, that of an agent with a
smaller PID, so that none waits for itself and no chain is longer than there are PIDs. A stream that waits does so in
the end for one that does not, and all tasks can be brought to their end one after the other. -/
theorem streams_do_not_block {cfg : Config} {now : ℤ} {runtime : Option RuntimeManager} {executor : Bool}
    {trace : List (Transition TaskSystem TaskOp)} (run : Run step (start cfg now runtime executor) trace s) :
    (∀ i j, Activation.Waits s.tasks i j → ∃ a b, s.tasks.get i = some a ∧ s.tasks.get j = some b ∧
      a.body.agent < b.body.agent ∧ ∀ i', Activation.Waits s.tasks i' j → i' = i) ∧
    (∀ i, ¬Relation.TransGen (Activation.Waits s.tasks) i i) ∧
    (∀ path : List ℕ, path.IsChain (Activation.Waits s.tasks) → path.length ≤ s.system.king.registry.nextPID) ∧
    (∀ i a, s.tasks.get i = some a → ∃ j b, Relation.ReflTransGen (Activation.Waits s.tasks) i j ∧
      s.tasks.get j = some b ∧ b.inner = none) ∧
    ∃ order t, exec step (List.map TaskOp.finish order) s = some t ∧ t.system = s.system ∧
      ∀ i, t.tasks.get i = none := by
  have h := sound_of_run run
  refine ⟨?_,fun i => h.linked.not_circle,fun path => h.chain_le,fun i a => h.linked.exists_idle,?_⟩
  · intro i j hij
    obtain ⟨a,ha,hin⟩ := hij
    obtain ⟨b,hb,-,hlt⟩ := h.linked.inner i a j ha hin
    exact ⟨a,b,ha,hb,hlt,fun i' hi' => h.linked.waits_unique hi' ⟨a,ha,hin⟩⟩
  · obtain ⟨order,tasks,hexec,hempty⟩ := h.linked.drain
    exact ⟨order,_,exec_finish hexec,rfl,hempty⟩

/-- A client executes a task on a lead, whose agent executes one on its worker. -/
def nestedTasks : List TaskOp :=
  [.kernel (.spawnChild 0 (.ok "localhost:1") { Registry.agentRequest 1 "lead" .lead with
      runtimeImage := "lead",runtimeType := runtimePython }),
    .kernel (.spawnChild 0 (.ok "localhost:2") { Registry.agentRequest 2 "worker" .worker with
      runtimeImage := "worker",runtimeType := runtimePython }),
    .executeTask 0 2 "build" [("trace_id","request-7")] 60,
    .executeOn 0 1 3 (some ⟨"inner-1","compile",[],30⟩)]

theorem streams_do_not_block_nested : ∃ s : TaskSystem, (∃ a, s.tasks.get 0 = some a ∧ a.inner = some 1) ∧
    ∃ order t, exec step (List.map TaskOp.finish order) s = some t ∧ t.system = s.system ∧
      ∀ i, t.tasks.get i = none := by
  obtain ⟨s,hs⟩ : ∃ s, exec step nestedTasks (start King.exampleConfig 0 (some .new) true) = some s := ⟨_,rfl⟩
  have hrun := Run.of_exec hs
  have hwaits : ∃ a, s.tasks.get 0 = some a ∧ a.inner = some 1 := by
    cases hs
    exact ⟨_,rfl,rfl⟩
  exact ⟨s,hwaits,(streams_do_not_block hrun).2.2.2.2⟩

end TaskSystem
end HiveKernel
