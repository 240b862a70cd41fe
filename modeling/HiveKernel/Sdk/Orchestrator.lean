import HiveKernel.Sdk.DrainedResults

/-! One task of the orchestrator: it spawns a worker for each group of subtasks, lets them work, has the
results put together and stored, and kills the workers. Every await may fail or be cancelled; the outcome of
each is a choice, and so are the groups. -/
namespace HiveKernel
open Dashboard

/-- What an await gives if it does not raise. -/
def AwaitOutcome.value {α : Type} : AwaitOutcome α → Option α
  | ok value => some value
  | error _ | cancelled => none

structure SubtaskGroup where
  name : String
  subtasks : List String
  deriving DecidableEq

/-- What `execute_on` gives, with the field `tokens_used` of its metadata. -/
structure WorkerReply where
  output : String
  tokensUsed : Option String

structure SubtaskResult where
  subtask : String
  workerPID : ℕ
  group : String
  output : String
  ok : Bool
  tokens : String

structure OrchestratorTask where
  description : String
  maxWorkers : String

/-- The outcomes of the awaits, by group and by subtask within the group, and whether the report can be
written as UTF-8. The groups come from the plan or from the model. While it waits for the groups or for the
kills the task may be cancelled; then kills that have not begun do not begin any more. -/
structure OrchestratorOutcomes where
  startLog : AwaitOutcome Unit
  startProgress : AwaitOutcome Unit
  groups : AwaitOutcome (List SubtaskGroup)
  decomposedLog : AwaitOutcome Unit
  groupLog : ℕ → AwaitOutcome Unit
  spawnProgress : AwaitOutcome Unit
  spawn : ℕ → AwaitOutcome ℕ
  spawnLog : ℕ → AwaitOutcome Unit
  delegateProgress : AwaitOutcome Unit
  execute : ℕ → ℕ → AwaitOutcome WorkerReply
  failureLog : ℕ → ℕ → AwaitOutcome Unit
  subtaskProgress : ℕ → ℕ → AwaitOutcome Unit
  groupsCancelled : Bool
  synthesizeProgress : AwaitOutcome Unit
  synthesis : AwaitOutcome String
  storeProgress : AwaitOutcome Unit
  reportEncodes : Bool
  store : AwaitOutcome Unit
  killsCancelled : Bool
  kill : ℕ → AwaitOutcome Unit
  doneLog : AwaitOutcome Unit

structure OrchestratorResult where
  exitCode : ℤ
  output : String
  totalTokens : Option ℤ := none
  subtasksCount : Option ℕ := none
  groupsCount : Option ℕ := none
  workersReused : Option ℕ := none
  deriving DecidableEq

inductive OrchestratorExit
  | returned (result : OrchestratorResult)
  | raised
  deriving DecidableEq

/-- The workers whose PIDs the task has got, and those for which it has requested a kill. -/
structure WorkerPool where
  spawned : List ℕ
  killRequested : List ℕ
  deriving DecidableEq

namespace Orchestrator
variable {F : Type}

/-- Up to the groups of subtasks. -/
def decompose (py : Python F) (task : OrchestratorTask) (o : OrchestratorOutcomes) :
    Option (List SubtaskGroup) := do
  let _ ← py.int task.maxWorkers
  o.startLog.value
  o.startProgress.value
  o.groups.value

def announceGroups (o : OrchestratorOutcomes) : ℕ → List SubtaskGroup → Option Unit
  | _,[] => some ()
  | i,_::groups => do
    (o.groupLog i).value
    announceGroups o (i+1) groups

def announce (o : OrchestratorOutcomes) (groups : List SubtaskGroup) : Option Unit := do
  o.decomposedLog.value
  announceGroups o 0 groups
  o.spawnProgress.value

/-- One worker for each group. -/
def spawnWorkers (o : OrchestratorOutcomes) : ℕ → List SubtaskGroup → WorkerPool → Option (List ℕ) × WorkerPool
  | _,[],pool => (some [],pool)
  | i,_::groups,pool => match o.spawn i with
    | .error _ | .cancelled => (none,pool)
    | .ok pid =>
      let pool := { pool with spawned := pool.spawned++[pid] }
      match (o.spawnLog i).value with
      | none => (none,pool)
      | some _ => match spawnWorkers o (i+1) groups pool with
        | (none,pool) => (none,pool)
        | (some pids,pool) => (some (pid::pids),pool)

/-- A subtask of a group on its worker. That the worker fails is logged; the task goes on. -/
def runSubtask (o : OrchestratorOutcomes) (i j : ℕ) (group : SubtaskGroup) (pid : ℕ) (subtask : String) :
    Option SubtaskResult := do
  let result ← match o.execute i j with
    | .ok reply => some ⟨subtask,pid,group.name,reply.output,true,reply.tokensUsed.getD "0"⟩
    | .error text => do
      (o.failureLog i j).value
      some ⟨subtask,pid,group.name,text,false,"0"⟩
    | .cancelled => none
  (o.subtaskProgress i j).value
  pure result

def runGroup (o : OrchestratorOutcomes) (i : ℕ) (group : SubtaskGroup) (pid : ℕ) :
    ℕ → List String → Option (List SubtaskResult)
  | _,[] => some []
  | j,subtask::subtasks => do
    let result ← runSubtask o i j group pid subtask
    let results ← runGroup o i group pid (j+1) subtasks
    pure (result::results)

/-- The groups run side by side. `gather` raises as soon as one of them raises, whatever the others do. -/
def runGroups (o : OrchestratorOutcomes) : ℕ → List (SubtaskGroup × ℕ) → Option (List SubtaskResult)
  | _,[] => some []
  | i,(group,pid)::rest => do
    let results ← runGroup o i group pid 0 group.subtasks
    let others ← runGroups o (i+1) rest
    pure (results++others)

/-- `sum(int(r.get("tokens", "0")) for r in all_results)`. -/
def workerTokens (py : Python F) : List SubtaskResult → Option ℤ
  | [] => some 0
  | result::results => do
    let tokens ← py.int result.tokens
    let others ← workerTokens py results
    pure (tokens+others)

/-- From the pool of workers to the stored report, with the tokens of the workers. -/
def deliver (py : Python F) (o : OrchestratorOutcomes) (groups : List SubtaskGroup) (pids : List ℕ) :
    Option (String × ℤ) := do
  o.delegateProgress.value
  let results ← if o.groupsCancelled then none else runGroups o 0 (groups.zip pids)
  o.synthesizeProgress.value
  let report ← o.synthesis.value
  o.storeProgress.value
  let tokens ← workerTokens py results
  if o.reportEncodes then some () else none
  o.store.value
  pure (report,tokens)

/-- Every kill is requested before any of them is awaited. That a worker cannot be killed does not matter. -/
def killWorkers (o : OrchestratorOutcomes) (pids : List ℕ) (pool : WorkerPool) : Option Unit × WorkerPool :=
  if o.killsCancelled then (none,pool)
  else
    let pool := { pool with killRequested := pool.killRequested++pids }
    if (List.range pids.length).all (fun i => o.kill i ≠ .cancelled) then (some (),pool) else (none,pool)

def subtasksTotal (groups : List SubtaskGroup) : ℕ := groups.foldl (fun n group => n+group.subtasks.length) 0

/-- The result of a task that has come to its end. -/
def finalResult (groups : List SubtaskGroup) (llmTokens : ℤ) (report : String) (tokens : ℤ) : OrchestratorResult :=
  { exitCode := 0
    output := report
    totalTokens := some (llmTokens+tokens)
    subtasksCount := some (subtasksTotal groups)
    groupsCount := some groups.length
    workersReused := some (groups.filter (fun group => 1 < group.subtasks.length)).length }

/-- The part of a task that has workers. `llmTokens` is what the model has used. -/
def runPool (py : Python F) (llmTokens : ℤ) (o : OrchestratorOutcomes) (groups : List SubtaskGroup) :
    OrchestratorExit × WorkerPool :=
  match spawnWorkers o 0 groups ⟨[],[]⟩ with
  | (none,pool) => (.raised,pool)
  | (some pids,pool) => match deliver py o groups pids with
    | none => (.raised,pool)
    | some (report,tokens) => match killWorkers o pids pool with
      | (none,pool) => (.raised,pool)
      | (some _,pool) => match o.doneLog.value with
        | none => (.raised,pool)
        | some _ => (.returned (finalResult groups llmTokens report tokens),pool)

def handleTask (py : Python F) (llmTokens : ℤ) (task : OrchestratorTask) (o : OrchestratorOutcomes) :
    OrchestratorExit × WorkerPool :=
  match decompose py task o with
  | none => (.raised,⟨[],[]⟩)
  | some groups =>
    if groups.isEmpty then (.returned ⟨1,"Failed to decompose task into subtasks",none,none,none,none⟩,⟨[],[]⟩)
    else match announce o groups with
      | none => (.raised,⟨[],[]⟩)
      | some _ => runPool py llmTokens o groups

/-- A kill has been requested for every worker. -/
def AllKilled (pool : WorkerPool) : Prop := ∀ pid ∈ pool.spawned, pid ∈ pool.killRequested

/-- The task gets as far as the first spawn. -/
structure Prepared (py : Python F) (task : OrchestratorTask) (o : OrchestratorOutcomes)
    (groups : List SubtaskGroup) : Prop where
  maxWorkers : (py.int task.maxWorkers).isSome
  startLog : o.startLog = .ok ()
  startProgress : o.startProgress = .ok ()
  given : o.groups = .ok groups
  decomposedLog : o.decomposedLog = .ok ()
  groupLog : ∀ i < groups.length, o.groupLog i = .ok ()
  spawnProgress : o.spawnProgress = .ok ()

/-- A subtask is executed, or its failure is logged, and the progress is reported. -/
def Passes (o : OrchestratorOutcomes) (i j : ℕ) : Prop :=
  ((∃ reply, o.execute i j = .ok reply) ∨ ∃ text, o.execute i j = .error text ∧ o.failureLog i j = .ok ()) ∧
    o.subtaskProgress i j = .ok ()

/-- The text from which the tokens of a subtask are read. -/
def tokensOf : AwaitOutcome WorkerReply → String
  | .ok reply => reply.tokensUsed.getD "0"
  | _ => "0"

/-- A worker is spawned and the spawn is logged. -/
def SpawnsWorker (o : OrchestratorOutcomes) (i : ℕ) : Prop :=
  (∃ pid, o.spawn i = .ok pid) ∧ o.spawnLog i = .ok ()

/-- The workers do their work and the report is stored. -/
structure Reports (py : Python F) (o : OrchestratorOutcomes) (groups : List SubtaskGroup) : Prop where
  delegateProgress : o.delegateProgress = .ok ()
  groupsGoOn : o.groupsCancelled = false
  subtasks : ∀ i group, groups[i]? = some group → ∀ j < group.subtasks.length, Passes o i j
  synthesizeProgress : o.synthesizeProgress = .ok ()
  synthesis : ∃ report, o.synthesis = .ok report
  storeProgress : o.storeProgress = .ok ()
  tokens : ∀ i group, groups[i]? = some group → ∀ j < group.subtasks.length,
    (py.int (tokensOf (o.execute i j))).isSome
  encodes : o.reportEncodes = true
  store : o.store = .ok ()

/-- From the first spawn to the kills nothing fails. -/
structure ReachesKills (py : Python F) (o : OrchestratorOutcomes) (groups : List SubtaskGroup) : Prop where
  spawns : ∀ i < groups.length, SpawnsWorker o i
  reports : Reports py o groups
  killsBegin : o.killsCancelled = false

/-- Once the first worker is there, nothing fails before the kills. -/
def KillsAll (py : Python F) (task : OrchestratorTask) (o : OrchestratorOutcomes) : Prop :=
  ∀ groups, Prepared py task o groups → groups ≠ [] → (∃ pid, o.spawn 0 = .ok pid) → ReachesKills py o groups

variable {py : Python F} {task : OrchestratorTask} {o : OrchestratorOutcomes} {groups : List SubtaskGroup}

@[simp] lemma value_eq_some {α : Type} {x : AwaitOutcome α} {v : α} : x.value = some v ↔ x = .ok v := by
  cases x <;> simp [AwaitOutcome.value]

lemma value_eq_none {x : AwaitOutcome Unit} : x.value = none ↔ x ≠ .ok () := by
  cases x <;> simp [AwaitOutcome.value]

/-- What follows an await without a value. -/
@[simp] lemma value_bind_eq_some {α : Type} {x : AwaitOutcome Unit} {rest : Option α} {v : α} :
    (x.value.bind fun _ => rest) = some v ↔ x = .ok () ∧ rest = some v := by
  cases x <;> simp [AwaitOutcome.value]

/-- The statement holds at `n` places from `i` on. -/
def AllFrom (P : ℕ → Prop) (i n : ℕ) : Prop := ∀ k < n, P (i+k)

@[simp] lemma allFrom_zero (P : ℕ → Prop) (i : ℕ) : AllFrom P i 0 := fun k hk => absurd hk (Nat.not_lt_zero k)

lemma allFrom_succ (P : ℕ → Prop) (i n : ℕ) : AllFrom P i (n+1) ↔ P i ∧ AllFrom P (i+1) n := by
  unfold AllFrom
  rw [Nat.forall_lt_succ_left]
  simp only [Nat.add_zero,Nat.add_assoc,Nat.add_comm 1]

lemma allFrom_start (P : ℕ → Prop) (n : ℕ) : AllFrom P 0 n ↔ ∀ k < n, P k := by
  simp only [AllFrom,Nat.zero_add]

lemma decompose_eq_some : decompose py task o = some groups ↔
    (py.int task.maxWorkers).isSome ∧ o.startLog = .ok () ∧ o.startProgress = .ok () ∧ o.groups = .ok groups := by
  cases hint : py.int task.maxWorkers with
  | none => simp [decompose,hint]
  | some n => simp [decompose,hint]

lemma announceGroups_eq_some (i : ℕ) (groups : List SubtaskGroup) :
    announceGroups o i groups = some () ↔ AllFrom (fun i => o.groupLog i = .ok ()) i groups.length := by
  induction groups generalizing i with
  | nil => simp [announceGroups]
  | cons group groups ih =>
    rw [List.length_cons,allFrom_succ,← ih (i+1)]
    simp [announceGroups]

lemma announce_eq_some : announce o groups = some () ↔ o.decomposedLog = .ok () ∧
    (∀ i < groups.length, o.groupLog i = .ok ()) ∧ o.spawnProgress = .ok () := by
  rw [← allFrom_start,← announceGroups_eq_some]
  cases hlogs : announceGroups o 0 groups with
  | none => simp [announce,hlogs]
  | some _ => simp [announce,hlogs]

lemma prepared_iff : Prepared py task o groups ↔
    decompose py task o = some groups ∧ announce o groups = some () := by
  rw [decompose_eq_some,announce_eq_some]
  constructor
  · rintro ⟨h1,h2,h3,h4,h5,h6,h7⟩
    exact ⟨⟨h1,h2,h3,h4⟩,h5,h6,h7⟩
  · rintro ⟨⟨h1,h2,h3,h4⟩,h5,h6,h7⟩
    exact ⟨h1,h2,h3,h4,h5,h6,h7⟩

/-- The workers are all spawned, or the pool holds those spawned so far. -/
lemma spawnWorkers_cases (i : ℕ) (groups : List SubtaskGroup) (pool : WorkerPool) :
    (AllFrom (SpawnsWorker o) i groups.length ∧ ∃ pids, pids.length = groups.length ∧
      spawnWorkers o i groups pool = (some pids,{ pool with spawned := pool.spawned++pids })) ∨
    (¬AllFrom (SpawnsWorker o) i groups.length ∧ ∃ pids, ((∃ pid, o.spawn i = .ok pid) ↔ pids ≠ []) ∧
      spawnWorkers o i groups pool = (none,{ pool with spawned := pool.spawned++pids })) := by
  induction groups generalizing i pool with
  | nil => exact .inl ⟨by simp,[],rfl,by simp [spawnWorkers]⟩
  | cons group groups ih =>
    rw [List.length_cons,allFrom_succ]
    cases hspawn : o.spawn i with
    | error | cancelled => exact .inr ⟨by simp [SpawnsWorker,hspawn],[],by simp,by simp [spawnWorkers,hspawn]⟩
    | ok pid => cases hlog : (o.spawnLog i).value with
      | none =>
        exact .inr ⟨fun h => value_eq_none.mp hlog h.1.2,[pid],by simp,by simp [spawnWorkers,hspawn,hlog]⟩
      | some _ =>
        rcases ih (i+1) { pool with spawned := pool.spawned++[pid] } with ⟨hall,pids,hlength,hrest⟩ |
          ⟨hfails,pids,-,hrest⟩
        · refine .inl ⟨⟨⟨⟨pid,hspawn⟩,value_eq_some.mp hlog⟩,hall⟩,pid::pids,by simp [hlength],?_⟩
          simp [spawnWorkers,hspawn,hlog,hrest]
        · refine .inr ⟨fun h => hfails h.2,pid::pids,by simp,?_⟩
          simp [spawnWorkers,hspawn,hlog,hrest]

/-- The subtask goes through, or the whole task raises. -/
lemma runSubtask_cases (o : OrchestratorOutcomes) (i j : ℕ) (group : SubtaskGroup) (pid : ℕ) (subtask : String) :
    (Passes o i j ∧ ∃ result, runSubtask o i j group pid subtask = some result ∧
      result.tokens = tokensOf (o.execute i j)) ∨
    (¬Passes o i j ∧ runSubtask o i j group pid subtask = none) := by
  unfold runSubtask Passes
  cases hprogress : (o.subtaskProgress i j).value with
  | none =>
    refine .inr ⟨fun h => value_eq_none.mp hprogress h.2,?_⟩
    cases o.execute i j <;> simp
  | some _ =>
    have hpasses := value_eq_some.mp hprogress
    cases hexecute : o.execute i j with
    | ok reply => exact .inl ⟨⟨.inl ⟨reply,rfl⟩,hpasses⟩,_,rfl,rfl⟩
    | cancelled => exact .inr ⟨by simp,rfl⟩
    | error text => cases hlog : (o.failureLog i j).value with
      | none =>
        refine .inr ⟨?_,rfl⟩
        rintro ⟨⟨reply,h⟩ | ⟨text',-,h⟩,-⟩
        · cases h
        · exact value_eq_none.mp hlog h
      | some _ => exact .inl ⟨⟨.inr ⟨text,rfl,value_eq_some.mp hlog⟩,hpasses⟩,_,rfl,rfl⟩

/-- All subtasks of a group go through, or the whole task raises. -/
lemma runGroup_cases (o : OrchestratorOutcomes) (i j : ℕ) (group : SubtaskGroup) (pid : ℕ) (subtasks : List String) :
    (AllFrom (Passes o i) j subtasks.length ∧ ∃ results, runGroup o i group pid j subtasks = some results ∧
      ∀ P : String → Prop, (∀ result ∈ results, P result.tokens) ↔
        AllFrom (fun j => P (tokensOf (o.execute i j))) j subtasks.length) ∨
    (¬AllFrom (Passes o i) j subtasks.length ∧ runGroup o i group pid j subtasks = none) := by
  induction subtasks generalizing j with
  | nil => exact .inl ⟨by simp,[],rfl,by simp⟩
  | cons subtask subtasks ih =>
    simp only [List.length_cons,allFrom_succ]
    rcases runSubtask_cases o i j group pid subtask with ⟨hpass,result,hresult,htokens⟩ | ⟨hfails,hresult⟩
    · rcases ih (j+1) with ⟨hall,results,hresults,htokens'⟩ | ⟨hfails,hresults⟩
      · refine .inl ⟨⟨hpass,hall⟩,result::results,by simp [runGroup,hresult,hresults],fun P => ?_⟩
        rw [List.forall_mem_cons,htokens,htokens' P]
      · exact .inr ⟨fun h => hfails h.2,by simp [runGroup,hresult,hresults]⟩
    · exact .inr ⟨fun h => hfails h.1,by simp [runGroup,hresult]⟩

/-- The statement holds for every subtask, where the groups are numbered from `i` on. -/
def EverySubtask (P : ℕ → ℕ → Prop) (i : ℕ) (groups : List SubtaskGroup) : Prop :=
  ∀ k group, groups[k]? = some group → ∀ j < group.subtasks.length, P (i+k) j

lemma everySubtask_cons (P : ℕ → ℕ → Prop) (i : ℕ) (group : SubtaskGroup) (groups : List SubtaskGroup) :
    EverySubtask P i (group::groups) ↔ AllFrom (P i) 0 group.subtasks.length ∧ EverySubtask P (i+1) groups := by
  rw [allFrom_start]
  constructor
  · refine fun h => ⟨fun j hj => h 0 group rfl j hj,fun k group' hk j hj => ?_⟩
    have hnext := h (k+1) group' hk j hj
    rwa [Nat.add_comm k,← Nat.add_assoc] at hnext
  · rintro ⟨hfirst,hrest⟩ k group' hk j hj
    cases k with
    | zero =>
      obtain rfl : group = group' := by simpa using hk
      exact hfirst j hj
    | succ k =>
      have hnext := hrest k group' hk j hj
      rwa [Nat.add_assoc,Nat.add_comm 1] at hnext

lemma everySubtask_zero {P : ℕ → ℕ → Prop} : EverySubtask P 0 groups ↔
    ∀ i group, groups[i]? = some group → ∀ j < group.subtasks.length, P i j := by
  simp only [EverySubtask,Nat.zero_add]

lemma runGroups_cases (o : OrchestratorOutcomes) (i : ℕ) {groups : List SubtaskGroup} {pids : List ℕ}
    (hlength : pids.length = groups.length) :
    (EverySubtask (Passes o) i groups ∧ ∃ results, runGroups o i (groups.zip pids) = some results ∧
      ∀ P : String → Prop, (∀ result ∈ results, P result.tokens) ↔
        EverySubtask (fun i j => P (tokensOf (o.execute i j))) i groups) ∨
    (¬EverySubtask (Passes o) i groups ∧ runGroups o i (groups.zip pids) = none) := by
  induction groups generalizing i pids with
  | nil => exact .inl ⟨by simp [EverySubtask],[],by simp [runGroups],by simp [EverySubtask]⟩
  | cons group groups ih => cases pids with
    | nil => cases hlength
    | cons pid pids =>
      simp only [everySubtask_cons,List.zip_cons_cons]
      rcases runGroup_cases o i 0 group pid group.subtasks with ⟨hpass,results,hresults,htokens⟩ |
        ⟨hfails,hresults⟩
      · rcases ih (i+1) (Nat.succ.inj hlength) with ⟨hall,others,hothers,htokens'⟩ | ⟨hfails,hothers⟩
        · refine .inl ⟨⟨hpass,hall⟩,results++others,by simp [runGroups,hresults,hothers],fun P => ?_⟩
          rw [List.forall_mem_append,htokens P,htokens' P]
        · exact .inr ⟨fun h => hfails h.2,by simp [runGroups,hresults,hothers]⟩
      · exact .inr ⟨fun h => hfails h.1,by simp [runGroups,hresults]⟩

lemma workerTokens_cases (py : Python F) (results : List SubtaskResult) :
    ((∀ result ∈ results, (py.int result.tokens).isSome) ∧ ∃ tokens, workerTokens py results = some tokens) ∨
    (¬(∀ result ∈ results, (py.int result.tokens).isSome) ∧ workerTokens py results = none) := by
  induction results with
  | nil => exact .inl ⟨by simp,0,rfl⟩
  | cons result results ih =>
    rw [List.forall_mem_cons]
    cases hint : py.int result.tokens with
    | none => exact .inr ⟨by simp,by simp [workerTokens,hint]⟩
    | some n =>
      rcases ih with ⟨hall,tokens,hrest⟩ | ⟨hfails,hrest⟩
      · exact .inl ⟨⟨rfl,hall⟩,n+tokens,by simp [workerTokens,hint,hrest]⟩
      · exact .inr ⟨fun h => hfails h.2,by simp [workerTokens,hint,hrest]⟩

lemma deliver_cases (py : Python F) (o : OrchestratorOutcomes) {groups : List SubtaskGroup} {pids : List ℕ}
    (hlength : pids.length = groups.length) :
    (Reports py o groups ∧ ∃ output, deliver py o groups pids = some output) ∨
    (¬Reports py o groups ∧ deliver py o groups pids = none) := by
  unfold deliver
  cases hdelegate : o.delegateProgress.value with
  | none => exact .inr ⟨fun h => value_eq_none.mp hdelegate h.delegateProgress,by simp⟩
  | some _ =>
  cases hcancelled : o.groupsCancelled with
  | true => exact .inr ⟨fun h => by simpa [hcancelled] using h.groupsGoOn,by simp⟩
  | false =>
  rcases runGroups_cases o 0 hlength with ⟨hsubtasks,results,hresults,htokens⟩ | ⟨hfails,hresults⟩
  case inr => exact .inr ⟨fun h => hfails (everySubtask_zero.mpr h.subtasks),by simp [hresults]⟩
  cases hsynthesize : o.synthesizeProgress.value with
  | none => exact .inr ⟨fun h => value_eq_none.mp hsynthesize h.synthesizeProgress,by simp⟩
  | some _ =>
  cases hsynthesis : o.synthesis.value with
  | none =>
    refine .inr ⟨fun h => ?_,by simp⟩
    obtain ⟨report,hreport⟩ := h.synthesis
    simp [hreport,AwaitOutcome.value] at hsynthesis
  | some report =>
  cases hprogress : o.storeProgress.value with
  | none => exact .inr ⟨fun h => value_eq_none.mp hprogress h.storeProgress,by simp⟩
  | some _ =>
  rcases workerTokens_cases py results with ⟨hints,tokens,hsum⟩ | ⟨hfails,hsum⟩
  case inr =>
    refine .inr ⟨fun h => hfails ?_,by simp [hresults,hsum]⟩
    exact (htokens (fun text => (py.int text).isSome)).mpr (everySubtask_zero.mpr h.tokens)
  cases hencodes : o.reportEncodes with
  | false => exact .inr ⟨fun h => by simpa [hencodes] using h.encodes,by simp [hresults]⟩
  | true =>
  cases hstore : o.store.value with
  | none => exact .inr ⟨fun h => value_eq_none.mp hstore h.store,by simp [hresults]⟩
  | some _ =>
    refine .inl ⟨⟨value_eq_some.mp hdelegate,hcancelled,everySubtask_zero.mp hsubtasks,value_eq_some.mp hsynthesize,
      ⟨report,value_eq_some.mp hsynthesis⟩,value_eq_some.mp hprogress,?_,hencodes,value_eq_some.mp hstore⟩,
      (report,tokens),by simp [hresults,hsum]⟩
    exact everySubtask_zero.mp ((htokens (fun text => (py.int text).isSome)).mp hints)

/-- A task that spawns nothing owes no kill. -/
lemma allKilled_empty : AllKilled ⟨[],[]⟩ := fun _ hpid => hpid

/-- Without a kill there has been no worker. -/
lemma allKilled_noKills {pids : List ℕ} : AllKilled ⟨pids,[]⟩ ↔ pids = [] := by
  constructor
  · intro h
    exact List.eq_nil_iff_forall_not_mem.mpr (fun pid hpid => absurd (h pid hpid) List.not_mem_nil)
  · rintro rfl
    exact allKilled_empty

/-- The part with the workers. -/
lemma runPool_allKilled_iff (py : Python F) (llmTokens : ℤ) (o : OrchestratorOutcomes)
    {groups : List SubtaskGroup} (hne : groups ≠ []) : AllKilled (runPool py llmTokens o groups).2 ↔
      ((∃ pid, o.spawn 0 = .ok pid) → ReachesKills py o groups) := by
  unfold runPool
  rcases spawnWorkers_cases (o := o) 0 groups ⟨[],[]⟩ with ⟨hspawns,pids,hlength,hpool⟩ | ⟨hfails,pids,hpids,hpool⟩
  case inr =>
    simp only [hpool,List.nil_append,allKilled_noKills]
    rw [allFrom_start] at hfails
    constructor
    · exact fun hnone hspawn => absurd hnone (hpids.mp hspawn)
    · intro h
      by_contra hsome
      exact hfails (h (hpids.mpr hsome)).spawns
  rw [allFrom_start] at hspawns
  simp only [hpool,List.nil_append]
  have hfirst := (hspawns 0 (List.length_pos_iff.mpr hne)).1
  have hpids : pids ≠ [] := List.length_pos_iff.mp (hlength ▸ List.length_pos_iff.mpr hne)
  have hnoKills : ¬AllKilled ⟨pids,[]⟩ := fun h => hpids (allKilled_noKills.mp h)
  rcases deliver_cases py o hlength with ⟨hreports,⟨report,tokens⟩,hdeliver⟩ | ⟨hfails,hdeliver⟩
  case inr =>
    simp only [hdeliver]
    exact iff_of_false hnoKills (fun h => hfails (h hfirst).reports)
  simp only [hdeliver,killWorkers]
  cases hcancelled : o.killsCancelled with
  | true =>
    simp only [if_true]
    exact iff_of_false hnoKills (fun h => by simpa [hcancelled] using (h hfirst).killsBegin)
  | false =>
    refine iff_of_true ?_ (fun _ => ⟨hspawns,hreports,hcancelled⟩)
    have hkilled : AllKilled ⟨pids,pids⟩ := fun pid hpid => hpid
    simp only [Bool.false_eq_true,if_false,List.nil_append]
    by_cases hkills : (List.range pids.length).all (fun i => o.kill i ≠ .cancelled)
    · rw [if_pos hkills]
      cases o.doneLog.value <;> exact hkilled
    · rw [if_neg hkills]
      exact hkilled

/-- When the task is over, a kill has been requested for every worker that it has spawned, exactly if nothing
fails between the first spawn and the kills. -/
theorem handleTask_allKilled_iff (py : Python F) (llmTokens : ℤ) (task : OrchestratorTask)
    (o : OrchestratorOutcomes) : AllKilled (handleTask py llmTokens task o).2 ↔ KillsAll py task o := by
  unfold handleTask
  cases hgroups : decompose py task o with
  | none =>
    refine iff_of_true allKilled_empty (fun groups hprepared => ?_)
    simp [(prepared_iff.mp hprepared).1] at hgroups
  | some groups =>
    have hsame : ∀ groups', Prepared py task o groups' → groups' = groups := fun groups' hprepared =>
      Option.some.inj ((prepared_iff.mp hprepared).1.symm.trans hgroups)
    simp only
    by_cases hempty : groups = []
    · subst hempty
      exact iff_of_true allKilled_empty (fun groups' hprepared hne => absurd (hsame groups' hprepared) hne)
    rw [if_neg (by simpa using hempty)]
    cases hannounce : announce o groups with
    | none =>
      refine iff_of_true allKilled_empty (fun groups' hprepared => ?_)
      obtain rfl := hsame groups' hprepared
      simp [(prepared_iff.mp hprepared).2] at hannounce
    | some _ =>
      simp only
      rw [runPool_allKilled_iff py llmTokens o hempty]
      constructor
      · intro h groups' hprepared _
        rw [hsame groups' hprepared]
        exact h
      · exact fun h => h groups (prepared_iff.mpr ⟨hgroups,hannounce⟩) hempty

/-- Nothing fails but, perhaps, the synthesis. -/
def onlyTheSynthesis (synthesis : AwaitOutcome String) : OrchestratorOutcomes where
  startLog := .ok ()
  startProgress := .ok ()
  groups := .ok [⟨"search",["find sources"]⟩]
  decomposedLog := .ok ()
  groupLog _ := .ok ()
  spawnProgress := .ok ()
  spawn i := .ok (i+7)
  spawnLog _ := .ok ()
  delegateProgress := .ok ()
  execute _ _ := .ok ⟨"done",none⟩
  failureLog _ _ := .ok ()
  subtaskProgress _ _ := .ok ()
  groupsCancelled := false
  synthesizeProgress := .ok ()
  synthesis := synthesis
  storeProgress := .ok ()
  reportEncodes := true
  store := .ok ()
  killsCancelled := false
  kill _ := .ok ()
  doneLog := .ok ()

/-- An interpreter that reads every text as a zero. -/
def zeroPython : Python ℕ where
  int _ := some 0
  float _ := none
  zero := 0
  add := Nat.add
  isZero x := x == 0
  str x := toString x
  loads _ := .error .valueError

/-- The model is out of reach when the results are to be put together. -/
theorem failed_synthesis_leaks : ¬∀ (F : Type) (py : Python F) (llmTokens : ℤ) (task : OrchestratorTask)
    (o : OrchestratorOutcomes), AllKilled (handleTask py llmTokens task o).2 := by
  intro h
  have hpool : (handleTask zeroPython 0 ⟨"report","3"⟩ (onlyTheSynthesis (.error "rate limit"))).2 = ⟨[7],[]⟩ := rfl
  have hall := h ℕ zeroPython 0 ⟨"report","3"⟩ (onlyTheSynthesis (.error "rate limit"))
  rw [hpool] at hall
  exact absurd (hall 7 List.mem_cons_self) List.not_mem_nil

end Orchestrator
end HiveKernel
