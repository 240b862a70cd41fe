import HiveKernel.Kernel.Permissions
import HiveKernel.Kernel.Runtime
import HiveKernel.Process.Spawner
import HiveKernel.Process.Supervisor
import HiveKernel.Resources.Accounting
import HiveKernel.Resources.CGroups

/-! The kernel: the process table with the managers around it, and the spawning of a child, which
goes through all of them. -/
namespace HiveKernel
open Lib

structure TraceCtx where
  traceID : String
  traceSpan : String
  deriving DecidableEq, Repr

/-- The result of a task that its parent has not collected yet. -/
structure TaskResult where
  pid : ℕ
  exitCode : ℤ
  output : List UInt8
  error : String
  duration : ℤ
  timestamp : ℤ
  deriving DecidableEq, Repr

structure King where
  registry : Registry
  budget : BudgetManager
  accountant : Accountant
  rules : List ACLRule
  grants : Grants
  cgroups : CGroupManager
  runtime : Option RuntimeManager
  traceStore : Table ℕ TraceCtx
  supervisor : Supervisor
  results : Table ℕ TaskResult

/-- The settings that decide the initial state. -/
structure Config where
  nodeName : String
  kernelUser : String
  defaultLimits : ResourceLimits

namespace King

/-- Bootstrap PID 1 and give it a budget at every tier; the supervisor runs with its defaults, and
there may be a runtime manager. -/
def new (cfg : Config) (now : ℤ) (runtime : Option RuntimeManager) : King :=
  let (proc,registry) := Registry.new.spawnKernel now "king" cfg.kernelUser cfg.nodeName
  let tokens := cfg.defaultLimits.maxTokensTotal
  let budget := ((BudgetManager.new.setBudget proc.pid .opus tokens).setBudget proc.pid .sonnet
    (tokens*10)).setBudget proc.pid .mini (tokens*100)
  { registry := registry
    budget := budget
    accountant := .new
    rules := defaultRules
    grants := .empty
    cgroups := .new
    runtime := runtime
    traceStore := .empty
    supervisor := .new defaultSupervisorConfig
    results := .empty }

/-- A small configuration for examples: 10, 100 and 1000 tokens at the three tiers. -/
def exampleConfig : Config where
  nodeName := "vps1"
  kernelUser := "root"
  defaultLimits := { maxTokensTotal := 10 }

def getTrace (k : King) (pid : ℕ) : TraceCtx := (k.traceStore.get pid).getD ⟨"",""⟩

def setTrace (k : King) (pid : ℕ) (traceID traceSpan : String) : King :=
  { k with traceStore := k.traceStore.set pid ⟨traceID,traceSpan⟩ }

def clearTrace (k : King) (pid : ℕ) : King := { k with traceStore := k.traceStore.erase pid }

/-- A process of which only the role is set. -/
def temporary (role : AgentRole) : Process where
  pid := 0
  ppid := 0
  user := ""
  name := ""
  role := role
  cognitiveTier := .strategic
  model := ""
  vps := ""
  state := .idle
  limits := {}
  tokensConsumed := 0
  startedAt := 0
  updatedAt := 0
  systemPrompt := ""
  metadata := []
  runtimeAddr := ""
  runtimeType := ""
  runtimeImage := ""

/-- The checks of a request on the parent and on the requested tools. The tools are checked for
the role of the child, on a table of its own. -/
def admission (k : King) (req : SpawnRequest) : Except String Unit := do
  withContext "spawn denied: " (aclCheck k.rules k.registry req.parentPID .spawn)
  withContext "spawn denied: " (requireCapability k.grants k.registry req.parentPID .spawnChildren)
  withContext "spawn denied: " (validateInheritance k.registry req.parentPID req.user)
  let tempReg := Registry.new.register 0 (temporary req.role)
  withContext s!"spawn denied: child role {req.role.string} cannot use requested tools: "
    (validateTools .empty tempReg 1 req.tools)
  withContext "spawn denied: " (k.cgroups.checkSpawnAllowed req.parentPID)

/-- The budget of a child with a token limit comes out of its parent's; if the parent has no
entry at the tier, the child's entry is set directly. -/
def fund (budget : BudgetManager) (req : SpawnRequest) (pid : ℕ) : Except String BudgetManager :=
  let tier := tierFromCog req.cognitiveTier
  let tokens := req.limits.maxTokensTotal
  if 0 < tokens then
    match budget.getBudget req.parentPID tier with
    | some _ => budget.allocate req.parentPID pid tier tokens
    | none => .ok (budget.setBudget pid tier tokens)
  else .ok budget

/-- The child joins the group of its parent; a failure to join is ignored. -/
def joinGroup (cgroups : CGroupManager) (parentPID pid : ℕ) : CGroupManager :=
  match cgroups.getByPID parentPID with
  | none => cgroups
  | some g => match cgroups.addProcess g.name pid with
    | .ok cgroups' => cgroups'
    | .error _ => cgroups

/-- Store an address in the entry of a process, without stamping it. -/
def setAddr (r : Registry) (pid : ℕ) (addr : String) : Registry :=
  r.modify pid (fun p => { p with runtimeAddr := addr })

/-- Start the runtime if the request names an image. Returns the process as it is afterwards. -/
def launchChild (k : King) (req : SpawnRequest) (proc : Process) (launch : Except String String) :
    Except String Process × King :=
  match k.runtime with
  | none => (.ok proc,k)
  | some manager =>
    if req.runtimeImage = "" then (.ok proc,k)
    else match manager.startRuntime { proc with runtimeAddr := req.runtimeImage } req.runtimeType launch with
      | .error e =>
        (.error s!"runtime start failed: {e}",
          { k with registry := (setAddr k.registry proc.pid req.runtimeImage).remove proc.pid })
      | .ok (rt,manager') =>
        (.ok { proc with runtimeAddr := rt.addr },
          { k with registry := setAddr k.registry proc.pid rt.addr, runtime := some manager' })

/-- Pass the trace of the parent on, with the PID appended to its span. -/
def passTrace (k : King) (parentPID pid : ℕ) : King :=
  let trace := k.getTrace parentPID
  if trace.traceID = "" then k else k.setTrace pid trace.traceID s!"{trace.traceSpan}/{pid}"

/-- The last part of a spawn, once the process is registered, funded and grouped. -/
def startChild (k : King) (req : SpawnRequest) (proc : Process) (launch : Except String String) :
    Except String Process × King :=
  match k.launchChild req proc launch with
  | (.error e,k) => (.error e,k)
  | (.ok proc,k) => (.ok proc,k.passTrace req.parentPID proc.pid)

/-- Create a child process: check, register, fund, group, launch, trace. A failure to fund or to
launch takes the process out of the table again. -/
def spawnChild (k : King) (now : ℤ) (launch : Except String String) (req : SpawnRequest) :
    Except String Process × King :=
  match k.admission req with
  | .error e => (.error e,k)
  | .ok _ => match k.registry.spawn now req with
    | .error e => (.error e,k)
    | .ok (proc,registry) => match fund k.budget req proc.pid with
      | .error e =>
        (.error s!"spawn denied: {e}",{ k with registry := registry.remove proc.pid })
      | .ok budget =>
        let k := { k with
          registry := registry
          budget := budget
          cgroups := joinGroup k.cgroups req.parentPID proc.pid }
        k.startChild req proc launch

/-- The request has passed every check on the parent, up to the rules of `spawn`. -/
structure Admitted (k : King) (req : SpawnRequest) (parent : Process) : Prop where
  admission : k.admission req = .ok ()
  found : k.registry.get req.parentPID = some parent
  alive : ¬parent.state.Terminal
  named : req.name ≠ ""

/-- The request passes the checks of the kernel and of the spawner. -/
def Accepts (k : King) (now : ℤ) (req : SpawnRequest) : Prop :=
  (k.admission req).isOk ∧ (k.registry.spawn now req).isOk

instance (k : King) (now : ℤ) (req : SpawnRequest) : Decidable (k.Accepts now req) :=
  inferInstanceAs (Decidable (_ ∧ _))

/-- The process that a request registers. -/
def newborn (k : King) (now : ℤ) (req : SpawnRequest) (parent : Process) : Process :=
  k.registry.stamped now (Registry.child req (some parent))

/-- The table with that process in it. -/
def registered (k : King) (now : ℤ) (req : SpawnRequest) (parent : Process) : Registry :=
  k.registry.register now (Registry.child req (some parent))

/-- The kernel once the process is registered, funded and grouped. -/
def withChild (k : King) (now : ℤ) (req : SpawnRequest) (parent : Process) (budget : BudgetManager) :
    King :=
  { k with
    registry := k.registered now req parent
    budget := budget
    cgroups := joinGroup k.cgroups req.parentPID k.registry.nextPID }

variable {k : King} {now : ℤ} {launch : Except String String} {req : SpawnRequest} {parent : Process}

lemma aclCheck_ok {rules : List ACLRule} {r : Registry} {pid : ℕ} {action : Action}
    (h : aclCheck rules r pid action = .ok ()) : (r.get pid).isSome := by
  unfold aclCheck at h
  cases hp : r.get pid with
  | none => simp [hp] at h
  | some p => rfl

/-- What the checks on the parent have found. -/
lemma admission_ok (h : k.admission req = .ok ()) :
    aclCheck k.rules k.registry req.parentPID .spawn = .ok () ∧
      validateInheritance k.registry req.parentPID req.user = .ok () ∧
      k.cgroups.checkSpawnAllowed req.parentPID = .ok () := by
  unfold admission at h
  obtain ⟨_,hacl,h⟩ := bind_eq_ok.mp h
  obtain ⟨_,-,h⟩ := bind_eq_ok.mp h
  obtain ⟨_,hinherit,h⟩ := bind_eq_ok.mp h
  obtain ⟨_,-,hgroup⟩ := bind_eq_ok.mp h
  exact ⟨withContext_eq_ok.mp hacl,withContext_eq_ok.mp hinherit,withContext_eq_ok.mp hgroup⟩

lemma admitted_of_spawn {proc : Process} {registry : Registry} (ha : k.admission req = .ok ())
    (hs : k.registry.spawn now req = .ok (proc,registry)) :
    ∃ parent, Admitted k req parent ∧ proc = k.newborn now req parent ∧
      registry = k.registered now req parent := by
  have hparent : req.parentPID ≠ 0 := by
    intro h0
    have hacl := withContext_eq_ok.mp (bind_eq_ok.mp ha).choose_spec.1
    have hsome := aclCheck_ok hacl
    simp [h0,Registry.get_zero] at hsome
  obtain ⟨parent,hp,hlive,hname,rfl,rfl⟩ := Registry.spawn_ok hs hparent
  exact ⟨parent,⟨ha,hp,hlive,hname⟩,rfl,rfl⟩

/-- How a request is funded. -/
lemma fund_cases {budget budget' : BudgetManager} {req : SpawnRequest} {pid : ℕ}
    (h : fund budget req pid = .ok budget') :
    (req.limits.maxTokensTotal = 0 ∧ budget' = budget) ∨
    0 < req.limits.maxTokensTotal ∧
      ((∃ parent, budget.getBudget req.parentPID (tierFromCog req.cognitiveTier) = some parent ∧
          budget.allocate req.parentPID pid (tierFromCog req.cognitiveTier) req.limits.maxTokensTotal =
            .ok budget') ∨
        (budget.getBudget req.parentPID (tierFromCog req.cognitiveTier) = none ∧
          budget' = budget.setBudget pid (tierFromCog req.cognitiveTier) req.limits.maxTokensTotal)) := by
  simp only [fund] at h
  split_ifs at h with hpos
  · refine .inr ⟨hpos,?_⟩
    cases hb : budget.getBudget req.parentPID (tierFromCog req.cognitiveTier) with
    | none =>
      simp only [hb,Except.ok.injEq] at h
      exact .inr ⟨rfl,h.symm⟩
    | some parent =>
      simp only [hb] at h
      exact .inl ⟨parent,rfl,h⟩
  · cases h
    exact .inl ⟨by simpa [UInt64.pos_iff_ne_zero] using hpos,rfl⟩

/-- Every way a spawn can go: refused with nothing changed, taken back for want of budget, or
left to the start of the runtime. -/
theorem spawnChild_cases (k : King) (now : ℤ) (launch : Except String String) (req : SpawnRequest) :
    (¬k.Accepts now req ∧ ∃ e, k.spawnChild now launch req = (.error e,k)) ∨
    ∃ parent, Admitted k req parent ∧
      k.registry.spawn now req = .ok (k.newborn now req parent,k.registered now req parent) ∧
      ((∃ e, fund k.budget req k.registry.nextPID = .error e ∧
          k.spawnChild now launch req = (.error s!"spawn denied: {e}",
            { k with registry := (k.registered now req parent).remove k.registry.nextPID })) ∨
        ∃ budget, fund k.budget req k.registry.nextPID = .ok budget ∧
          k.spawnChild now launch req =
            (k.withChild now req parent budget).startChild req (k.newborn now req parent) launch) := by
  unfold spawnChild Accepts
  cases ha : k.admission req with
  | error e => exact .inl ⟨fun h => Bool.noConfusion h.1,e,rfl⟩
  | ok u =>
    cases hs : k.registry.spawn now req with
    | error e => exact .inl ⟨fun h => Bool.noConfusion h.2,e,rfl⟩
    | ok q =>
      obtain ⟨proc,registry⟩ := q
      obtain ⟨parent,hadm,rfl,rfl⟩ := admitted_of_spawn ha hs
      refine .inr ⟨parent,hadm,rfl,?_⟩
      have hpid : (k.newborn now req parent).pid = k.registry.nextPID := rfl
      simp only [hpid]
      cases hf : fund k.budget req k.registry.nextPID with
      | error e => exact .inl ⟨e,rfl,rfl⟩
      | ok budget => exact .inr ⟨budget,rfl,rfl⟩

/-- The request names an image and the runtime cannot be started. -/
def LaunchFails (k : King) (req : SpawnRequest) (pid : ℕ) (launch : Except String String) : Prop :=
  req.runtimeImage ≠ "" ∧ ∃ manager, k.runtime = some manager ∧ manager.Refuses pid req.runtimeType launch

lemma get_setAddr (r : Registry) (pid : ℕ) (addr : String) (j : ℕ) :
    (setAddr r pid addr).get j =
      if j = pid then (r.get j).map (fun p => { p with runtimeAddr := addr }) else r.get j := by
  rw [setAddr,Registry.get_modify]

/-- Starting the runtime of a registered process either takes it out of the table again or fills in
its address and passes the trace on. -/
lemma startChild_cases {proc : Process} (hp : k.registry.get proc.pid = some proc) :
    (k.LaunchFails req proc.pid launch ∧ ∃ e, k.startChild req proc launch = (.error e,
        { k with registry := (setAddr k.registry proc.pid req.runtimeImage).remove proc.pid })) ∨
    (¬k.LaunchFails req proc.pid launch ∧ ∃ addr registry runtime,
      k.startChild req proc launch = (.ok { proc with runtimeAddr := addr },
        ({ k with registry := registry, runtime := runtime } : King).passTrace req.parentPID proc.pid) ∧
      registry.nextPID = k.registry.nextPID ∧
      (∀ j, registry.get j =
        if j = proc.pid then some { proc with runtimeAddr := addr } else k.registry.get j)) := by
  have hsame : ∀ j, k.registry.get j =
      if j = proc.pid then some { proc with runtimeAddr := proc.runtimeAddr } else k.registry.get j := by
    intro j
    split_ifs with hj
    · rw [hj]; exact hp
    · rfl
  unfold startChild launchChild LaunchFails
  cases hrt : k.runtime with
  | none => exact .inr ⟨by simp,proc.runtimeAddr,k.registry,k.runtime,rfl,rfl,hsame⟩
  | some manager =>
    by_cases himg : req.runtimeImage = ""
    · simp only [if_pos himg]
      exact .inr ⟨by simp [himg],proc.runtimeAddr,k.registry,k.runtime,rfl,rfl,hsame⟩
    · simp only [if_neg himg]
      have hiff : manager.Fails { proc with runtimeAddr := req.runtimeImage } req.runtimeType launch =
          manager.Refuses proc.pid req.runtimeType launch := if_neg himg
      rcases manager.startRuntime_cases { proc with runtimeAddr := req.runtimeImage } req.runtimeType
        launch with ⟨e,he,hfail⟩ | ⟨rt,manager',hok,hnot⟩
      · rw [he]
        exact .inl ⟨⟨himg,manager,rfl,hiff ▸ hfail⟩,_,rfl⟩
      · rw [hok]
        refine .inr ⟨?_,rt.addr,_,_,rfl,?_,fun j => ?_⟩
        · rintro ⟨-,m,hm,hfail⟩
          obtain rfl : manager = m := Option.some.inj hm
          exact hnot (hiff ▸ hfail)
        · rw [setAddr,Registry.nextPID_modify]
        · rw [get_setAddr]
          split_ifs with hj
          · rw [hj,hp]; rfl
          · rfl

/-- A process that is registered and taken out again leaves the lookups as they were. -/
lemma get_registered_remove (k : King) (now : ℤ) (req : SpawnRequest) (parent : Process) (j : ℕ) :
    ((k.registered now req parent).remove k.registry.nextPID).get j = k.registry.get j := by
  rw [Registry.get_remove,registered,Registry.get_register]
  split_ifs with hj
  · rw [hj,Registry.get_nextPID]
  · rfl

lemma get_setAddr_remove (r : Registry) (pid : ℕ) (addr : String) (j : ℕ) :
    ((setAddr r pid addr).remove pid).get j = (r.remove pid).get j := by
  rw [Registry.get_remove,Registry.get_remove,get_setAddr]
  split_ifs <;> rfl

@[simp] lemma passTrace_registry (k : King) (parentPID pid : ℕ) :
    (k.passTrace parentPID pid).registry = k.registry := by
  simp only [passTrace]
  split_ifs <;> rfl

@[simp] lemma passTrace_budget (k : King) (parentPID pid : ℕ) :
    (k.passTrace parentPID pid).budget = k.budget := by
  simp only [passTrace]
  split_ifs <;> rfl

/-- What a spawn does to the process table and to the budgets. -/
structure SpawnEffect (k : King) (now : ℤ) (req : SpawnRequest) (parent : Process)
    (launch : Except String String) (result : Except String Process) (k' : King) : Prop where
  admitted : Admitted k req parent
  spawned : k.registry.spawn now req = .ok (k.newborn now req parent,k.registered now req parent)
  nextPID : k'.registry.nextPID = k.registry.nextPID+1
  outcome :
    -- not funded
    ((∃ e, result = .error e) ∧ (∃ e, fund k.budget req k.registry.nextPID = .error e) ∧
      k'.budget = k.budget ∧ ∀ j, k'.registry.get j = k.registry.get j) ∨
    -- not launched
    ((∃ e, result = .error e) ∧ k.LaunchFails req k.registry.nextPID launch ∧
      fund k.budget req k.registry.nextPID = .ok k'.budget ∧
      ∀ j, k'.registry.get j = k.registry.get j) ∨
    (∃ addr, result = .ok { k.newborn now req parent with runtimeAddr := addr } ∧
      ¬k.LaunchFails req k.registry.nextPID launch ∧
      fund k.budget req k.registry.nextPID = .ok k'.budget ∧
      ∀ j, k'.registry.get j = if j = k.registry.nextPID
        then some { k.newborn now req parent with runtimeAddr := addr } else k.registry.get j)

theorem spawnChild_effect (k : King) (now : ℤ) (launch : Except String String) (req : SpawnRequest) :
    (¬k.Accepts now req ∧ ∃ e, k.spawnChild now launch req = (.error e,k)) ∨
    ∃ parent, SpawnEffect k now req parent launch (k.spawnChild now launch req).1
      (k.spawnChild now launch req).2 := by
  rcases spawnChild_cases k now launch req with ⟨hnot,e,he⟩ | ⟨parent,hadm,hspawn,⟨e,hf,he⟩ | ⟨budget,hf,he⟩⟩
  · exact .inl ⟨hnot,e,he⟩
  · refine .inr ⟨parent,hadm,hspawn,?_,.inl ⟨⟨_,by rw [he]⟩,⟨e,hf⟩,by rw [he],?_⟩⟩
    · rw [he,Registry.nextPID_remove]; rfl
    · rw [he]; exact get_registered_remove k now req parent
  · have hp : (k.withChild now req parent budget).registry.get (k.newborn now req parent).pid =
        some (k.newborn now req parent) := by
      rw [withChild,registered,Registry.get_register]
      exact if_pos rfl
    rw [he]
    rcases startChild_cases hp with ⟨hfail,e,hs⟩ | ⟨hok,addr,registry,runtime,hs,hnext,hget⟩
    · refine .inr ⟨parent,hadm,hspawn,?_,.inr (.inl ⟨⟨e,by rw [hs]⟩,hfail,by rw [hs]; exact hf,?_⟩)⟩
      · rw [hs,Registry.nextPID_remove,setAddr,Registry.nextPID_modify]; rfl
      · rw [hs]
        intro j
        rw [get_setAddr_remove]
        exact get_registered_remove k now req parent j
    · refine .inr ⟨parent,hadm,hspawn,?_,.inr (.inr ⟨addr,by rw [hs],hok,?_,?_⟩)⟩
      · rw [hs,passTrace_registry,hnext]; rfl
      · rw [hs,passTrace_budget]; exact hf
      · rw [hs]
        intro j
        rw [passTrace_registry,hget]
        split_ifs with h1 h2 h2
        · rfl
        · exact absurd h1 h2
        · exact absurd h2 h1
        · rw [withChild,registered,Registry.get_register,if_neg h2]

lemma SpawnEffect.accepts {result : Except String Process} {k' : King}
    (h : SpawnEffect k now req parent launch result k') : k.Accepts now req := by
  unfold Accepts
  rw [h.admitted.admission,h.spawned]
  exact ⟨rfl,rfl⟩

/-- A spawn leaves alone whatever does not depend on the table, the budgets, the groups, the
runtimes and the traces. -/
lemma spawnChild_frame {α : Type} (f : King → α)
    (hf : ∀ (k : King) (registry : Registry) (budget : BudgetManager) (cgroups : CGroupManager)
      (runtime : Option RuntimeManager) (traceStore : Table ℕ TraceCtx),
      f { k with
        registry := registry, budget := budget, cgroups := cgroups, runtime := runtime,
        traceStore := traceStore } = f k)
    (k : King) (now : ℤ) (launch : Except String String) (req : SpawnRequest) :
    f (k.spawnChild now launch req).2 = f k := by
  have htrace : ∀ (k : King) (parentPID pid : ℕ), f (k.passTrace parentPID pid) = f k := by
    intro k parentPID pid
    simp only [passTrace]
    split_ifs
    · rfl
    · exact hf k k.registry k.budget k.cgroups k.runtime _
  rcases spawnChild_cases k now launch req with ⟨-,e,he⟩ | ⟨parent,hadm,-,⟨e,hfund,he⟩ | ⟨budget,hfund,he⟩⟩
  · rw [he]
  · rw [he]
    exact hf k _ k.budget k.cgroups k.runtime k.traceStore
  · have hp : (k.withChild now req parent budget).registry.get (k.newborn now req parent).pid =
        some (k.newborn now req parent) := (Registry.get_register _ _ _ _).trans (if_pos rfl)
    rw [he]
    rcases startChild_cases hp with ⟨-,e,hs⟩ | ⟨-,addr,registry,runtime,hs,-,-⟩
    · rw [hs]
      exact hf k _ budget _ k.runtime k.traceStore
    · rw [hs,htrace]
      exact hf k registry budget _ runtime k.traceStore

lemma spawnChild_results (k : King) (now : ℤ) (launch : Except String String) (req : SpawnRequest) :
    (k.spawnChild now launch req).2.results = k.results :=
  spawnChild_frame King.results (fun _ _ _ _ _ _ => rfl) k now launch req

end King
end HiveKernel
