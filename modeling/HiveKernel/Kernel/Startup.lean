import HiveKernel.Kernel.ChildLimit
import HiveKernel.Kernel.FrontEnds
import HiveKernel.Kernel.Residue
import HiveKernel.Scheduler.CronRanges

/-! The agents of the startup configuration. They are spawned one after the other under the kernel, all with the
default limits, so each takes a full default share out of the kernel's budget at its tier: there is room for one
strategic, ten tactical and a hundred operational agents, and an agent whose launch fails keeps its share. -/
namespace HiveKernel
open Lib

structure ClawAgentConfig where
  workspace : String := ""
  provider : String := ""
  maxToolIterations : ℤ := 0
  restrictToWorkspace : Bool := false
  channels : List String := []
  env : Table String String := .empty

structure StartupCron where
  name : String
  expression : String
  action : String := ""
  description : String := ""
  params : List (String × String) := []
  deriving DecidableEq, Repr

structure StartupAgent where
  name : String
  role : String := ""
  cognitiveTier : String := ""
  model : String := ""
  runtimeType : String := ""
  runtimeImage : String := ""
  systemPrompt : String := ""
  systemPromptFile : String := ""
  tools : List String := []
  workspace : String := ""
  metadata : Table String String := .empty
  clawConfig : Option ClawAgentConfig := none
  cron : List StartupCron := []

structure StartupConfig where
  agents : List StartupAgent := []

/-- The operating system: its files and paths, and the decoder of the configuration. -/
structure Files where
  readFile : String → Except String String
  unmarshal : String → Except String StartupConfig
  mkdirAll : String → Except String Unit
  isAbs : String → Bool
  join : String → String → String
  dir : String → String

/-- A path of the configuration, relative to the directory that holds it. -/
def Files.resolve (files : Files) (configDir path : String) : String :=
  if files.isAbs path then path else files.join configDir path

/-- The prompt from the file, if there is one, wins. -/
def loadPrompt (files : Files) (configDir : String) (i : ℕ) (a : StartupAgent) : Except String String :=
  if a.systemPromptFile ≠ "" then
    withContext s!"agent[{i}] ({a.name}): read system_prompt_file: "
      (files.readFile (files.resolve configDir a.systemPromptFile))
  else .ok a.systemPrompt

/-- Create the directory of the agent in its workspace. -/
def loadWorkspace (files : Files) (configDir : String) (i : ℕ) (a : StartupAgent) : Except String String :=
  if a.workspace ≠ "" then do
    let agentDir := files.join (files.resolve configDir a.workspace) a.name
    withContext s!"agent[{i}] ({a.name}): create workspace dir: " (files.mkdirAll agentDir)
    pure agentDir
  else .ok a.workspace

/-- Validate an agent and fill in its defaults. -/
def loadAgent (files : Files) (configDir : String) (i : ℕ) (a : StartupAgent) : Except String StartupAgent := do
  require (a.name ≠ "") s!"agent[{i}]: name is required"
  require (a.runtimeImage ≠ "") s!"agent[{i}] ({a.name}): runtime_image is required"
  let systemPrompt ← loadPrompt files configDir i a
  let workspace ← loadWorkspace files configDir i a
  pure { a with
    runtimeType := if a.runtimeType = "" then "RUNTIME_PYTHON" else a.runtimeType
    role := if a.role = "" then "daemon" else a.role
    cognitiveTier := if a.cognitiveTier = "" then "operational" else a.cognitiveTier
    systemPrompt := systemPrompt
    workspace := workspace }

def loadStartupConfig (files : Files) (path : String) : Except String StartupConfig :=
  if path = "" then .ok {}
  else do
    let data ← withContext "read startup config: " (files.readFile path)
    let cfg ← withContext "parse startup config: " (files.unmarshal data)
    let agents ← cfg.agents.zipIdx.mapM (fun a => loadAgent files (files.dir path) a.2 a.1)
    pure { agents := agents }

/-- How the characters of a text are mapped to upper and lower case. -/
structure CaseMapping where
  upper : String → String
  lower : String → String

def CaseMapping.parseRuntimeType (c : CaseMapping) (s : String) : String :=
  if c.upper s = "RUNTIME_CLAW" ∨ c.upper s = "CLAW" then runtimeClaw
  else if c.upper s = "RUNTIME_PYTHON" ∨ c.upper s = "PYTHON" ∨ c.upper s = "" then runtimePython
  else if c.upper s = "RUNTIME_CUSTOM" ∨ c.upper s = "CUSTOM" then "custom"
  else c.lower s

/-- The front ends only see the names of the enumerators, in ASCII. -/
lemma parseRuntimeType_eq (s : String) :
    HiveKernel.parseRuntimeType s = CaseMapping.parseRuntimeType ⟨String.toUpper,String.toLower⟩ s := rfl

/-- An unknown role is that of a daemon; nobody becomes the kernel. -/
def parseRole : String → AgentRole
  | "daemon" => .daemon
  | "agent" => .agent
  | "lead" => .lead
  | "worker" => .worker
  | "task" => .task
  | "architect" => .architect
  | _ => .daemon

def parseTier : String → CognitiveTier
  | "strategic" => .strategic
  | "tactical" => .tactical
  | "operational" => .operational
  | _ => .operational

/-- A loop that copies every entry of a map. -/
def merged (m n : Table String String) : Table String String :=
  n.toAList.entries.foldl (fun m e => m.set e.1 e.2) m

def setIf (m : Table String String) (ok : Prop) [Decidable ok] (k v : String) : Table String String :=
  if ok then m.set k v else m

/-- The variables of the environment, under a common prefix, with references to others expanded. -/
def clawEnv (expandEnv : String → String) (m env : Table String String) : Table String String :=
  env.toAList.entries.foldl (fun m e => m.set ("claw.env."++e.1) (expandEnv e.2)) m

def clawConfigToMetadata (expandEnv : String → String) : Option ClawAgentConfig → Table String String
  | none => .empty
  | some cc =>
    let m := setIf .empty (cc.workspace ≠ "") "claw.workspace" cc.workspace
    let m := setIf m (cc.provider ≠ "") "claw.provider" cc.provider
    let m := setIf m (0 < cc.maxToolIterations) "claw.max_tool_iterations" s!"{cc.maxToolIterations}"
    let m := setIf m (cc.restrictToWorkspace = true) "claw.restrict_to_workspace" "true"
    let m := setIf m (cc.channels ≠ []) "claw.channels" (",".intercalate cc.channels)
    clawEnv expandEnv m cc.env

/-- The metadata of an agent: its own, then those of its claw settings, its tools and its workspace. -/
def startupMetadata (expandEnv : String → String) (a : StartupAgent) : Table String String :=
  let m := merged (merged .empty a.metadata) (clawConfigToMetadata expandEnv a.clawConfig)
  let m := setIf m (a.tools ≠ []) "agent.tools" (",".intercalate a.tools)
  setIf m (a.workspace ≠ "") "agent.workspace" a.workspace

/-- What the environment decides about a startup. -/
structure StartupEnv where
  nodeName : String
  defaultLimits : ResourceLimits
  expandEnv : String → String
  case : CaseMapping

/-- Daemons are named after their node, unless a node is given already. -/
def startupName (env : StartupEnv) (a : StartupAgent) : String :=
  if a.role = "daemon" ∧ '@' ∉ a.name.toList then a.name++"@"++env.nodeName else a.name

def startupRequest (env : StartupEnv) (a : StartupAgent) : SpawnRequest where
  parentPID := 1
  name := startupName env a
  role := parseRole a.role
  cognitiveTier := parseTier a.cognitiveTier
  model := a.model
  user := "root"
  limits := env.defaultLimits
  runtimeType := env.case.parseRuntimeType a.runtimeType
  runtimeImage := a.runtimeImage
  systemPrompt := a.systemPrompt
  metadata := (startupMetadata env.expandEnv a).toAList.entries.map (fun e => (e.1,e.2))

/-- An entry that is refused is left out. -/
def addCron (pid : ℕ) (cron : CronScheduler) (c : StartupCron) : CronScheduler :=
  (cron.parseAndAdd c.name c.expression (if c.action = "" then "message" else c.action) pid c.description
    c.params).2

/-- A startup in progress: the kernel, its crontab, and what has come of the agents so far. -/
structure Startup where
  king : King
  cron : CronScheduler
  outcomes : List (Except String ℕ) := []

/-- An agent, and when and how it is launched. -/
structure Attempt where
  agent : StartupAgent
  now : ℤ
  launch : Except String String

/-- One turn of the loop: an agent that cannot be spawned is passed over. -/
def spawnStartupAgent (env : StartupEnv) (s : Startup) (a : Attempt) : Startup :=
  match s.king.spawnChild a.now a.launch (startupRequest env a.agent) with
  | (.error e,king) => { s with king := king, outcomes := s.outcomes++[.error e] }
  | (.ok proc,king) =>
    { king := king
      cron := a.agent.cron.foldl (addCron proc.pid) s.cron
      outcomes := s.outcomes++[.ok proc.pid] }

def spawnStartupAgents (env : StartupEnv) (king : King) (cron : CronScheduler) (attempts : List Attempt) : Startup :=
  attempts.foldl (spawnStartupAgent env) { king := king, cron := cron }

/-- The shares of the kernel's budget at a tier. -/
def seatsOf : ModelTier → ℕ
  | .opus => 1
  | .sonnet => 10
  | .mini => 100

/-- The shares that are taken, the children that the kernel has, and the next PID. -/
structure Seats where
  taken : ModelTier → ℕ := fun _ => 0
  children : ℕ := 0
  nextPID : ℕ := 2

namespace Seats

/-- The rules of a spawn are met. -/
def Admits (s : Seats) (role : AgentRole) (tier : CognitiveTier) : Prop :=
  s.children < 100 ∧ ¬(role = .task ∧ tier = .strategic)

/-- There is a share left. -/
def Funds (s : Seats) (tier : CognitiveTier) : Prop := s.taken (tierFromCog tier) < seatsOf (tierFromCog tier)

instance (s : Seats) (role : AgentRole) (tier : CognitiveTier) : Decidable (s.Admits role tier) :=
  inferInstanceAs (Decidable (_ ∧ _))

instance (s : Seats) (tier : CognitiveTier) : Decidable (s.Funds tier) := inferInstanceAs (Decidable (_ < _))

/-- What becomes of an agent. A share goes to it before its launch and stays taken if that fails. -/
def serve (s : Seats) (role : AgentRole) (tier : CognitiveTier) (starts : Bool) : Option ℕ × Seats :=
  if s.Admits role tier then
    if s.Funds tier then
      let taken := Function.update s.taken (tierFromCog tier) (s.taken (tierFromCog tier)+1)
      if starts then (some s.nextPID,{ taken := taken, children := s.children+1, nextPID := s.nextPID+1 })
      else (none,{ s with taken := taken, nextPID := s.nextPID+1 })
    else (none,{ s with nextPID := s.nextPID+1 })
  else (none,s)

end Seats

/-- The launch of an agent works; one without an image needs none. -/
def Attempt.starts (env : StartupEnv) (a : Attempt) : Bool :=
  a.agent.runtimeImage = "" ∨
    ((env.case.parseRuntimeType a.agent.runtimeType = runtimePython ∨
      env.case.parseRuntimeType a.agent.runtimeType = runtimeClaw) ∧ a.launch.isOk)

/-- Serve the agents one after the other. -/
def serveAll (env : StartupEnv) : Seats → List Attempt → List (Option ℕ) × Seats
  | seats,[] => ([],seats)
  | seats,a::attempts =>
    let (outcome,seats) := seats.serve (parseRole a.agent.role) (parseTier a.agent.cognitiveTier) (a.starts env)
    let (outcomes,seats) := serveAll env seats attempts
    (outcome::outcomes,seats)

lemma isOk_iff_exists {α : Type} {x : Except String α} : x.isOk ↔ ∃ a, x = .ok a := by
  cases x with
  | error e => exact ⟨fun h => Bool.noConfusion h,fun ⟨_,h⟩ => by cases h⟩
  | ok a => exact ⟨fun _ => ⟨a,rfl⟩,fun _ => rfl⟩

/-- The rules of a spawn under a registered parent. -/
lemma Registry.spawn_eq_ok_iff {r : Registry} {now : ℤ} {req : SpawnRequest} {parent : Process}
    (hp : r.get req.parentPID = some parent) : (∃ q, r.spawn now req = .ok q) ↔
      ¬parent.state.Terminal ∧ parent.cognitiveTier.number ≤ req.cognitiveTier.number ∧
        (parent.limits.maxChildren = 0 ∨
          UInt32.ofNat (r.countChildren parent.pid) < parent.limits.maxChildren) ∧
        ¬(req.role = .task ∧ req.cognitiveTier = .strategic) ∧ req.name ≠ "" := by
  have hne : req.parentPID ≠ 0 := by
    intro h0
    rw [h0,get_zero] at hp
    cases hp
  constructor
  · rintro ⟨q,hq⟩
    obtain ⟨hlive,htier,hroom⟩ := validateParent_ok (validateParent_of_spawn hq hp)
    obtain ⟨o,ho,hq⟩ := bind_eq_ok.mp hq
    obtain ⟨u,hv,-⟩ := bind_eq_ok.mp hq
    simp only [spawnParent,if_neg hne,hp,Except.ok.injEq] at ho
    subst ho
    obtain ⟨u₁,-,hv⟩ := bind_eq_ok.mp (withContext_eq_ok.mp hv)
    obtain ⟨hrole,hname⟩ := require_bind_eq_ok.mp hv
    exact ⟨hlive,htier,hroom,hrole,require_eq_ok.mp hname⟩
  · rintro ⟨hlive,htier,hroom,hrole,hname⟩
    have hparent : r.validateParent req parent = .ok () :=
      require_bind_eq_ok.mpr ⟨hlive,require_bind_eq_ok.mpr ⟨htier,require_eq_ok.mpr hroom⟩⟩
    have hvalid : r.validate req (some parent) = .ok () :=
      bind_eq_ok.mpr ⟨(),hparent,require_bind_eq_ok.mpr ⟨hrole,require_eq_ok.mpr hname⟩⟩
    refine ⟨_,bind_eq_ok.mpr ⟨some parent,?_,bind_eq_ok.mpr ⟨(),withContext_eq_ok.mpr hvalid,rfl⟩⟩⟩
    rw [spawnParent,if_neg hne,hp]

/-- The kernel in the middle of a startup: nobody but the agents has touched it. -/
structure Hall (tokens : UInt64) (k : King) (seats : Seats) : Prop where
  rules : k.rules = defaultRules
  grants : k.grants = .empty
  groups : k.cgroups.pidGroup.get 1 = none
  kernel : ∃ p, k.registry.get 1 = some p ∧ p.role = .kernel ∧ p.cognitiveTier = .strategic ∧
    p.state = .running ∧ p.limits.maxChildren = 100
  children : k.registry.countChildren 1 = seats.children
  bound : seats.children ≤ 100
  nextPID : k.registry.nextPID = seats.nextPID
  budget : ∀ tier, ∃ e, k.budget.getBudget 1 tier = some e ∧ e.consumed = 0 ∧
    e.allocated.toNat = seatsOf tier*tokens.toNat ∧ e.reserved.toNat = seats.taken tier*tokens.toNat
  taken : ∀ tier, seats.taken tier ≤ seatsOf tier
  runtimes : ∃ m, k.runtime = some m ∧ ∀ pid, k.registry.nextPID ≤ pid → m.runtimes.get pid = none

variable {tokens : UInt64} {k k' : King} {seats : Seats} {env : StartupEnv} {now : ℤ} {req : SpawnRequest}

/-- The checks of the kernel on its own request. -/
lemma Hall.admission (h : Hall tokens k seats) (hparent : req.parentPID = 1) (htools : req.tools = []) :
    k.admission req = .ok () := by
  obtain ⟨p,hp,hrole,-⟩ := h.kernel
  have hacl : aclCheck k.rules k.registry 1 .spawn = .ok () := by
    rw [h.rules,aclCheck,hp]
    simp [defaultRules,ACLRule.matches,hrole,require]
  have hcap : requireCapability k.grants k.registry 1 .spawnChildren = .ok () := by
    rw [h.grants,requireCapability,hasCapability,hp]
    simp [hrole,roleCapabilities,require]
    rfl
  have hinherit : validateInheritance k.registry 1 req.user = .ok () := by
    rw [validateInheritance,hp]
    simp [hrole,require]
  have hgroup : k.cgroups.checkSpawnAllowed 1 = .ok () := by
    rw [CGroupManager.checkSpawnAllowed,CGroupManager.getByPID,h.groups]
  unfold King.admission
  rw [hparent,htools,hacl,hcap,hinherit,hgroup]
  rfl

/-- What the spawner checks, for a request with a name. -/
lemma Hall.spawn_isOk_iff (h : Hall tokens k seats) (hparent : req.parentPID = 1) (hname : req.name ≠ "") :
    (k.registry.spawn now req).isOk ↔ seats.Admits req.role req.cognitiveTier := by
  obtain ⟨p,hp,-,htier,hstate,hmax⟩ := h.kernel
  have hpid : p.pid = 1 := Registry.get_pid hp
  have hlive : ¬p.state.Terminal := by
    rw [hstate]
    decide
  have hroom : (p.limits.maxChildren = 0 ∨
      UInt32.ofNat (k.registry.countChildren p.pid) < p.limits.maxChildren) ↔ seats.children < 100 := by
    have hsmall : (UInt32.ofNat seats.children).toNat = seats.children := by
      have := h.bound
      rw [UInt32.toNat_ofNat']
      exact Nat.mod_eq_of_lt (by omega)
    rw [hmax,hpid,h.children,UInt32.lt_iff_toNat_lt,hsmall]
    simp
  have hweaker : p.cognitiveTier.number ≤ req.cognitiveTier.number := by
    rw [htier]
    exact Nat.zero_le _
  have hget : k.registry.get req.parentPID = some p := by
    rw [hparent]
    exact hp
  rw [isOk_iff_exists,Registry.spawn_eq_ok_iff hget,hroom]
  unfold Seats.Admits
  tauto

/-- A started runtime is tracked under the PID of its process. -/
lemma RuntimeManager.startRuntime_tracks {m m' : RuntimeManager} {proc : Process} {rtType : String}
    {launch : Except String String} {rt : AgentRuntime} (h : m.startRuntime proc rtType launch = .ok (rt,m'))
    {j : ℕ} (hj : j ≠ proc.pid) : m'.runtimes.get j = m.runtimes.get j := by
  unfold startRuntime at h
  cases hget : m.runtimes.get proc.pid with
  | some old => simp [hget] at h
  | none =>
    simp only [hget] at h
    split_ifs at h
    · obtain ⟨rt',-,h⟩ := bind_eq_ok.mp h
      cases h
      exact Table.get_set_of_ne hj
    · obtain ⟨rt',-,h⟩ := bind_eq_ok.mp h
      cases h
      exact Table.get_set_of_ne hj

/-- A spawn tracks no runtime but that of the new process. -/
lemma King.spawnChild_runtime {m : RuntimeManager} (hm : k.runtime = some m) (now : ℤ)
    (launch : Except String String) (req : SpawnRequest) :
    ∃ m', (k.spawnChild now launch req).2.runtime = some m' ∧
      ∀ j, j ≠ k.registry.nextPID → m'.runtimes.get j = m.runtimes.get j := by
  rcases spawnChild_cases k now launch req with ⟨-,e,he⟩ | ⟨parent,-,-,⟨e,-,he⟩ | ⟨budget,-,he⟩⟩
  · exact ⟨m,by rw [he]; exact hm,fun _ _ => rfl⟩
  · exact ⟨m,by rw [he]; exact hm,fun _ _ => rfl⟩
  · rw [he]
    have hm' : (k.withChild now req parent budget).runtime = some m := hm
    have hpass : ∀ (k : King) (parentPID pid : ℕ), (k.passTrace parentPID pid).runtime = k.runtime := by
      intro k parentPID pid
      simp only [passTrace]
      split_ifs <;> rfl
    unfold startChild launchChild
    rw [hm']
    by_cases himage : req.runtimeImage = ""
    · simp only [if_pos himage,hpass]
      exact ⟨m,hm',fun _ _ => rfl⟩
    · simp only [if_neg himage]
      cases hstart : m.startRuntime { k.newborn now req parent with runtimeAddr := req.runtimeImage }
          req.runtimeType launch with
      | error e => exact ⟨m,rfl,fun _ _ => rfl⟩
      | ok result =>
        obtain ⟨rt,m'⟩ := result
        simp only [hpass]
        exact ⟨m',rfl,fun j hj => RuntimeManager.startRuntime_tracks hstart hj⟩

lemma seatsOf_le (tier : ModelTier) : seatsOf tier ≤ 100 := by
  cases tier <;> decide

/-- A share is handed out as long as there is one. -/
lemma Hall.fund (h : Hall tokens k seats) (hparent : req.parentPID = 1)
    (hlimit : req.limits.maxTokensTotal = tokens) (hpos : 0 < tokens.toNat) (hsmall : 100*tokens.toNat < 2^64)
    {pid : ℕ} (hpid : pid ≠ 1) :
    (¬seats.Funds req.cognitiveTier ∧ ∃ e, King.fund k.budget req pid = .error e) ∨
    (seats.Funds req.cognitiveTier ∧ ∃ budget, King.fund k.budget req pid = .ok budget ∧
      ∀ tier, ∃ e, budget.getBudget 1 tier = some e ∧ e.consumed = 0 ∧
        e.allocated.toNat = seatsOf tier*tokens.toNat ∧ e.reserved.toNat =
          Function.update seats.taken (tierFromCog req.cognitiveTier)
            (seats.taken (tierFromCog req.cognitiveTier)+1) tier*tokens.toNat) := by
  obtain ⟨e,he,hconsumed,hallocated,hreserved⟩ := h.budget (tierFromCog req.cognitiveTier)
  have htaken := h.taken (tierFromCog req.cognitiveTier)
  have hseats := seatsOf_le (tierFromCog req.cognitiveTier)
  have hmul : seats.taken (tierFromCog req.cognitiveTier)*tokens.toNat ≤
      seatsOf (tierFromCog req.cognitiveTier)*tokens.toNat := Nat.mul_le_mul_right _ htaken
  have hmax : seatsOf (tierFromCog req.cognitiveTier)*tokens.toNat ≤ 100*tokens.toNat :=
    Nat.mul_le_mul_right _ hseats
  have htokens : 0 < tokens := UInt64.pos_iff_ne_zero.mpr (fun h0 => by simp [h0] at hpos)
  have hremaining : e.remaining.toNat =
      (seatsOf (tierFromCog req.cognitiveTier)-seats.taken (tierFromCog req.cognitiveTier))*tokens.toNat := by
    rw [BudgetEntry.remaining,hconsumed,Nat.sub_mul]
    simp only [UInt64.zero_add]
    split_ifs with hle
    · rw [UInt64.le_iff_toNat_le] at hle
      have : (0 : UInt64).toNat = 0 := rfl
      omega
    · have hle' : e.reserved ≤ e.allocated := by
        rw [UInt64.le_iff_toNat_le]
        omega
      rw [UInt64.toNat_sub_of_le _ _ hle']
      omega
  unfold King.fund
  simp only [hlimit,if_pos htokens,hparent]
  rw [he]
  have hget : k.budget.budgets.get (1,tierFromCog req.cognitiveTier) = some e := he
  by_cases hfunds : seats.Funds req.cognitiveTier
  · have henough : ¬e.remaining < tokens := by
      rw [UInt64.lt_iff_toNat_lt,hremaining]
      have hone : 1*tokens.toNat ≤
          (seatsOf (tierFromCog req.cognitiveTier)-seats.taken (tierFromCog req.cognitiveTier))*tokens.toNat :=
        Nat.mul_le_mul_right _ (by unfold Seats.Funds at hfunds; omega)
      omega
    refine .inr ⟨hfunds,_,by simp only [BudgetManager.allocate,hget,if_neg henough]; rfl,fun tier => ?_⟩
    simp only [BudgetManager.getBudget,Table.get_set]
    rw [if_neg (fun hp => hpid (Prod.mk.inj hp).1.symm)]
    by_cases htier : tier = tierFromCog req.cognitiveTier
    · subst htier
      rw [if_pos rfl,Function.update_self]
      refine ⟨_,rfl,hconsumed,hallocated,?_⟩
      have hsum : e.reserved.toNat+tokens.toNat < 2^64 := by
        have : (seats.taken (tierFromCog req.cognitiveTier)+1)*tokens.toNat ≤ 100*tokens.toNat :=
          Nat.mul_le_mul_right _ (by unfold Seats.Funds at hfunds; omega)
        rw [Nat.add_mul] at this
        omega
      simp only [UInt64.toNat_add]
      rw [Nat.mod_eq_of_lt hsum,hreserved,Nat.add_mul]
      omega
    · rw [if_neg (fun hp => htier (Prod.mk.inj hp).2),Function.update_of_ne htier]
      exact h.budget tier
  · have hnone : e.remaining < tokens := by
      rw [UInt64.lt_iff_toNat_lt,hremaining]
      unfold Seats.Funds at hfunds
      rw [show seatsOf (tierFromCog req.cognitiveTier)-seats.taken (tierFromCog req.cognitiveTier) = 0 from by omega,
        Nat.zero_mul]
      exact hpos
    exact .inl ⟨hfunds,_,by simp only [BudgetManager.allocate,hget,if_pos hnone]; rfl⟩

/-- One child more, or the table as it was. -/
lemma countChildren_of_get {r r' : Registry} (child : Option Process)
    (hget : ∀ j, r'.get j = if j = r.nextPID ∧ child.isSome then child else r.get j)
    (hchild : ∀ p, child = some p → Registry.IsChild p 1) :
    r'.countChildren 1 = r.countChildren 1+(if child.isSome then 1 else 0) := by
  rw [Registry.countChildren_eq,Registry.countChildren_eq]
  cases child with
  | none =>
    have hsame : r'.children 1 = r.children 1 := by
      ext j
      rw [Registry.mem_children,Registry.mem_children]
      simp [Registry.ChildOf,hget]
    simp [hsame]
  | some p =>
    have hnew : r'.children 1 = insert r.nextPID (r.children 1) := by
      ext j
      rw [Finset.mem_insert,Registry.mem_children,Registry.mem_children]
      unfold Registry.ChildOf
      rw [hget]
      by_cases hj : j = r.nextPID
      · simp [hj,hchild p rfl]
      · simp [hj]
    have hnot : r.nextPID ∉ r.children 1 := by
      rw [Registry.mem_children]
      rintro ⟨q,hq,-⟩
      rw [Registry.get_nextPID] at hq
      cases hq
    rw [hnew,Finset.card_insert_of_notMem hnot]
    rfl

/-- An agent whose name is not empty still has one after its node is appended. -/
lemma startupName_ne (env : StartupEnv) {a : StartupAgent} (h : a.name ≠ "") : startupName env a ≠ "" := by
  unfold startupName
  split_ifs
  · intro he
    have hlist := congrArg String.toList he
    simp at hlist
  · exact h

/-- What a spawn of that request leaves alone. -/
lemma Hall.frame (h : Hall tokens k seats) (hparent : req.parentPID = 1) (now : ℤ) (launch : Except String String) :
    (k.spawnChild now launch req).2.rules = k.rules ∧ (k.spawnChild now launch req).2.grants = k.grants ∧
      (k.spawnChild now launch req).2.cgroups = k.cgroups := by
  refine ⟨King.spawnChild_frame King.rules (fun _ _ _ _ _ _ => rfl) k now launch req,
    King.spawnChild_frame King.grants (fun _ _ _ _ _ _ => rfl) k now launch req,?_⟩
  rcases (King.spawnChild_files k now launch req).1 with hfiles | hfiles
  · exact hfiles
  · rw [hfiles,hparent,King.joinGroup,CGroupManager.getByPID,h.groups]

/-- The kernel after a registration, whatever has become of it. -/
lemma Hall.next (h : Hall tokens k seats) (hparent : req.parentPID = 1) {launch : Except String String}
    (child : Option Process) (seats' : Seats)
    (hget : ∀ j, (k.spawnChild now launch req).2.registry.get j =
      if j = k.registry.nextPID ∧ child.isSome then child else k.registry.get j)
    (hchild : ∀ p, child = some p → Registry.IsChild p 1)
    (hnext : (k.spawnChild now launch req).2.registry.nextPID = k.registry.nextPID+1)
    (hpid : seats'.nextPID = seats.nextPID+1)
    (hchildren : seats'.children = seats.children+(if child.isSome then 1 else 0))
    (hbound : seats'.children ≤ 100)
    (hbudget : ∀ tier, ∃ e, (k.spawnChild now launch req).2.budget.getBudget 1 tier = some e ∧ e.consumed = 0 ∧
      e.allocated.toNat = seatsOf tier*tokens.toNat ∧ e.reserved.toNat = seats'.taken tier*tokens.toNat)
    (htaken : ∀ tier, seats'.taken tier ≤ seatsOf tier) : Hall tokens (k.spawnChild now launch req).2 seats' := by
  obtain ⟨hrules,hgrants,hgroups⟩ := h.frame hparent now launch
  obtain ⟨m,hm,htracked⟩ := h.runtimes
  obtain ⟨m',hm',hsame⟩ := King.spawnChild_runtime hm now launch req
  obtain ⟨q,hq,hkernel⟩ := h.kernel
  have hone : (1 : ℕ) < k.registry.nextPID := (Registry.get_bound hq).2
  refine ⟨hrules.trans h.rules,hgrants.trans h.grants,?_,⟨q,?_,hkernel⟩,?_,hbound,?_,hbudget,htaken,m',hm',
    fun pid hge => ?_⟩
  · rw [hgroups]
    exact h.groups
  · rw [hget,if_neg (by omega)]
    exact hq
  · rw [countChildren_of_get child hget hchild,h.children,hchildren]
  · rw [hnext,hpid,h.nextPID]
  · rw [hnext] at hge
    rw [hsame pid (by omega)]
    exact htracked pid (by omega)

/-- The launch of an agent fails exactly if it does not start. -/
lemma Hall.launchFails_iff (h : Hall tokens k seats) (a : Attempt) :
    k.LaunchFails (startupRequest env a.agent) k.registry.nextPID a.launch ↔ a.starts env = false := by
  obtain ⟨m,hm,htracked⟩ := h.runtimes
  have hrefuses : m.Refuses k.registry.nextPID (startupRequest env a.agent).runtimeType a.launch ↔
      ¬((env.case.parseRuntimeType a.agent.runtimeType = runtimePython ∨
        env.case.parseRuntimeType a.agent.runtimeType = runtimeClaw) ∧ a.launch.isOk) := by
    unfold RuntimeManager.Refuses
    rw [htracked _ (Nat.le_refl _),isOk_iff_exists]
    cases a.launch with
    | error e => simp
    | ok addr => simp [startupRequest]
  unfold Attempt.starts King.LaunchFails
  rw [hm,decide_eq_false_iff_not,not_or,← hrefuses]
  constructor
  · rintro ⟨himage,manager,hmanager,hfails⟩
    obtain rfl := Option.some.inj hmanager
    exact ⟨himage,hfails⟩
  · rintro ⟨himage,hfails⟩
    exact ⟨himage,m,rfl,hfails⟩

lemma Hall.accepts_iff (h : Hall tokens k seats) {a : Attempt} (hname : a.agent.name ≠ "") :
    k.Accepts a.now (startupRequest env a.agent) ↔
      seats.Admits (parseRole a.agent.role) (parseTier a.agent.cognitiveTier) := by
  unfold King.Accepts
  rw [h.admission rfl rfl,h.spawn_isOk_iff rfl (startupName_ne env hname)]
  exact ⟨fun hp => hp.2,fun hp => ⟨rfl,hp⟩⟩

/-- The process that stands for a spawned agent, with what the configuration says of it. -/
structure IsAgent (env : StartupEnv) (a : StartupAgent) (p : Process) : Prop where
  ppid : p.ppid = 1
  name : p.name = startupName env a
  role : p.role = parseRole a.role
  tier : p.cognitiveTier = parseTier a.cognitiveTier
  model : p.model = if a.model = "" then defaultModelForTier (parseTier a.cognitiveTier) else a.model
  user : p.user = "root"
  limits : p.limits = env.defaultLimits
  systemPrompt : p.systemPrompt = a.systemPrompt
  metadata : p.metadata = (startupMetadata env.expandEnv a).toAList.entries.map (fun e => (e.1,e.2))
  runtimeType : p.runtimeType = env.case.parseRuntimeType a.runtimeType
  runtimeImage : p.runtimeImage = a.runtimeImage

/-- What one spawn does: what the seats say. -/
lemma Hall.serve (h : Hall tokens k seats) (env : StartupEnv) (a : Attempt) (hname : a.agent.name ≠ "")
    (hlimit : env.defaultLimits.maxTokensTotal = tokens) (hpos : 0 < tokens.toNat)
    (hsmall : 100*tokens.toNat < 2^64) :
    let served := seats.serve (parseRole a.agent.role) (parseTier a.agent.cognitiveTier) (a.starts env)
    let spawned := k.spawnChild a.now a.launch (startupRequest env a.agent)
    Hall tokens spawned.2 served.2 ∧ spawned.1.toOption.map Process.pid = served.1 ∧
      (∀ pid, served.1 = some pid → pid = k.registry.nextPID ∧
        ∃ p, spawned.2.registry.get pid = some p ∧ IsAgent env a.agent p) ∧
      ∀ j, served.1 ≠ some j → spawned.2.registry.get j = k.registry.get j := by
  intro served spawned
  obtain ⟨q,hq,-⟩ := h.kernel
  have hone : (1 : ℕ) < k.registry.nextPID := (Registry.get_bound hq).2
  rcases King.spawnChild_effect k a.now a.launch (startupRequest env a.agent) with ⟨hnot,e,he⟩ | ⟨parent,heff⟩
  · have hrefused : ¬seats.Admits (parseRole a.agent.role) (parseTier a.agent.cognitiveTier) :=
      fun hp => hnot ((h.accepts_iff hname).mpr hp)
    have hserved : served = (none,seats) := if_neg hrefused
    have hspawned : spawned = (.error e,k) := he
    rw [hserved,hspawned]
    exact ⟨h,rfl,(fun pid hp => by cases hp),fun j _ => rfl⟩
  · have hadmitted := (h.accepts_iff hname).mp heff.accepts
    have hnext : k.registry.nextPID ≠ 1 := by omega
    rcases h.fund (show (startupRequest env a.agent).parentPID = 1 from rfl) hlimit hpos hsmall hnext
      with ⟨hnofunds,e,hfund⟩ | ⟨hfunds,budget,hfund,hbudget⟩
    · have hserved : served = (none,{ seats with nextPID := seats.nextPID+1 }) :=
        (if_pos hadmitted).trans (if_neg hnofunds)
      rcases heff.outcome with ⟨⟨e',he'⟩,-,hb,hget⟩ | ⟨-,-,hok,-⟩ | ⟨addr,-,-,hok,-⟩
      · rw [hserved]
        refine ⟨h.next rfl none _ (fun j => by rw [hget]; simp) (by simp) heff.nextPID rfl rfl h.bound ?_ h.taken,?_,
          (fun pid hp => by cases hp),fun j _ => hget j⟩
        · rw [show (k.spawnChild a.now a.launch (startupRequest env a.agent)).2.budget = k.budget from hb]
          exact h.budget
        · rw [show spawned.1 = .error e' from he']
          rfl
      · rw [hfund] at hok
        cases hok
      · rw [hfund] at hok
        cases hok
    · have htaken : ∀ tier, Function.update seats.taken (tierFromCog (parseTier a.agent.cognitiveTier))
          (seats.taken (tierFromCog (parseTier a.agent.cognitiveTier))+1) tier ≤ seatsOf tier := by
        intro tier
        by_cases ht : tier = tierFromCog (parseTier a.agent.cognitiveTier)
        · subst ht
          rw [Function.update_self]
          exact hfunds
        · rw [Function.update_of_ne ht]
          exact h.taken tier
      rcases heff.outcome with ⟨-,⟨e,hno⟩,-⟩ | ⟨⟨e',he'⟩,hfails,hok,hget⟩ | ⟨addr,hproc,hlaunched,hok,hget⟩
      · rw [hfund] at hno
        cases hno
      · have hserved : served = (none,{ seats with
            taken := Function.update seats.taken (tierFromCog (parseTier a.agent.cognitiveTier))
              (seats.taken (tierFromCog (parseTier a.agent.cognitiveTier))+1)
            nextPID := seats.nextPID+1 }) := by
          refine ((if_pos hadmitted).trans (if_pos hfunds)).trans ?_
          rw [(h.launchFails_iff a).mp hfails]
          rfl
        rw [hserved]
        refine ⟨h.next rfl none _ (fun j => by rw [hget]; simp) (by simp) heff.nextPID rfl rfl h.bound ?_ htaken,?_,
          (fun pid hp => by cases hp),fun j _ => hget j⟩
        · rw [← Except.ok.inj (hfund.symm.trans hok)]
          exact hbudget
        · rw [show spawned.1 = .error e' from he']
          rfl
      · have hstart : a.starts env = true := by
          rw [← Bool.not_eq_false,← h.launchFails_iff]
          exact hlaunched
        have hserved : served = (some seats.nextPID,
            { taken := Function.update seats.taken (tierFromCog (parseTier a.agent.cognitiveTier))
                (seats.taken (tierFromCog (parseTier a.agent.cognitiveTier))+1)
              children := seats.children+1
              nextPID := seats.nextPID+1 }) := by
          refine ((if_pos hadmitted).trans (if_pos hfunds)).trans ?_
          rw [hstart]
          rfl
        rw [hserved]
        refine ⟨h.next rfl (some { k.newborn a.now (startupRequest env a.agent) parent with runtimeAddr := addr }) _
          (fun j => by rw [hget]; simp) ?_ heff.nextPID rfl rfl hadmitted.1 ?_ htaken,?_,?_,
          fun j hj => (hget j).trans (if_neg fun he => hj (congrArg some (h.nextPID.symm.trans he.symm)))⟩
        · intro p hp
          obtain rfl := Option.some.inj hp
          refine ⟨rfl,?_⟩
          change k.registry.nextPID ≠ 1
          omega
        · rw [← Except.ok.inj (hfund.symm.trans hok)]
          exact hbudget
        · rw [show spawned.1 = _ from hproc]
          exact congrArg some h.nextPID
        · intro pid hp
          obtain rfl := Option.some.inj hp
          refine ⟨h.nextPID.symm,{ k.newborn a.now (startupRequest env a.agent) parent with runtimeAddr := addr },?_,
            ⟨rfl,rfl,rfl,rfl,rfl,rfl,rfl,rfl,rfl,rfl,rfl⟩⟩
          rw [hget,if_pos h.nextPID.symm]

/-- Every agent of the list has a name. -/
def Named (attempts : List Attempt) : Prop := ∀ a ∈ attempts, a.agent.name ≠ ""

lemma outcomes_spawnStartupAgent (env : StartupEnv) (s : Startup) (a : Attempt) :
    (spawnStartupAgent env s a).king = (s.king.spawnChild a.now a.launch (startupRequest env a.agent)).2 ∧
    (spawnStartupAgent env s a).outcomes.map Except.toOption = s.outcomes.map Except.toOption++
      [(s.king.spawnChild a.now a.launch (startupRequest env a.agent)).1.toOption.map Process.pid] := by
  unfold spawnStartupAgent
  rcases s.king.spawnChild a.now a.launch (startupRequest env a.agent) with ⟨e | proc,king⟩
  · simp [Except.toOption]
  · simp [Except.toOption]

/-- The kernel during the loop. -/
lemma Hall.serveAll {s : Startup} (h : Hall tokens s.king seats) (env : StartupEnv) {attempts : List Attempt}
    (hnamed : Named attempts)
    (hlimit : env.defaultLimits.maxTokensTotal = tokens) (hpos : 0 < tokens.toNat)
    (hsmall : 100*tokens.toNat < 2^64) :
    let served := HiveKernel.serveAll env seats attempts
    let done := attempts.foldl (spawnStartupAgent env) s
    Hall tokens done.king served.2 ∧
      done.outcomes.map Except.toOption = s.outcomes.map Except.toOption++served.1 ∧
      (List.Forall₂ (fun a outcome => ∀ pid, outcome = some pid → s.king.registry.nextPID ≤ pid ∧
        ∃ p, done.king.registry.get pid = some p ∧ IsAgent env a.agent p) attempts served.1) ∧
      ∀ j, some j ∉ served.1 → done.king.registry.get j = s.king.registry.get j := by
  induction attempts generalizing s seats with
  | nil => exact ⟨h,by simp [HiveKernel.serveAll],.nil,fun _ _ => rfl⟩
  | cons a attempts ih =>
    intro served done
    obtain ⟨hking,houtcomes⟩ := outcomes_spawnStartupAgent env s a
    obtain ⟨hhall,hresult,hagent,hframe⟩ := h.serve env a (hnamed a List.mem_cons_self) hlimit hpos hsmall
    rw [← hking] at hhall hagent hframe
    obtain ⟨hdone,hrest,hagents,hkept⟩ := ih hhall (fun b hb => hnamed b (List.mem_cons_of_mem a hb))
    have hle : s.king.registry.nextPID ≤ (spawnStartupAgent env s a).king.registry.nextPID := by
      rw [h.nextPID,hhall.nextPID]
      unfold Seats.serve
      split_ifs
      · exact Nat.le_succ _
      · exact Nat.le_succ _
      · exact Nat.le_succ _
      · exact Nat.le_refl _
    refine ⟨hdone,?_,.cons ?_ ?_,fun j hj => ?_⟩
    · change (attempts.foldl (spawnStartupAgent env) (spawnStartupAgent env s a)).outcomes.map _ = _
      rw [hrest,houtcomes,hresult,List.append_assoc]
      rfl
    · intro pid hpid
      obtain ⟨hnext,p,hp,hisAgent⟩ := hagent pid hpid
      refine ⟨hnext.ge,p,?_,hisAgent⟩
      refine (hkept pid (fun hin => ?_)).trans hp
      obtain ⟨b,-,hb⟩ := exists_left_of_mem hagents hin
      have hlt : pid < (spawnStartupAgent env s a).king.registry.nextPID := (Registry.get_bound hp).2
      exact absurd (hb pid rfl).1 (by omega)
    · refine hagents.imp (fun b outcome hb pid hpid => ?_)
      obtain ⟨hge,hp⟩ := hb pid hpid
      exact ⟨Nat.le_trans hle hge,hp⟩
    · refine (hkept j (fun hin => hj (List.mem_cons_of_mem _ hin))).trans (hframe j (fun he => hj ?_))
      exact List.mem_cons.mpr (.inl he.symm)

lemma hall_new (cfg : Config) (now : ℤ) {m : RuntimeManager} (hm : ∀ pid, m.runtimes.get pid = none)
    (hsmall : 100*cfg.defaultLimits.maxTokensTotal.toNat < 2^64) :
    Hall cfg.defaultLimits.maxTokensTotal (King.new cfg now (some m)) {} := by
  refine ⟨rfl,rfl,rfl,⟨_,rfl,rfl,rfl,rfl,rfl⟩,rfl,Nat.zero_le _,rfl,?_,fun _ => Nat.zero_le _,m,rfl,
    fun pid _ => hm pid⟩
  intro tier
  cases tier with
  | opus => exact ⟨_,rfl,rfl,by simp [seatsOf],by simp⟩
  | sonnet =>
    refine ⟨_,rfl,rfl,?_,by simp⟩
    simp only [UInt64.toNat_mul,seatsOf]
    rw [Nat.mod_eq_of_lt]
    · exact Nat.mul_comm _ _
    · change cfg.defaultLimits.maxTokensTotal.toNat*10 < 2^64
      omega
  | mini =>
    refine ⟨_,rfl,rfl,?_,by simp⟩
    simp only [UInt64.toNat_mul,seatsOf]
    rw [Nat.mod_eq_of_lt]
    · exact Nat.mul_comm _ _
    · change cfg.defaultLimits.maxTokensTotal.toNat*100 < 2^64
      omega

/-- A share is taken for every agent that is spawned. -/
lemma count_le_taken (env : StartupEnv) (seats : Seats) (attempts : List Attempt) (tier : ModelTier) :
    ((attempts.zip (serveAll env seats attempts).1).countP (fun p =>
      p.2.isSome && tierFromCog (parseTier p.1.agent.cognitiveTier) = tier))+seats.taken tier ≤
        (serveAll env seats attempts).2.taken tier := by
  induction attempts generalizing seats with
  | nil => simp [serveAll]
  | cons a attempts ih =>
    have hrest := ih (seats.serve (parseRole a.agent.role) (parseTier a.agent.cognitiveTier) (a.starts env)).2
    rw [serveAll,List.zip_cons_cons,List.countP_cons]
    refine Nat.le_trans ?_ hrest
    rw [Nat.add_assoc]
    refine Nat.add_le_add_left ?_ _
    unfold Seats.serve
    split_ifs with hadmits hfunds hstart
    · by_cases ht : tier = tierFromCog (parseTier a.agent.cognitiveTier)
      · subst ht
        simp
        omega
      · have hother : ¬tierFromCog (parseTier a.agent.cognitiveTier) = tier := fun h => ht h.symm
        simp [Function.update_of_ne ht,hother]
    · by_cases ht : tier = tierFromCog (parseTier a.agent.cognitiveTier)
      · subst ht
        simp
      · simp [Function.update_of_ne ht]
    · simp
    · simp

lemma children_serve (seats : Seats) (role : AgentRole) (tier : CognitiveTier) (starts : Bool) :
    (seats.serve role tier starts).2.children =
      seats.children+(if (seats.serve role tier starts).1.isSome then 1 else 0) := by
  unfold Seats.serve
  by_cases hadmits : seats.Admits role tier
  · by_cases hfunds : seats.Funds tier
    · cases starts <;> simp [hadmits,hfunds]
    · simp [hadmits,hfunds]
  · simp [hadmits]

lemma count_eq_children (env : StartupEnv) (seats : Seats) (attempts : List Attempt) :
    (serveAll env seats attempts).2.children = seats.children+(serveAll env seats attempts).1.countP Option.isSome := by
  induction attempts generalizing seats with
  | nil => rfl
  | cons a attempts ih =>
    rw [serveAll,List.countP_cons]
    change (serveAll env _ attempts).2.children = _
    rw [ih,children_serve]
    omega

/-- The entries that an agent's crontab has come to, without their identifiers. -/
def cronEntry (pid : ℕ) (c : StartupCron) : Option CronEntry :=
  match parseCron c.expression, cronActionOf (if c.action = "" then "message" else c.action) with
  | .ok sched,.ok action => some
    { name := c.name, schedule := sched, action := action, targetPID := pid, executeDesc := c.description
      executeParams := c.params }
  | _,_ => none

/-- The entries of an agent that was spawned, and none of one that was not. -/
def cronEntries (a : Attempt) : Option ℕ → List CronEntry
  | none => []
  | some pid => a.agent.cron.filterMap (cronEntry pid)

def addAll (cron : CronScheduler) (entries : List CronEntry) : CronScheduler :=
  entries.foldl (fun cron entry => (cron.add entry).2) cron

lemma foldl_addCron (pid : ℕ) (cron : CronScheduler) (cs : List StartupCron) :
    cs.foldl (addCron pid) cron = addAll cron (cs.filterMap (cronEntry pid)) := by
  induction cs generalizing cron with
  | nil => rfl
  | cons c cs ih =>
    rw [List.foldl_cons,ih,List.filterMap_cons]
    unfold addCron cronEntry CronScheduler.parseAndAdd
    cases parseCron c.expression with
    | error e => rfl
    | ok sched =>
      cases cronActionOf (if c.action = "" then "message" else c.action) with
      | error e => rfl
      | ok action => rfl

lemma cron_spawnStartupAgents (env : StartupEnv) (s : Startup) (attempts : List Attempt) :
    ∃ outcomes, (attempts.foldl (spawnStartupAgent env) s).outcomes = s.outcomes++outcomes ∧
      (attempts.foldl (spawnStartupAgent env) s).cron =
        addAll s.cron (List.zipWith (fun a o => cronEntries a (Except.toOption o)) attempts outcomes).flatten := by
  induction attempts generalizing s with
  | nil => exact ⟨[],by simp,rfl⟩
  | cons a attempts ih =>
    obtain ⟨outcomes,houtcomes,hcron⟩ := ih (spawnStartupAgent env s a)
    rw [List.foldl_cons,houtcomes,hcron]
    unfold spawnStartupAgent
    rcases s.king.spawnChild a.now a.launch (startupRequest env a.agent) with ⟨e | proc,king⟩
    · exact ⟨.error e::outcomes,by simp,rfl⟩
    · refine ⟨.ok proc.pid::outcomes,by simp,?_⟩
      simp only [List.zipWith_cons_cons,List.flatten_cons,cronEntries,Except.toOption,foldl_addCron]
      rw [addAll,addAll,addAll,List.foldl_append]

/-- A configuration that is loaded is complete. -/
structure Complete (a : StartupAgent) : Prop where
  name : a.name ≠ ""
  runtimeImage : a.runtimeImage ≠ ""
  runtimeType : a.runtimeType ≠ ""
  role : a.role ≠ ""
  cognitiveTier : a.cognitiveTier ≠ ""

lemma loadAgent_ok {files : Files} {configDir : String} {i : ℕ} {a a' : StartupAgent}
    (h : loadAgent files configDir i a = .ok a') : Complete a' ∧ a'.name = a.name := by
  obtain ⟨hname,h⟩ := require_bind_eq_ok.mp h
  obtain ⟨himage,h⟩ := require_bind_eq_ok.mp h
  obtain ⟨prompt,-,h⟩ := bind_eq_ok.mp h
  obtain ⟨workspace,-,h⟩ := bind_eq_ok.mp h
  cases h
  refine ⟨⟨hname,himage,?_,?_,?_⟩,rfl⟩
  · dsimp only
    split_ifs with h
    · decide
    · exact h
  · dsimp only
    split_ifs with h
    · decide
    · exact h
  · dsimp only
    split_ifs with h
    · decide
    · exact h

lemma complete_of_load {files : Files} {path : String} {cfg : StartupConfig}
    (h : loadStartupConfig files path = .ok cfg) : ∀ a ∈ cfg.agents, Complete a := by
  unfold loadStartupConfig at h
  split_ifs at h
  · cases h
    exact fun a ha => absurd ha List.not_mem_nil
  · obtain ⟨data,-,h⟩ := bind_eq_ok.mp h
    obtain ⟨raw,-,h⟩ := bind_eq_ok.mp h
    obtain ⟨agents,hagents,h⟩ := bind_eq_ok.mp h
    cases h
    intro a ha
    obtain ⟨b,-,hb⟩ := exists_left_of_mem (mapM_eq_ok_iff.mp hagents) ha
    exact (loadAgent_ok hb).1

/-- A startup on a fresh kernel gives the agents of a loaded configuration the seats that there are, in their order:
the outcomes are those of a counter of shares at each tier, of children and of PIDs. The kernel, and a process for
every agent that got a seat, is all there is afterwards; no more agents than shares are spawned at a tier, and no
more than a hundred in all; and the crontab has the entries of the spawned agents that can be read. -/
theorem startup_outcomes {files : Files} {path : String} {startupCfg : StartupConfig}
    (hload : loadStartupConfig files path = .ok startupCfg) {attempts : List Attempt}
    (hagents : attempts.map Attempt.agent = startupCfg.agents) {cfg : Config} (env : StartupEnv)
    (hlimits : env.defaultLimits = cfg.defaultLimits) (hpos : 0 < cfg.defaultLimits.maxTokensTotal.toNat)
    (hsmall : 100*cfg.defaultLimits.maxTokensTotal.toNat < 2^64) (now : ℤ) {m : RuntimeManager}
    (hm : ∀ pid, m.runtimes.get pid = none) (cron : CronScheduler) :
    let served := (serveAll env {} attempts).1
    let done := spawnStartupAgents env (King.new cfg now (some m)) cron attempts
    done.outcomes.map Except.toOption = served ∧
    List.Forall₂ (fun a outcome => ∀ pid, outcome = some pid → 2 ≤ pid ∧
      ∃ p, done.king.registry.get pid = some p ∧ IsAgent env a.agent p) attempts served ∧
    (∀ j, (done.king.registry.get j).isSome ↔ j = 1 ∨ some j ∈ served) ∧
    (∀ tier, (attempts.zip served).countP (fun p =>
      p.2.isSome && tierFromCog (parseTier p.1.agent.cognitiveTier) = tier) ≤ seatsOf tier) ∧
    served.countP Option.isSome ≤ 100 ∧
    done.cron = addAll cron (List.zipWith cronEntries attempts served).flatten := by
  intro served done
  have hnamed : Named attempts := by
    intro a ha
    refine (complete_of_load hload a.agent ?_).name
    rw [← hagents]
    exact List.mem_map_of_mem ha
  have hnew : Hall cfg.defaultLimits.maxTokensTotal ({ king := King.new cfg now (some m), cron := cron } :
      Startup).king {} := hall_new cfg now hm hsmall
  obtain ⟨hhall,houtcomes,hregistered,hkept⟩ := hnew.serveAll env hnamed (by rw [hlimits]) hpos hsmall
  have hserved : done.outcomes.map Except.toOption = served := houtcomes
  refine ⟨hserved,?_,fun j => ?_,fun tier => ?_,?_,?_⟩
  · exact hregistered.imp (fun a outcome h pid hpid => h pid hpid)
  · by_cases hin : some j ∈ served
    · obtain ⟨a,-,ha⟩ := exists_left_of_mem hregistered hin
      obtain ⟨-,p,hp,-⟩ := ha j rfl
      have hsome : (done.king.registry.get j).isSome := Option.isSome_iff_exists.mpr ⟨p,hp⟩
      exact ⟨fun _ => .inr hin,fun _ => hsome⟩
    · have hsame : done.king.registry.get j = (King.new cfg now (some m)).registry.get j := hkept j hin
      have hfirst : ((King.new cfg now (some m)).registry.get j).isSome ↔ j = 1 := by
        change ((Registry.new.register now _).get j).isSome ↔ j = 1
        rw [Registry.get_register]
        by_cases hj : j = 1
        · simp [hj,Registry.new]
        · simp [hj,Registry.new,Registry.get]
      rw [hsame,hfirst]
      exact ⟨fun h => .inl h,fun h => h.resolve_right hin⟩
  · have hcount := count_le_taken env {} attempts tier
    have hle := hhall.taken tier
    simp only [Nat.add_zero] at hcount
    exact Nat.le_trans hcount hle
  · have hcount := count_eq_children env {} attempts
    have hle := hhall.bound
    rw [hcount] at hle
    simpa using hle
  · obtain ⟨outcomes,hsplit,hcron⟩ :=
      cron_spawnStartupAgents env { king := King.new cfg now (some m), cron := cron } attempts
    have hdone : done.outcomes = outcomes := hsplit
    rw [← hserved,hdone,List.zipWith_map_right]
    exact hcron

/-- Two strategic agents and an operational one. -/
def threeAgents : StartupConfig where
  agents :=
    [{ name := "queen", role := "agent", cognitiveTier := "strategic", runtimeImage := "queen:Queen" },
      { name := "twin", role := "agent", cognitiveTier := "strategic", runtimeImage := "queen:Queen" },
      { name := "maid", runtimeImage := "maid:Maid" }]

/-- Their configuration file. -/
def threeAgentsText : String :=
  "\x7b\"agents\":["++
    "\x7b\"name\":\"queen\",\"role\":\"agent\",\"cognitive_tier\":\"strategic\","++
      "\"runtime_image\":\"queen:Queen\"\x7d,"++
    "\x7b\"name\":\"twin\",\"role\":\"agent\",\"cognitive_tier\":\"strategic\","++
      "\"runtime_image\":\"queen:Queen\"\x7d,"++
    "\x7b\"name\":\"maid\",\"runtime_image\":\"maid:Maid\"\x7d]\x7d"

/-- An operating system that has this file and reads no other. -/
def exampleFiles : Files where
  readFile := fun path => if path = "startup.json" then .ok threeAgentsText else .error "no such file or directory"
  unmarshal := fun data => if data = threeAgentsText then .ok threeAgents else .error "unexpected end of JSON input"
  mkdirAll := fun _ => .ok ()
  isAbs := fun _ => true
  join := fun dir name => dir++"/"++name
  dir := fun _ => "."

def exampleStartup : StartupEnv where
  nodeName := "vps1"
  defaultLimits := King.exampleConfig.defaultLimits
  expandEnv := id
  case := ⟨fun s => String.ofList (s.toList.map Char.toUpper),fun s => String.ofList (s.toList.map Char.toLower)⟩

/-- The second strategic agent finds no share left. -/
theorem startup_outcomes_threeAgents : ∃ startupCfg attempts,
    loadStartupConfig exampleFiles "startup.json" = .ok startupCfg ∧
    attempts.map Attempt.agent = startupCfg.agents ∧
    (spawnStartupAgents exampleStartup (King.new King.exampleConfig 0 (some .new)) .new attempts).outcomes.map
      Except.toOption = [some 2,none,some 4] := by
  obtain ⟨startupCfg,hagents⟩ : ∃ c : StartupConfig,
      threeAgents.agents.zipIdx.mapM (fun a => loadAgent exampleFiles "." a.2 a.1) = .ok c.agents := ⟨⟨_⟩,rfl⟩
  have hload : loadStartupConfig exampleFiles "startup.json" = .ok startupCfg := by
    have hread : exampleFiles.readFile "startup.json" = .ok threeAgentsText := by
      simp only [exampleFiles,if_true]
    have hparse : exampleFiles.unmarshal threeAgentsText = .ok threeAgents := by
      simp only [exampleFiles,if_true]
    refine (if_neg (by decide)).trans (bind_eq_ok.mpr ⟨threeAgentsText,withContext_eq_ok.mpr hread,?_⟩)
    exact bind_eq_ok.mpr ⟨threeAgents,withContext_eq_ok.mpr hparse,bind_eq_ok.mpr ⟨_,hagents,rfl⟩⟩
  let attempts := startupCfg.agents.map (fun a => (⟨a,0,.ok "localhost:9000"⟩ : Attempt))
  have hattempts : attempts.map Attempt.agent = startupCfg.agents := by
    rw [List.map_map]
    exact List.map_id _
  have hserved : (serveAll exampleStartup {} attempts).1 = [some 2,none,some 4] := by
    obtain ⟨agents⟩ := startupCfg
    cases hagents
    rfl
  refine ⟨startupCfg,attempts,hload,hattempts,?_⟩
  rw [← hserved]
  exact (startup_outcomes hload hattempts exampleStartup rfl (by decide) (by decide) 0 (fun _ => rfl) .new).1

end HiveKernel
