import HiveKernel.Lib.Check
import HiveKernel.Process.Registry

/-! Who may do what: the access control list, the capabilities of the roles with grants to single
processes, and the inheritance of users. -/
namespace HiveKernel
open Lib

inductive Action
  | spawn | kill | sendMessage | readArtifact | writeArtifact | escalate | readProcess
  deriving DecidableEq, Repr

def Action.string : Action → String
  | spawn => "spawn"
  | kill => "kill"
  | sendMessage => "send_message"
  | readArtifact => "read_artifact"
  | writeArtifact => "write_artifact"
  | escalate => "escalate"
  | readProcess => "read_process"

/-- A rule. No role or no action means any; so do an empty user and the user `*`. -/
structure ACLRule where
  user : String := ""
  role : Option AgentRole
  action : Option Action
  allow : Bool
  deriving DecidableEq, Repr

def allowing (role : AgentRole) (actions : List Action) : List ACLRule :=
  actions.map fun action => { role := some role, action := some action, allow := true }

def defaultRules : List ACLRule :=
  [{ role := some .kernel, action := none, allow := true }] ++
  allowing .daemon [.spawn,.kill,.sendMessage,.readArtifact,.writeArtifact,.escalate,.readProcess] ++
  allowing .agent [.spawn,.sendMessage,.readArtifact,.writeArtifact,.escalate,.readProcess] ++
  allowing .lead [.spawn,.kill,.sendMessage,.readArtifact,.writeArtifact,.escalate,.readProcess] ++
  allowing .worker [.sendMessage,.readArtifact,.writeArtifact,.escalate,.readProcess] ++
  allowing .worker [.spawn] ++
  allowing .task [.sendMessage,.readArtifact,.escalate] ++
  [{ role := some .task, action := some .spawn, allow := false }] ++
  allowing .architect [.readArtifact,.writeArtifact,.escalate,.readProcess]

def ACLRule.matches (rule : ACLRule) (proc : Process) (action : Action) : Bool :=
  (rule.role = none ∨ rule.role = some proc.role) ∧
  (rule.user = "" ∨ rule.user = "*" ∨ rule.user = proc.user) ∧
  (rule.action = none ∨ rule.action = some action)

/-- The first rule that matches decides; without one the action is denied. -/
def aclCheck (rules : List ACLRule) (r : Registry) (pid : ℕ) (action : Action) : Except String Unit :=
  match r.get pid with
  | none => .error s!"acl: process {pid} not found: {Registry.notFound pid}"
  | some proc => match rules.find? (fun rule => rule.matches proc action) with
    | some rule => require (rule.allow = true)
      s!"acl: PID {pid} (role={proc.role.string}, user={proc.user}) denied action {action.string}"
    | none => .error s!"acl: PID {pid} (role={proc.role.string}) has no rule for action {action.string}"

/-- A custom rule comes after all others. -/
def addRule (rules : List ACLRule) (rule : ACLRule) : List ACLRule := rules ++ [rule]

inductive Capability
  | spawnChildren | killProcesses | manageTree | shellExec | networkAccess
  | fileWrite | fileRead | budgetAllocate | escalate | broadcast
  deriving DecidableEq, Repr

def Capability.string : Capability → String
  | spawnChildren => "spawn_children"
  | killProcesses => "kill_processes"
  | manageTree => "manage_tree"
  | shellExec => "shell_exec"
  | networkAccess => "network_access"
  | fileWrite => "file_write"
  | fileRead => "file_read"
  | budgetAllocate => "budget_allocate"
  | escalate => "escalate"
  | broadcast => "broadcast"

def roleCapabilities : AgentRole → List Capability
  | .kernel => [.spawnChildren,.killProcesses,.manageTree,.shellExec,.networkAccess,.fileWrite,
      .fileRead,.budgetAllocate,.escalate,.broadcast]
  | .daemon => [.spawnChildren,.killProcesses,.manageTree,.networkAccess,.fileRead,.budgetAllocate,
      .escalate,.broadcast]
  | .agent => [.spawnChildren,.killProcesses,.networkAccess,.fileRead,.fileWrite,.budgetAllocate,
      .escalate]
  | .architect => [.fileRead,.fileWrite,.escalate]
  | .lead => [.spawnChildren,.killProcesses,.networkAccess,.fileRead,.fileWrite,.budgetAllocate,
      .escalate]
  | .worker => [.spawnChildren,.networkAccess,.fileRead,.fileWrite,.escalate]
  | .task => [.fileRead,.escalate]

/-- Grants and revocations for single processes. -/
abbrev Grants := Table (ℕ × Capability) Bool

/-- An override for the process decides before its role does. -/
def hasCapability (grants : Grants) (r : Registry) (pid : ℕ) (cap : Capability) : Except String Bool :=
  match r.get pid with
  | none => .error s!"capability check: {Registry.notFound pid}"
  | some proc => .ok ((grants.get (pid,cap)).getD (decide (cap ∈ roleCapabilities proc.role)))

def requireCapability (grants : Grants) (r : Registry) (pid : ℕ) (cap : Capability) :
    Except String Unit := do
  let has ← hasCapability grants r pid cap
  let role := ((r.get pid).map (fun proc => proc.role.string)).getD "unknown"
  require (has = true) s!"PID {pid} (role={role}) lacks capability {cap.string}"

/-- The capability that a tool needs, if it needs one. -/
def toolCapability (tool : String) : Option Capability :=
  if tool = "shell_exec" ∨ tool = "bash" ∨ tool = "terminal" then some .shellExec
  else if tool = "file_write" ∨ tool = "write_file" then some .fileWrite
  else none

def validateTools (grants : Grants) (r : Registry) (pid : ℕ) (tools : List String) : Except String Unit :=
  tools.forM fun tool => match toolCapability tool with
    | none => pure ()
    | some cap => withContext s!"tool {tool.quote} requires {cap.string} capability: "
        (requireCapability grants r pid cap)

/-- Only the kernel may start a process for another user. -/
def validateInheritance (r : Registry) (parentPID : ℕ) (childUser : String) : Except String Unit :=
  match r.get parentPID with
  | none => .error s!"validate inheritance: {Registry.notFound parentPID}"
  | some parent => require (parent.role = .kernel ∨ childUser = "" ∨ childUser = parent.user)
      (s!"user mismatch: child requests user {childUser.quote} but parent PID {parentPID} has user "++
        s!"{parent.user.quote} (only kernel can assign different user)")

end HiveKernel
