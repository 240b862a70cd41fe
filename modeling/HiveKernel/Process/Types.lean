import Mathlib.Tactic.DeriveFintype

/-! The data of a process table entry. Process identifiers come from a counter that starts at
one and are unbounded natural numbers here; token counts keep their 64 bits. Times and durations
are integers, nanoseconds on one clock. -/
namespace HiveKernel

def second : ℤ := 1000000000
def minute : ℤ := 60*second

/-- Determines lifecycle and behaviour. -/
inductive AgentRole
  | kernel | daemon | agent | architect | lead | worker | task
  deriving DecidableEq, Repr

namespace AgentRole

def string : AgentRole → String
  | kernel => "kernel"
  | daemon => "daemon"
  | agent => "agent"
  | architect => "architect"
  | lead => "lead"
  | worker => "worker"
  | task => "task"

end AgentRole

/-- Determines model selection. -/
inductive CognitiveTier
  | strategic | tactical | operational
  deriving DecidableEq, Repr

namespace CognitiveTier

/-- The constant of the source: a larger number is a weaker tier. -/
def number : CognitiveTier → ℕ
  | strategic => 0
  | tactical => 1
  | operational => 2

def string : CognitiveTier → String
  | strategic => "strategic"
  | tactical => "tactical"
  | operational => "operational"

end CognitiveTier

inductive ProcessState
  | idle | running | blocked | sleeping | dead | zombie
  deriving DecidableEq, Repr

namespace ProcessState

def string : ProcessState → String
  | idle => "idle"
  | running => "running"
  | blocked => "blocked"
  | sleeping => "sleeping"
  | dead => "dead"
  | zombie => "zombie"

/-- A process that has ended: dead, or a zombie that still waits to be reaped. -/
def Terminal (s : ProcessState) : Prop := s = dead ∨ s = zombie

instance (s : ProcessState) : Decidable s.Terminal :=
  inferInstanceAs (Decidable (s = dead ∨ s = zombie))

end ProcessState

/-- Per-process resource constraints; zero means no limit. -/
structure ResourceLimits where
  maxTokensPerHour : UInt64 := 0
  maxContextTokens : UInt64 := 0
  maxChildren : UInt32 := 0
  maxConcurrentTasks : UInt32 := 0
  timeoutSeconds : UInt32 := 0
  maxTokensTotal : UInt64 := 0
  deriving DecidableEq, Repr

/-- An entry of the process table. -/
structure Process where
  pid : ℕ
  ppid : ℕ
  user : String
  name : String
  role : AgentRole
  cognitiveTier : CognitiveTier
  model : String
  vps : String
  state : ProcessState
  limits : ResourceLimits
  tokensConsumed : UInt64
  startedAt : ℤ
  updatedAt : ℤ
  systemPrompt : String
  metadata : List (String × String)
  runtimeAddr : String
  runtimeType : String
  runtimeImage : String
  deriving DecidableEq, Repr

def defaultModelForTier : CognitiveTier → String
  | .strategic => "opus"
  | .tactical => "sonnet"
  | .operational => "mini"

end HiveKernel
