import HiveKernel.Lib.Check
import HiveKernel.Process.Registry

/-! Validation of a spawn request and registration of the new process. -/
namespace HiveKernel
open Lib

structure SpawnRequest where
  parentPID : ℕ
  name : String
  role : AgentRole
  cognitiveTier : CognitiveTier
  model : String := ""
  user : String := ""
  vps : String := ""
  systemPrompt : String := ""
  metadata : List (String × String) := []
  tools : List String := []
  limits : ResourceLimits := {}
  initialTask : String := ""
  runtimeType : String := ""
  runtimeImage : String := ""
  deriving DecidableEq, Repr

namespace Registry

/-- The rules that involve the parent; a request without one skips them. -/
def validateParent (r : Registry) (req : SpawnRequest) (parent : Process) : Except String Unit := do
  require (¬parent.state.Terminal)
    s!"parent {parent.pid} is {parent.state.string} and cannot spawn children"
  require (parent.cognitiveTier.number ≤ req.cognitiveTier.number)
    (s!"child cognitive tier {req.cognitiveTier.string} exceeds parent {parent.cognitiveTier.string} "++
      "(child must be <= parent)")
  -- the count is converted to 32 bits before the comparison
  require (parent.limits.maxChildren = 0 ∨
      UInt32.ofNat (r.countChildren parent.pid) < parent.limits.maxChildren)
    s!"parent {parent.pid} has {r.countChildren parent.pid} children, max is {parent.limits.maxChildren}"

def validate (r : Registry) (req : SpawnRequest) (parent : Option Process) : Except String Unit := do
  match parent with
  | none => pure ()
  | some p => r.validateParent req p
  require (¬(req.role = .task ∧ req.cognitiveTier = .strategic))
    "task role cannot have strategic cognitive tier"
  require (req.name ≠ "") "process name is required"

/-- The parent of a request: PID 0 stands for none, any other PID has to be registered. -/
def spawnParent (r : Registry) (parentPID : ℕ) : Except String (Option Process) :=
  if parentPID = 0 then .ok none
  else match r.get parentPID with
    | none => .error s!"spawn: parent {parentPID} not found: {notFound parentPID}"
    | some p => .ok (some p)

/-- The entry built from a request; an empty user or node is inherited. PID and time stamps are
left to `register`. -/
def child (req : SpawnRequest) (parent : Option Process) : Process where
  pid := 0
  ppid := req.parentPID
  user := if req.user = "" then (parent.map Process.user).getD "" else req.user
  name := req.name
  role := req.role
  cognitiveTier := req.cognitiveTier
  model := if req.model = "" then defaultModelForTier req.cognitiveTier else req.model
  vps := if req.vps = "" then (parent.map Process.vps).getD "" else req.vps
  state := .idle
  limits := req.limits
  tokensConsumed := 0
  startedAt := 0
  updatedAt := 0
  systemPrompt := req.systemPrompt
  metadata := req.metadata
  runtimeAddr := ""
  runtimeType := req.runtimeType
  runtimeImage := req.runtimeImage

/-- Validate the request and register the process. Nothing is changed on an error. -/
def spawn (r : Registry) (now : ℤ) (req : SpawnRequest) : Except String (Process × Registry) := do
  let parent ← r.spawnParent req.parentPID
  withContext "spawn: validation failed: " (r.validate req parent)
  pure (r.stamped now (child req parent),r.register now (child req parent))

/-- The entry of PID 1. -/
def kernelProcess (name user vps : String) : Process where
  pid := 0
  ppid := 0
  user := user
  name := name
  role := .kernel
  cognitiveTier := .strategic
  model := "opus"
  vps := vps
  state := .running
  limits := { maxChildren := 100 }
  tokensConsumed := 0
  startedAt := 0
  updatedAt := 0
  systemPrompt := ""
  metadata := []
  runtimeAddr := ""
  runtimeType := ""
  runtimeImage := ""

/-- Bootstrap PID 1; no parent is validated. -/
def spawnKernel (r : Registry) (now : ℤ) (name user vps : String) : Process × Registry :=
  (r.stamped now (kernelProcess name user vps),r.register now (kernelProcess name user vps))

/-- A successful spawn with a parent registers one new process under a live, registered parent. -/
lemma spawn_ok {r r' : Registry} {now : ℤ} {req : SpawnRequest} {p : Process}
    (h : r.spawn now req = .ok (p,r')) (hne : req.parentPID ≠ 0) :
    ∃ parent, r.get req.parentPID = some parent ∧ ¬parent.state.Terminal ∧ req.name ≠ "" ∧
      p = r.stamped now (child req (some parent)) ∧
      r' = r.register now (child req (some parent)) := by
  unfold spawn at h
  obtain ⟨o,ho,h⟩ := bind_eq_ok.mp h
  obtain ⟨u,hv,h⟩ := bind_eq_ok.mp h
  unfold spawnParent at ho
  rw [if_neg hne] at ho
  cases hp : r.get req.parentPID with
  | none => simp [hp] at ho
  | some parent =>
    simp only [hp,Except.ok.injEq] at ho
    subst ho
    have hv := withContext_eq_ok.mp hv
    unfold validate at hv
    obtain ⟨u₁,hparent,hv⟩ := bind_eq_ok.mp hv
    obtain ⟨-,hname⟩ := require_bind_eq_ok.mp hv
    have hlive := (require_bind_eq_ok.mp hparent).1
    cases h
    exact ⟨parent,rfl,hlive,require_eq_ok.mp hname,rfl,rfl⟩

/-- It has passed the rules that involve the parent. -/
lemma validateParent_of_spawn {r : Registry} {now : ℤ} {req : SpawnRequest} {parent : Process}
    {q : Process × Registry} (h : r.spawn now req = .ok q) (hp : r.get req.parentPID = some parent) :
    r.validateParent req parent = .ok () := by
  have hne : req.parentPID ≠ 0 := by
    intro h0
    simp [h0,get_zero] at hp
  unfold spawn at h
  obtain ⟨o,ho,h⟩ := bind_eq_ok.mp h
  obtain ⟨u,hv,-⟩ := bind_eq_ok.mp h
  simp only [spawnParent,if_neg hne,hp,Except.ok.injEq] at ho
  subst ho
  have hv := withContext_eq_ok.mp hv
  unfold validate at hv
  obtain ⟨u₁,hparent,-⟩ := bind_eq_ok.mp hv
  exact hparent

/-- The rules themselves: a live parent, a tier that is not stronger, and room for one more child. -/
lemma validateParent_ok {r : Registry} {req : SpawnRequest} {parent : Process}
    (h : r.validateParent req parent = .ok ()) :
    ¬parent.state.Terminal ∧ parent.cognitiveTier.number ≤ req.cognitiveTier.number ∧
      (parent.limits.maxChildren = 0 ∨
        UInt32.ofNat (r.countChildren parent.pid) < parent.limits.maxChildren) := by
  unfold validateParent at h
  obtain ⟨hlive,h⟩ := require_bind_eq_ok.mp h
  obtain ⟨htier,h⟩ := require_bind_eq_ok.mp h
  exact ⟨hlive,htier,require_eq_ok.mp h⟩

end Registry
end HiveKernel
