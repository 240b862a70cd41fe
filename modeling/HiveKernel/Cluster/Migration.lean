import HiveKernel.Cluster.Discovery
import HiveKernel.Process.TreeInvariant

/-! Moving a branch of the process tree to another node. The branch is listed when the migration is
prepared, and moved process by process when it is executed. -/
namespace HiveKernel
open Lib

inductive MigrationState
  | pending | inProgress | completed | failed | rolledBack
  deriving DecidableEq, Repr

def MigrationState.string : MigrationState → String
  | pending => "pending"
  | inProgress => "in_progress"
  | completed => "completed"
  | failed => "failed"
  | rolledBack => "rolled_back"

/-- What is kept of a process. The node it runs on is not part of it. -/
structure ProcessSnapshot where
  pid : ℕ
  ppid : ℕ
  user : String
  name : String
  role : AgentRole
  cognitiveTier : CognitiveTier
  model : String
  state : ProcessState
  limits : ResourceLimits
  tokensConsumed : UInt64
  deriving DecidableEq, Repr

def snapshotProcess (p : Process) : ProcessSnapshot where
  pid := p.pid
  ppid := p.ppid
  user := p.user
  name := p.name
  role := p.role
  cognitiveTier := p.cognitiveTier
  model := p.model
  state := p.state
  limits := p.limits
  tokensConsumed := p.tokensConsumed

structure Migration where
  id : String
  sourceNode : String
  targetNode : String
  rootPID : ℕ
  processes : List ProcessSnapshot
  state : MigrationState := .pending
  error : String := ""
  createdAt : ℤ
  startedAt : Option ℤ := none
  completedAt : Option ℤ := none
  deriving DecidableEq, Repr

/-- The PIDs that the migration moves, in order. -/
def Migration.pids (mig : Migration) : List ℕ := mig.processes.map ProcessSnapshot.pid

namespace Registry

def place (now : ℤ) (vps : String) (p : Process) : Process := { p with vps := vps, updatedAt := now }

/-- Move one process; it is an error if it is gone. -/
def moveProcess (r : Registry) (now : ℤ) (vps : String) (pid : ℕ) : Except String Registry :=
  match r.get pid with
  | none => .error s!"failed to update PID {pid}: {notFound pid}"
  | some _ => .ok (r.update now pid (fun p => { p with vps := vps }))

/-- The loop of `ExecuteMigration`, which stops at the first error. -/
def moveProcesses (now : ℤ) (vps : String) : List ℕ → Registry → Option String × Registry
  | [],r => (none,r)
  | pid::rest,r => match r.moveProcess now vps pid with
    | .error e => (some e,r)
    | .ok r => moveProcesses now vps rest r

/-- The loop of a rollback, which goes over the processes that are gone. -/
def restoreProcesses (r : Registry) (now : ℤ) (vps : String) (pids : List ℕ) : Registry :=
  pids.foldl (fun r pid => r.update now pid (fun p => { p with vps := vps })) r

end Registry

namespace NodeRegistry

/-- Callers that ignore that there is no such node. -/
def trySetStatus (r : NodeRegistry) (nodeID : String) (status : NodeStatus) : NodeRegistry :=
  match r.setStatus nodeID status with
  | .ok r => r
  | .error _ => r

/-- A node that has lost processes. It may go back to online. -/
def lose (count : ℤ) (n : NodeInfo) : NodeInfo :=
  { n with
    processCount := if n.processCount-count < 0 then 0 else n.processCount-count
    status := if n.status = .draining then .online else n.status }

def gain (count : ℤ) (n : NodeInfo) : NodeInfo := { n with processCount := n.processCount+count }

/-- Change a node that `Get` has found. -/
def tryModify (r : NodeRegistry) (nodeID : String) (f : NodeInfo → NodeInfo) : NodeRegistry :=
  match r.get nodeID with
  | none => r
  | some n => r.put (f n)

end NodeRegistry

/-- What the migration manager works on. -/
structure Cluster where
  registry : Registry
  nodes : NodeRegistry
  migrations : Table String Migration
  nextID : ℕ

namespace Cluster

def new (registry : Registry) (nodes : NodeRegistry) : Cluster := ⟨registry,nodes,.empty,0⟩

/-- The checks of `PrepareMigration`, with the root process. -/
def checkMigration (c : Cluster) (rootPID : ℕ) (targetNode : String) : Except String Process :=
  match c.registry.get rootPID with
  | none => .error s!"root process {rootPID} not found: {Registry.notFound rootPID}"
  | some root =>
    if root.role = .kernel then .error "cannot migrate kernel process"
    else match c.nodes.get targetNode with
      | none => .error s!"target node: {NodeRegistry.notFound targetNode}"
      | some target =>
        if target.status ≠ .online then
          .error s!"target node {targetNode.quote} is {target.status.string}, must be online"
        else if root.vps = targetNode then .error s!"process already on target node {targetNode.quote}"
        else .ok root

def prepareMigration (c : Cluster) (now : ℤ) (order : List ℕ → List ℕ) (rootPID : ℕ) (targetNode : String) :
    Option (Except String Migration × Cluster) :=
  match c.checkMigration rootPID targetNode with
  | .error e => some (.error e,c)
  | .ok root => (c.registry.getDescendants order rootPID).map fun descendants =>
    let mig : Migration :=
      { id := s!"mig-{c.nextID+1}"
        sourceNode := root.vps
        targetNode := targetNode
        rootPID := rootPID
        processes := (root::descendants).map snapshotProcess
        createdAt := now }
    (.ok mig,{ c with nextID := c.nextID+1, migrations := c.migrations.set mig.id mig })

def notFound (id : String) : String := s!"migration {id.quote} not found"

/-- The locked start of `ExecuteMigration`. -/
def startMigration (c : Cluster) (now : ℤ) (id : String) : Except String (Migration × Cluster) :=
  match c.migrations.get id with
  | none => .error (notFound id)
  | some mig =>
    if mig.state ≠ .pending then .error s!"migration {id.quote} is {mig.state.string}, expected pending"
    else
      let mig := { mig with state := .inProgress, startedAt := some now }
      .ok (mig,{ c with migrations := c.migrations.set id mig })

/-- Mark the source as draining, without the lock of the manager. -/
def drainSource (c : Cluster) (mig : Migration) : Cluster :=
  { c with nodes := c.nodes.trySetStatus mig.sourceNode .draining }

/-- The branch goes back to the source, in a rollback or after an error. -/
def restore (c : Cluster) (now : ℤ) (mig : Migration) (error : String) : Cluster :=
  { c with
    registry := c.registry.restoreProcesses now mig.sourceNode mig.pids
    migrations := c.migrations.set mig.id { mig with state := .rolledBack, error := error }
    nodes := c.nodes.trySetStatus mig.sourceNode .online }

/-- The locked finish of `ExecuteMigration`, on the record as it is then. -/
def finishMigration (c : Cluster) (now : ℤ) (mig : Migration) (migrationErr : Option String) : Cluster :=
  match migrationErr with
  | some e => c.restore now mig e
  | none =>
    let count : ℤ := mig.processes.length
    { c with
      migrations := c.migrations.set mig.id { mig with state := .completed, completedAt := some now }
      nodes := (c.nodes.tryModify mig.sourceNode (NodeRegistry.lose count)).tryModify mig.targetNode
        (NodeRegistry.gain count) }

/-- The whole call, when nothing comes between its parts. -/
def executeMigration (c : Cluster) (now : ℤ) (id : String) : Except String Unit × Cluster :=
  match c.startMigration now id with
  | .error e => (.error e,c)
  | .ok (mig,c) =>
    let c := c.drainSource mig
    let (migrationErr,registry) := Registry.moveProcesses now mig.targetNode mig.pids c.registry
    let c := { c with registry := registry }.finishMigration now mig migrationErr
    match migrationErr with
    | some e => (.error e,c)
    | none => (.ok (),c)

def rollbackMigration (c : Cluster) (now : ℤ) (id : String) : Except String Cluster :=
  match c.migrations.get id with
  | none => .error (notFound id)
  | some mig =>
    if mig.state ≠ .inProgress ∧ mig.state ≠ .failed then
      .error s!"cannot rollback migration in state {mig.state.string}"
    else .ok (c.restore now mig mig.error)

lemma checkMigration_ok {c : Cluster} {rootPID : ℕ} {targetNode : String} {root : Process}
    (h : c.checkMigration rootPID targetNode = .ok root) :
    c.registry.get rootPID = some root ∧ root.role ≠ .kernel ∧ root.vps ≠ targetNode ∧
      ∃ n, c.nodes.get targetNode = some n ∧ n.status = .online := by
  unfold checkMigration at h
  cases hroot : c.registry.get rootPID with
  | none => simp [hroot] at h
  | some p =>
    simp only [hroot] at h
    by_cases hkernel : p.role = .kernel
    · simp [hkernel] at h
    rw [if_neg hkernel] at h
    cases hn : c.nodes.get targetNode with
    | none => simp [hn] at h
    | some n =>
      simp only [hn] at h
      split_ifs at h with honline hsame
      cases h
      exact ⟨rfl,hkernel,hsame,n,rfl,not_not.mp honline⟩

/-- What a successful preparation records. -/
lemma prepareMigration_ok {c c' : Cluster} {now : ℤ} {order : List ℕ → List ℕ} {rootPID : ℕ}
    {targetNode : String} {mig : Migration}
    (h : c.prepareMigration now order rootPID targetNode = some (.ok mig,c')) :
    ∃ root descendants, c.checkMigration rootPID targetNode = .ok root ∧
      c.registry.getDescendants order rootPID = some descendants ∧
      mig = { id := s!"mig-{c.nextID+1}", sourceNode := root.vps, targetNode := targetNode,
              rootPID := rootPID, processes := (root::descendants).map snapshotProcess, createdAt := now } ∧
      c' = { c with nextID := c.nextID+1, migrations := c.migrations.set mig.id mig } := by
  unfold prepareMigration at h
  cases hcheck : c.checkMigration rootPID targetNode with
  | error e => simp [hcheck] at h
  | ok root =>
    simp only [hcheck] at h
    obtain ⟨descendants,hdesc,he⟩ := Option.map_eq_some_iff.mp h
    cases he
    exact ⟨root,descendants,rfl,hdesc,rfl,rfl⟩

lemma prepareMigration_error {c c' : Cluster} {now : ℤ} {order : List ℕ → List ℕ} {rootPID : ℕ}
    {targetNode : String} {e : String} (h : c.prepareMigration now order rootPID targetNode = some (.error e,c')) :
    c' = c := by
  unfold prepareMigration at h
  cases hcheck : c.checkMigration rootPID targetNode with
  | error e =>
    simp only [hcheck,Option.some.injEq,Prod.mk.injEq] at h
    exact h.2.symm
  | ok root =>
    simp only [hcheck] at h
    obtain ⟨descendants,-,he⟩ := Option.map_eq_some_iff.mp h
    cases he

end Cluster
end HiveKernel
