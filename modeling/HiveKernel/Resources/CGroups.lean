import Mathlib.Data.Finset.Basic
import HiveKernel.Lib.Check
import HiveKernel.Process.TreeWalks

/-! Groups of processes with collective limits. A process is in at most one group; the index from
processes to group names is kept beside the member sets. -/
namespace HiveKernel
open Lib

structure CGroup where
  name : String
  rootPID : ℕ
  maxTokensTotal : UInt64
  maxProcesses : ℤ
  tokensConsumed : UInt64 := 0
  processCount : ℤ := 0
  members : Finset ℕ := ∅
  deriving DecidableEq

structure CGroupManager where
  groups : Table String CGroup
  pidGroup : Table ℕ String

namespace CGroupManager

def new : CGroupManager := ⟨.empty,.empty⟩

def getByPID (m : CGroupManager) (pid : ℕ) : Option CGroup :=
  match m.pidGroup.get pid with
  | none => none
  | some name => m.groups.get name

/-- Put a process into a group that is being created. -/
def record (name : String) (acc : CGroup × Table ℕ String) (pid : ℕ) : CGroup × Table ℕ String :=
  ({ acc.1 with members := insert pid acc.1.members, processCount := acc.1.processCount+1 },
    acc.2.set pid name)

/-- Create a group of a process and everything below it. Who was in another group stays a member
there as well, only the index moves. -/
def create (m : CGroupManager) (r : Registry) (order : List ℕ → List ℕ) (name : String)
    (rootPID : ℕ) (maxTokens : UInt64) (maxProcs : ℤ) :
    Option (Except String (CGroup × CGroupManager)) :=
  if (m.groups.get name).isSome then some (.error s!"cgroup {name.quote} already exists")
  else match r.get rootPID with
    | none => some (.error s!"root process: {Registry.notFound rootPID}")
    | some _ => (r.getDescendants order rootPID).map fun descendants =>
      let (g,pidGroup) := (rootPID::descendants.map Process.pid).foldl (record name)
        (⟨name,rootPID,maxTokens,maxProcs,0,0,∅⟩,m.pidGroup)
      .ok (g,⟨m.groups.set name g,pidGroup⟩)

def AtMaxProcesses (g : CGroup) : Prop := 0 < g.maxProcesses ∧ g.maxProcesses ≤ g.processCount

instance (g : CGroup) : Decidable (AtMaxProcesses g) := inferInstanceAs (Decidable (_ ∧ _))

/-- Whether a new process can be spawned into the group of its parent. -/
def checkSpawnAllowed (m : CGroupManager) (parentPID : ℕ) : Except String Unit :=
  match m.getByPID parentPID with
  | none => .ok ()
  | some g =>
    let name := (m.pidGroup.get parentPID).getD ""
    require (¬AtMaxProcesses g)
      s!"cgroup {name.quote} at max processes ({g.processCount}/{g.maxProcesses})"

/-- Take a process out of a group it is recorded in. -/
def leave (groups : Table String CGroup) (name : String) (pid : ℕ) : Table String CGroup :=
  match groups.get name with
  | none => groups
  | some old => groups.set name
      { old with members := old.members.erase pid, processCount := old.processCount-1 }

def enter (groups : Table String CGroup) (name : String) (pid : ℕ) : Table String CGroup :=
  match groups.get name with
  | none => groups
  | some g => groups.set name
      { g with members := insert pid g.members, processCount := g.processCount+1 }

/-- Add a process to a group, out of the group it was in. -/
def addProcess (m : CGroupManager) (name : String) (pid : ℕ) : Except String CGroupManager :=
  match m.groups.get name with
  | none => .error s!"cgroup {name.quote} not found"
  | some g =>
    if pid ∈ g.members then .ok m
    else if AtMaxProcesses g then
      .error s!"cgroup {name.quote} at max processes ({g.maxProcesses})"
    else
      let groups := match m.pidGroup.get pid with
        | none => m.groups
        | some oldName => leave m.groups oldName pid
      .ok ⟨enter groups name pid,m.pidGroup.set pid name⟩

/-- Remove a group and all process associations. The loop visits the members in some order. -/
def delete (m : CGroupManager) (order : List ℕ) (name : String) : Except String CGroupManager :=
  match m.groups.get name with
  | none => .error s!"cgroup {name.quote} not found"
  | some _ => .ok ⟨m.groups.erase name,order.foldl Table.erase m.pidGroup⟩

/-- Remove a process from its group. -/
def removeProcess (m : CGroupManager) (pid : ℕ) : CGroupManager :=
  match m.pidGroup.get pid with
  | none => m
  | some name => ⟨leave m.groups name pid,m.pidGroup.erase pid⟩

/-- Charge tokens to the collective budget of the group; without a group there is no limit. -/
def consumeTokens (m : CGroupManager) (pid : ℕ) (tokens : UInt64) : Except String CGroupManager :=
  match m.getByPID pid with
  | none => .ok m
  | some g =>
    let name := (m.pidGroup.get pid).getD ""
    if 0 < g.maxTokensTotal ∧ g.maxTokensTotal < g.tokensConsumed+tokens then
      .error (s!"cgroup {name.quote} token limit exceeded: consumed={g.tokensConsumed} + request={tokens} > "++
        s!"max={g.maxTokensTotal}")
    else .ok { m with groups := m.groups.set name { g with tokensConsumed := g.tokensConsumed+tokens } }

/-- Nothing here refers to the process. -/
def Ignores (m : CGroupManager) (pid : ℕ) : Prop :=
  m.pidGroup.get pid = none ∧ ∀ name g, m.groups.get name = some g → pid ∉ g.members

variable {m : CGroupManager}

lemma foldl_record (name : String) (acc : CGroup × Table ℕ String) (pids : List ℕ) :
    (pids.foldl (record name) acc).1.name = acc.1.name ∧
    (∀ j, j ∈ (pids.foldl (record name) acc).1.members ↔ j ∈ pids ∨ j ∈ acc.1.members) ∧
    ∀ j, (pids.foldl (record name) acc).2.get j = if j ∈ pids then some name else acc.2.get j := by
  induction pids generalizing acc with
  | nil => simp
  | cons pid pids ih =>
    obtain ⟨hname,hmem,hget⟩ := ih (record name acc pid)
    refine ⟨hname,fun j => ?_,fun j => ?_⟩
    · rw [List.foldl_cons,hmem]
      simp only [record,Finset.mem_insert,List.mem_cons]
      tauto
    · rw [List.foldl_cons,hget]
      simp only [record,Table.get_set,List.mem_cons]
      split_ifs <;> tauto

/-- A new group holds its root and what is registered below it, and no one else is touched. -/
lemma create_ok {m' : CGroupManager} {r : Registry} {order : List ℕ → List ℕ} {name : String}
    {rootPID : ℕ} {maxTokens : UInt64} {maxProcs : ℤ} {g : CGroup}
    (h : m.create r order name rootPID maxTokens maxProcs = some (.ok (g,m'))) :
    g.name = name ∧ m'.groups = m.groups.set name g ∧ (∀ j ∈ g.members, (r.get j).isSome) ∧
    ∀ j ∉ g.members, m'.pidGroup.get j = m.pidGroup.get j := by
  unfold create at h
  split_ifs at h with hnew
  · cases h
  cases hroot : r.get rootPID with
  | none => simp [hroot] at h
  | some root =>
    simp only [hroot] at h
    obtain ⟨descendants,hd,h⟩ := Option.map_eq_some_iff.mp h
    obtain ⟨hname,hmem,hget⟩ := foldl_record name
      (⟨name,rootPID,maxTokens,maxProcs,0,0,∅⟩,m.pidGroup) (rootPID::descendants.map Process.pid)
    cases h
    refine ⟨hname,rfl,fun j hj => ?_,fun j hj => ?_⟩
    · rcases (hmem j).mp hj with hj | hj
      · rcases List.mem_cons.mp hj with rfl | hj
        · simp [hroot]
        · obtain ⟨p,hp,rfl⟩ := List.mem_map.mp hj
          simp [(Registry.mem_collectDescendants hd hp).1]
      · simp at hj
    · exact (hget j).trans (if_neg (fun hin => hj ((hmem j).mpr (.inl hin))))

/-- A process nobody knows becomes a member, and nothing else changes. -/
lemma addProcess_of_ignores {name : String} {g : CGroup} {pid : ℕ} (h : m.Ignores pid)
    (hg : m.groups.get name = some g) (hmax : ¬AtMaxProcesses g) :
    m.addProcess name pid = .ok ⟨m.groups.set name
      { g with members := insert pid g.members, processCount := g.processCount+1 },
      m.pidGroup.set pid name⟩ := by
  have hpid : pid ∉ g.members := h.2 name g hg
  simp only [addProcess,hg,hpid,hmax,if_false,h.1,enter]

end CGroupManager
end HiveKernel
