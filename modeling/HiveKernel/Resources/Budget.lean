import HiveKernel.Lib.Run
import HiveKernel.Process.Registry

/-! Token budgets. Every process may have one entry per model tier; a parent funds the entry of
a child by reserving part of its own. All counters are 64-bit and wrap. -/
namespace HiveKernel
open Lib

inductive ModelTier
  | opus | sonnet | mini
  deriving DecidableEq, Repr

def ModelTier.string : ModelTier → String
  | opus => "opus"
  | sonnet => "sonnet"
  | mini => "mini"

def tierFromCog : CognitiveTier → ModelTier
  | .strategic => .opus
  | .tactical => .sonnet
  | .operational => .mini

structure BudgetEntry where
  pid : ℕ
  tier : ModelTier
  allocated : UInt64
  consumed : UInt64 := 0
  reserved : UInt64 := 0
  deriving DecidableEq, Repr

/-- The usable budget, neither consumed nor reserved. -/
def BudgetEntry.remaining (b : BudgetEntry) : UInt64 :=
  let used := b.consumed+b.reserved
  if b.allocated ≤ used then 0 else b.allocated-used

structure BudgetManager where
  budgets : Table (ℕ × ModelTier) BudgetEntry

namespace BudgetManager

def new : BudgetManager := ⟨.empty⟩

def setBudget (m : BudgetManager) (pid : ℕ) (tier : ModelTier) (tokens : UInt64) : BudgetManager :=
  match m.budgets.get (pid,tier) with
  | some e => ⟨m.budgets.set (pid,tier) { e with allocated := tokens }⟩
  | none => ⟨m.budgets.set (pid,tier) { pid := pid, tier := tier, allocated := tokens }⟩

def getBudget (m : BudgetManager) (pid : ℕ) (tier : ModelTier) : Option BudgetEntry :=
  m.budgets.get (pid,tier)

/-- Transfer tokens from the parent's budget to a new entry of the child. -/
def allocate (m : BudgetManager) (parentPID childPID : ℕ) (tier : ModelTier) (tokens : UInt64) :
    Except String BudgetManager :=
  match m.budgets.get (parentPID,tier) with
  | none => .error s!"parent PID {parentPID} has no {tier.string} budget"
  | some parent =>
    if parent.remaining < tokens then
      .error s!"parent PID {parentPID} has {parent.remaining} {tier.string} tokens remaining, child needs {tokens}"
    else
      .ok ⟨(m.budgets.set (parentPID,tier) { parent with reserved := parent.reserved+tokens }).set
        (childPID,tier) { pid := childPID, tier := tier, allocated := tokens }⟩

/-- Record usage against the entry of a process. -/
def consume (m : BudgetManager) (pid : ℕ) (tier : ModelTier) (tokens : UInt64) :
    Except String BudgetManager :=
  match m.budgets.get (pid,tier) with
  | none => .error s!"PID {pid} has no {tier.string} budget"
  | some entry =>
    if entry.allocated-entry.reserved < entry.consumed+tokens then
      .error (s!"PID {pid} budget exceeded: consumed={entry.consumed} + request={tokens} > "++
        s!"available={entry.allocated-entry.reserved}")
    else .ok ⟨m.budgets.set (pid,tier) { entry with consumed := entry.consumed+tokens }⟩

/-- Delete the entry of a child and undo its reservation at the process that is its parent now.
The first component is the amount reported as returned. -/
def release (m : BudgetManager) (registry : Registry) (childPID : ℕ) (tier : ModelTier) :
    UInt64 × BudgetManager :=
  match m.budgets.get (childPID,tier) with
  | none => (0,m)
  | some child =>
    let unused := child.allocated-child.consumed
    let budgets := m.budgets.erase (childPID,tier)
    match registry.get childPID with
    | none => (unused,⟨budgets⟩)
    | some proc => match budgets.get (proc.ppid,tier) with
      | none => (unused,⟨budgets⟩)
      | some parent =>
        -- the full allocation was reserved, so the full allocation is unreserved
        let reserved :=
          if child.allocated ≤ parent.reserved then parent.reserved-child.allocated else 0
        (unused,⟨budgets.set (proc.ppid,tier) { parent with reserved := reserved }⟩)

def releaseAll (m : BudgetManager) (registry : Registry) (childPID : ℕ) : BudgetManager :=
  [ModelTier.opus,.sonnet,.mini].foldl (fun m tier => (m.release registry childPID tier).2) m

variable {m m' : BudgetManager} {pid : ℕ} {tier : ModelTier} {tokens : UInt64}

lemma setBudget_of_none (h : m.getBudget pid tier = none) :
    m.setBudget pid tier tokens =
      ⟨m.budgets.set (pid,tier) { pid := pid, tier := tier, allocated := tokens }⟩ := by
  rw [getBudget] at h
  simp only [setBudget,h]

lemma allocate_ok {parentPID childPID : ℕ} (h : m.allocate parentPID childPID tier tokens = .ok m') :
    ∃ parent, m.getBudget parentPID tier = some parent ∧ tokens ≤ parent.remaining ∧
      m' = ⟨(m.budgets.set (parentPID,tier) { parent with reserved := parent.reserved+tokens }).set
        (childPID,tier) { pid := childPID, tier := tier, allocated := tokens }⟩ := by
  unfold allocate at h
  unfold getBudget
  cases hp : m.budgets.get (parentPID,tier) with
  | none => simp [hp] at h
  | some parent =>
    simp only [hp] at h
    split_ifs at h with hlt
    cases h
    exact ⟨parent,rfl,UInt64.not_lt.mp hlt,rfl⟩

/-- An allocation creates no entry but the child's. -/
lemma isSome_of_allocate {parentPID childPID j : ℕ} {t : ModelTier}
    (h : m.allocate parentPID childPID tier tokens = .ok m') (hj : (m'.getBudget j t).isSome) :
    j = childPID ∨ (m.getBudget j t).isSome := by
  obtain ⟨parent,hp,-,rfl⟩ := allocate_ok h
  simp only [getBudget,Table.get_set] at hj
  split_ifs at hj with h1 h2
  · exact .inl (Prod.mk.inj h1).1
  · cases h2
    exact .inr (Option.isSome_iff_exists.mpr ⟨parent,hp⟩)
  · exact .inr hj

lemma consume_ok (h : m.consume pid tier tokens = .ok m') :
    ∃ entry, m.getBudget pid tier = some entry ∧
      entry.consumed+tokens ≤ entry.allocated-entry.reserved ∧
      m' = ⟨m.budgets.set (pid,tier) { entry with consumed := entry.consumed+tokens }⟩ := by
  unfold consume at h
  unfold getBudget
  cases he : m.budgets.get (pid,tier) with
  | none => simp [he] at h
  | some entry =>
    simp only [he] at h
    split_ifs at h with hlt
    cases h
    exact ⟨entry,rfl,UInt64.not_lt.mp hlt,rfl⟩

/-- The entry of the process that is the parent now, if it is another one. -/
def parentEntry (m : BudgetManager) (registry : Registry) (childPID : ℕ) (tier : ModelTier) :
    Option (ℕ × BudgetEntry) := do
  let proc ← registry.get childPID
  let parent ← (m.budgets.erase (childPID,tier)).get (proc.ppid,tier)
  pure (proc.ppid,parent)

/-- The parent after the release of an entry with this allocation. -/
def unreserve (parent : BudgetEntry) (allocated : UInt64) : BudgetEntry :=
  { parent with reserved := if allocated ≤ parent.reserved then parent.reserved-allocated else 0 }

lemma release_of_none (registry : Registry) (h : m.getBudget pid tier = none) :
    m.release registry pid tier = (0,m) := by
  rw [getBudget] at h
  simp only [release,h]

lemma release_of_some {registry : Registry} {child : BudgetEntry}
    (h : m.getBudget pid tier = some child) :
    m.release registry pid tier = (child.allocated-child.consumed,
      match m.parentEntry registry pid tier with
      | none => ⟨m.budgets.erase (pid,tier)⟩
      | some (ppid,parent) =>
        ⟨(m.budgets.erase (pid,tier)).set (ppid,tier) (unreserve parent child.allocated)⟩) := by
  rw [getBudget] at h
  simp only [release,h,parentEntry]
  cases hp : registry.get pid with
  | none => rfl
  | some proc =>
    simp only [Option.bind_eq_bind,Option.bind_some]
    cases hq : (m.budgets.erase (pid,tier)).get (proc.ppid,tier) with
    | none => rfl
    | some parent => rfl

end BudgetManager
end HiveKernel
