import HiveKernel.Kernel.Grants
import HiveKernel.Kernel.SystemTable

/-! What a granted `RequestResources` does to the budgets. The handler calls the allocation of a
spawn, which writes a fresh entry for the child, also where the child has one already. -/
namespace HiveKernel
open Lib

/-- A reservation within the remaining budget lowers it by exactly that much. Nothing is assumed of
the entry: where its use has wrapped, so has the sum that is compared. -/
lemma BudgetEntry.remaining_reserve {e : BudgetEntry} {tokens : UInt64} (h : tokens ≤ e.remaining) :
    ({ e with reserved := e.reserved+tokens } : BudgetEntry).remaining.toNat+tokens.toNat =
      e.remaining.toNat := by
  have ha := e.allocated.toNat_lt
  rw [UInt64.le_iff_toNat_le] at h
  unfold BudgetEntry.remaining at h ⊢
  simp only [UInt64.le_iff_toNat_le] at h ⊢
  have hused : (e.consumed+(e.reserved+tokens)).toNat = ((e.consumed+e.reserved).toNat+tokens.toNat)%2^64 := by
    rw [← UInt64.add_assoc,UInt64.toNat_add]
  by_cases hle : e.allocated.toNat ≤ (e.consumed+e.reserved).toNat
  · rw [if_pos hle,UInt64.toNat_zero] at h ⊢
    have hu := (e.consumed+e.reserved).toNat_lt
    rw [if_pos (by omega),UInt64.toNat_zero]
    omega
  · rw [if_neg hle,UInt64.toNat_sub_of_le _ _ (UInt64.le_iff_toNat_le.mpr (by omega))] at h ⊢
    split_ifs with hle'
    · rw [UInt64.toNat_zero]
      omega
    · rw [UInt64.toNat_sub_of_le _ _ (UInt64.le_iff_toNat_le.mpr (by omega))]
      omega

lemma BudgetEntry.remaining_fresh (pid : ℕ) (tier : ModelTier) (allocated : UInt64) :
    BudgetEntry.remaining { pid := pid, tier := tier, allocated := allocated } = allocated := by
  have h := (BudgetEntry.solvent_fresh pid tier allocated).remaining
  apply UInt64.toNat_inj.mp
  simpa using h

namespace BudgetManager
variable {m m' : BudgetManager} {parentPID childPID : ℕ} {tier : ModelTier} {tokens : UInt64}

/-- A figure of an entry, zero where there is none. -/
def figure (m : BudgetManager) (f : BudgetEntry → UInt64) (pid : ℕ) (tier : ModelTier) : ℕ :=
  match m.getBudget pid tier with
  | none => 0
  | some e => (f e).toNat

lemma figure_of_some {f : BudgetEntry → UInt64} {pid : ℕ} {e : BudgetEntry}
    (h : m.getBudget pid tier = some e) : m.figure f pid tier = (f e).toNat := by
  rw [figure,h]

/-- The child has so many tokens more, the parent so many less, and nothing else is different. -/
structure AddsUp (m m' : BudgetManager) (parentPID childPID : ℕ) (tier : ModelTier) (tokens : UInt64) :
    Prop where
  remaining : m'.figure BudgetEntry.remaining childPID tier =
    m.figure BudgetEntry.remaining childPID tier+tokens.toNat
  consumed : m'.figure BudgetEntry.consumed childPID tier = m.figure BudgetEntry.consumed childPID tier
  reserved : m'.figure BudgetEntry.reserved childPID tier = m.figure BudgetEntry.reserved childPID tier
  parent : m'.figure BudgetEntry.remaining parentPID tier+tokens.toNat =
    m.figure BudgetEntry.remaining parentPID tier
  others : ∀ pid t, (pid,t) ≠ (childPID,tier) → (pid,t) ≠ (parentPID,tier) →
    m'.getBudget pid t = m.getBudget pid t

/-- The process has no entry at the tier, or one that was never given anything. -/
def Unfunded (m : BudgetManager) (pid : ℕ) (tier : ModelTier) : Prop :=
  ∀ e ∈ m.getBudget pid tier, e.allocated = 0 ∧ e.consumed = 0 ∧ e.reserved = 0

/-- Before an allocation an entry is empty exactly if its figures are those of a missing one. -/
lemma unfunded_iff (m : BudgetManager) (pid : ℕ) (tier : ModelTier) :
    m.Unfunded pid tier ↔ m.figure BudgetEntry.remaining pid tier = 0 ∧
      m.figure BudgetEntry.consumed pid tier = 0 ∧ m.figure BudgetEntry.reserved pid tier = 0 := by
  unfold Unfunded
  cases he : m.getBudget pid tier with
  | none => simp [figure,he]
  | some e =>
    have hzero : ∀ u : UInt64, u.toNat = 0 ↔ u = 0 := fun u => by
      rw [← UInt64.toNat_inj,UInt64.toNat_zero]
    rw [figure_of_some he,figure_of_some he,figure_of_some he,hzero,hzero,hzero]
    simp only [Option.mem_def,Option.some.injEq,forall_eq']
    constructor
    · rintro ⟨ha,hc,hr⟩
      refine ⟨?_,hc,hr⟩
      simp [BudgetEntry.remaining,ha]
    · rintro ⟨hrem,hc,hr⟩
      refine ⟨?_,hc,hr⟩
      simpa [BudgetEntry.remaining,hc,hr] using hrem

/-- The figures after an allocation to another process. -/
lemma figures_allocate (hne : parentPID ≠ childPID)
    (h : m.allocate parentPID childPID tier tokens = .ok m') :
    m'.figure BudgetEntry.remaining childPID tier = tokens.toNat ∧
    m'.figure BudgetEntry.consumed childPID tier = 0 ∧ m'.figure BudgetEntry.reserved childPID tier = 0 ∧
    m'.figure BudgetEntry.remaining parentPID tier+tokens.toNat =
      m.figure BudgetEntry.remaining parentPID tier ∧
    ∀ pid t, (pid,t) ≠ (childPID,tier) → (pid,t) ≠ (parentPID,tier) →
      m'.getBudget pid t = m.getBudget pid t := by
  obtain ⟨parent,hp,hle,rfl⟩ := allocate_ok h
  have hkey : ((parentPID,tier) : ℕ × ModelTier) ≠ (childPID,tier) := fun he => hne (Prod.mk.inj he).1
  have hchild : getBudget ⟨(m.budgets.set (parentPID,tier) { parent with reserved := parent.reserved+tokens }).set
      (childPID,tier) { pid := childPID, tier := tier, allocated := tokens }⟩ childPID tier =
      some { pid := childPID, tier := tier, allocated := tokens } := by
    rw [getBudget,Table.get_set_self]
  have hparent : getBudget ⟨(m.budgets.set (parentPID,tier) { parent with reserved := parent.reserved+tokens }).set
      (childPID,tier) { pid := childPID, tier := tier, allocated := tokens }⟩ parentPID tier =
      some { parent with reserved := parent.reserved+tokens } := by
    rw [getBudget,Table.get_set_of_ne hkey,Table.get_set_self]
  refine ⟨?_,?_,?_,?_,fun pid t hc hq => ?_⟩
  · rw [figure_of_some hchild,BudgetEntry.remaining_fresh]
  · rw [figure_of_some hchild]
    rfl
  · rw [figure_of_some hchild]
    rfl
  · rw [figure_of_some hparent,figure_of_some hp]
    exact BudgetEntry.remaining_reserve hle
  · rw [getBudget,Table.get_set_of_ne hc,Table.get_set_of_ne hq]
    rfl

/-- An allocation adds up exactly if the child had nothing to lose. -/
lemma addsUp_allocate_iff (hne : parentPID ≠ childPID)
    (h : m.allocate parentPID childPID tier tokens = .ok m') :
    AddsUp m m' parentPID childPID tier tokens ↔ m.Unfunded childPID tier := by
  obtain ⟨hrem,hcons,hres,hparent,hothers⟩ := figures_allocate hne h
  rw [unfunded_iff]
  constructor
  · intro hadds
    have h1 := hadds.remaining
    have h2 := hadds.consumed
    have h3 := hadds.reserved
    omega
  · rintro ⟨h1,h2,h3⟩
    exact ⟨by omega,by omega,by omega,hparent,hothers⟩

end BudgetManager

/-- A grant is a successful allocation from the parent; a refusal changes nothing. -/
lemma King.requestResources_outcome {k : King} {pid : ℕ} {proc : Process} (hp : k.registry.get pid = some proc)
    (amount : UInt64) :
    (∀ granted, (k.requestResources pid amount).1 = .ok granted → granted = amount ∧
      k.budget.allocate proc.ppid pid (tierFromCog proc.cognitiveTier) amount =
        .ok (k.requestResources pid amount).2.budget) ∧
    ∀ reason, (k.requestResources pid amount).1 = .error reason → (k.requestResources pid amount).2 = k := by
  unfold King.requestResources
  simp only [hp]
  cases ha : k.budget.allocate proc.ppid pid (tierFromCog proc.cognitiveTier) amount with
  | error e => simp
  | ok budget => simp [eq_comm]

namespace System
open BudgetManager
variable {s : System}

/-- In every reachable state: a granted request adds up exactly if the process had no tokens, used or
unused, at its tier; a denied one changes nothing. -/
theorem requestResources_addsUp_iff_of_run {cfg : Config} {now : ℤ} {runtime : Option RuntimeManager}
    {trace : List (Transition System KernelOp)} (run : Run step (boot cfg now runtime) trace s)
    {pid : ℕ} {proc : Process} (hp : s.king.registry.get pid = some proc) (amount : UInt64) :
    (∀ granted, (s.king.requestResources pid amount).1 = .ok granted → granted = amount ∧
      (AddsUp s.king.budget (s.king.requestResources pid amount).2.budget proc.ppid pid
        (tierFromCog proc.cognitiveTier) amount ↔
        s.king.budget.Unfunded pid (tierFromCog proc.cognitiveTier))) ∧
    ∀ reason, (s.king.requestResources pid amount).1 = .error reason →
      (s.king.requestResources pid amount).2 = s.king := by
  have hordered : s.king.registry.Ordered :=
    (run.invariant (fun _ _ _ h hs => ordered_step h hs) (ordered_boot cfg now runtime)).2
  have hne : proc.ppid ≠ pid := (hordered.ppid_lt hp).ne
  obtain ⟨hgranted,hdenied⟩ := King.requestResources_outcome hp amount
  refine ⟨fun granted hg => ?_,hdenied⟩
  obtain ⟨heq,halloc⟩ := hgranted granted hg
  exact ⟨heq,addsUp_allocate_iff hne halloc⟩

/-- An agent with 50 tokens that has used 10 of them. -/
def fundedAgent : List KernelOp :=
  [.spawnChild 0 (.ok "") (fundedRequest 1 "agent" 50),.reportMetric 0 2 10]

theorem requestResources_addsUp_iff_of_run_agent : ∃ trace s proc,
    Run step (boot King.exampleConfig 0 none) trace s ∧ s.king.registry.get 2 = some proc ∧
    (s.king.requestResources 2 30).1 = .ok 30 ∧
    (AddsUp s.king.budget (s.king.requestResources 2 30).2.budget proc.ppid 2
      (tierFromCog proc.cognitiveTier) 30 ↔ s.king.budget.Unfunded 2 (tierFromCog proc.cognitiveTier)) ∧
    (s.king.requestResources 2 60).2 = s.king := by
  obtain ⟨s,proc,reason,hs,hp,hg,hd⟩ : ∃ s proc reason,
      exec step fundedAgent (boot King.exampleConfig 0 none) = some s ∧ s.king.registry.get 2 = some proc ∧
      (s.king.requestResources 2 30).1 = .ok 30 ∧ (s.king.requestResources 2 60).1 = .error reason :=
    ⟨_,_,_,rfl,rfl,rfl,rfl⟩
  have hrun := Run.of_exec hs
  exact ⟨_,s,proc,hrun,hp,hg,((requestResources_addsUp_iff_of_run hrun hp 30).1 30 hg).2,
    (requestResources_addsUp_iff_of_run hrun hp 60).2 reason hd⟩

/-- The agent asks for 30 more: it had 40 left and has 30 afterwards, and its use is forgotten. -/
theorem requestResources_not_addsUp : ¬∀ (cfg : Config) (now : ℤ) (runtime : Option RuntimeManager)
    (trace : List (Transition System KernelOp)) (s : System) (pid : ℕ) (proc : Process)
    (amount granted : UInt64), Run step (boot cfg now runtime) trace s →
    s.king.registry.get pid = some proc → (s.king.requestResources pid amount).1 = .ok granted →
    AddsUp s.king.budget (s.king.requestResources pid amount).2.budget proc.ppid pid
      (tierFromCog proc.cognitiveTier) amount := by
  intro h
  obtain ⟨s,proc,hs,hp,hg,hbefore,hafter⟩ : ∃ s proc,
      exec step fundedAgent (boot King.exampleConfig 0 none) = some s ∧ s.king.registry.get 2 = some proc ∧
      (s.king.requestResources 2 30).1 = .ok 30 ∧
      s.king.budget.figure BudgetEntry.consumed 2 (tierFromCog proc.cognitiveTier) = 10 ∧
      (s.king.requestResources 2 30).2.budget.figure BudgetEntry.consumed 2
        (tierFromCog proc.cognitiveTier) = 0 := ⟨_,_,rfl,rfl,rfl,rfl,rfl⟩
  have hadds := h _ _ _ _ s 2 proc 30 30 (Run.of_exec hs) hp hg
  have hconsumed := hadds.consumed
  rw [hbefore,hafter] at hconsumed
  exact absurd hconsumed (by decide)

end System
end HiveKernel
