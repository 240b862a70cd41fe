import HiveKernel.Kernel.KernelBudget

/-! Where the tokens come from. A spawn with a token limit takes it from the parent's budget; where
the parent has no entry at the tier of the child, the kernel sets the child's entry directly. What
can be handed on at a tier is bounded by the tokens of PID 1 and these direct grants. -/
namespace HiveKernel
open Lib
namespace BudgetManager
variable {m m' : BudgetManager} {tier : ModelTier} {tokens : UInt64}

/-- What an entry of the tier has not handed on. -/
def kept (tier : ModelTier) (key : ℕ × ModelTier) (e : BudgetEntry) : ℤ :=
  if key.2 = tier then (e.allocated.toNat : ℤ)-e.reserved.toNat else 0

/-- The sum of allocations less reservations at a tier. -/
def unreserved (m : BudgetManager) (tier : ModelTier) : ℤ := m.budgets.sum (kept tier)

lemma kept_fresh (t : ModelTier) (pid : ℕ) :
    kept tier (pid,t) { pid := pid, tier := t, allocated := tokens } = if t = tier then (tokens.toNat : ℤ) else 0 := by
  simp [kept]

lemma kept_nonneg (tier : ModelTier) (key : ℕ × ModelTier) {e : BudgetEntry} (h : e.Solvent) : 0 ≤ kept tier key e := by
  unfold BudgetEntry.Solvent at h
  unfold kept
  split_ifs <;> omega

lemma unreserved_set (tier : ModelTier) {key : ℕ × ModelTier} {e : BudgetEntry} (e' : BudgetEntry)
    (he : m.budgets.get key = some e) :
    unreserved ⟨m.budgets.set key e'⟩ tier+kept tier key e = unreserved m tier+kept tier key e' :=
  Table.sum_set_of_some m.budgets he e' _

lemma unreserved_setBudget {pid : ℕ} {t : ModelTier} (hfresh : m.getBudget pid t = none) :
    (m.setBudget pid t tokens).unreserved tier =
      (if t = tier then (tokens.toNat : ℤ) else 0)+m.unreserved tier := by
  rw [setBudget_of_none hfresh,unreserved,Table.sum_set_of_none _ hfresh,kept_fresh]
  rfl

lemma unreserved_consume (tier : ModelTier) {pid : ℕ} {t : ModelTier} (h : m.consume pid t tokens = .ok m') :
    m'.unreserved tier = m.unreserved tier := by
  obtain ⟨entry,he,-,rfl⟩ := consume_ok h
  have hset := unreserved_set tier { entry with consumed := entry.consumed+tokens } he
  simpa [kept] using hset

/-- An allocation moves tokens; what it overwrites is lost. -/
lemma unreserved_allocate_le (tier : ModelTier) (hs : m.Solvent) {parentPID childPID : ℕ} {t : ModelTier}
    (ha : m.allocate parentPID childPID t tokens = .ok m') : m'.unreserved tier ≤ m.unreserved tier := by
  obtain ⟨parent,hp,ht,rfl⟩ := allocate_ok ha
  obtain ⟨hadd,hsolv⟩ := (hs _ parent hp).reserve ht
  have hset := unreserved_set tier { parent with reserved := parent.reserved+tokens } hp
  have hs' := hs.set (parentPID,t) hsolv
  generalize m.budgets.set (parentPID,t) { parent with reserved := parent.reserved+tokens } = budgets
    at hset hs' ⊢
  have hparent : kept tier (parentPID,t) { parent with reserved := parent.reserved+tokens } =
      kept tier (parentPID,t) parent-(if t = tier then (tokens.toNat : ℤ) else 0) := by
    simp only [kept,hadd]
    split_ifs <;> omega
  rw [hparent] at hset
  cases hc : budgets.get (childPID,t) with
  | none =>
    have hnew : unreserved ⟨budgets.set (childPID,t)
        { pid := childPID, tier := t, allocated := tokens }⟩ tier =
        (if t = tier then (tokens.toNat : ℤ) else 0)+unreserved ⟨budgets⟩ tier := by
      rw [unreserved,Table.sum_set_of_none _ hc,kept_fresh]
      rfl
    omega
  | some old =>
    have hnew := unreserved_set (m := ⟨budgets⟩) tier
      { pid := childPID, tier := t, allocated := tokens } hc
    rw [kept_fresh] at hnew
    dsimp only at hnew
    have hold := kept_nonneg tier (childPID,t) (hs' _ old hc)
    omega

end BudgetManager

namespace King

/-- What PID 1 is given at a tier. -/
def initialTokens (cfg : Config) : ModelTier → UInt64
  | .opus => cfg.defaultLimits.maxTokensTotal
  | .sonnet => cfg.defaultLimits.maxTokensTotal*10
  | .mini => cfg.defaultLimits.maxTokensTotal*100

lemma unreserved_new (cfg : Config) (now : ℤ) (runtime : Option RuntimeManager) (tier : ModelTier) :
    (King.new cfg now runtime).budget.unreserved tier = (initialTokens cfg tier).toNat := by
  change (((BudgetManager.new.setBudget 1 .opus _).setBudget 1 .sonnet _).setBudget 1 .mini _).unreserved
    tier = _
  rw [BudgetManager.unreserved_setBudget rfl,BudgetManager.unreserved_setBudget rfl,
    BudgetManager.unreserved_setBudget rfl]
  cases tier <;> simp [initialTokens,BudgetManager.unreserved,BudgetManager.new]

/-- The child's tokens are reserved at the parent; or, if that has no entry at the tier, they are
set directly. No other entry changes. -/
structure Grant (k : King) (req : SpawnRequest) (child : ℕ) (k' : King) : Prop where
  entry : k'.budget.getBudget child (tierFromCog req.cognitiveTier) =
    some { pid := child, tier := tierFromCog req.cognitiveTier, allocated := req.limits.maxTokensTotal }
  reserved : ∀ parent, k.budget.getBudget req.parentPID (tierFromCog req.cognitiveTier) = some parent →
    ∃ parent', k'.budget.getBudget req.parentPID (tierFromCog req.cognitiveTier) = some parent' ∧
      parent'.reserved.toNat = parent.reserved.toNat+req.limits.maxTokensTotal.toNat ∧
      parent'.allocated = parent.allocated ∧ parent'.consumed = parent.consumed
  others : ∀ pid tier, (pid,tier) ≠ (child,tierFromCog req.cognitiveTier) →
    (pid,tier) ≠ (req.parentPID,tierFromCog req.cognitiveTier) →
    k'.budget.getBudget pid tier = k.budget.getBudget pid tier
  direct : k.budget.getBudget req.parentPID (tierFromCog req.cognitiveTier) = none →
    k'.budget.getBudget req.parentPID (tierFromCog req.cognitiveTier) = none

end King

namespace System

/-- Spawns, requests for resources and reports of consumption. -/
def IsGrantOp : KernelOp → Prop
  | .spawnChild .. | .requestResources .. | .reportMetric .. => True
  | _ => False

/-- The tokens that a request sets directly, because its parent has no entry at the tier. -/
def directGrant (s : System) (tier : ModelTier) : KernelOp → ℕ
  | .spawnChild now _ req =>
    if s.king.Accepts now req ∧ tierFromCog req.cognitiveTier = tier ∧
        (s.king.budget.getBudget req.parentPID tier).isNone
    then req.limits.maxTokensTotal.toNat else 0
  | _ => 0

/-- All direct grants of a run. -/
def directGrants (tier : ModelTier) (trace : List (Transition System KernelOp)) : ℕ :=
  (trace.map (fun e => e.source.directGrant tier e.label)).sum

variable {s s' : System} {op : KernelOp} {tier : ModelTier}

lemma unreserved_step_le (tier : ModelTier) (h : s.Sound) (hop : IsGrantOp op) (hs : s.step op = some s') :
    s'.king.budget.unreserved tier ≤ s.king.budget.unreserved tier+s.directGrant tier op := by
  cases op with
  | spawnChild now launch req =>
    cases hs
    rcases King.spawnChild_budget s.king now launch req with ⟨hb,-⟩ | ⟨hf,-,hacc⟩
    · simp only [hb]
      omega
    rcases King.fund_cases hf with ⟨-,hb⟩ | ⟨-,⟨parent,hp,ha⟩ | ⟨hp,hb⟩⟩
    · simp only [hb]
      omega
    · have hle := BudgetManager.unreserved_allocate_le tier h.solvent ha
      dsimp only
      omega
    · simp only [hb]
      rw [BudgetManager.unreserved_setBudget (h.fresh _)]
      by_cases ht : tierFromCog req.cognitiveTier = tier
      · subst ht
        simp only [directGrant,hacc,hp,if_true,Option.isNone_none,and_self]
        omega
      · rw [if_neg ht]
        omega
  | requestResources pid amount =>
    cases hs
    rcases King.requestResources_cases s.king pid amount with he | ⟨proc,budget,hp,ha,he⟩
    · simp only [he]
      omega
    · simp only [he]
      have hle := BudgetManager.unreserved_allocate_le tier h.solvent ha
      omega
  | reportMetric now pid tokens =>
    cases hs
    rcases King.reportMetric_cases s.king now pid tokens with hb | ⟨t,hc⟩
    · simp only [hb]
      omega
    · have heq := BudgetManager.unreserved_consume tier hc
      dsimp only
      omega
  | _ => exact hop.elim

lemma unreserved_le_of_run (tier : ModelTier) {trace : List (Transition System KernelOp)} (run : Run step s trace s')
    (h : s.Sound) (hops : ∀ e ∈ trace, IsGrantOp e.label) :
    s'.king.budget.unreserved tier ≤ s.king.budget.unreserved tier+directGrants tier trace := by
  induction run with
  | nil => simp [directGrants]
  | @cons s t u op trace first _ ih =>
    have hop : IsGrantOp op := hops _ List.mem_cons_self
    have hfirst := unreserved_step_le tier h hop first
    have hrest := ih (h.step first) (fun e he => hops e (by simp [he]))
    simp only [directGrants,List.map_cons,List.sum_cons,Nat.cast_add] at hrest ⊢
    omega

lemma grant_of_spawnChild (h : s.Sound) {now : ℤ} {launch : Except String String} {req : SpawnRequest}
    {child : Process} (hok : (s.king.spawnChild now launch req).1 = .ok child)
    (hpos : 0 < req.limits.maxTokensTotal) :
    s.king.Grant req child.pid (s.king.spawnChild now launch req).2 := by
  rcases King.spawnChild_effect s.king now launch req with ⟨-,e,he⟩ | ⟨parent,heff⟩
  · simp [he] at hok
  obtain ⟨hpid,hf⟩ : child.pid = s.king.registry.nextPID ∧
      King.fund s.king.budget req s.king.registry.nextPID =
        .ok (s.king.spawnChild now launch req).2.budget := by
    rcases heff.outcome with ⟨⟨e,he⟩,-⟩ | ⟨⟨e,he⟩,-⟩ | ⟨addr,he,-,hf,-⟩
    · cases hok.symm.trans he
    · cases hok.symm.trans he
    · cases hok.symm.trans he
      exact ⟨rfl,hf⟩
  rw [hpid]
  have hne : req.parentPID ≠ s.king.registry.nextPID := (Registry.get_bound heff.admitted.found).2.ne
  generalize (s.king.spawnChild now launch req).2 = k' at hf ⊢
  rcases King.fund_cases hf with ⟨hzero,-⟩ | ⟨-,⟨entry,hp,ha⟩ | ⟨hp,hb⟩⟩
  · simp [hzero] at hpos
  · obtain ⟨entry',hp',ht,hb⟩ := BudgetManager.allocate_ok ha
    obtain rfl : entry = entry' := Option.some.inj (hp.symm.trans hp')
    refine ⟨?_,fun parent hparent => ⟨{ entry with reserved := entry.reserved+req.limits.maxTokensTotal },?_,?_⟩,
      fun pid tier h1 h2 => ?_,fun hnone => ?_⟩
    · rw [hb,BudgetManager.getBudget,Table.get_set,if_pos rfl]
    · rw [hb,BudgetManager.getBudget,Table.get_set_of_ne (fun he => hne (Prod.mk.inj he).1),
        Table.get_set,if_pos rfl]
    · obtain rfl : entry = parent := Option.some.inj (hp.symm.trans hparent)
      exact ⟨((h.solvent _ entry hp).reserve ht).1,rfl,rfl⟩
    · rw [hb,BudgetManager.getBudget,Table.get_set_of_ne h1,Table.get_set_of_ne h2]
      rfl
    · simp [hp] at hnone
  · rw [BudgetManager.setBudget_of_none (h.fresh _)] at hb
    refine ⟨?_,fun parent hparent => ?_,fun pid tier h1 _ => ?_,fun _ => ?_⟩
    · rw [hb,BudgetManager.getBudget,Table.get_set,if_pos rfl]
    · simp [hp] at hparent
    · rw [hb,BudgetManager.getBudget,Table.get_set_of_ne h1]
      rfl
    · rw [hb,BudgetManager.getBudget,Table.get_set_of_ne (fun he => hne (Prod.mk.inj he).1)]
      exact hp

/-- In every run of spawns, requests and reports, a spawn with a token limit takes it from its
parent's entry, or sets it directly if there is none; and at every tier the allocations less the
reservations are at most what PID 1 was given and the direct grants of the run. -/
theorem granted_of_run {cfg : Config} {now : ℤ} {runtime : Option RuntimeManager}
    {trace : List (Transition System KernelOp)} (run : Run step (boot cfg now runtime) trace s)
    (hops : ∀ e ∈ trace, IsGrantOp e.label) :
    (∀ e ∈ trace, ∀ now launch req child, e.label = .spawnChild now launch req →
      (e.source.king.spawnChild now launch req).1 = .ok child → 0 < req.limits.maxTokensTotal →
      e.source.king.Grant req child.pid e.target.king) ∧
    ∀ tier, s.king.budget.unreserved tier ≤
      (King.initialTokens cfg tier).toNat+(directGrants tier trace : ℤ) := by
  have h0 := sound_boot cfg now runtime
  have hinv := (run.invariant (fun s op s' (h : s.Sound) hs => h.step hs) h0).1
  refine ⟨fun e he now launch req child hlabel hok hpos => ?_,fun tier => ?_⟩
  · obtain ⟨hsound,hstep⟩ := hinv e he
    rw [hlabel] at hstep
    rw [← Option.some.inj hstep]
    exact grant_of_spawnChild hsound hok hpos
  · have hle := unreserved_le_of_run tier run h0 hops
    rwa [show (boot cfg now runtime).king.budget.unreserved tier = _ from
      King.unreserved_new cfg now runtime tier] at hle

/-- A spawn and a request for more, both out of the budget of PID 1. -/
theorem granted_of_run_agent : ∃ trace s,
    Run step (boot King.exampleConfig 0 none) trace s ∧
    s.king.budget.getBudget 1 .sonnet = some ⟨1,.sonnet,100,0,80⟩ ∧
    s.king.budget.unreserved .sonnet ≤ 100 := by
  let ops : List KernelOp := [.spawnChild 0 (.ok "") (fundedRequest 1 "agent" 50),
    .reportMetric 0 2 10,.requestResources 2 30]
  obtain ⟨s,hs,hb,hd⟩ : ∃ s, exec step ops (boot King.exampleConfig 0 none) = some s ∧
      s.king.budget.getBudget 1 .sonnet = some ⟨1,.sonnet,100,0,80⟩ ∧
      directGrants .sonnet (transitions step ops (boot King.exampleConfig 0 none)) = 0 := ⟨_,rfl,rfl,rfl⟩
  have hrun := Run.of_exec hs
  have hlabels : ∀ op ∈ ops, IsGrantOp op := by simp [ops,IsGrantOp]
  have hle := (granted_of_run hrun (fun e he => hlabels _ (label_mem_of_mem_transitions he))).2 .sonnet
  rw [hd] at hle
  exact ⟨_,s,hrun,hb,hle⟩

/-- An agent without a budget spawns a child with 500 tokens, five times what PID 1 was given. -/
theorem spawnChild_grants_directly :
    ¬ (∀ (cfg : Config) (now : ℤ) (runtime : Option RuntimeManager)
      (trace : List (Transition System KernelOp)) (s : System),
      Run step (boot cfg now runtime) trace s → (∀ e ∈ trace, IsGrantOp e.label) →
      ∀ e ∈ trace, ∀ now launch req child, e.label = .spawnChild now launch req →
        (e.source.king.spawnChild now launch req).1 = .ok child → 0 < req.limits.maxTokensTotal →
        ∃ parent parent',
          e.source.king.budget.getBudget req.parentPID (tierFromCog req.cognitiveTier) = some parent ∧
          e.target.king.budget.getBudget req.parentPID (tierFromCog req.cognitiveTier) = some parent' ∧
          parent'.reserved.toNat = parent.reserved.toNat+req.limits.maxTokensTotal.toNat) ∧
    ¬ (∀ (cfg : Config) (now : ℤ) (runtime : Option RuntimeManager)
      (trace : List (Transition System KernelOp)) (s : System),
      Run step (boot cfg now runtime) trace s → (∀ e ∈ trace, IsGrantOp e.label) →
      ∀ tier, s.king.budget.unreserved tier ≤ (King.initialTokens cfg tier).toNat) := by
  obtain ⟨t,u,child,ht,hu,hchild,hnone,hsum⟩ : ∃ t u child,
      step (boot King.exampleConfig 0 none) (.spawnChild 0 (.ok "") (fundedRequest 1 "agent" 0)) = some t ∧
      step t (.spawnChild 0 (.ok "") (fundedRequest 2 "helper" 500)) = some u ∧
      (t.king.spawnChild 0 (.ok "") (fundedRequest 2 "helper" 500)).1 = .ok child ∧
      t.king.budget.getBudget 2 .sonnet = none ∧ u.king.budget.unreserved .sonnet = 600 :=
    ⟨_,_,_,rfl,rfl,rfl,rfl,by decide⟩
  have hrun := Run.cons ht (.cons hu (.nil u))
  constructor
  · intro h
    obtain ⟨parent,-,hp,-⟩ := h _ _ _ _ u hrun (by simp [IsGrantOp]) _ (List.mem_cons_of_mem _
      List.mem_cons_self) 0 (.ok "") (fundedRequest 2 "helper" 500) child rfl hchild (by decide)
    exact absurd (hnone.symm.trans hp) (by simp)
  · intro h
    have hle := h _ _ _ _ u hrun (by simp [IsGrantOp]) .sonnet
    rw [hsum] at hle
    exact absurd hle (by decide)

end System
end HiveKernel
