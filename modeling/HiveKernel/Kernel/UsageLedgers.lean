import HiveKernel.Kernel.KernelBudget

/-! The three ledgers that a report of consumed tokens goes to. The accountant and the counter of the
process take every report; the budget takes one only if all of it fits into what is left. -/
namespace HiveKernel
open Lib

/-- What is charged of a series of amounts: each that fits into what is left when it comes. -/
def charged : ℕ → List ℕ → ℕ
  | _,[] => 0
  | left,v::vs => if v ≤ left then v+charged (left-v) vs else charged left vs

/-- If everything fits, everything is charged. -/
lemma charged_eq_sum {left : ℕ} {vs : List ℕ} (h : vs.sum ≤ left) : charged left vs = vs.sum := by
  induction vs generalizing left with
  | nil => rfl
  | cons v vs ih =>
    rw [List.sum_cons] at h
    unfold charged
    rw [if_pos (by omega),ih (by omega),List.sum_cons]

namespace BudgetEntry
variable {e : BudgetEntry} {tokens : UInt64}

/-- The entry after a report. -/
def charge (e : BudgetEntry) (tokens : UInt64) : BudgetEntry :=
  if tokens.toNat ≤ e.remaining.toNat then { e with consumed := e.consumed+tokens } else e

lemma charge_allocated (e : BudgetEntry) (tokens : UInt64) : (e.charge tokens).allocated = e.allocated := by
  unfold charge
  split_ifs <;> rfl

lemma charge_reserved (e : BudgetEntry) (tokens : UInt64) : (e.charge tokens).reserved = e.reserved := by
  unfold charge
  split_ifs <;> rfl

/-- If the sum does not wrap, a report fits exactly if `consume` accepts it. -/
lemma Solvent.fits_iff (h : e.Solvent) (hw : e.consumed.toNat+tokens.toNat < 2^64) :
    ¬e.allocated-e.reserved < e.consumed+tokens ↔ tokens.toNat ≤ e.remaining.toNat := by
  have hadd : (e.consumed+tokens).toNat = e.consumed.toNat+tokens.toNat := by
    rw [UInt64.toNat_add]
    exact Nat.mod_eq_of_lt hw
  rw [UInt64.not_lt,UInt64.le_iff_toNat_le,h.available,h.remaining,hadd]
  unfold Solvent at h
  omega

lemma Solvent.charge (h : e.Solvent) (hw : e.consumed.toNat+tokens.toNat < 2^64) :
    (e.charge tokens).Solvent ∧ (e.charge tokens).consumed.toNat ≤ e.consumed.toNat+tokens.toNat ∧
      (e.charge tokens).remaining.toNat =
        if tokens.toNat ≤ e.remaining.toNat then e.remaining.toNat-tokens.toNat else e.remaining.toNat := by
  have hfits := h.fits_iff hw
  unfold BudgetEntry.charge
  split_ifs with hle
  · have hsolvent := h.consume (UInt64.not_lt.mp (hfits.mpr hle))
    have hadd : (e.consumed+tokens).toNat = e.consumed.toNat+tokens.toNat := by
      rw [UInt64.toNat_add]
      exact Nat.mod_eq_of_lt hw
    refine ⟨hsolvent,hadd.le,?_⟩
    rw [hsolvent.remaining,h.remaining]
    simp only [hadd]
    omega
  · exact ⟨h,Nat.le_add_right _ _,rfl⟩

end BudgetEntry

namespace King

/-- A report of consumed tokens. -/
structure Report where
  now : ℤ
  pid : ℕ
  tokens : UInt64

def reportAll (k : King) (reports : List Report) : King :=
  reports.foldl (fun k report => k.reportMetric report.now report.pid report.tokens) k

/-- The amounts that one process reports. -/
def amounts (pid : ℕ) (reports : List Report) : List ℕ :=
  (reports.filter (fun report => report.pid = pid)).map (fun report => report.tokens.toNat)

/-- What the three ledgers say about a process. -/
structure Ledgers (k : King) (pid : ℕ) (tier : ModelTier) (used usage : UInt64) (entry : BudgetEntry) :
    Prop where
  counter : ∃ proc, k.registry.get pid = some proc ∧ tierFromCog proc.cognitiveTier = tier ∧
    proc.tokensConsumed = used
  usage : (k.accountant.processUsage pid).totalTokens = usage
  budget : k.budget.getBudget pid tier = some entry

variable {k : King} {pid : ℕ} {tier : ModelTier} {used usage : UInt64} {entry : BudgetEntry}

/-- A report of the process itself. -/
lemma Ledgers.report (h : Ledgers k pid tier used usage entry) (hs : entry.Solvent) (now : ℤ)
    {tokens : UInt64} (hw : entry.consumed.toNat+tokens.toNat < 2^64) :
    Ledgers (k.reportMetric now pid tokens) pid tier (used+tokens) (usage+tokens) (entry.charge tokens) := by
  obtain ⟨proc,hp,rfl,rfl⟩ := h.counter
  have hentry := h.budget
  unfold BudgetManager.getBudget at hentry
  unfold reportMetric
  simp only [hp]
  constructor
  · refine ⟨{ proc with tokensConsumed := proc.tokensConsumed+tokens, updatedAt := now },?_,rfl,rfl⟩
    rw [Registry.get_update,if_pos rfl,hp]
    rfl
  · change ((k.accountant.record _ _ _ _ _).processUsage pid).totalTokens = _
    rw [Accountant.totalTokens_record,if_pos rfl,h.usage]
  · simp only [BudgetManager.consume,hentry,BudgetEntry.charge,← hs.fits_iff hw]
    split_ifs with hlt
    · exact h.budget
    · exact Table.get_set_self _ _ _

/-- A report of another process. -/
lemma Ledgers.report_other (h : Ledgers k pid tier used usage entry) (now : ℤ) {other : ℕ}
    (hne : pid ≠ other) (tokens : UInt64) :
    Ledgers (k.reportMetric now other tokens) pid tier used usage entry := by
  unfold reportMetric
  cases hother : k.registry.get other with
  | none => exact h
  | some q =>
    constructor
    · obtain ⟨proc,hp,htier,hused⟩ := h.counter
      refine ⟨proc,?_,htier,hused⟩
      rw [Registry.get_update,if_neg hne]
      exact hp
    · change ((k.accountant.record _ _ _ _ _).processUsage pid).totalTokens = _
      rw [Accountant.totalTokens_record,if_neg hne,h.usage]
      exact UInt64.add_zero _
    · simp only
      cases hc : k.budget.consume other (tierFromCog q.cognitiveTier) tokens with
      | error e => exact h.budget
      | ok budget =>
        obtain ⟨e,-,-,rfl⟩ := BudgetManager.consume_ok hc
        simp only [BudgetManager.getBudget,Table.get_set,Prod.mk.injEq,hne,false_and,if_false]
        exact h.budget

lemma ledgers_reportAll (reports : List Report) (h : Ledgers k pid tier used usage entry)
    (hs : entry.Solvent) (hw : entry.consumed.toNat+(amounts pid reports).sum < 2^64) :
    ∃ entry', Ledgers (k.reportAll reports) pid tier (used+UInt64.ofNat (amounts pid reports).sum)
        (usage+UInt64.ofNat (amounts pid reports).sum) entry' ∧
      entry'.allocated = entry.allocated ∧ entry'.reserved = entry.reserved ∧
      entry'.remaining.toNat = entry.remaining.toNat-charged entry.remaining.toNat (amounts pid reports) := by
  induction reports generalizing k used usage entry with
  | nil =>
    refine ⟨entry,?_,rfl,rfl,rfl⟩
    have hzero : ∀ n : UInt64, n+UInt64.ofNat (amounts pid []).sum = n := fun n => UInt64.add_zero n
    rw [hzero,hzero]
    exact h
  | cons report reports ih =>
    by_cases hpid : report.pid = pid
    · have hamounts : amounts pid (report::reports) = report.tokens.toNat::amounts pid reports := by
        simp [amounts,hpid]
      rw [hamounts,List.sum_cons] at hw ⊢
      have hfits : entry.consumed.toNat+report.tokens.toNat < 2^64 := by omega
      have hfirst := h.report hs report.now hfits
      obtain ⟨hsolvent,hconsumed,hleft⟩ := hs.charge hfits
      obtain ⟨entry',hrest,halloc,hres,hrem⟩ := ih hfirst hsolvent (by omega)
      have hsum : ∀ n : UInt64, n+report.tokens+UInt64.ofNat (amounts pid reports).sum =
          n+UInt64.ofNat (report.tokens.toNat+(amounts pid reports).sum) := by
        intro n
        rw [UInt64.ofNat_add,UInt64.ofNat_toNat,UInt64.add_assoc]
      refine ⟨entry',?_,?_,?_,?_⟩
      · rw [hsum,hsum] at hrest
        subst hpid
        exact hrest
      · rw [halloc,BudgetEntry.charge_allocated]
      · rw [hres,BudgetEntry.charge_reserved]
      · rw [hrem,hleft]
        simp only [charged]
        split_ifs <;> omega
    · have hamounts : amounts pid (report::reports) = amounts pid reports := by
        simp [amounts,hpid]
      rw [hamounts] at hw ⊢
      exact ih (h.report_other report.now (Ne.symm hpid) report.tokens) hs hw

end King

namespace System
variable {s : System}

/-- In every reachable state of the kernel and for every sequence of reports: the accountant and the
counter of a process grow by all that it reports. Its budget is charged with the reports that fit when
they come, which are all of them if the total fits. -/
theorem ledgers_of_run {cfg : Config} {now : ℤ} {runtime : Option RuntimeManager}
    {trace : List (Transition System KernelOp)} (run : Run step (boot cfg now runtime) trace s) {pid : ℕ}
    {proc : Process} {entry : BudgetEntry} (hp : s.king.registry.get pid = some proc)
    (he : s.king.budget.getBudget pid (tierFromCog proc.cognitiveTier) = some entry)
    (reports : List King.Report)
    (hw : entry.consumed.toNat+(King.amounts pid reports).sum < 2^64) :
    ∃ proc' entry', (s.king.reportAll reports).registry.get pid = some proc' ∧
      proc'.tokensConsumed = proc.tokensConsumed+UInt64.ofNat (King.amounts pid reports).sum ∧
      ((s.king.reportAll reports).accountant.processUsage pid).totalTokens =
        (s.king.accountant.processUsage pid).totalTokens+UInt64.ofNat (King.amounts pid reports).sum ∧
      (s.king.reportAll reports).budget.getBudget pid (tierFromCog proc.cognitiveTier) = some entry' ∧
      (s.king.reportAll reports).tokensRemaining pid = .ok entry'.remaining ∧
      entry'.remaining.toNat = entry.allocated.toNat-entry.reserved.toNat-entry.consumed.toNat-
        charged (entry.allocated.toNat-entry.reserved.toNat-entry.consumed.toNat) (King.amounts pid reports) ∧
      ((King.amounts pid reports).sum ≤ entry.allocated.toNat-entry.reserved.toNat-entry.consumed.toNat →
        entry'.remaining.toNat = entry.allocated.toNat-entry.reserved.toNat-entry.consumed.toNat-
          (King.amounts pid reports).sum) := by
  have hsound := (run.invariant (fun _ _ _ h hs => Sound.step h hs) (sound_boot cfg now runtime)).2
  have hsolvent := hsound.solvent _ entry he
  obtain ⟨entry',⟨⟨proc',hp',htier,hused⟩,husage,hbudget⟩,-,-,hrem⟩ :=
    King.ledgers_reportAll reports ⟨⟨proc,hp,rfl,rfl⟩,rfl,he⟩ hsolvent hw
  have hleft : entry.remaining.toNat = entry.allocated.toNat-entry.reserved.toNat-entry.consumed.toNat := by
    rw [hsolvent.remaining]
    omega
  rw [hleft] at hrem
  refine ⟨proc',entry',hp',hused,husage,hbudget,?_,hrem,fun hfits => ?_⟩
  · simp only [King.tokensRemaining,hp',htier,hbudget]
  · rw [hrem,charged_eq_sum hfits]

/-- The second report of the agent is more than what is left of fifty tokens. -/
def overshoot : List King.Report := [⟨0,2,30⟩,⟨0,2,25⟩,⟨0,1,7⟩,⟨0,2,15⟩]

theorem ledgers_of_run_overshoot : ∃ trace s, Run step (boot King.exampleConfig 0 none) trace s ∧
    ∃ proc entry, (s.king.reportAll overshoot).registry.get 2 = some proc ∧ proc.tokensConsumed = 70 ∧
      (s.king.reportAll overshoot).budget.getBudget 2 .sonnet = some entry ∧
      entry.remaining.toNat = 5 := by
  obtain ⟨s,proc,entry,hs,hp,he,hzero,htier,halloc,hres,hcons⟩ : ∃ s proc entry,
      exec step [.spawnChild 0 (.ok "") (fundedRequest 1 "leo" 50)] (boot King.exampleConfig 0 none) =
        some s ∧ s.king.registry.get 2 = some proc ∧ s.king.budget.getBudget 2 .sonnet = some entry ∧
      proc.tokensConsumed = 0 ∧ tierFromCog proc.cognitiveTier = .sonnet ∧ entry.allocated = 50 ∧
      entry.reserved = 0 ∧ entry.consumed = 0 := ⟨_,_,_,rfl,rfl,rfl,rfl,rfl,rfl,rfl,rfl⟩
  have hsum : (King.amounts 2 overshoot).sum = 70 := by decide
  obtain ⟨proc',entry',hp',hused,-,hbudget,-,hrem,-⟩ := ledgers_of_run (Run.of_exec hs) hp
    (by rw [htier]; exact he) overshoot (by rw [hsum,hcons]; decide)
  refine ⟨_,s,Run.of_exec hs,proc',entry',hp',?_,?_,?_⟩
  · rw [hused,hzero,hsum]
    rfl
  · rw [← htier]
    exact hbudget
  · rw [hrem,halloc,hres,hcons]
    decide

/-- An agent reports more than it has left, and has as much left as before. -/
theorem overshooting_report_is_not_charged :
    ¬ ∀ (cfg : Config) (now : ℤ) (runtime : Option RuntimeManager)
      (trace : List (Transition System KernelOp)) (s : System) (pid : ℕ) (proc : Process)
      (entry entry' : BudgetEntry) (reports : List King.Report), Run step (boot cfg now runtime) trace s →
      s.king.registry.get pid = some proc →
      s.king.budget.getBudget pid (tierFromCog proc.cognitiveTier) = some entry →
      (King.amounts pid reports).sum < 2^64 →
      (s.king.reportAll reports).budget.getBudget pid (tierFromCog proc.cognitiveTier) = some entry' →
      entry'.remaining.toNat = entry.allocated.toNat-entry.reserved.toNat-entry.consumed.toNat-
        (King.amounts pid reports).sum := by
  intro h
  obtain ⟨s,proc,entry,entry',hs,hp,he,he',hneq⟩ : ∃ s proc entry entry',
      exec step [.spawnChild 0 (.ok "") (fundedRequest 1 "leo" 50)] (boot King.exampleConfig 0 none) =
        some s ∧ s.king.registry.get 2 = some proc ∧
      s.king.budget.getBudget 2 (tierFromCog proc.cognitiveTier) = some entry ∧
      (s.king.reportAll [⟨0,2,51⟩]).budget.getBudget 2 (tierFromCog proc.cognitiveTier) = some entry' ∧
      entry'.remaining.toNat ≠ entry.allocated.toNat-entry.reserved.toNat-entry.consumed.toNat-51 :=
    ⟨_,_,_,_,rfl,rfl,rfl,rfl,by decide⟩
  exact hneq (h _ _ _ _ s 2 proc entry entry' [⟨0,2,51⟩] (Run.of_exec hs) hp he (by decide) he')

end System
end HiveKernel
