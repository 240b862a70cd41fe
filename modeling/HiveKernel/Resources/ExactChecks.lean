import HiveKernel.Resources.Solvency

/-! The checks of the budget manager near `2^64`. Both sides of the comparison in `consume` can
wrap, and so can the sum in `remaining`: `SetBudget` may put an allocation below what is reserved. -/
namespace HiveKernel
open Lib
namespace BudgetEntry

/-- How often the two sides of the comparison in `consume` wrap. -/
def wraps (e : BudgetEntry) (tokens : UInt64) : ℕ :=
  (if 2^64 ≤ e.consumed.toNat+tokens.toNat then 1 else 0)+
    (if e.allocated.toNat < e.reserved.toNat then 1 else 0)

/-- No side wraps, or the demand exceeds the allocation by more than what wrapped. -/
def ConsumeExact (e : BudgetEntry) (tokens : UInt64) : Prop :=
  e.wraps tokens = 0 ∨
    e.wraps tokens*2^64+e.allocated.toNat < e.consumed.toNat+e.reserved.toNat+tokens.toNat

/-- The sum in `remaining` does not wrap, or covers the allocation even then. -/
def RemainingExact (e : BudgetEntry) : Prop :=
  e.consumed.toNat+e.reserved.toNat < 2^64 ∨
    2^64+e.allocated.toNat ≤ e.consumed.toNat+e.reserved.toNat

instance (e : BudgetEntry) (tokens : UInt64) : Decidable (e.ConsumeExact tokens) :=
  inferInstanceAs (Decidable (_ ∨ _))

instance (e : BudgetEntry) : Decidable e.RemainingExact := inferInstanceAs (Decidable (_ ∨ _))

variable (e : BudgetEntry) (tokens : UInt64)

lemma toNat_request : (e.consumed+tokens).toNat =
    e.consumed.toNat+tokens.toNat-(if 2^64 ≤ e.consumed.toNat+tokens.toNat then 2^64 else 0) := by
  have hc := e.consumed.toNat_lt
  have ht := tokens.toNat_lt
  rw [UInt64.toNat_add]
  split_ifs with h <;> omega

lemma toNat_available : (e.allocated-e.reserved).toNat =
    (if e.allocated.toNat < e.reserved.toNat then 2^64 else 0)+e.allocated.toNat-e.reserved.toNat := by
  have ha := e.allocated.toNat_lt
  have hr := e.reserved.toNat_lt
  rw [UInt64.toNat_sub]
  split_ifs with h <;> omega

/-- The comparison of `consume` against the comparison over the natural numbers. -/
lemma consumeExact_iff :
    (e.consumed+tokens ≤ e.allocated-e.reserved ↔
      e.consumed.toNat+e.reserved.toNat+tokens.toNat ≤ e.allocated.toNat) ↔ e.ConsumeExact tokens := by
  have ha := e.allocated.toNat_lt
  have hr := e.reserved.toNat_lt
  have hc := e.consumed.toNat_lt
  have ht := tokens.toNat_lt
  rw [UInt64.le_iff_toNat_le,toNat_request,toNat_available]
  unfold ConsumeExact wraps
  by_cases hsum : 2^64 ≤ e.consumed.toNat+tokens.toNat
  · by_cases hsub : e.allocated.toNat < e.reserved.toNat
    · rw [if_pos hsum,if_pos hsub,if_pos hsum,if_pos hsub]
      omega
    · rw [if_pos hsum,if_neg hsub,if_pos hsum,if_neg hsub]
      omega
  · by_cases hsub : e.allocated.toNat < e.reserved.toNat
    · rw [if_neg hsum,if_pos hsub,if_neg hsum,if_pos hsub]
      omega
    · rw [if_neg hsum,if_neg hsub,if_neg hsum,if_neg hsub]
      omega

lemma remainingExact_iff :
    e.remaining.toNat = e.allocated.toNat-(e.consumed.toNat+e.reserved.toNat) ↔ e.RemainingExact := by
  have ha := e.allocated.toNat_lt
  have hc := e.consumed.toNat_lt
  have hr := e.reserved.toNat_lt
  have hused : (e.consumed+e.reserved).toNat = (e.consumed.toNat+e.reserved.toNat)%2^64 :=
    UInt64.toNat_add _ _
  unfold remaining RemainingExact
  simp only [UInt64.le_iff_toNat_le]
  by_cases hle : e.allocated.toNat ≤ (e.consumed+e.reserved).toNat
  · rw [if_pos hle,UInt64.toNat_zero]
    omega
  · rw [if_neg hle,UInt64.toNat_sub_of_le _ _ (UInt64.le_iff_toNat_le.mpr (by omega))]
    omega

variable {e}

lemma Solvent.remainingExact (h : e.Solvent) : e.RemainingExact := by
  have ha := e.allocated.toNat_lt
  unfold Solvent at h
  exact .inl (by omega)

/-- Under a solvent entry only the request can wrap. -/
lemma Solvent.consumeExact (h : e.Solvent) (ht : e.consumed.toNat+tokens.toNat < 2^64) :
    e.ConsumeExact tokens := by
  unfold Solvent at h
  refine .inl ?_
  rw [wraps,if_neg (by omega),if_neg (by omega)]

end BudgetEntry

namespace BudgetManager
variable {m m' : BudgetManager} {pid : ℕ} {tier : ModelTier} {e : BudgetEntry}

lemma consume_succeeds_iff (he : m.getBudget pid tier = some e) (tokens : UInt64) :
    (∃ m', m.consume pid tier tokens = .ok m') ↔ e.consumed+tokens ≤ e.allocated-e.reserved := by
  constructor
  · rintro ⟨m',hm⟩
    obtain ⟨entry,hentry,hle,-⟩ := consume_ok hm
    obtain rfl := Option.some.inj (hentry.symm.trans he)
    exact hle
  · intro hle
    rw [getBudget] at he
    refine ⟨⟨m.budgets.set (pid,tier) { e with consumed := e.consumed+tokens }⟩,?_⟩
    simp only [consume,he]
    rw [if_neg (UInt64.not_lt.mpr hle)]

/-- Operations in any order, `setBudget` on existing entries among them. -/
def anyBudgetStep (m : BudgetManager) : BudgetOp → Option BudgetManager
  | .setBudget pid tier tokens => some (m.setBudget pid tier tokens)
  | .allocate parentPID childPID tier tokens =>
    some (m.orSame (m.allocate parentPID childPID tier tokens))
  | .consume pid tier tokens => some (m.orSame (m.consume pid tier tokens))
  | .release registry pid tier => some (m.release registry pid tier).2
  | .releaseAll registry pid => some (m.releaseAll registry pid)

/-- The operation sets no allocation below what its entry has consumed and reserved. -/
def Covers (m : BudgetManager) : BudgetOp → Prop
  | .setBudget pid tier tokens =>
    ∀ e ∈ m.getBudget pid tier, e.consumed.toNat+e.reserved.toNat ≤ tokens.toNat
  | _ => True

lemma Solvent.setBudget_of_covers (h : m.Solvent) {tokens : UInt64}
    (hc : m.Covers (.setBudget pid tier tokens)) : (m.setBudget pid tier tokens).Solvent := by
  cases he : m.getBudget pid tier with
  | none => exact h.setBudget tokens he
  | some e =>
    have hle := hc e he
    rw [getBudget] at he
    simp only [BudgetManager.setBudget,he]
    exact h.set _ hle

lemma Solvent.anyBudgetStep {op : BudgetOp} (h : m.Solvent) (hc : m.Covers op)
    (hs : m.anyBudgetStep op = some m') : m'.Solvent := by
  cases op with
  | setBudget pid tier tokens =>
    cases hs
    exact h.setBudget_of_covers hc
  | allocate parentPID childPID tier tokens =>
    have hstep : m.budgetStep (.allocate parentPID childPID tier tokens) = some m' := hs
    exact h.budgetStep hstep
  | consume pid tier tokens =>
    have hstep : m.budgetStep (.consume pid tier tokens) = some m' := hs
    exact h.budgetStep hstep
  | release registry pid tier =>
    have hstep : m.budgetStep (.release registry pid tier) = some m' := hs
    exact h.budgetStep hstep
  | releaseAll registry pid =>
    have hstep : m.budgetStep (.releaseAll registry pid) = some m' := hs
    exact h.budgetStep hstep

/-- For every entry of every reachable state, when the two checks agree with the natural numbers. In
runs that lower no allocation below its use they do for all requests but those that wrap the counter. -/
theorem checks_exact_iff_of_run {trace : List (Transition BudgetManager BudgetOp)}
    (run : Run anyBudgetStep new trace m) (he : m.getBudget pid tier = some e) :
    (∀ tokens, ((∃ m', m.consume pid tier tokens = .ok m') ↔
        e.consumed.toNat+e.reserved.toNat+tokens.toNat ≤ e.allocated.toNat) ↔ e.ConsumeExact tokens) ∧
    (e.remaining.toNat = e.allocated.toNat-(e.consumed.toNat+e.reserved.toNat) ↔ e.RemainingExact) ∧
    ((∀ t ∈ trace, t.source.Covers t.label) →
      e.RemainingExact ∧ ∀ tokens, e.consumed.toNat+tokens.toNat < 2^64 → e.ConsumeExact tokens) := by
  refine ⟨fun tokens => ?_,e.remainingExact_iff,fun hcovers => ?_⟩
  · rw [consume_succeeds_iff he]
    exact e.consumeExact_iff tokens
  · have hm : m.Solvent :=
      (run.invariant_of_allowed (fun _ _ _ hs hc hstep => hs.anyBudgetStep hc hstep) solvent_new hcovers).2
    have hsolvent : e.Solvent := hm _ e he
    exact ⟨hsolvent.remainingExact,fun tokens ht => hsolvent.consumeExact tokens ht⟩

/-- A reservation, an allocation lowered below it, and two requests: the first is refused although
the available amount wraps, the second goes through and leaves `Consumed+Reserved` above `2^64`. -/
def loweredBelowReserved : List BudgetOp :=
  [.setBudget 1 .opus 18446744073709551615,.allocate 1 2 .opus 18446744073709551615,.setBudget 1 .opus 5,
    .consume 1 .opus 7,.consume 1 .opus 6,.setBudget 1 .opus 100]

theorem checks_exact_iff_of_run_lowered : ∃ trace m, Run anyBudgetStep new trace m ∧
    m.getBudget 1 .opus = some ⟨1,.opus,100,6,18446744073709551615⟩ ∧
    ((BudgetEntry.remaining ⟨1,.opus,100,6,18446744073709551615⟩).toNat = 100-(6+18446744073709551615) ↔
      BudgetEntry.RemainingExact ⟨1,.opus,100,6,18446744073709551615⟩) ∧
    ¬BudgetEntry.RemainingExact ⟨1,.opus,100,6,18446744073709551615⟩ := by
  obtain ⟨m,hm,he⟩ : ∃ m, exec anyBudgetStep loweredBelowReserved new = some m ∧
      m.getBudget 1 .opus = some ⟨1,.opus,100,6,18446744073709551615⟩ := ⟨_,rfl,rfl⟩
  have hrun := Run.of_exec hm
  exact ⟨_,m,hrun,he,(checks_exact_iff_of_run hrun he).2.1,by decide⟩

theorem checks_not_exact : ¬∀ (trace : List (Transition BudgetManager BudgetOp)) (m : BudgetManager)
    (pid : ℕ) (tier : ModelTier) (e : BudgetEntry) (tokens : UInt64), Run anyBudgetStep new trace m →
    m.getBudget pid tier = some e →
    ((∃ m', m.consume pid tier tokens = .ok m') ↔
      e.consumed.toNat+e.reserved.toNat+tokens.toNat ≤ e.allocated.toNat) ∧
    e.remaining.toNat = e.allocated.toNat-(e.consumed.toNat+e.reserved.toNat) := by
  intro h
  obtain ⟨m,hm,he,hc⟩ : ∃ m, exec anyBudgetStep [.setBudget 1 .opus 100,.consume 1 .opus 60] new = some m ∧
      m.getBudget 1 .opus = some ⟨1,.opus,100,60,0⟩ ∧
      ∃ m', m.consume 1 .opus 18446744073709551606 = .ok m' := ⟨_,rfl,rfl,_,rfl⟩
  have hle := (h _ m 1 .opus _ 18446744073709551606 (Run.of_exec hm) he).1.mp hc
  revert hle
  decide

end BudgetManager
end HiveKernel
