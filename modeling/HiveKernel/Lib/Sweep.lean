import HiveKernel.Lib.Run
import Mathlib.Logic.Function.Basic

/-! Reading a changing state piece by piece. A sweep reads one index after the other while the steps go on, so each
index has a moment of its own. -/
namespace HiveKernel.Lib
variable {σ ι : Type} {step : σ → ι → Option σ} {s t u : σ}

/-- Steps lead from `s` to `t`. -/
def Leads (step : σ → ι → Option σ) (s t : σ) : Prop := ∃ trace, Run step s trace t

theorem Leads.refl (s : σ) : Leads step s s := ⟨[],.nil s⟩

theorem Leads.snoc {l : ι} (h : Leads step s t) (last : step t l = some u) : Leads step s u := by
  obtain ⟨trace,run⟩ := h
  exact ⟨_,run.snoc last⟩

theorem Leads.invariant {inv : σ → Prop} (h : Leads step s t)
    (hstep : ∀ s l t, inv s → step s l = some t → inv t) (hs : inv s) : inv t := by
  obtain ⟨trace,run⟩ := h
  exact (run.invariant hstep hs).2

/-- Where something has ended there is a step that ended it. -/
theorem Leads.exists_end {P : σ → Prop} (h : Leads step s t) (hs : P s) (ht : ¬P t) :
    ∃ a l b, Leads step s a ∧ step a l = some b ∧ Leads step b t ∧ P a ∧ ¬P b := by
  obtain ⟨trace,run⟩ := h
  induction run with
  | nil => exact absurd hs ht
  | @cons s m t l trace first rest ih =>
    by_cases hm : P m
    · obtain ⟨a,l',b,ha,hab,hb,hPa,hPb⟩ := ih hm ht
      obtain ⟨before,run⟩ := ha
      exact ⟨a,l',b,⟨_,.cons first run⟩,hab,hb,hPa,hPb⟩
    · exact ⟨s,l,m,.refl s,first,⟨trace,rest⟩,hs,hm⟩

/-- The indices from `lo` to below `hi` have been read, one after the other, the last of them before `s`. -/
structure Sweep (step : σ → ι → Option σ) (moment : ℕ → σ) (lo hi : ℕ) (s : σ) : Prop where
  now : ∀ i, lo ≤ i → i < hi → Leads step (moment i) s
  later : ∀ i j, lo ≤ i → i ≤ j → j < hi → Leads step (moment i) (moment j)

namespace Sweep
variable {moment : ℕ → σ} {lo hi : ℕ}

theorem empty (moment : ℕ → σ) (lo : ℕ) (s : σ) : Sweep step moment lo lo s :=
  ⟨(fun _ hlo hhi => absurd hhi (Nat.not_lt.mpr hlo)),
    (fun _ _ hlo hij hhi => absurd hhi (Nat.not_lt.mpr (Nat.le_trans hlo hij)))⟩

theorem snoc {l : ι} (h : Sweep step moment lo hi s) (hs : step s l = some t) : Sweep step moment lo hi t :=
  ⟨(fun i hlo hhi => (h.now i hlo hhi).snoc hs),h.later⟩

theorem read (h : Sweep step moment lo hi s) : Sweep step (Function.update moment hi s) lo (hi+1) s := by
  have hold : ∀ i, i < hi → Function.update moment hi s i = moment i := by
    intro i hi'
    exact Function.update_of_ne (Nat.ne_of_lt hi') s moment
  have hnow : ∀ i, lo ≤ i → i < hi+1 → Leads step (Function.update moment hi s i) s := by
    intro i hlo hlt
    rcases Nat.lt_succ_iff_lt_or_eq.mp hlt with hlt | rfl
    · rw [hold i hlt]
      exact h.now i hlo hlt
    · rw [Function.update_self]
      exact .refl s
  refine ⟨hnow,fun i j hlo hij hj => ?_⟩
  rcases Nat.lt_succ_iff_lt_or_eq.mp hj with hj | rfl
  · rw [hold i (Nat.lt_of_le_of_lt hij hj),hold j hj]
    exact h.later i j hlo hij hj
  · rw [Function.update_self]
    exact hnow i hlo (Nat.lt_succ_of_le hij)

end Sweep
end HiveKernel.Lib
