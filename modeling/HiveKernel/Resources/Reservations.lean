import HiveKernel.Resources.Solvency

/-! For whom an entry has reserved what it has reserved. The budget manager keeps the sum only, so the
state is extended by a list of the single reservations. An operation that forgets an entry, or undoes a
reservation at another process than the one that made it, shows in the list. -/
namespace HiveKernel
open Lib

structure Reservation where
  child : ℕ
  tier : ModelTier
  funder : ℕ
  amount : UInt64
  deriving DecidableEq

namespace BudgetManager
variable {m m' : BudgetManager} {rs : List Reservation} {pid : ℕ} {tier : ModelTier} {tokens : UInt64}

/-- The reservations at one entry, added up. -/
def reservedAt (rs : List Reservation) (k : ℕ) (tier : ModelTier) : ℕ :=
  (rs.map (fun r => if r.funder = k ∧ r.tier = tier then r.amount.toNat else 0)).sum

/-- An entry is overwritten or deleted, and what it had reserved is forgotten. -/
def closed (rs : List Reservation) (pid : ℕ) (tier : ModelTier) : List Reservation :=
  rs.filter (fun r => ¬(r.funder = pid ∧ r.tier = tier))

/-- The list after a successful `allocate`. -/
def reservationsAllocate (rs : List Reservation) (parentPID childPID : ℕ) (tier : ModelTier)
    (tokens : UInt64) : List Reservation := closed (⟨childPID,tier,parentPID,tokens⟩::rs) childPID tier

/-- The list after a `release`, which undoes one reservation of the current parent. -/
def reservationsRelease (m : BudgetManager) (registry : Registry) (rs : List Reservation) (childPID : ℕ)
    (tier : ModelTier) : List Reservation :=
  match m.getBudget childPID tier with
  | none => rs
  | some child => match m.parentEntry registry childPID tier with
    | none => closed rs childPID tier
    | some (ppid,_) => (closed rs childPID tier).erase ⟨childPID,tier,ppid,child.allocated⟩

/-- Whatever is reserved is reserved for somebody. -/
def Covered (rs : List Reservation) (m : BudgetManager) : Prop :=
  ∀ k tier e, m.getBudget k tier = some e → e.reserved.toNat ≤ reservedAt rs k tier

lemma reservedAt_closed (rs : List Reservation) {k : ℕ} {t : ModelTier} (hne : (k,t) ≠ (pid,tier)) :
    reservedAt (closed rs pid tier) k t = reservedAt rs k t := by
  unfold closed reservedAt
  induction rs with
  | nil => rfl
  | cons r rs ih =>
    by_cases hr : r.funder = pid ∧ r.tier = tier
    · have hk : ¬(r.funder = k ∧ r.tier = t) := by
        rintro ⟨rfl,rfl⟩
        exact hne (by rw [hr.1,hr.2])
      rw [List.filter_cons_of_neg (by simpa using hr),List.map_cons,List.sum_cons,if_neg hk,ih,Nat.zero_add]
    · rw [List.filter_cons_of_pos (by exact decide_eq_true hr),List.map_cons,List.sum_cons,List.map_cons,
        List.sum_cons,ih]

/-- Undoing a reservation takes its amount from the sum, if it was there. -/
lemma reservedAt_erase (rs : List Reservation) (r : Reservation) (k : ℕ) (t : ModelTier) :
    reservedAt rs k t ≤ reservedAt (rs.erase r) k t+
      (if r.funder = k ∧ r.tier = t then r.amount.toNat else 0) := by
  by_cases hr : r ∈ rs
  · have hperm := (List.perm_cons_erase hr).map
      (fun r => if r.funder = k ∧ r.tier = t then r.amount.toNat else 0)
    unfold reservedAt
    rw [hperm.sum_eq,List.map_cons,List.sum_cons]
    omega
  · rw [List.erase_of_not_mem hr]
    omega

lemma child_of_closed {r : Reservation} (h : r ∈ closed rs pid tier) : r ∈ rs := List.mem_of_mem_filter h

lemma Covered.setBudget (h : Covered rs m) (hfresh : m.getBudget pid tier = none) (tokens : UInt64) :
    Covered rs (m.setBudget pid tier tokens) := by
  intro k t e he
  rw [setBudget_of_none hfresh] at he
  rcases Table.get_set_some he with ⟨-,rfl⟩ | ⟨-,he⟩
  · exact Nat.zero_le _
  · exact h k t e he

lemma Covered.consume (h : Covered rs m) (hc : m.consume pid tier tokens = .ok m') : Covered rs m' := by
  obtain ⟨entry,hentry,-,rfl⟩ := consume_ok hc
  intro k t e he
  rcases Table.get_set_some he with ⟨hkey,rfl⟩ | ⟨-,he⟩
  · cases hkey
    exact h pid tier entry hentry
  · exact h k t e he

lemma Covered.allocate {parentPID childPID : ℕ} (h : Covered rs m)
    (ha : m.allocate parentPID childPID tier tokens = .ok m') :
    Covered (reservationsAllocate rs parentPID childPID tier tokens) m' := by
  obtain ⟨parent,hparent,-,rfl⟩ := allocate_ok ha
  intro k t e he
  rcases Table.get_set_some he with ⟨-,rfl⟩ | ⟨hne,he⟩
  · exact Nat.zero_le _
  have hsum : reservedAt (reservationsAllocate rs parentPID childPID tier tokens) k t =
      (if parentPID = k ∧ tier = t then tokens.toNat else 0)+reservedAt rs k t := by
    rw [reservationsAllocate,reservedAt_closed _ hne]
    rfl
  rw [hsum]
  rcases Table.get_set_some he with ⟨hkey,rfl⟩ | ⟨-,he⟩
  · cases hkey
    have hold := h parentPID tier parent hparent
    have hadd : (parent.reserved+tokens).toNat ≤ parent.reserved.toNat+tokens.toNat := by
      rw [UInt64.toNat_add]
      exact Nat.mod_le _ _
    rw [if_pos ⟨rfl,rfl⟩]
    simp only
    omega
  · exact (h k t e he).trans (Nat.le_add_left _ _)

lemma Covered.release (h : Covered rs m) (registry : Registry) (pid : ℕ) (tier : ModelTier) :
    Covered (m.reservationsRelease registry rs pid tier) (m.release registry pid tier).2 := by
  unfold reservationsRelease
  cases hc : m.getBudget pid tier with
  | none =>
    rw [release_of_none _ hc]
    exact h
  | some child =>
    rw [release_of_some hc]
    cases hp : m.parentEntry registry pid tier with
    | none =>
      intro k t e he
      obtain ⟨hne,he⟩ := Table.get_erase_some he
      simp only
      rw [reservedAt_closed _ hne]
      exact h k t e he
    | some q =>
      obtain ⟨ppid,parent⟩ := q
      obtain ⟨-,hne,hparent⟩ := parentEntry_eq_some hp
      intro k t e he
      simp only at he ⊢
      have hsum := reservedAt_erase (closed rs pid tier) ⟨pid,tier,ppid,child.allocated⟩ k t
      rcases Table.get_set_some he with ⟨hkey,rfl⟩ | ⟨hkey,he⟩
      · cases hkey
        rw [reservedAt_closed _ (fun hx => hne (Prod.mk.inj hx).1),if_pos ⟨rfl,rfl⟩] at hsum
        have hold := h ppid tier parent hparent
        rw [BudgetEntry.toNat_reserved_unreserve]
        simp only at hsum
        omega
      · obtain ⟨hpid,he⟩ := Table.get_erase_some he
        have hne' : ¬(ppid = k ∧ tier = t) := fun hx => hkey (by rw [hx.1,hx.2])
        rw [reservedAt_closed _ hpid,if_neg hne'] at hsum
        have hold := h k t e he
        omega

/-- A release makes no reservation. -/
lemma mem_of_release {registry : Registry} {r : Reservation}
    (h : r ∈ m.reservationsRelease registry rs pid tier) : r ∈ rs := by
  unfold reservationsRelease at h
  split at h
  · exact h
  · split at h
    · exact child_of_closed h
    · exact child_of_closed (List.mem_of_mem_erase h)

/-- An allocation makes one reservation, for its child. -/
lemma mem_of_allocate {parentPID childPID : ℕ} {r : Reservation}
    (h : r ∈ reservationsAllocate rs parentPID childPID tier tokens) : r ∈ rs ∨ r.child = childPID := by
  rcases List.mem_cons.mp (child_of_closed h) with rfl | h
  · exact .inr rfl
  · exact .inl h

end BudgetManager
end HiveKernel
