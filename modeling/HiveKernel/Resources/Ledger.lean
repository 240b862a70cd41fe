import HiveKernel.Resources.Solvency

/-! The ledger of reservations. A funding map says from whose entry an entry was allocated, at the
tier of the entry; what an entry has reserved should be what the entries funded from it were
allocated. The lemmas say which changes of the table and of the map keep this. -/
namespace HiveKernel
open Lib
namespace BudgetManager

/-- The process that funded an entry, if one did. -/
abbrev Funding := ℕ × ModelTier → Option ℕ

/-- What an entry counts for in the sum of `k` at this tier. -/
def share (fund : Funding) (k : ℕ) (tier : ModelTier) (key : ℕ × ModelTier) (e : BudgetEntry) : ℕ :=
  if key.2 = tier ∧ fund key = some k then e.allocated.toNat else 0

/-- The sum of the allocations funded from `k` at this tier. -/
def owed (fund : Funding) (m : BudgetManager) (k : ℕ) (tier : ModelTier) : ℕ :=
  m.budgets.sum (share fund k tier)

/-- Every entry has reserved what was funded from it. -/
def Balanced (fund : Funding) (m : BudgetManager) : Prop :=
  ∀ k tier e, m.getBudget k tier = some e → e.reserved.toNat = owed fund m k tier

/-- The entry of a process counts in the sum of an entry that is there. -/
def Funded (fund : Funding) (m : BudgetManager) (pid : ℕ) (tier : ModelTier) : Prop :=
  ∃ e k, m.getBudget pid tier = some e ∧ e.allocated ≠ 0 ∧ fund (pid,tier) = some k ∧
    (m.getBudget k tier).isSome

variable {fund fund' : Funding} {m m' : BudgetManager} {pid : ℕ} {tier : ModelTier} {tokens : UInt64}

lemma not_funded_of_none (h : m.getBudget pid tier = none) : ¬Funded fund m pid tier := by
  rintro ⟨e,k,he,-⟩
  simp [h] at he

@[simp] lemma share_eq_zero {k : ℕ} {key : ℕ × ModelTier} {e : BudgetEntry}
    (h : ¬(key.2 = tier ∧ fund key = some k)) : share fund k tier key e = 0 := if_neg h

/-- A process from which no entry is funded. -/
lemma owed_eq_zero {k : ℕ} (h : ∀ j, (m.getBudget j tier).isSome → fund (j,tier) ≠ some k) :
    owed fund m k tier = 0 := by
  have hzero : m.budgets.sum (share fund k tier) = m.budgets.sum (fun _ _ => 0) := by
    apply Table.sum_congr
    rintro ⟨j,t⟩ e he
    apply share_eq_zero
    rintro ⟨rfl,hf⟩
    exact h j (Option.isSome_iff_exists.mpr ⟨e,he⟩) hf
  rw [owed,hzero]
  simp [Table.sum]

lemma allocated_le_owed {k : ℕ} {e : BudgetEntry} (he : m.getBudget pid tier = some e)
    (hf : fund (pid,tier) = some k) : e.allocated.toNat ≤ owed fund m k tier := by
  rw [owed,Table.sum_erase m.budgets he,share,if_pos ⟨rfl,hf⟩]
  omega

/-- Overwriting an entry without a change of its allocation leaves all sums alone. -/
lemma owed_set {key : ℕ × ModelTier} {e : BudgetEntry} (he : m.budgets.get key = some e)
    {e' : BudgetEntry} (halloc : e'.allocated = e.allocated) (k : ℕ) (tier : ModelTier) :
    owed fund ⟨m.budgets.set key e'⟩ k tier = owed fund m k tier := by
  have hsum := Table.sum_set_of_some m.budgets he e' (share fund k tier)
  have hshare : share fund k tier key e' = share fund k tier key e := by simp only [share,halloc]
  rw [hshare] at hsum
  exact Nat.add_right_cancel hsum

/-- Taking an entry out lowers the sum of the entry that funded it. -/
lemma owed_erase {child : BudgetEntry} (hc : m.getBudget pid tier = some child) (k : ℕ) (t : ModelTier) :
    owed fund m k t = (if tier = t ∧ fund (pid,tier) = some k then child.allocated.toNat else 0)+
      owed fund ⟨m.budgets.erase (pid,tier)⟩ k t :=
  Table.sum_erase m.budgets hc (share fund k t)

/-- Whom an entry that is not there was funded from does not matter. -/
lemma owed_erase_congr (hagree : ∀ key, key ≠ (pid,tier) → fund' key = fund key) (k : ℕ)
    (t : ModelTier) : owed fund' ⟨m.budgets.erase (pid,tier)⟩ k t =
      owed fund ⟨m.budgets.erase (pid,tier)⟩ k t := by
  apply Table.sum_congr
  intro key e he
  rw [Table.get_erase] at he
  split_ifs at he with hkey
  simp only [share,hagree key hkey]

lemma owed_erase_of_not_funded (hn : ¬Funded fund m pid tier) {k : ℕ} {t : ModelTier}
    (hk : (m.getBudget k t).isSome) :
    owed fund ⟨m.budgets.erase (pid,tier)⟩ k t = owed fund m k t := by
  cases hc : m.getBudget pid tier with
  | none =>
    rw [getBudget] at hc
    rw [Table.erase_of_get_none hc]
  | some child =>
    rw [owed_erase hc k t]
    split_ifs with hx
    · obtain ⟨rfl,hf⟩ := hx
      have hzero : child.allocated = 0 := by
        by_contra hne
        exact hn ⟨child,k,hc,hne,hf,hk⟩
      rw [hzero,UInt64.toNat_zero,Nat.zero_add]
    · rw [Nat.zero_add]

lemma isSome_getBudget_set {key : ℕ × ModelTier} {e : BudgetEntry} (e' : BudgetEntry)
    (he : m.budgets.get key = some e) (j : ℕ) (tier : ModelTier) :
    (getBudget ⟨m.budgets.set key e'⟩ j tier).isSome = (m.getBudget j tier).isSome := by
  simp only [getBudget,Table.get_set]
  split_ifs with hk
  · rw [hk,he]; rfl
  · rfl

lemma owed_erase_le (k : ℕ) (t : ModelTier) :
    owed fund ⟨m.budgets.erase (pid,tier)⟩ k t ≤ owed fund m k t := by
  cases hc : m.getBudget pid tier with
  | none =>
    rw [getBudget] at hc
    rw [Table.erase_of_get_none hc]
  | some child =>
    rw [owed_erase hc k t]
    exact Nat.le_add_left _ _

/-- An entry that counts counted before, if neither its allocation nor its link is new and nothing
was funded from the entries that are. -/
lemma Funded.mono {j : ℕ} {t : ModelTier} (h : Funded fund' m' j t) (hlink : fund' (j,t) = fund (j,t))
    (hentry : ∀ e, m'.getBudget j t = some e → ∃ e', m.getBudget j t = some e' ∧ e'.allocated = e.allocated)
    (hfunder : ∀ k, (m'.getBudget k t).isSome → (m.getBudget k t).isSome ∨ owed fund m k t = 0) :
    Funded fund m j t := by
  obtain ⟨e,k,he,hne,hf,hk⟩ := h
  obtain ⟨e',he',halloc⟩ := hentry e he
  rw [hlink] at hf
  rw [← halloc] at hne
  refine ⟨e',k,he',hne,hf,(hfunder k hk).resolve_right (fun hzero => hne ?_)⟩
  have hle : e'.allocated.toNat ≤ owed fund m k t := allocated_le_owed he' hf
  apply UInt64.toNat_inj.mp
  simp only [UInt64.toNat_zero]
  omega

/-- The rewriting of an entry with the same allocation funds nothing new. -/
lemma Funded.of_set {key : ℕ × ModelTier} {e e' : BudgetEntry} (he : m.budgets.get key = some e)
    (halloc : e'.allocated = e.allocated) (h : Funded fund ⟨m.budgets.set key e'⟩ pid tier) :
    Funded fund m pid tier := by
  refine h.mono rfl (fun c hc => ?_) (fun k hk => .inl ?_)
  · simp only [getBudget,Table.get_set] at hc
    split_ifs at hc with hkey
    · cases hc
      rw [← hkey] at he
      exact ⟨e,he,halloc.symm⟩
    · exact ⟨c,hc,rfl⟩
  · rwa [isSome_getBudget_set e' he] at hk

/-- Consumption does not touch the ledger. -/
lemma Balanced.consume (h : Balanced fund m) (hc : m.consume pid tier tokens = .ok m') :
    Balanced fund m' := by
  obtain ⟨entry,he,-,rfl⟩ := consume_ok hc
  intro k t e hk
  refine Eq.trans ?_ (owed_set he rfl k t).symm
  simp only [getBudget,Table.get_set] at hk
  split_ifs at hk with hkey
  · cases hk
    cases hkey
    exact h pid tier entry he
  · exact h k t e hk

/-- A new entry that nobody funds, and from which nothing has been funded. -/
lemma Balanced.setBudget (h : Balanced fund m) (tokens : UInt64) (hfresh : m.getBudget pid tier = none)
    (hzero : owed fund m pid tier = 0) (hagree : ∀ key, key ≠ (pid,tier) → fund' key = fund key)
    (hnone : fund' (pid,tier) = none) : Balanced fund' (m.setBudget pid tier tokens) := by
  rw [setBudget_of_none hfresh]
  have howed : ∀ k t, owed fund' ⟨m.budgets.set (pid,tier)
      { pid := pid, tier := tier, allocated := tokens }⟩ k t = owed fund m k t := by
    intro k t
    rw [owed,Table.sum_set,share_eq_zero (by simp [hnone]),Nat.zero_add]
    refine (owed_erase_congr hagree k t).trans ?_
    rw [getBudget] at hfresh
    rw [Table.erase_of_get_none hfresh]
  intro k t e hk
  rw [howed]
  simp only [getBudget,Table.get_set] at hk
  split_ifs at hk with hkey
  · cases hk
    cases hkey
    exact hzero.symm
  · exact h k t e hk

/-- One entry has reserved more than was funded from it. -/
def Ahead (fund : Funding) (m : BudgetManager) (parentPID : ℕ) (tier : ModelTier) (tokens : UInt64) :
    Prop :=
  ∀ k t e, m.getBudget k t = some e →
    e.reserved.toNat = owed fund m k t+(if (k,t) = (parentPID,tier) then tokens.toNat else 0)

lemma Balanced.reserve (h : Balanced fund m) {parentPID : ℕ} {parent : BudgetEntry}
    (hp : m.getBudget parentPID tier = some parent)
    (hadd : (parent.reserved+tokens).toNat = parent.reserved.toNat+tokens.toNat) :
    Ahead fund ⟨m.budgets.set (parentPID,tier) { parent with reserved := parent.reserved+tokens }⟩
      parentPID tier tokens := by
  intro k t e hk
  have hsum : owed fund ⟨m.budgets.set (parentPID,tier)
      { parent with reserved := parent.reserved+tokens }⟩ k t = owed fund m k t := owed_set hp rfl k t
  rw [hsum]
  simp only [getBudget,Table.get_set] at hk
  split_ifs at hk with hkey
  · cases hk
    cases hkey
    rw [if_pos rfl,← h parentPID tier parent hp]
    exact hadd
  · rw [if_neg hkey]
    exact h k t e hk

/-- The missing entry is added. An old entry that it overwrites does not count, and nothing has
been funded from it. -/
lemma Ahead.grant {parentPID : ℕ} (h : Ahead fund m parentPID tier tokens) (hne : pid ≠ parentPID)
    (hn : ¬Funded fund m pid tier) (hzero : owed fund m pid tier = 0)
    (hagree : ∀ key, key ≠ (pid,tier) → fund' key = fund key)
    (hfund : fund' (pid,tier) = some parentPID) :
    Balanced fund' ⟨m.budgets.set (pid,tier) { pid := pid, tier := tier, allocated := tokens }⟩ := by
  have howed : ∀ k t, owed fund' ⟨m.budgets.set (pid,tier)
      { pid := pid, tier := tier, allocated := tokens }⟩ k t =
      (if tier = t ∧ parentPID = k then tokens.toNat else 0)+
        owed fund ⟨m.budgets.erase (pid,tier)⟩ k t := by
    intro k t
    rw [owed,Table.sum_set]
    congr 1
    · simp [share,hfund]
    · exact owed_erase_congr hagree k t
  intro k t e hk
  rw [howed]
  simp only [getBudget,Table.get_set] at hk
  split_ifs at hk with hck
  · cases hk
    cases hck
    have hle : owed fund ⟨m.budgets.erase (pid,tier)⟩ pid tier ≤ owed fund m pid tier := owed_erase_le _ _
    rw [if_neg (fun hc => hne hc.2.symm)]
    simp only [UInt64.toNat_zero]
    omega
  · rw [owed_erase_of_not_funded hn (Option.isSome_iff_exists.mpr ⟨e,hk⟩),h k t e hk,Nat.add_comm]
    congr 1
    apply if_congr _ rfl rfl
    rw [Prod.mk.injEq]
    exact ⟨fun hc => ⟨hc.2.symm,hc.1.symm⟩,fun hc => ⟨hc.2.symm,hc.1.symm⟩⟩

/-- An allocation to a process whose old entry, if any, does not count, and from which nothing has
been funded. -/
lemma Balanced.allocate (h : Balanced fund m) (hs : m.Solvent) {parentPID : ℕ}
    (ha : m.allocate parentPID pid tier tokens = .ok m') (hne : pid ≠ parentPID)
    (hn : ¬Funded fund m pid tier) (hzero : owed fund m pid tier = 0)
    (hagree : ∀ key, key ≠ (pid,tier) → fund' key = fund key)
    (hfund : fund' (pid,tier) = some parentPID) : Balanced fund' m' := by
  obtain ⟨parent,hp,ht,rfl⟩ := allocate_ok ha
  have hadd := ((hs _ parent hp).reserve ht).1
  refine (h.reserve hp hadd).grant hne ?_ ?_ hagree hfund
  · intro hf
    apply hn
    exact Funded.of_set hp (by rfl) hf
  · refine Eq.trans ?_ hzero
    exact owed_set hp rfl pid tier

/-- Only the new entry counts newly. -/
lemma Funded.of_allocate {parentPID j : ℕ} {t : ModelTier}
    (ha : m.allocate parentPID pid tier tokens = .ok m') (hzero : owed fund m pid tier = 0)
    (hagree : ∀ key, key ≠ (pid,tier) → fund' key = fund key) (h : Funded fund' m' j t) :
    (j,t) = (pid,tier) ∨ Funded fund m j t := by
  by_cases hkey : (j,t) = (pid,tier)
  · exact .inl hkey
  obtain ⟨parent,hp,-,rfl⟩ := allocate_ok ha
  refine .inr (h.mono (hagree _ hkey) (fun e he => ?_) (fun k hk => ?_))
  · simp only [getBudget,Table.get_set,if_neg hkey] at he
    split_ifs at he with hpk
    · cases he
      cases hpk
      exact ⟨parent,hp,rfl⟩
    · exact ⟨e,he,rfl⟩
  · by_cases hk' : (k,t) = (pid,tier)
    · cases hk'
      exact .inr hzero
    · rw [getBudget,Table.get_set_of_ne hk'] at hk
      exact .inl ((isSome_getBudget_set _ hp k t).symm.trans hk)

lemma Funded.of_setBudget {j : ℕ} {t : ModelTier} (hfresh : m.getBudget pid tier = none)
    (hzero : owed fund m pid tier = 0) (hagree : ∀ key, key ≠ (pid,tier) → fund' key = fund key)
    (hnone : fund' (pid,tier) = none) (h : Funded fund' (m.setBudget pid tier tokens) j t) :
    Funded fund m j t := by
  rw [setBudget_of_none hfresh] at h
  have hkey : (j,t) ≠ (pid,tier) := by
    intro he
    cases he
    obtain ⟨e,k,-,-,hf,-⟩ := h
    simp [hnone] at hf
  refine h.mono (hagree _ hkey) (fun e he => ?_) (fun k hk => ?_)
  · rw [getBudget,Table.get_set_of_ne hkey] at he
    exact ⟨e,he,rfl⟩
  · by_cases hk' : (k,t) = (pid,tier)
    · cases hk'
      exact .inr hzero
    · rw [getBudget,Table.get_set_of_ne hk'] at hk
      exact .inl hk

lemma Funded.of_release {registry : Registry} {j : ℕ} {t : ModelTier}
    (hagree : ∀ key, key ≠ (pid,tier) → fund' key = fund key)
    (h : Funded fund' (m.release registry pid tier).2 j t) : Funded fund m j t := by
  have hkey : (j,t) ≠ (pid,tier) := by
    intro he
    cases he
    obtain ⟨e,k,he,-⟩ := h
    simp [getBudget_release_self] at he
  exact h.mono (hagree _ hkey) (fun e he => entry_of_release he) (fun k hk => .inl (isSome_of_release hk))

/-- An entry that does not count can be dropped. -/
lemma Balanced.erase (h : Balanced fund m) (hn : ¬Funded fund m pid tier)
    (hagree : ∀ key, key ≠ (pid,tier) → fund' key = fund key) :
    Balanced fund' ⟨m.budgets.erase (pid,tier)⟩ := by
  intro k t e hk
  rw [owed_erase_congr hagree]
  simp only [getBudget,Table.get_erase] at hk
  split_ifs at hk with hkey
  rw [owed_erase_of_not_funded hn (Option.isSome_iff_exists.mpr ⟨e,hk⟩)]
  exact h k t e hk

/-- An entry is released to the entry that funded it. -/
lemma Balanced.releaseTo (h : Balanced fund m) {registry : Registry} {child parent : BudgetEntry}
    {ppid : ℕ} (hc : m.getBudget pid tier = some child)
    (hp : m.parentEntry registry pid tier = some (ppid,parent)) (hfund : fund (pid,tier) = some ppid)
    (hagree : ∀ key, key ≠ (pid,tier) → fund' key = fund key) :
    Balanced fund' (m.release registry pid tier).2 := by
  obtain ⟨-,hne,hparent⟩ := parentEntry_eq_some hp
  have hget : (m.budgets.erase (pid,tier)).get (ppid,tier) = some parent := by
    rw [Table.get_erase_of_ne (fun he => hne (Prod.mk.inj he).1)]
    exact hparent
  rw [release_of_some hc,hp]
  intro k t e hk
  have hsum : owed fund' ⟨(m.budgets.erase (pid,tier)).set (ppid,tier)
      (unreserve parent child.allocated)⟩ k t = owed fund ⟨m.budgets.erase (pid,tier)⟩ k t :=
    (owed_set (m := ⟨m.budgets.erase (pid,tier)⟩) hget rfl k t).trans (owed_erase_congr hagree k t)
  refine Eq.trans ?_ hsum.symm
  have howed : owed fund m k t = _ := owed_erase hc k t
  simp only [getBudget,Table.get_set] at hk
  split_ifs at hk with hkp
  · cases hk
    cases hkp
    rw [if_pos ⟨rfl,hfund⟩,← h ppid tier parent hparent] at howed
    rw [BudgetEntry.toNat_reserved_unreserve]
    omega
  · rw [Table.get_erase] at hk
    split_ifs at hk with hkc
    rw [if_neg,Nat.zero_add] at howed
    · rw [← howed]
      exact h k t e hk
    · rintro ⟨rfl,hx⟩
      obtain rfl : k = ppid := Option.some.inj (hx.symm.trans hfund)
      exact hkp rfl

/-- A release takes back a reservation that is there: the entry counts for the entry of its present
parent; or it does not count at all, and there is nothing to take back. -/
def ReleasesToFunder (fund : Funding) (m : BudgetManager) (registry : Registry) (pid : ℕ)
    (tier : ModelTier) : Prop :=
  (Funded fund m pid tier → ∃ proc, registry.get pid = some proc ∧ fund (pid,tier) = some proc.ppid) ∧
  (¬Funded fund m pid tier → ∀ child ppid parent, m.getBudget pid tier = some child →
    m.parentEntry registry pid tier = some (ppid,parent) → child.allocated = 0 ∨ parent.reserved = 0)

lemma unreserve_eq_self {parent : BudgetEntry} {allocated : UInt64}
    (h : allocated = 0 ∨ parent.reserved = 0) : unreserve parent allocated = parent := by
  have hr : (unreserve parent allocated).reserved = parent.reserved := by
    apply UInt64.toNat_inj.mp
    rw [BudgetEntry.toNat_reserved_unreserve]
    rcases h with rfl | h0
    · simp
    · simp [h0]
  unfold unreserve at hr ⊢
  simp only at hr
  rw [hr]

/-- Writing an entry back as it was. -/
lemma Balanced.rewrite (h : Balanced fund m) {key : ℕ × ModelTier} {e : BudgetEntry}
    (he : m.budgets.get key = some e) : Balanced fund ⟨m.budgets.set key e⟩ := by
  intro k t e' hk
  rw [owed_set he rfl]
  simp only [getBudget,Table.get_set] at hk
  split_ifs at hk with hkey
  · rw [← hkey] at he
    exact h k t e' (he.trans hk)
  · exact h k t e' hk

/-- A release keeps the ledger if it takes back the right reservation. -/
theorem Balanced.release (h : Balanced fund m) {registry : Registry}
    (hself : ∀ proc, registry.get pid = some proc → proc.ppid ≠ pid)
    (hto : ReleasesToFunder fund m registry pid tier)
    (hagree : ∀ key, key ≠ (pid,tier) → fund' key = fund key) :
    Balanced fund' (m.release registry pid tier).2 := by
  cases hc : m.getBudget pid tier with
  | none =>
    have herase := h.erase (not_funded_of_none hc) hagree
    rw [getBudget] at hc
    rw [Table.erase_of_get_none hc] at herase
    rw [release_of_none registry hc]
    exact herase
  | some child =>
    by_cases hfd : Funded fund m pid tier
    · obtain ⟨proc,hproc,hlink⟩ := hto.1 hfd
      obtain ⟨e,k,-,-,hk,hsome⟩ := hfd
      obtain rfl : k = proc.ppid := Option.some.inj (hk.symm.trans hlink)
      obtain ⟨parent,hparent⟩ := Option.isSome_iff_exists.mp hsome
      exact h.releaseTo hc (parentEntry_of_get hproc (hself proc hproc) hparent) hlink hagree
    · have herase := h.erase hfd hagree
      rw [release_of_some hc]
      cases hp : m.parentEntry registry pid tier with
      | none => exact herase
      | some q =>
        obtain ⟨ppid,parent⟩ := q
        obtain ⟨-,hne,hparent⟩ := parentEntry_eq_some hp
        simp only [unreserve_eq_self (hto.2 hfd child ppid parent hc hp)]
        apply herase.rewrite
        rw [Table.get_erase_of_ne (fun he => hne (Prod.mk.inj he).1)]
        exact hparent

/-- The tiers do not interfere: whether a release takes back the right reservation depends on the
entries of its tier only. -/
lemma ReleasesToFunder.congr {registry : Registry} {t : ModelTier}
    (h : ReleasesToFunder fund m registry pid t) (hlink : fund' (pid,t) = fund (pid,t))
    (hsame : ∀ j, m'.getBudget j t = m.getBudget j t) : ReleasesToFunder fund' m' registry pid t := by
  have hfunded : Funded fund' m' pid t ↔ Funded fund m pid t := by
    simp only [Funded,hlink,hsame]
  have hparent : m'.parentEntry registry pid t = m.parentEntry registry pid t := by
    unfold parentEntry
    congr 1
    funext proc
    simp only [Table.get_erase]
    split_ifs with hk
    · rfl
    · rw [show m'.budgets.get (proc.ppid,t) = m.budgets.get (proc.ppid,t) from hsame proc.ppid]
  simpa only [ReleasesToFunder,hfunded,hlink,hsame,hparent] using h

end BudgetManager
end HiveKernel
