import HiveKernel.Resources.Budget

/-! Solvency of the budgets: what an entry has consumed and reserved never exceeds what it was
allocated. The unsigned subtractions of the budget manager are exact for that reason. -/
namespace HiveKernel
open Lib
namespace BudgetEntry

def Solvent (e : BudgetEntry) : Prop := e.consumed.toNat+e.reserved.toNat ≤ e.allocated.toNat

variable {e : BudgetEntry} {tokens : UInt64}

lemma solvent_fresh (pid : ℕ) (tier : ModelTier) (allocated : UInt64) :
    Solvent { pid := pid, tier := tier, allocated := allocated } := by
  simp [Solvent]

lemma Solvent.used (h : e.Solvent) :
    (e.consumed+e.reserved).toNat = e.consumed.toNat+e.reserved.toNat := by
  have hlt := e.allocated.toNat_lt
  unfold Solvent at h
  rw [UInt64.toNat_add]
  omega

lemma Solvent.remaining (h : e.Solvent) :
    e.remaining.toNat = e.allocated.toNat-e.consumed.toNat-e.reserved.toNat := by
  have hu := h.used
  unfold Solvent at h
  unfold BudgetEntry.remaining
  simp only [UInt64.le_iff_toNat_le,hu]
  split_ifs with hle
  · simp only [UInt64.toNat_zero]; omega
  · rw [UInt64.toNat_sub_of_le _ _ (by rw [UInt64.le_iff_toNat_le]; omega),hu]
    omega

/-- What `consume` compares the new total with. -/
lemma Solvent.available (h : e.Solvent) :
    (e.allocated-e.reserved).toNat = e.allocated.toNat-e.reserved.toNat := by
  unfold Solvent at h
  exact UInt64.toNat_sub_of_le _ _ (by rw [UInt64.le_iff_toNat_le]; omega)

/-- What `release` reports as returned. -/
lemma Solvent.unused (h : e.Solvent) :
    (e.allocated-e.consumed).toNat = e.allocated.toNat-e.consumed.toNat := by
  unfold Solvent at h
  exact UInt64.toNat_sub_of_le _ _ (by rw [UInt64.le_iff_toNat_le]; omega)

/-- A reservation within the remaining budget does not wrap. -/
lemma Solvent.reserve (h : e.Solvent) (ht : tokens ≤ e.remaining) :
    (e.reserved+tokens).toNat = e.reserved.toNat+tokens.toNat ∧
    Solvent { e with reserved := e.reserved+tokens } := by
  have hr := h.remaining
  have hlt := e.allocated.toNat_lt
  rw [UInt64.le_iff_toNat_le] at ht
  unfold Solvent at h ⊢
  have hadd : (e.reserved+tokens).toNat = e.reserved.toNat+tokens.toNat := by
    rw [UInt64.toNat_add]
    omega
  refine ⟨hadd,?_⟩
  simp only [hadd]
  omega

lemma Solvent.consume (h : e.Solvent) (ht : e.consumed+tokens ≤ e.allocated-e.reserved) :
    Solvent { e with consumed := e.consumed+tokens } := by
  have ha := h.available
  rw [UInt64.le_iff_toNat_le] at ht
  unfold Solvent at h ⊢
  simp only
  omega

lemma toNat_reserved_unreserve (e : BudgetEntry) (allocated : UInt64) :
    (BudgetManager.unreserve e allocated).reserved.toNat = e.reserved.toNat-allocated.toNat := by
  unfold BudgetManager.unreserve
  by_cases h : allocated ≤ e.reserved
  · simp only [h,if_true]
    exact UInt64.toNat_sub_of_le _ _ h
  · rw [UInt64.le_iff_toNat_le] at h
    simp only [UInt64.le_iff_toNat_le,h,if_false,UInt64.toNat_zero]
    omega

lemma Solvent.unreserve (h : e.Solvent) (allocated : UInt64) :
    (BudgetManager.unreserve e allocated).Solvent := by
  have hr := toNat_reserved_unreserve e allocated
  unfold Solvent at h ⊢
  rw [hr]
  simp only [BudgetManager.unreserve]
  omega

end BudgetEntry

namespace BudgetManager
variable {m m' : BudgetManager}

/-- Every entry is solvent. -/
def Solvent (m : BudgetManager) : Prop := ∀ k e, m.budgets.get k = some e → e.Solvent

lemma solvent_new : new.Solvent := by
  intro k e he
  simp [new] at he

/-- Writing a solvent entry. -/
lemma Solvent.set (h : m.Solvent) (key : ℕ × ModelTier) {e : BudgetEntry} (he : e.Solvent) :
    Solvent ⟨m.budgets.set key e⟩ := by
  intro k e' hk
  simp only [Table.get_set] at hk
  split_ifs at hk
  · cases hk; exact he
  · exact h k e' hk

lemma Solvent.erase (h : m.Solvent) (key : ℕ × ModelTier) : Solvent ⟨m.budgets.erase key⟩ := by
  intro k e hk
  simp only [Table.get_erase] at hk
  split_ifs at hk
  exact h k e hk

lemma Solvent.setBudget (h : m.Solvent) {pid : ℕ} {tier : ModelTier} (tokens : UInt64)
    (hk : m.getBudget pid tier = none) : (m.setBudget pid tier tokens).Solvent := by
  rw [setBudget_of_none hk]
  exact h.set _ (BudgetEntry.solvent_fresh _ _ _)

lemma Solvent.allocate (h : m.Solvent) {parentPID childPID : ℕ} {tier : ModelTier} {tokens : UInt64}
    (ha : m.allocate parentPID childPID tier tokens = .ok m') : m'.Solvent := by
  obtain ⟨parent,hp,ht,rfl⟩ := allocate_ok ha
  have hp := h _ parent hp
  have hs : Solvent ⟨m.budgets.set (parentPID,tier) { parent with reserved := parent.reserved+tokens }⟩ :=
    h.set _ (hp.reserve ht).2
  exact hs.set _ (BudgetEntry.solvent_fresh _ _ _)

lemma Solvent.consume (h : m.Solvent) {pid : ℕ} {tier : ModelTier} {tokens : UInt64}
    (hc : m.consume pid tier tokens = .ok m') : m'.Solvent := by
  obtain ⟨entry,he,ht,rfl⟩ := consume_ok hc
  exact h.set _ ((h _ entry he).consume ht)

lemma parentEntry_eq_some {registry : Registry} {pid ppid : ℕ} {tier : ModelTier} {parent : BudgetEntry}
    (h : m.parentEntry registry pid tier = some (ppid,parent)) :
    (∃ proc, registry.get pid = some proc ∧ proc.ppid = ppid) ∧ ppid ≠ pid ∧
      m.getBudget ppid tier = some parent := by
  unfold parentEntry at h
  simp only [Option.bind_eq_bind,Option.bind_eq_some_iff,Option.pure_def,Option.some.injEq,
    Prod.mk.injEq] at h
  obtain ⟨proc,hproc,q,hq,rfl,rfl⟩ := h
  rw [Table.get_erase] at hq
  split_ifs at hq with hne
  exact ⟨⟨proc,hproc,rfl⟩,fun he => hne (by rw [he]),hq⟩

lemma parentEntry_of_get {registry : Registry} {pid : ℕ} {proc : Process} {tier : ModelTier}
    {parent : BudgetEntry} (hproc : registry.get pid = some proc) (hne : proc.ppid ≠ pid)
    (hparent : m.getBudget proc.ppid tier = some parent) :
    m.parentEntry registry pid tier = some (proc.ppid,parent) := by
  have hget : (m.budgets.erase (pid,tier)).get (proc.ppid,tier) = some parent := by
    rw [Table.get_erase_of_ne (fun he => hne (Prod.mk.inj he).1)]
    exact hparent
  simp [parentEntry,hproc,hget]

lemma Solvent.release (h : m.Solvent) (registry : Registry) (pid : ℕ) (tier : ModelTier) :
    (m.release registry pid tier).2.Solvent := by
  cases hc : m.getBudget pid tier with
  | none => rw [release_of_none _ hc]; exact h
  | some child =>
    rw [release_of_some hc]
    cases hp : m.parentEntry registry pid tier with
    | none => exact h.erase _
    | some q =>
      obtain ⟨ppid,parent⟩ := q
      have hparent := h _ parent (parentEntry_eq_some hp).2.2
      exact (h.erase _).set _ (hparent.unreserve _)

lemma Solvent.releaseAll (h : m.Solvent) (registry : Registry) (pid : ℕ) :
    (m.releaseAll registry pid).Solvent :=
  ((h.release registry pid .opus).release registry pid .sonnet).release registry pid .mini

/-- A release deletes the entry it is asked for, and no other. -/
lemma getBudget_release_self (registry : Registry) (pid : ℕ) (tier : ModelTier) :
    (m.release registry pid tier).2.getBudget pid tier = none := by
  cases hc : m.getBudget pid tier with
  | none => rwa [release_of_none _ hc]
  | some child =>
    rw [release_of_some hc]
    cases hp : m.parentEntry registry pid tier with
    | none => rw [getBudget,Table.get_erase,if_pos rfl]
    | some q =>
      have hne := (parentEntry_eq_some hp).2.1
      rw [getBudget,Table.get_set_of_ne (fun he => hne (Prod.mk.inj he).1.symm),Table.get_erase,if_pos rfl]

lemma isSome_release {registry : Registry} {pid j : ℕ} {tier t : ModelTier} (hne : (j,t) ≠ (pid,tier)) :
    ((m.release registry pid tier).2.getBudget j t).isSome = (m.getBudget j t).isSome := by
  cases hc : m.getBudget pid tier with
  | none => rw [release_of_none _ hc]
  | some child =>
    rw [release_of_some hc]
    cases hp : m.parentEntry registry pid tier with
    | none => rw [getBudget,Table.get_erase_of_ne hne]; rfl
    | some q =>
      simp only [getBudget,Table.get_set,Table.get_erase_of_ne hne]
      split_ifs with hk
      · rw [hk]
        exact (Option.isSome_iff_exists.mpr ⟨q.2,(parentEntry_eq_some hp).2.2⟩).symm
      · rfl

lemma getBudget_release_of_ne {registry : Registry} {pid j : ℕ} {tier t : ModelTier} (hne : t ≠ tier) :
    (m.release registry pid tier).2.getBudget j t = m.getBudget j t := by
  have hkey : ∀ k, ((j,t) : ℕ × ModelTier) ≠ (k,tier) := fun k he => hne (Prod.mk.inj he).2
  cases hc : m.getBudget pid tier with
  | none => rw [release_of_none _ hc]
  | some child =>
    rw [release_of_some hc]
    cases hp : m.parentEntry registry pid tier with
    | none => rw [getBudget,Table.get_erase_of_ne (hkey pid)]; rfl
    | some q => rw [getBudget,Table.get_set_of_ne (hkey q.1),Table.get_erase_of_ne (hkey pid)]; rfl

/-- What is left after a release was there before, with the same allocation. -/
lemma entry_of_release {registry : Registry} {pid j : ℕ} {tier t : ModelTier} {e : BudgetEntry}
    (h : (m.release registry pid tier).2.getBudget j t = some e) :
    ∃ e', m.getBudget j t = some e' ∧ e'.allocated = e.allocated := by
  cases hc : m.getBudget pid tier with
  | none =>
    rw [release_of_none _ hc] at h
    exact ⟨e,h,rfl⟩
  | some child =>
    rw [release_of_some hc] at h
    have herase : ∀ {k} {e : BudgetEntry}, (m.budgets.erase (pid,tier)).get k = some e →
        m.budgets.get k = some e := by
      intro k e hk
      rw [Table.get_erase] at hk
      split_ifs at hk
      exact hk
    cases hp : m.parentEntry registry pid tier with
    | none =>
      rw [hp] at h
      exact ⟨e,herase h,rfl⟩
    | some q =>
      rw [hp] at h
      simp only [getBudget,Table.get_set] at h
      split_ifs at h with hk
      · cases h
        cases hk
        exact ⟨q.2,(parentEntry_eq_some hp).2.2,rfl⟩
      · exact ⟨e,herase h,rfl⟩

lemma isSome_of_release {registry : Registry} {pid j : ℕ} {tier t : ModelTier}
    (h : ((m.release registry pid tier).2.getBudget j t).isSome) : (m.getBudget j t).isSome := by
  obtain ⟨e,he⟩ := Option.isSome_iff_exists.mp h
  obtain ⟨e',he',-⟩ := entry_of_release he
  exact Option.isSome_iff_exists.mpr ⟨e',he'⟩

/-- An operation, with the process table as it is when it is applied. -/
inductive BudgetOp
  | setBudget (pid : ℕ) (tier : ModelTier) (tokens : UInt64)
  | allocate (parentPID childPID : ℕ) (tier : ModelTier) (tokens : UInt64)
  | consume (pid : ℕ) (tier : ModelTier) (tokens : UInt64)
  | release (registry : Registry) (pid : ℕ) (tier : ModelTier)
  | releaseAll (registry : Registry) (pid : ℕ)

/-- The effect of a call; one that returns an error has none. -/
def orSame (m : BudgetManager) (result : Except String BudgetManager) : BudgetManager :=
  match result with
  | .ok m' => m'
  | .error _ => m

/-- Operations in any order; only `setBudget` is held back from existing entries. -/
def budgetStep (m : BudgetManager) : BudgetOp → Option BudgetManager
  | .setBudget pid tier tokens =>
    if m.getBudget pid tier = none then some (m.setBudget pid tier tokens) else none
  | .allocate parentPID childPID tier tokens =>
    some (m.orSame (m.allocate parentPID childPID tier tokens))
  | .consume pid tier tokens => some (m.orSame (m.consume pid tier tokens))
  | .release registry pid tier => some (m.release registry pid tier).2
  | .releaseAll registry pid => some (m.releaseAll registry pid)

lemma Solvent.budgetStep {op : BudgetOp} (h : m.Solvent) (hs : m.budgetStep op = some m') :
    m'.Solvent := by
  cases op with
  | setBudget pid tier tokens =>
    simp only [BudgetManager.budgetStep] at hs
    split_ifs at hs with hk
    cases hs
    exact h.setBudget tokens hk
  | allocate parentPID childPID tier tokens =>
    cases hs
    cases ha : m.allocate parentPID childPID tier tokens with
    | error e => exact h
    | ok m' => exact h.allocate ha
  | consume pid tier tokens =>
    cases hs
    cases hc : m.consume pid tier tokens with
    | error e => exact h
    | ok m' => exact h.consume hc
  | release registry pid tier =>
    cases hs
    exact h.release registry pid tier
  | releaseAll registry pid =>
    cases hs
    exact h.releaseAll registry pid

/-- In every state of every run all entries are solvent, so that the subtractions of `remaining`,
`consume` and `release` do not wrap. Consumption may even overflow its counter. -/
theorem solvent_of_run {trace : List (Transition BudgetManager BudgetOp)}
    (run : Run budgetStep new trace m) {k : ℕ × ModelTier} {e : BudgetEntry}
    (he : m.budgets.get k = some e) :
    e.consumed.toNat+e.reserved.toNat ≤ e.allocated.toNat ∧
    (e.consumed+e.reserved).toNat = e.consumed.toNat+e.reserved.toNat ∧
    e.remaining.toNat = e.allocated.toNat-e.consumed.toNat-e.reserved.toNat ∧
    (e.allocated-e.reserved).toNat = e.allocated.toNat-e.reserved.toNat ∧
    (e.allocated-e.consumed).toNat = e.allocated.toNat-e.consumed.toNat ∧
    (∀ child : BudgetEntry, child.allocated ≤ e.reserved →
      (unreserve e child.allocated).reserved.toNat = e.reserved.toNat-child.allocated.toNat) := by
  have hm : m.Solvent := (run.invariant (fun _ _ _ hs hstep => hs.budgetStep hstep) solvent_new).2
  have hs : e.Solvent := hm k e he
  exact ⟨hs,hs.used,hs.remaining,hs.available,hs.unused,
    fun child _ => BudgetEntry.toNat_reserved_unreserve e child.allocated⟩

/-- A grant that is repeated while it is in use; the fifth call is refused. -/
def repeatedGrant : List BudgetOp :=
  [.setBudget 1 .opus 100,.allocate 1 2 .opus 40,.consume 2 .opus 10,.allocate 1 2 .opus 30,
    .consume 2 .opus 50,.allocate 2 3 .opus 20]

theorem solvent_of_run_repeatedGrant : ∃ trace m,
    Run budgetStep new trace m ∧ m.getBudget 1 .opus = some ⟨1,.opus,100,0,70⟩ ∧
    (0 : UInt64).toNat+(70 : UInt64).toNat ≤ (100 : UInt64).toNat ∧
    (BudgetEntry.remaining ⟨1,.opus,100,0,70⟩).toNat = 100-0-70 := by
  obtain ⟨m,hm,he⟩ : ∃ m, exec budgetStep repeatedGrant new = some m ∧
      m.getBudget 1 .opus = some ⟨1,.opus,100,0,70⟩ := ⟨_,rfl,rfl⟩
  have hrun := Run.of_exec hm
  have h := solvent_of_run hrun he
  exact ⟨_,m,hrun,he,h.1,h.2.2.1⟩

end BudgetManager
end HiveKernel
