import HiveKernel.Process.TreeInvariant
import HiveKernel.Resources.Ledger

/-! Conservation of budgets below one root. `release` frees the whole reservation of a child and
forgets what the child has consumed, so the tokens of one grant can be spent again. Tokens are
conserved, and `release` returns what it reports, exactly in the runs that release only entries
from which nothing was consumed. -/
namespace HiveKernel
open Lib
namespace BudgetManager

/-- Every process but the root is funded by its parent. -/
def treeFunding (root : ℕ) (par : ℕ → ℕ) : Funding := fun key =>
  if key.1 = root then none else some (par key.1)

/-- No entry of this tier was funded from `pid`. -/
def Leaf (fund : Funding) (m : BudgetManager) (pid : ℕ) (tier : ModelTier) : Prop :=
  ∀ key ∈ m.budgets.keys, key.2 = tier → fund key ≠ some pid

instance (fund : Funding) (m : BudgetManager) (pid : ℕ) (tier : ModelTier) :
    Decidable (Leaf fund m pid tier) := inferInstanceAs (Decidable (∀ key ∈ _, _))

inductive SpendOp
  | allocate (registry : Registry) (parentPID childPID : ℕ) (tier : ModelTier) (tokens : UInt64)
  | consume (pid : ℕ) (tier : ModelTier) (tokens : UInt64)
  | release (registry : Registry) (pid : ℕ) (tier : ModelTier)

/-- The parent of `pid` is registered as `par` has it. -/
def HasParent (par : ℕ → ℕ) (registry : Registry) (pid : ℕ) : Prop :=
  (registry.get pid).map Process.ppid = some (par pid)

instance (par : ℕ → ℕ) (registry : Registry) (pid : ℕ) : Decidable (HasParent par registry pid) :=
  inferInstanceAs (Decidable (_ = _))

/-- The counter of the entry has room for these tokens. -/
def NoWrap (m : BudgetManager) (pid : ℕ) (tier : ModelTier) (tokens : UInt64) : Prop :=
  ∀ e ∈ m.getBudget pid tier, e.consumed.toNat+tokens.toNat < 2^64

instance (m : BudgetManager) (pid : ℕ) (tier : ModelTier) (tokens : UInt64) :
    Decidable (NoWrap m pid tier tokens) := inferInstanceAs (Decidable (∀ e ∈ _, _))

/-- An existing entry funds a registered child that has none, tokens are consumed, and entries
that funded nothing are released; the parents of the processes stay as they are. -/
def spendStep (root : ℕ) (par : ℕ → ℕ) (m : BudgetManager) : SpendOp → Option BudgetManager
  | .allocate registry parentPID childPID tier tokens =>
    if (m.getBudget parentPID tier).isSome ∧ m.getBudget childPID tier = none ∧
        parentPID = par childPID ∧ HasParent par registry childPID then
      some (m.orSame (m.allocate parentPID childPID tier tokens))
    else none
  | .consume pid tier tokens =>
    if NoWrap m pid tier tokens then some (m.orSame (m.consume pid tier tokens)) else none
  | .release registry pid tier =>
    if (m.getBudget pid tier).isSome ∧ Leaf (treeFunding root par) m pid tier ∧
        HasParent par registry pid then
      some (m.release registry pid tier).2
    else none

/-- What a transition consumes at a tier. -/
def consumedBy (tier : ModelTier) (e : Transition BudgetManager SpendOp) : ℕ :=
  match e.label with
  | .consume pid t tokens =>
    match e.source.consume pid t tokens with
    | .ok _ => if t = tier then tokens.toNat else 0
    | .error _ => 0
  | _ => 0

/-- The tokens consumed over a whole run, by all processes. -/
def spent (tier : ModelTier) (trace : List (Transition BudgetManager SpendOp)) : ℕ :=
  (trace.map (consumedBy tier)).sum

/-- A release reports what the child has not consumed, and raises the budget of the parent by
what it reports. -/
def ReturnsUnused (e : Transition BudgetManager SpendOp) : Prop :=
  match e.label with
  | .release registry pid tier =>
    ∀ child ppid parent, e.source.getBudget pid tier = some child →
      e.source.parentEntry registry pid tier = some (ppid,parent) →
      (e.source.release registry pid tier).1.toNat = child.allocated.toNat-child.consumed.toNat ∧
      ∃ parent', e.target.getBudget ppid tier = some parent' ∧
        parent'.remaining.toNat = parent.remaining.toNat+(e.source.release registry pid tier).1.toNat
  | _ => True

/-- What is released to a parent was not consumed from. -/
def ReleasesUnspent (e : Transition BudgetManager SpendOp) : Prop :=
  match e.label with
  | .release registry pid tier =>
    ∀ child ∈ e.source.getBudget pid tier,
      (e.source.parentEntry registry pid tier).isSome → child.consumed = 0
  | _ => True

instance : DecidablePred ReleasesUnspent
  | ⟨_,.allocate ..,_⟩ => isTrue trivial
  | ⟨_,.consume ..,_⟩ => isTrue trivial
  | ⟨s,.release registry pid tier,_⟩ => inferInstanceAs (Decidable (∀ child ∈ s.getBudget pid tier,
      (s.parentEntry registry pid tier).isSome → child.consumed = 0))

variable {root : ℕ} {par : ℕ → ℕ} {tier : ModelTier} {m m' : BudgetManager}

/-- The entries form a tree below the root, at one tier. -/
structure Grown (root : ℕ) (par : ℕ → ℕ) (tier : ModelTier) (m : BudgetManager) : Prop where
  solvent : m.Solvent
  balanced : Balanced (treeFunding root par) m
  parent : ∀ j, (m.getBudget j tier).isSome → j ≠ root → (m.getBudget (par j) tier).isSome
  single : ∀ j t, (m.getBudget j t).isSome → t = tier
  ranked : ∃ rank : ℕ → ℕ, ∀ j, (m.getBudget j tier).isSome → j ≠ root → rank (par j) < rank j

lemma Grown.root_isSome (h : Grown root par tier m) {j : ℕ} (hj : (m.getBudget j tier).isSome) :
    (m.getBudget root tier).isSome := by
  obtain ⟨rank,hrank⟩ := h.ranked
  induction hn : rank j using Nat.strong_induction_on generalizing j with
  | _ n ih =>
    by_cases hr : j = root
    · exact hr ▸ hj
    · exact ih (rank (par j)) (hn ▸ hrank j hj hr) (h.parent j hj hr) rfl

/-- Once the root has funded nothing, it has the only entry. -/
lemma Grown.eq_root (h : Grown root par tier m) (hleaf : Leaf (treeFunding root par) m root tier)
    {j : ℕ} (hj : (m.getBudget j tier).isSome) : j = root := by
  obtain ⟨rank,hrank⟩ := h.ranked
  induction hn : rank j using Nat.strong_induction_on generalizing j with
  | _ n ih =>
    by_contra hr
    have hpar := ih (rank (par j)) (hn ▸ hrank j hj hr) (h.parent j hj hr) rfl
    refine hleaf (j,tier) (Table.mem_keys.mpr hj) rfl ?_
    rw [treeFunding,if_neg hr,hpar]

lemma Leaf.owed_eq_zero {fund : Funding} {pid : ℕ} {t : ModelTier} (h : Leaf fund m pid t) :
    owed fund m pid t = 0 :=
  BudgetManager.owed_eq_zero (fun j hj hf => h (j,t) (Table.mem_keys.mpr hj) rfl hf)

lemma grown_setBudget (root : ℕ) (par : ℕ → ℕ) (tier : ModelTier) (tokens : UInt64) :
    Grown root par tier (new.setBudget root tier tokens) := by
  have hget : ∀ j t, ((new.setBudget root tier tokens).getBudget j t).isSome → j = root ∧ t = tier := by
    intro j t hj
    rw [setBudget_of_none rfl] at hj
    simp only [getBudget,new,Table.get_set,Table.get_empty] at hj
    split_ifs at hj with hk
    · exact ⟨(Prod.mk.inj hk).1,(Prod.mk.inj hk).2⟩
    · simp at hj
  refine ⟨solvent_new.setBudget tokens rfl,?_,fun j hj hr => absurd (hget j tier hj).1 hr,
    fun j t hj => (hget j t hj).2,fun _ => 0,fun j hj hr => absurd (hget j tier hj).1 hr⟩
  have hempty : Balanced (treeFunding root par) new := by
    intro k t e he
    simp [getBudget,new] at he
  exact hempty.setBudget tokens rfl rfl (fun _ _ => rfl) (if_pos rfl)

/-- The parent of an entry other than the root's is the one a release finds. -/
lemma Grown.parentEntry (h : Grown root par tier m) {registry : Registry} {pid : ℕ}
    (hpid : (m.getBudget pid tier).isSome) (hr : pid ≠ root) (hp : HasParent par registry pid) :
    ∃ parent, m.parentEntry registry pid tier = some (par pid,parent) := by
  obtain ⟨rank,hrank⟩ := h.ranked
  have hne : par pid ≠ pid := fun he => by have := hrank pid hpid hr; rw [he] at this; omega
  obtain ⟨proc,hproc,hppid⟩ := Option.map_eq_some_iff.mp hp
  obtain ⟨parent,hparent⟩ := Option.isSome_iff_exists.mp (h.parent pid hpid hr)
  rw [← hppid] at hne hparent ⊢
  exact ⟨parent,parentEntry_of_get hproc hne hparent⟩

lemma Grown.parentEntry_root (h : Grown root par tier m) {registry : Registry}
    (hleaf : Leaf (treeFunding root par) m root tier) :
    m.parentEntry registry root tier = none := by
  cases hp : m.parentEntry registry root tier with
  | none => rfl
  | some q =>
    obtain ⟨-,hne,hq⟩ := parentEntry_eq_some hp
    exact absurd (h.eq_root hleaf (by rw [hq]; rfl)) hne

/-- A process without an entry has funded nothing. -/
lemma Grown.owed_eq_zero (h : Grown root par tier m) {pid : ℕ} (hfresh : m.getBudget pid tier = none) :
    owed (treeFunding root par) m pid tier = 0 := by
  apply BudgetManager.owed_eq_zero
  intro j hj hf
  unfold treeFunding at hf
  split_ifs at hf with hr
  have hsome := h.parent j hj hr
  rw [Option.some.inj hf,hfresh] at hsome
  cases hsome

/-- A new entry comes above its parent, and it is nobody's parent yet. -/
lemma Grown.ranked_insert (h : Grown root par tier m) {pid : ℕ} (hfresh : m.getBudget pid tier = none)
    (hpar : (m.getBudget (par pid) tier).isSome) : ∃ rank : ℕ → ℕ,
      ∀ j, j = pid ∨ (m.getBudget j tier).isSome → j ≠ root → rank (par j) < rank j := by
  obtain ⟨rank,hrank⟩ := h.ranked
  have hnot : ∀ j, (m.getBudget j tier).isSome → j ≠ pid := by
    rintro j hj rfl
    simp [hfresh] at hj
  refine ⟨fun j => if j = pid then rank (par pid)+1 else rank j,fun j hj hr => ?_⟩
  by_cases hk : j = pid
  · subst hk
    simp [hnot (par j) hpar]
  · have hj := hj.resolve_left hk
    simp only [hk,hnot (par j) (h.parent j hj hr),if_false]
    exact hrank j hj hr

lemma Grown.allocate (h : Grown root par tier m) {childPID : ℕ} {t : ModelTier} {tokens : UInt64}
    (hfresh : m.getBudget childPID t = none)
    (ha : m.allocate (par childPID) childPID t tokens = .ok m') : Grown root par tier m' := by
  obtain ⟨parent,hp,-,hm'⟩ := allocate_ok ha
  have hpar : (m.getBudget (par childPID) t).isSome := by simp [hp]
  obtain rfl := h.single _ _ hpar
  have hchild : childPID ≠ root := by
    rintro rfl
    have := h.root_isSome hpar
    simp [hfresh] at this
  have hne : childPID ≠ par childPID := by
    intro he
    rw [← he,hfresh] at hp
    cases hp
  have hkey : ∀ j t', (m'.getBudget j t').isSome ↔ (j,t') = (childPID,t) ∨ (m.getBudget j t').isSome := by
    intro j t'
    rw [hm',getBudget,Table.get_set]
    split_ifs with hk
    · simp [hk]
    · simp only [hk,false_or]
      exact iff_of_eq (congrArg (· = true) (isSome_getBudget_set _ hp j t'))
  obtain ⟨rank,hrank⟩ := h.ranked_insert hfresh hpar
  refine ⟨h.solvent.allocate ha,h.balanced.allocate h.solvent ha hne (not_funded_of_none hfresh)
    (h.owed_eq_zero hfresh) (fun _ _ => rfl) (if_neg hchild),fun j hj hr => ?_,fun j t' hj => ?_,
    rank,fun j hj hr => hrank j (((hkey j t).mp hj).imp_left (fun he => (Prod.mk.inj he).1)) hr⟩
  · rw [hkey]
    rcases (hkey j t).mp hj with hk | hj
    · rw [(Prod.mk.inj hk).1]
      exact .inr hpar
    · exact .inr (h.parent j hj hr)
  · rcases (hkey j t').mp hj with hk | hj
    · exact (Prod.mk.inj hk).2
    · exact h.single j t' hj

lemma Grown.consume (h : Grown root par tier m) {pid : ℕ} {t : ModelTier} {tokens : UInt64}
    (hc : m.consume pid t tokens = .ok m') : Grown root par tier m' := by
  have hs := h.solvent.consume hc
  have hb := h.balanced.consume hc
  obtain ⟨entry,he,-,rfl⟩ := consume_ok hc
  have hsome : ∀ j t', (getBudget ⟨m.budgets.set (pid,t)
      { entry with consumed := entry.consumed+tokens }⟩ j t').isSome → (m.getBudget j t').isSome :=
    fun j t' hj => (isSome_getBudget_set _ he j t').symm.trans hj
  obtain ⟨rank,hrank⟩ := h.ranked
  exact ⟨hs,hb,fun j hj hr => (isSome_getBudget_set _ he _ _).trans (h.parent j (hsome j tier hj) hr),
    fun j t' hj => h.single j t' (hsome j t' hj),
    rank,fun j hj hr => hrank j (hsome j tier hj) hr⟩

lemma Grown.release (h : Grown root par tier m) {registry : Registry} {pid : ℕ} {t : ModelTier}
    (hpid : (m.getBudget pid t).isSome) (hleaf : Leaf (treeFunding root par) m pid t)
    (hp : HasParent par registry pid) : Grown root par tier (m.release registry pid t).2 := by
  obtain rfl := h.single pid t hpid
  obtain ⟨child,hc⟩ := Option.isSome_iff_exists.mp hpid
  obtain ⟨rank,hrank⟩ := h.ranked
  refine ⟨h.solvent.release registry pid t,?_,fun j hj hr => ?_,
    fun j t' hj => h.single j t' (isSome_of_release hj),
    rank,fun j hj hr => hrank j (isSome_of_release hj) hr⟩
  swap
  · have hj := isSome_of_release hj
    have hne : par j ≠ pid := fun he => hleaf (j,t) (Table.mem_keys.mpr hj) rfl (by
      rw [← he]
      exact if_neg hr)
    rw [isSome_release (fun he => hne (Prod.mk.inj he).1)]
    exact h.parent j hj hr
  by_cases hr : pid = root
  · subst hr
    rw [release_of_some hc,h.parentEntry_root hleaf]
    refine h.balanced.erase ?_ (fun _ _ => rfl)
    rintro ⟨e,k,-,-,hf,-⟩
    simp [treeFunding] at hf
  · obtain ⟨parent,hparent⟩ := h.parentEntry hpid hr hp
    exact h.balanced.releaseTo hc hparent (if_neg hr) (fun _ _ => rfl)

lemma Grown.spendStep {op : SpendOp} (h : Grown root par tier m)
    (hs : m.spendStep root par op = some m') : Grown root par tier m' := by
  cases op with
  | allocate registry parentPID childPID t tokens =>
    simp only [BudgetManager.spendStep] at hs
    split_ifs at hs with hg
    obtain ⟨-,hfresh,rfl,-⟩ := hg
    cases hs
    cases ha : m.allocate (par childPID) childPID t tokens with
    | error e => exact h
    | ok m' => exact h.allocate hfresh ha
  | consume pid t tokens =>
    simp only [BudgetManager.spendStep] at hs
    split_ifs at hs
    cases hs
    cases hc : m.consume pid t tokens with
    | error e => exact h
    | ok m' => exact h.consume hc
  | release registry pid t =>
    simp only [BudgetManager.spendStep] at hs
    split_ifs at hs with hg
    cases hs
    exact h.release hg.1 hg.2.1 hg.2.2

/-- The usable tokens of all entries together. -/
def pool (m : BudgetManager) : ℕ := m.budgets.sum (fun _ e => e.remaining.toNat)

lemma pool_set {key : ℕ × ModelTier} {e : BudgetEntry} (e' : BudgetEntry)
    (he : m.budgets.get key = some e) :
    pool ⟨m.budgets.set key e'⟩+e.remaining.toNat = pool m+e'.remaining.toNat :=
  Table.sum_set_of_some m.budgets he e' _

lemma pool_allocate (hs : m.Solvent) {parentPID childPID : ℕ} {t : ModelTier} {tokens : UInt64}
    (hfresh : m.getBudget childPID t = none)
    (ha : m.allocate parentPID childPID t tokens = .ok m') : pool m' = pool m := by
  obtain ⟨parent,hp,ht,rfl⟩ := allocate_ok ha
  have hne : ((childPID,t) : ℕ × ModelTier) ≠ (parentPID,t) := by
    intro he
    cases he
    simp [hfresh] at hp
  have hfresh' : (m.budgets.set (parentPID,t)
      { parent with reserved := parent.reserved+tokens }).get (childPID,t) = none := by
    rw [Table.get_set_of_ne hne]
    exact hfresh
  have hsp := hs _ parent hp
  obtain ⟨hadd,hsp'⟩ := hsp.reserve ht
  have hset := pool_set { parent with reserved := parent.reserved+tokens } hp
  rw [pool,Table.sum_set_of_none _ hfresh',(BudgetEntry.solvent_fresh _ _ _).remaining]
  rw [hsp.remaining,hsp'.remaining,hadd] at hset
  have hle := UInt64.le_iff_toNat_le.mp ht
  rw [hsp.remaining] at hle
  simp only [pool,UInt64.toNat_zero] at hset ⊢
  omega

lemma pool_consume (hs : m.Solvent) {pid : ℕ} {t : ModelTier} {tokens : UInt64}
    (hw : NoWrap m pid t tokens) (hc : m.consume pid t tokens = .ok m') :
    pool m'+tokens.toNat = pool m := by
  obtain ⟨entry,he,ht,rfl⟩ := consume_ok hc
  have hse := hs _ entry he
  have hadd : (entry.consumed+tokens).toNat = entry.consumed.toNat+tokens.toNat := by
    have := hw entry (by rw [he]; rfl)
    rw [UInt64.toNat_add]
    omega
  have hset := pool_set { entry with consumed := entry.consumed+tokens } he
  rw [hse.remaining,(hse.consume ht).remaining,hadd] at hset
  have hle := UInt64.le_iff_toNat_le.mp ht
  rw [hse.available,hadd] at hle
  unfold BudgetEntry.Solvent at hse
  simp only at hset
  omega

/-- A release raises the parent by the whole allocation of the child. -/
lemma Grown.remaining_unreserve (h : Grown root par tier m) {registry : Registry} {pid ppid : ℕ}
    {child parent : BudgetEntry} (hleaf : Leaf (treeFunding root par) m pid tier)
    (hc : m.getBudget pid tier = some child) (hp : HasParent par registry pid)
    (hparent : m.parentEntry registry pid tier = some (ppid,parent)) :
    (unreserve parent child.allocated).remaining.toNat =
      parent.remaining.toNat+child.allocated.toNat := by
  have hr : pid ≠ root := by
    rintro rfl
    rw [h.parentEntry_root hleaf] at hparent
    cases hparent
  obtain ⟨⟨proc,hproc,rfl⟩,hne,hq⟩ := parentEntry_eq_some hparent
  have hpar : proc.ppid = par pid := by simpa [HasParent,hproc] using hp
  have hle : child.allocated.toNat ≤ owed (treeFunding root par) m proc.ppid tier :=
    allocated_le_owed hc (by rw [hpar]; exact if_neg hr)
  rw [← h.balanced _ _ parent hq] at hle
  have hs := h.solvent _ parent hq
  rw [(hs.unreserve _).remaining,hs.remaining,BudgetEntry.toNat_reserved_unreserve]
  unfold BudgetEntry.Solvent at hs
  simp only [unreserve]
  omega

lemma pool_release_le (h : Grown root par tier m) {registry : Registry} {pid : ℕ} {t : ModelTier}
    {child : BudgetEntry} (hc : m.getBudget pid t = some child)
    (hleaf : Leaf (treeFunding root par) m pid t) (hp : HasParent par registry pid)
    (hunspent : (m.parentEntry registry pid t).isSome → child.consumed = 0) :
    pool (m.release registry pid t).2 ≤ pool m := by
  obtain rfl := h.single pid t (by rw [hc]; rfl)
  have herase : pool m = child.remaining.toNat+pool ⟨m.budgets.erase (pid,t)⟩ :=
    Table.sum_erase m.budgets hc _
  rw [release_of_some hc]
  cases hparent : m.parentEntry registry pid t with
  | none =>
    simp only
    omega
  | some q =>
    obtain ⟨ppid,parent⟩ := q
    have hne := (parentEntry_eq_some hparent).2.1
    have hget : Table.get (BudgetManager.mk (m.budgets.erase (pid,t))).budgets (ppid,t) = some parent := by
      rw [Table.get_erase_of_ne (fun he => hne (Prod.mk.inj he).1)]
      exact (parentEntry_eq_some hparent).2.2
    have hset := pool_set (unreserve parent child.allocated) hget
    rw [h.remaining_unreserve hleaf hc hp hparent] at hset
    have hreserved : child.reserved.toNat = 0 := by
      rw [h.balanced pid t child hc,hleaf.owed_eq_zero]
    have hrem := (h.solvent _ child hc).remaining
    rw [hunspent (by rw [hparent]; rfl),hreserved] at hrem
    simp only [UInt64.toNat_zero] at hrem hset ⊢
    omega

lemma consumedBy_add_pool_le (h : Grown root par tier m) {op : SpendOp}
    (hs : m.spendStep root par op = some m') (hunspent : ReleasesUnspent ⟨m,op,m'⟩) :
    consumedBy tier ⟨m,op,m'⟩+pool m' ≤ pool m := by
  cases op with
  | allocate registry parentPID childPID t tokens =>
    simp only [spendStep] at hs
    split_ifs at hs with hg
    cases hs
    simp only [consumedBy,Nat.zero_add]
    cases ha : m.allocate parentPID childPID t tokens with
    | error e => exact Nat.le_refl _
    | ok m' => exact (pool_allocate h.solvent hg.2.1 ha).le
  | consume pid t tokens =>
    simp only [spendStep] at hs
    split_ifs at hs with hg
    cases hs
    simp only [consumedBy]
    cases hc : m.consume pid t tokens with
    | error e => simp [orSame]
    | ok m' =>
      have hpool := pool_consume h.solvent hg hc
      simp only [orSame]
      split_ifs <;> omega
  | release registry pid t =>
    simp only [spendStep] at hs
    split_ifs at hs with hg
    cases hs
    obtain ⟨child,hc⟩ := Option.isSome_iff_exists.mp hg.1
    simp only [consumedBy,Nat.zero_add]
    exact pool_release_le h hc hg.2.1 hg.2.2 (hunspent child hc)

lemma spent_add_pool_le {trace : List (Transition BudgetManager SpendOp)}
    (run : Run (spendStep root par) m trace m') (h : Grown root par tier m)
    (hunspent : ∀ e ∈ trace, ReleasesUnspent e) : spent tier trace+pool m' ≤ pool m := by
  induction run with
  | nil => simp [spent]
  | @cons s t u op trace first _ ih =>
    have hfirst := consumedBy_add_pool_le h first (hunspent _ (by simp))
    have hrest := ih (h.spendStep first) (fun e he => hunspent e (by simp [he]))
    simp only [spent,List.map_cons,List.sum_cons] at hrest ⊢
    omega

lemma pool_setBudget (root : ℕ) (tier : ModelTier) (tokens : UInt64) :
    pool (new.setBudget root tier tokens) = tokens.toNat := by
  rw [setBudget_of_none rfl,pool,Table.sum_set_of_none _ rfl,(BudgetEntry.solvent_fresh _ _ _).remaining]
  simp [new]

/-- A release returns what it reports exactly if nothing was consumed. -/
lemma returnsUnused_iff (h : Grown root par tier m) {op : SpendOp}
    (hs : m.spendStep root par op = some m') :
    ReturnsUnused ⟨m,op,m'⟩ ↔ ReleasesUnspent ⟨m,op,m'⟩ := by
  cases op with
  | allocate registry parentPID childPID t tokens => exact Iff.rfl
  | consume pid t tokens => exact Iff.rfl
  | release registry pid t =>
    simp only [spendStep] at hs
    split_ifs at hs with hg
    cases hs
    obtain ⟨child,hc⟩ := Option.isSome_iff_exists.mp hg.1
    obtain rfl := h.single pid t hg.1
    have hsolv := h.solvent _ child hc
    have hunused := hsolv.unused
    unfold BudgetEntry.Solvent at hsolv
    simp only [ReturnsUnused,ReleasesUnspent]
    constructor
    · intro hret child' hc' hsome
      obtain rfl : child = child' := Option.some.inj (hc.symm.trans hc')
      obtain ⟨⟨ppid,parent⟩,hparent⟩ := Option.isSome_iff_exists.mp hsome
      obtain ⟨-,parent',hget,hrem⟩ := hret child ppid parent hc hparent
      have hraise := h.remaining_unreserve hg.2.1 hc hg.2.2 hparent
      rw [release_of_some hc,hparent] at hget hrem
      simp only [getBudget,Table.get_set_self,Option.some.injEq] at hget
      subst hget
      rw [hraise,hunused] at hrem
      apply UInt64.toNat_inj.mp
      rw [UInt64.toNat_zero]
      omega
    · intro hunspent child' ppid parent hc' hparent
      obtain rfl : child = child' := Option.some.inj (hc.symm.trans hc')
      have hzero := hunspent child hc (by rw [hparent]; rfl)
      have hraise := h.remaining_unreserve hg.2.1 hc hg.2.2 hparent
      rw [release_of_some hc,hparent]
      refine ⟨hunused,unreserve parent child.allocated,Table.get_set_self _ _ _,?_⟩
      rw [hraise,hunused,hzero,UInt64.toNat_zero,Nat.sub_zero]

/-- The tokens consumed over the whole run stay within the budget of the root, and every release
returns what it reports, exactly if the run releases nothing that was consumed from. -/
theorem conserves_iff_releasesUnspent {tokens : UInt64} {trace : List (Transition BudgetManager SpendOp)}
    (run : Run (spendStep root par) (new.setBudget root tier tokens) trace m) :
    (spent tier trace ≤ tokens.toNat ∧ ∀ e ∈ trace, ReturnsUnused e) ↔
      ∀ e ∈ trace, ReleasesUnspent e := by
  have h0 := grown_setBudget root par tier tokens
  have hsteps := (run.invariant (fun _ _ _ hs hstep => Grown.spendStep hs hstep) h0).1
  have hiff : (∀ e ∈ trace, ReturnsUnused e) ↔ ∀ e ∈ trace, ReleasesUnspent e :=
    forall₂_congr (fun e he => returnsUnused_iff (hsteps e he).1 (hsteps e he).2)
  constructor
  · exact fun h => hiff.mp h.2
  · intro hunspent
    have hle := spent_add_pool_le run h0 hunspent
    rw [pool_setBudget] at hle
    exact ⟨by omega,hiff.mpr hunspent⟩

/-- Two leads under the kernel. -/
def twoLeads : Registry :=
  (exec Registry.treeStep [.spawn 0 (Registry.agentRequest 1 "first" .lead),
    .spawn 0 (Registry.agentRequest 1 "second" .lead)] (Registry.boot 0 "king" "root" "vps1")).getD .new

/-- The parents in that table. -/
def underKernel (pid : ℕ) : ℕ := if pid = 1 then 0 else 1

/-- A grant is used while another one goes back untouched. -/
def untouchedGrant : List SpendOp :=
  [.allocate twoLeads 1 2 .opus 40,.allocate twoLeads 1 3 .opus 30,.consume 2 .opus 25,
    .release twoLeads 3 .opus,.consume 1 .opus 60]

theorem conserves_iff_releasesUnspent_untouchedGrant : ∃ trace m,
    Run (spendStep 1 underKernel) (new.setBudget 1 .opus 100) trace m ∧ spent .opus trace = 85 ∧
    (∀ e ∈ trace, ReleasesUnspent e) ∧
    (spent .opus trace ≤ (100 : UInt64).toNat ∧ ∀ e ∈ trace, ReturnsUnused e) := by
  obtain ⟨m,hm⟩ : ∃ m, exec (spendStep 1 underKernel) untouchedGrant (new.setBudget 1 .opus 100) = some m :=
    ⟨_,rfl⟩
  have hrun := Run.of_exec hm
  have hunspent : ∀ e ∈ transitions (spendStep 1 underKernel) untouchedGrant
      (new.setBudget 1 .opus 100), ReleasesUnspent e := by decide
  exact ⟨_,m,hrun,rfl,hunspent,(conserves_iff_releasesUnspent hrun).mpr hunspent⟩

/-- One grant is spent, released and granted again. -/
def spentTwice : List SpendOp :=
  [.allocate twoLeads 1 2 .opus 100,.consume 2 .opus 100,.release twoLeads 2 .opus,
    .allocate twoLeads 1 3 .opus 100,.consume 3 .opus 100]

/-- After a budget of 100, 200 tokens have been consumed. -/
theorem spent_exceeds_budget :
    ¬ ∀ (root : ℕ) (par : ℕ → ℕ) (tier : ModelTier) (tokens : UInt64)
      (trace : List (Transition BudgetManager SpendOp)) (m : BudgetManager),
      Run (spendStep root par) (new.setBudget root tier tokens) trace m →
      spent tier trace ≤ tokens.toNat ∧ ∀ e ∈ trace, ReturnsUnused e := by
  intro h
  obtain ⟨m,hm⟩ : ∃ m, exec (spendStep 1 underKernel) spentTwice (new.setBudget 1 .opus 100) = some m :=
    ⟨_,rfl⟩
  have hle := (h 1 underKernel .opus 100 _ m (Run.of_exec hm)).1
  have hspent : spent .opus (transitions (spendStep 1 underKernel) spentTwice
      (new.setBudget 1 .opus 100)) = 200 := rfl
  rw [hspent] at hle
  exact absurd hle (by decide)

end BudgetManager
end HiveKernel
