import HiveKernel.Resources.CGroupIndex

/-! What a group of processes has consumed, against its collective limit. The counter of a group and the
sum in the check are words of 64 bits; the amounts themselves are summed up beside them. -/
namespace HiveKernel
open Lib

namespace CGroup

/-- The limit of a group and what it counts against it. -/
def account (g : CGroup) : UInt64 × UInt64 := (g.maxTokensTotal,g.tokensConsumed)

end CGroup

namespace CGroupManager

/-- The groups, with the sum of all amounts that each has accepted since it was created. -/
structure GroupLedger where
  manager : CGroupManager
  accepted : String → ℕ

namespace GroupLedger

def new : GroupLedger := ⟨.new,fun _ => 0⟩

/-- An amount is accepted for the group of the process; a new group has accepted nothing. -/
def accept (l : GroupLedger) : GroupOp → String → ℕ
  | .create _ _ name _ _ _ =>
    if (l.manager.groups.get name).isSome then l.accepted else Function.update l.accepted name 0
  | .consumeTokens pid tokens =>
    match l.manager.pidGroup.get pid,l.manager.consumeTokens pid tokens with
    | some name,.ok _ => Function.update l.accepted name (l.accepted name+tokens.toNat)
    | _,_ => l.accepted
  | _ => l.accepted

def ledgerStep (l : GroupLedger) (op : GroupOp) : Option GroupLedger :=
  (groupStep l.manager op).map (fun m => ⟨m,l.accept op⟩)

/-- No group with a limit has accepted more than that. -/
def WithinLimits (l : GroupLedger) : Prop :=
  ∀ name g, l.manager.groups.get name = some g → 0 < g.maxTokensTotal →
    l.accepted name ≤ g.maxTokensTotal.toNat

/-- A call is rejected only if the process is in a group that would exceed its limit. -/
def RejectsFairly (l : GroupLedger) : GroupOp → Prop
  | .consumeTokens pid tokens =>
    ∀ e, l.manager.consumeTokens pid tokens = .error e →
      ∃ name g, l.manager.pidGroup.get pid = some name ∧ l.manager.groups.get name = some g ∧
        0 < g.maxTokensTotal ∧ g.maxTokensTotal.toNat < l.accepted name+tokens.toNat
  | _ => True

/-- The sum that is compared with the limit of the group does not wrap. -/
def Fits (l : GroupLedger) : GroupOp → Prop
  | .consumeTokens pid tokens =>
    ∀ g, l.manager.getByPID pid = some g → 0 < g.maxTokensTotal →
      g.tokensConsumed.toNat+tokens.toNat < 2^64
  | _ => True

/-- The counter of a group with a limit is what it has accepted, and within the limit. -/
def Counted (l : GroupLedger) : Prop :=
  ∀ name g, l.manager.groups.get name = some g → 0 < g.maxTokensTotal →
    g.tokensConsumed.toNat = l.accepted name ∧ l.accepted name ≤ g.maxTokensTotal.toNat

end GroupLedger

variable {m m' : CGroupManager}

lemma tokensConsumed_foldl_record (name : String) (acc : CGroup × Table ℕ String) (pids : List ℕ) :
    (pids.foldl (record name) acc).1.tokensConsumed = acc.1.tokensConsumed := by
  induction pids generalizing acc with
  | nil => rfl
  | cons pid pids ih => exact ih (record name acc pid)

/-- A new group has consumed nothing. -/
lemma tokensConsumed_create {r : Registry} {order : List ℕ → List ℕ} {name : String} {rootPID : ℕ}
    {maxTokens : UInt64} {maxProcs : ℤ} {g : CGroup}
    (h : m.create r order name rootPID maxTokens maxProcs = some (.ok (g,m'))) : g.tokensConsumed = 0 := by
  unfold create at h
  split_ifs at h
  · cases h
  · split at h
    · cases h
    · obtain ⟨ds,-,h⟩ := Option.map_eq_some_iff.mp h
      cases h
      exact tokensConsumed_foldl_record name _ _

/-- The accounts of all groups are the old ones, as far as the groups are. -/
def SameAccounts (m m' : CGroupManager) : Prop :=
  ∀ name g', m'.groups.get name = some g' → ∃ g, m.groups.get name = some g ∧ g.account = g'.account

lemma SameAccounts.refl (m : CGroupManager) : m.SameAccounts m :=
  fun _ g' hg' => ⟨g',hg',rfl⟩

lemma sameAccounts_removeProcess (m : CGroupManager) (pid : ℕ) : m.SameAccounts (m.removeProcess pid) := by
  intro name g' hg'
  rw [groups_removeProcess] at hg'
  split_ifs at hg'
  · obtain ⟨g,hg,rfl⟩ := Option.map_eq_some_iff.mp hg'
    exact ⟨g,hg,rfl⟩
  · exact ⟨g',hg',rfl⟩

lemma sameAccounts_addProcess {name : String} {pid : ℕ} (h : m.addProcess name pid = .ok m') :
    m.SameAccounts m' := by
  rcases addProcess_ok h with ⟨rfl,-⟩ | ⟨-,-,-,-,hgroups,-⟩
  · exact .refl m'
  · intro n g' hg'
    rw [hgroups,get_enter] at hg'
    split_ifs at hg'
    · obtain ⟨g₁,hg₁,rfl⟩ := Option.map_eq_some_iff.mp hg'
      exact sameAccounts_removeProcess m pid n g₁ hg₁
    · exact sameAccounts_removeProcess m pid n g' hg'

lemma sameAccounts_delete {order : List ℕ} {name : String} (h : m.delete order name = .ok m') :
    m.SameAccounts m' := by
  unfold CGroupManager.delete at h
  split at h
  · cases h
  · cases h
    intro n g' hg'
    exact ⟨g',(Table.get_erase_some hg').2,rfl⟩

/-- The group with the amount added to its counter. -/
def charge (m : CGroupManager) (name : String) (g : CGroup) (tokens : UInt64) : CGroupManager :=
  { m with groups := m.groups.set name { g with tokensConsumed := g.tokensConsumed+tokens } }

/-- A call finds no group, or it is decided by a comparison of words. -/
lemma consumeTokens_cases (m : CGroupManager) (pid : ℕ) (tokens : UInt64) :
    (m.getByPID pid = none ∧ m.consumeTokens pid tokens = .ok m) ∨
    ∃ name g, m.pidGroup.get pid = some name ∧ m.groups.get name = some g ∧ m.getByPID pid = some g ∧
      ((0 < g.maxTokensTotal ∧ g.maxTokensTotal < g.tokensConsumed+tokens ∧
          ∃ e, m.consumeTokens pid tokens = .error e) ∨
        ((0 < g.maxTokensTotal → g.tokensConsumed+tokens ≤ g.maxTokensTotal) ∧
          m.consumeTokens pid tokens = .ok (m.charge name g tokens))) := by
  cases hg : m.getByPID pid with
  | none => exact .inl ⟨rfl,by simp only [consumeTokens,hg]⟩
  | some g =>
    right
    unfold getByPID at hg
    cases hi : m.pidGroup.get pid with
    | none => simp [hi] at hg
    | some name =>
      simp only [hi] at hg
      have hby : m.getByPID pid = some g := by simp only [getByPID,hi,hg]
      refine ⟨name,g,rfl,hg,rfl,?_⟩
      simp only [consumeTokens,hby,hi,Option.getD_some]
      split_ifs with hlimit
      · exact .inl ⟨hlimit.1,hlimit.2,_,rfl⟩
      · exact .inr ⟨fun hmax => UInt64.not_lt.mp (fun hlt => hlimit ⟨hmax,hlt⟩),rfl⟩

namespace GroupLedger
variable {l l' : GroupLedger} {op : GroupOp}

lemma Counted.within (h : l.Counted) : l.WithinLimits :=
  fun name g hg hmax => (h name g hg hmax).2

lemma Counted.of_sameAccounts (h : l.Counted) (hs : l.manager.SameAccounts m') :
    Counted ⟨m',l.accepted⟩ := by
  intro name g' hg' hmax
  obtain ⟨g,hg,he⟩ := hs name g' hg'
  simp only [CGroup.account,Prod.mk.injEq] at he
  obtain ⟨hlimit,hconsumed⟩ := he
  rw [← hlimit] at hmax ⊢
  rw [← hconsumed]
  exact h name g hg hmax

/-- Nothing is known of a name without a group. -/
lemma Counted.update_of_none (h : l.Counted) {name : String} (hnone : l.manager.groups.get name = none)
    (k : ℕ) : Counted ⟨l.manager,Function.update l.accepted name k⟩ := by
  intro n g hg hmax
  have hne : n ≠ name := by
    rintro rfl
    cases hnone.symm.trans hg
  simp only [Function.update_of_ne hne]
  exact h n g hg hmax

lemma Counted.set (h : l.Counted) (name : String) {g : CGroup} {k : ℕ}
    (hg : 0 < g.maxTokensTotal → g.tokensConsumed.toNat = k ∧ k ≤ g.maxTokensTotal.toNat) :
    Counted ⟨{ l.manager with groups := l.manager.groups.set name g },Function.update l.accepted name k⟩ := by
  intro n g₁ hg₁ hmax
  rcases Table.get_set_some hg₁ with ⟨rfl,rfl⟩ | ⟨hne,hg₁⟩
  · simp only [Function.update_self]
    exact hg hmax
  · simp only [Function.update_of_ne hne]
    exact h n g₁ hg₁ hmax

/-- A creation keeps the counters: a refused one changes no group, and a new group has used nothing. -/
lemma Counted.create (h : l.Counted) {r : Registry} {visits : r.Visits} {name : String} {rootPID : ℕ}
    {maxTokens : UInt64} {maxProcs : ℤ}
    (hs : l.ledgerStep (.create r visits name rootPID maxTokens maxProcs) = some l') : l'.Counted := by
  obtain ⟨m',hm,rfl⟩ := Option.map_eq_some_iff.mp hs
  simp only [accept]
  rcases groupStep_create hm with ⟨rfl,-⟩ | ⟨g,hc⟩
  · split_ifs with hname
    · exact h
    · exact h.update_of_none (Option.not_isSome_iff_eq_none.mp hname) 0
  · obtain ⟨hname,-,-,-,-,hgroups,-⟩ := create_spec hc
    have hused := tokensConsumed_create hc
    have hset := h.set name (g := g) (k := 0) (fun _ => by rw [hused]; exact ⟨rfl,Nat.zero_le _⟩)
    rw [if_neg (by simp [hname])]
    intro n g₁ hg₁
    rw [hgroups] at hg₁
    exact hset n g₁ hg₁

/-- A call of a process without a group changes no counter. -/
lemma Counted.consume_none (h : l.Counted) {pid : ℕ} {tokens : UInt64}
    (hnone : l.manager.getByPID pid = none) :
    Counted ⟨l.manager,l.accept (.consumeTokens pid tokens)⟩ := by
  simp only [accept]
  split
  · next name _ hi _ =>
    refine h.update_of_none ?_ _
    simpa only [getByPID,hi] using hnone
  · exact h

/-- A rejected call had no room: the sum did not wrap, or it would have been below the counter. -/
lemma Counted.exceeds_of_lt (h : l.Counted) {name : String} {g : CGroup} {tokens : UInt64}
    (hg : l.manager.groups.get name = some g) (hmax : 0 < g.maxTokensTotal)
    (hlt : g.maxTokensTotal < g.tokensConsumed+tokens) :
    g.tokensConsumed.toNat+tokens.toNat < 2^64 ∧ g.maxTokensTotal.toNat < l.accepted name+tokens.toNat := by
  obtain ⟨hc,hle⟩ := h name g hg hmax
  have ht := tokens.toNat_lt
  rw [UInt64.lt_iff_toNat_lt,UInt64.toNat_add] at hlt
  omega

/-- An accepted amount is within the limit exactly if the sum did not wrap. -/
lemma Counted.fits_iff_of_le (h : l.Counted) {name : String} {g : CGroup} {tokens : UInt64}
    (hg : l.manager.groups.get name = some g) (hmax : 0 < g.maxTokensTotal)
    (hle : g.tokensConsumed+tokens ≤ g.maxTokensTotal) :
    (l.accepted name+tokens.toNat ≤ g.maxTokensTotal.toNat ↔
      g.tokensConsumed.toNat+tokens.toNat < 2^64) ∧
    (g.tokensConsumed.toNat+tokens.toNat < 2^64 →
      (g.tokensConsumed+tokens).toNat = l.accepted name+tokens.toNat) := by
  obtain ⟨hc,-⟩ := h name g hg hmax
  have hm := g.maxTokensTotal.toNat_lt
  rw [UInt64.le_iff_toNat_le] at hle
  rw [UInt64.toNat_add] at hle ⊢
  omega

lemma fits_iff {pid : ℕ} {tokens : UInt64} {g : CGroup} (hby : l.manager.getByPID pid = some g) :
    l.Fits (.consumeTokens pid tokens) ↔
      (0 < g.maxTokensTotal → g.tokensConsumed.toNat+tokens.toNat < 2^64) := by
  constructor
  · intro hf
    exact hf g hby
  · intro hf g' hg'
    obtain rfl := Option.some.inj (hby.symm.trans hg')
    exact hf

lemma rejectsFairly_of_ok {pid : ℕ} {tokens : UInt64}
    (hok : l.manager.consumeTokens pid tokens = .ok m') : l.RejectsFairly (.consumeTokens pid tokens) := by
  intro e he
  rw [hok] at he
  cases he

/-- An accepted amount keeps the counters exactly if it keeps the group within its limit. -/
lemma Counted.charge_iff (h : l.Counted) {pid : ℕ} {tokens : UInt64} {name : String} {g : CGroup}
    (hg : l.manager.groups.get name = some g) (hby : l.manager.getByPID pid = some g)
    (hle : 0 < g.maxTokensTotal → g.tokensConsumed+tokens ≤ g.maxTokensTotal) :
    let after : GroupLedger := ⟨l.manager.charge name g tokens,
      Function.update l.accepted name (l.accepted name+tokens.toNat)⟩
    (after.WithinLimits ↔ l.Fits (.consumeTokens pid tokens)) ∧
      (l.Fits (.consumeTokens pid tokens) → after.Counted) := by
  intro after
  have hcounted : l.Fits (.consumeTokens pid tokens) → after.Counted := by
    intro hf
    apply h.set name
    intro hmax
    obtain ⟨hiff,hsum⟩ := h.fits_iff_of_le hg hmax (hle hmax)
    have hlt := (fits_iff hby).mp hf hmax
    exact ⟨hsum hlt,hiff.mpr hlt⟩
  refine ⟨⟨fun hwithin => (fits_iff hby).mpr (fun hmax => ?_),fun hf => (hcounted hf).within⟩,hcounted⟩
  have hname := hwithin name _ (Table.get_set_self _ _ _) hmax
  simp only [after,Function.update_self] at hname
  exact (h.fits_iff_of_le hg hmax (hle hmax)).1.mp hname

/-- The step of a call: what was good stays good exactly if the sum does not wrap. -/
lemma Counted.consumeTokens_iff (h : l.Counted) {pid : ℕ} {tokens : UInt64}
    (hs : l.ledgerStep (.consumeTokens pid tokens) = some l') :
    (l'.WithinLimits ∧ l.RejectsFairly (.consumeTokens pid tokens) ↔ l.Fits (.consumeTokens pid tokens)) ∧
      (l.Fits (.consumeTokens pid tokens) → l'.Counted) := by
  obtain ⟨m',hm,rfl⟩ := Option.map_eq_some_iff.mp hs
  cases hm
  rcases consumeTokens_cases l.manager pid tokens with
    ⟨hnone,hok⟩ | ⟨name,g,hi,hg,hby,⟨hmax,hlt,e,hrejected⟩ | ⟨hle,hok⟩⟩
  · have hcounted : Counted ⟨l.manager,l.accept (.consumeTokens pid tokens)⟩ := h.consume_none hnone
    rw [hok]
    refine ⟨iff_of_true ⟨hcounted.within,rejectsFairly_of_ok hok⟩ ?_,fun _ => hcounted⟩
    intro g hg
    cases hnone.symm.trans hg
  · obtain ⟨hfits,hexceeds⟩ := h.exceeds_of_lt hg hmax hlt
    have hsame : Counted ⟨l.manager,l.accept (.consumeTokens pid tokens)⟩ := by
      simp only [accept,hi,hrejected]
      exact h
    rw [hrejected]
    exact ⟨iff_of_true ⟨hsame.within,fun _ _ => ⟨name,g,hi,hg,hmax,hexceeds⟩⟩
      ((fits_iff hby).mpr (fun _ => hfits)),fun _ => hsame⟩
  · have haccept : l.accept (.consumeTokens pid tokens) =
        Function.update l.accepted name (l.accepted name+tokens.toNat) := by
      simp only [accept,hi,hok]
    obtain ⟨hiff,hcounted⟩ := h.charge_iff hg hby hle
    rw [hok,haccept]
    exact ⟨(and_iff_left (rejectsFairly_of_ok hok)).trans hiff,hcounted⟩

/-- Every operation but a call keeps the counters. -/
lemma Counted.step_of_not_call (h : l.Counted) (hs : l.ledgerStep op = some l')
    (hop : ∀ pid tokens, op ≠ .consumeTokens pid tokens) : l'.Counted := by
  cases op with
  | create r visits name rootPID maxTokens maxProcs => exact h.create hs
  | delete order name =>
    obtain ⟨m',hm,rfl⟩ := Option.map_eq_some_iff.mp hs
    simp only [groupStep] at hm
    split_ifs at hm
    cases hm
    cases hd : l.manager.delete order name with
    | error e => exact h
    | ok m₁ => exact h.of_sameAccounts (sameAccounts_delete hd)
  | addProcess name pid =>
    obtain ⟨m',hm,rfl⟩ := Option.map_eq_some_iff.mp hs
    cases hm
    cases ha : l.manager.addProcess name pid with
    | error e => exact h
    | ok m₁ => exact h.of_sameAccounts (sameAccounts_addProcess ha)
  | removeProcess pid =>
    obtain ⟨m',hm,rfl⟩ := Option.map_eq_some_iff.mp hs
    cases hm
    exact h.of_sameAccounts (sameAccounts_removeProcess l.manager pid)
  | consumeTokens pid tokens => exact absurd rfl (hop pid tokens)

/-- One operation: every group stays within its limit and a rejection is due exactly if the sum fits. -/
lemma Counted.step_iff (h : l.Counted) (hs : l.ledgerStep op = some l') :
    (l'.WithinLimits ∧ l.RejectsFairly op ↔ l.Fits op) ∧ (l.Fits op → l'.Counted) := by
  cases op with
  | consumeTokens pid tokens => exact h.consumeTokens_iff hs
  | create r visits name rootPID maxTokens maxProcs
  | delete order name
  | addProcess name pid
  | removeProcess pid =>
    have hcounted := h.step_of_not_call hs (by intro pid tokens hop; cases hop)
    exact ⟨iff_of_true ⟨hcounted.within,trivial⟩ trivial,fun _ => hcounted⟩

lemma counted_new : new.Counted := by
  intro name g hg
  cases hg

/-- In every run of operations on groups, all groups stay within their limits and all rejections are due
exactly if no sum in a check wraps. -/
theorem withinLimits_iff_fits_of_run {trace : List (Transition GroupLedger GroupOp)}
    (run : Run ledgerStep new trace l) :
    (∀ e ∈ trace, e.target.WithinLimits ∧ e.source.RejectsFairly e.label) ↔
      ∀ e ∈ trace, e.source.Fits e.label :=
  run.good_iff_allowed_of_legal Counted (fun e => e.target.WithinLimits ∧ e.source.RejectsFairly e.label)
    (fun _ _ => True) Fits (fun _ _ _ h _ hs => h.step_iff hs) counted_new (fun _ _ => trivial)

/-- A group of the queen and her worker that may use a hundred tokens. -/
def createHundred : GroupOp := .create queenAndWorker visitQueen "grp1" 2 100 10

/-- Sixty tokens are used, fifty more are rejected, and forty fill the group. -/
theorem withinLimits_iff_fits_of_run_full : ∃ trace l,
    Run ledgerStep new trace l ∧ l.accepted "grp1" = 100 ∧
      ∀ e ∈ trace, e.target.WithinLimits ∧ e.source.RejectsFairly e.label := by
  obtain ⟨l₁,l₂,l₃,l₄,h₁,h₂,h₃,h₄,hfits,hfull⟩ : ∃ l₁ l₂ l₃ l₄, new.ledgerStep createHundred = some l₁ ∧
      l₁.ledgerStep (.consumeTokens 3 60) = some l₂ ∧ l₂.ledgerStep (.consumeTokens 2 50) = some l₃ ∧
      l₃.ledgerStep (.consumeTokens 2 40) = some l₄ ∧
      (∃ g₁ g₂ g₃, l₁.manager.getByPID 3 = some g₁ ∧ g₁.tokensConsumed = 0 ∧
        l₂.manager.getByPID 2 = some g₂ ∧ g₂.tokensConsumed = 60 ∧
        l₃.manager.getByPID 2 = some g₃ ∧ g₃.tokensConsumed = 60) ∧ l₄.accepted "grp1" = 100 :=
    ⟨_,_,_,_,rfl,rfl,rfl,rfl,⟨_,_,_,rfl,rfl,rfl,rfl,rfl,rfl⟩,rfl⟩
  obtain ⟨g₁,g₂,g₃,hg₁,hc₁,hg₂,hc₂,hg₃,hc₃⟩ := hfits
  have hrun := Run.cons h₁ (.cons h₂ (.cons h₃ (.cons h₄ (.nil l₄))))
  refine ⟨_,l₄,hrun,hfull,(withinLimits_iff_fits_of_run hrun).mpr ?_⟩
  simp only [List.forall_mem_cons,List.not_mem_nil,false_implies,implies_true,and_true]
  refine ⟨trivial,(fits_iff hg₁).mpr (fun _ => ?_),(fits_iff hg₂).mpr (fun _ => ?_),
    (fits_iff hg₃).mpr (fun _ => ?_)⟩
  · rw [hc₁]; decide
  · rw [hc₂]; decide
  · rw [hc₃]; decide

/-- Sixty tokens are used, and ten less than `2^64` more are accepted. -/
theorem limit_exceeded_by_wrapping : ¬∀ (trace : List (Transition GroupLedger GroupOp)) (l : GroupLedger),
    Run ledgerStep new trace l → ∀ e ∈ trace, e.target.WithinLimits ∧ e.source.RejectsFairly e.label := by
  intro h
  obtain ⟨l₁,l₂,l₃,h₁,h₂,h₃,⟨g,hg,hmax⟩,hsum⟩ : ∃ l₁ l₂ l₃, new.ledgerStep createHundred = some l₁ ∧
      l₁.ledgerStep (.consumeTokens 3 60) = some l₂ ∧
      l₂.ledgerStep (.consumeTokens 2 18446744073709551606) = some l₃ ∧
      (∃ g, l₃.manager.groups.get "grp1" = some g ∧ g.maxTokensTotal = 100) ∧
      l₃.accepted "grp1" = 18446744073709551666 := ⟨_,_,_,rfl,rfl,rfl,⟨_,rfl,rfl⟩,rfl⟩
  have hrun := Run.cons h₁ (.cons h₂ (.cons h₃ (.nil l₃)))
  have hwithin := (h _ l₃ hrun ⟨l₂,.consumeTokens 2 18446744073709551606,l₃⟩ (by simp)).1 "grp1" g hg
    (by rw [hmax]; decide)
  rw [hmax,hsum] at hwithin
  revert hwithin
  decide

end GroupLedger
end CGroupManager
end HiveKernel
