import HiveKernel.Kernel.KernelBudget
import HiveKernel.Resources.Ledger

/-! The ledger of reservations of the running kernel. Nothing in the kernel records from which entry
an entry was allocated, so the state is extended by that record. The reservations add up as long as
no entry that counts is overwritten by a second grant, left behind by a failed spawn or a scan, or
released to another process than the one that funded it. -/
namespace HiveKernel
open Lib BudgetManager

/-- The kernel, with the process from whose entry each entry was last allocated. -/
structure Audit where
  system : System
  funding : Funding

namespace Audit

/-- The record after a spawn that was funded. -/
def fundedBy (k : King) (funding : Funding) (req : SpawnRequest) : Funding :=
  let tier := tierFromCog req.cognitiveTier
  if 0 < req.limits.maxTokensTotal then
    Function.update funding (k.registry.nextPID,tier)
      ((k.budget.getBudget req.parentPID tier).map (fun _ => req.parentPID))
  else funding

/-- The record after a step. -/
def fundingAfter (s : System) (funding : Funding) : KernelOp → Funding
  | .spawnChild now _ req =>
    if s.king.Accepts now req ∧ (King.fund s.king.budget req s.king.registry.nextPID).isOk
    then fundedBy s.king funding req else funding
  | .requestResources pid amount =>
    match s.king.registry.get pid with
    | none => funding
    | some proc =>
      let tier := tierFromCog proc.cognitiveTier
      if (s.king.budget.allocate proc.ppid pid tier amount).isOk
      then Function.update funding (pid,tier) (some proc.ppid) else funding
  | .release pid tier => Function.update funding (pid,tier) none
  | .releaseAll pid => Function.update (Function.update (Function.update funding (pid,.opus) none)
      (pid,.sonnet) none) (pid,.mini) none
  | _ => funding

def step (a : Audit) (op : KernelOp) : Option Audit :=
  (a.system.step op).map (fun s => ⟨s,fundingAfter a.system a.funding op⟩)

def boot (cfg : Config) (now : ℤ) (runtime : Option RuntimeManager) : Audit :=
  ⟨System.boot cfg now runtime,fun _ => none⟩

/-- Every entry has reserved the sum of the allocations of its tier that belong to registered
processes and were funded from it. -/
def Reconciled (a : Audit) : Prop :=
  ∀ pid tier e, a.system.king.budget.getBudget pid tier = some e →
    e.reserved.toNat = a.system.king.budget.budgets.sum (fun key e' =>
      if key.2 = tier ∧ a.funding key = some pid ∧ (a.system.king.registry.get key.1).isSome
      then e'.allocated.toNat else 0)

/-- A second grant does not overwrite an entry that counts, and nothing has been funded from the
requester before. -/
def GrantsOnce (a : Audit) (pid : ℕ) (amount : UInt64) : Prop :=
  ∀ proc parent, a.system.king.registry.get pid = some proc →
    a.system.king.budget.getBudget proc.ppid (tierFromCog proc.cognitiveTier) = some parent →
    amount ≤ parent.remaining →
    ¬Funded a.funding a.system.king.budget pid (tierFromCog proc.cognitiveTier) ∧
      owed a.funding a.system.king.budget pid (tierFromCog proc.cognitiveTier) = 0

/-- The runtime of a process that is funded from its parent's entry starts. -/
def StartsFunded (s : System) (now : ℤ) (launch : Except String String) (req : SpawnRequest) : Prop :=
  ∀ parent, s.king.Accepts now req → 0 < req.limits.maxTokensTotal →
    s.king.budget.getBudget req.parentPID (tierFromCog req.cognitiveTier) = some parent →
    req.limits.maxTokensTotal ≤ parent.remaining →
    ¬s.king.LaunchFails req s.king.registry.nextPID launch

/-- What a step must not do. -/
def KeepsLedger (a : Audit) : KernelOp → Prop
  | .spawnChild now launch req => StartsFunded a.system now launch req
  | .requestResources pid amount => a.GrantsOnce pid amount
  | .release pid tier =>
    ReleasesToFunder a.funding a.system.king.budget a.system.king.registry pid tier
  | .releaseAll pid => ∀ tier,
    ReleasesToFunder a.funding a.system.king.budget a.system.king.registry pid tier
  | .reapZombies now _ _ => ∀ pid tier p, Funded a.funding a.system.king.budget pid tier →
    a.system.king.registry.get pid = some p → ¬Registry.TimedOut a.system.king.supervisor.config now p
  | _ => True

/-- The invariant of the record: it balances, whatever counts belongs to a registered process, and
only existing processes have funded anything. -/
structure Kept (funding : Funding) (s : System) : Prop where
  balanced : Balanced funding s.king.budget
  registered : ∀ pid tier, Funded funding s.king.budget pid tier → (s.king.registry.get pid).isSome
  funders : ∀ key k, funding key = some k → k < s.king.registry.nextPID

variable {funding : Funding} {s s' : System} {op : KernelOp}

/-- Entries of other processes do not count anywhere. -/
lemma Kept.reconciled (h : Kept funding s) : Reconciled ⟨s,funding⟩ := by
  intro pid tier e he
  refine (h.balanced pid tier e he).trans ?_
  apply Table.sum_congr
  rintro ⟨j,t⟩ e' he'
  simp only [share]
  by_cases hlink : t = tier ∧ funding (j,t) = some pid
  · obtain ⟨rfl,hf⟩ := hlink
    by_cases hzero : e'.allocated = 0
    · simp [hzero]
    · have hreg := h.registered j t ⟨e',pid,he',hzero,hf,Option.isSome_iff_exists.mpr ⟨e,he⟩⟩
      rw [if_pos ⟨rfl,hf⟩,if_pos ⟨rfl,hf,hreg⟩]
  · rw [if_neg hlink,if_neg (fun hx => hlink ⟨hx.1,hx.2.1⟩)]

/-- A step that leaves the budgets alone and unregisters no process whose entry counts. -/
lemma Kept.of_same_budget (h : Kept funding s) (hb : s'.king.budget = s.king.budget)
    (hn : s.king.registry.nextPID ≤ s'.king.registry.nextPID)
    (hreg : ∀ pid tier, Funded funding s.king.budget pid tier → (s'.king.registry.get pid).isSome) :
    Kept funding s' := by
  refine ⟨hb ▸ h.balanced,fun pid tier hf => ?_,fun key k hk => Nat.lt_of_lt_of_le (h.funders key k hk) hn⟩
  rw [hb] at hf
  exact hreg pid tier hf

lemma Kept.owed_nextPID (h : Kept funding s) (tier : ModelTier) :
    owed funding s.king.budget s.king.registry.nextPID tier = 0 := by
  apply owed_eq_zero
  intro j _ hf
  exact absurd (h.funders _ _ hf) (Nat.lt_irrefl _)

lemma update_agrees (funding : Funding) (key : ℕ × ModelTier) (v : Option ℕ) :
    ∀ j, j ≠ key → Function.update funding key v j = funding j :=
  fun _ hj => Function.update_of_ne hj v funding

lemma funders_update {n : ℕ} (h : ∀ key k, funding key = some k → k < n) (key : ℕ × ModelTier)
    {v : Option ℕ} (hv : ∀ k, v = some k → k < n) :
    ∀ j k, Function.update funding key v j = some k → k < n := by
  intro j k hk
  by_cases hj : j = key
  · rw [hj,Function.update_self] at hk
    exact hv k hk
  · rw [Function.update_of_ne hj] at hk
    exact h j k hk

/-- What `fund` does to the ledger: the entry of the new process may count afterwards, no other. -/
lemma Kept.fund {req : SpawnRequest} {budget : BudgetManager} (h : Kept funding s) (hs : s.Sound)
    (hf : King.fund s.king.budget req s.king.registry.nextPID = .ok budget)
    (hparent : req.parentPID < s.king.registry.nextPID) :
    Balanced (fundedBy s.king funding req) budget ∧
    (∀ key k, fundedBy s.king funding req key = some k → k < s.king.registry.nextPID) ∧
    ∀ pid tier, Funded (fundedBy s.king funding req) budget pid tier →
      Funded funding s.king.budget pid tier ∨ (pid = s.king.registry.nextPID ∧
        0 < req.limits.maxTokensTotal ∧ ∃ parent,
        s.king.budget.getBudget req.parentPID (tierFromCog req.cognitiveTier) = some parent ∧
        req.limits.maxTokensTotal ≤ parent.remaining) := by
  have hfresh := hs.fresh (tierFromCog req.cognitiveTier)
  have hzero := h.owed_nextPID (tierFromCog req.cognitiveTier)
  have hagree := update_agrees funding (s.king.registry.nextPID,tierFromCog req.cognitiveTier)
  unfold fundedBy
  rcases King.fund_cases hf with ⟨hn,rfl⟩ | ⟨hpos,⟨parent,hp,ha⟩ | ⟨hp,rfl⟩⟩
  · rw [hn,if_neg (by decide)]
    exact ⟨h.balanced,h.funders,fun _ _ hfd => .inl hfd⟩
  · obtain ⟨parent',hp',ht,-⟩ := allocate_ok ha
    obtain rfl : parent = parent' := Option.some.inj (hp.symm.trans hp')
    simp only [hpos,if_true,hp,Option.map_some]
    refine ⟨h.balanced.allocate hs.solvent ha hparent.ne' (not_funded_of_none hfresh) hzero (hagree _)
        (Function.update_self _ _ _),
      funders_update h.funders _ (fun k hk => Option.some.inj hk ▸ hparent),fun pid tier hfd => ?_⟩
    rcases Funded.of_allocate ha hzero (hagree _) hfd with hkey | hfd
    · cases hkey
      exact .inr ⟨rfl,trivial,parent,rfl,ht⟩
    · exact .inl hfd
  · simp only [hpos,if_true,hp,Option.map_none]
    refine ⟨h.balanced.setBudget _ hfresh hzero (hagree _) (Function.update_self _ _ _),
      funders_update h.funders _ (by simp),fun pid tier hfd => .inl ?_⟩
    exact Funded.of_setBudget hfresh hzero (hagree _) (Function.update_self _ _ _) hfd

lemma Kept.spawnChild (h : Kept funding s) (hs : s.Sound) {now : ℤ} {launch : Except String String}
    {req : SpawnRequest} (hstarts : StartsFunded s now launch req) :
    Kept (fundingAfter s funding (.spawnChild now launch req))
      ⟨(s.king.spawnChild now launch req).2,s.pending⟩ := by
  rcases King.spawnChild_effect s.king now launch req with ⟨hnot,e,he⟩ | ⟨parent,heff⟩
  · rw [fundingAfter,if_neg (fun hx => hnot hx.1)]
    simp only [he]
    exact h
  have hnext := heff.nextPID
  have hparent := (Registry.get_bound heff.admitted.found).2
  rcases heff.outcome with ⟨-,⟨e,he⟩,hb,hget⟩ | ⟨-,hfails,hf,hget⟩ | ⟨addr,-,-,hf,hget⟩
  · rw [fundingAfter,if_neg (by simp [he,Except.isOk,Except.toBool])]
    refine h.of_same_budget hb (by simp only [hnext]; omega) (fun pid tier hfd => ?_)
    rw [hget]
    exact h.registered pid tier hfd
  · obtain ⟨hbal,hfund,hfd⟩ := h.fund hs hf hparent
    rw [fundingAfter,if_pos ⟨heff.accepts,by rw [hf]; rfl⟩]
    refine ⟨hbal,fun pid tier hx => ?_,fun key k hk => ?_⟩
    · rcases hfd pid tier hx with hx | ⟨-,hpos,parent,hp,hle⟩
      · rw [hget]
        exact h.registered pid tier hx
      · exact absurd hfails (hstarts parent heff.accepts hpos hp hle)
    · have := hfund key k hk
      simp only [hnext]
      omega
  · obtain ⟨hbal,hfund,hfd⟩ := h.fund hs hf hparent
    rw [fundingAfter,if_pos ⟨heff.accepts,by rw [hf]; rfl⟩]
    refine ⟨hbal,fun pid tier hx => ?_,fun key k hk => ?_⟩
    · rw [hget]
      split_ifs with hpid
      · rfl
      · exact h.registered pid tier ((hfd pid tier hx).resolve_right (fun hn => hpid hn.1))
    · have := hfund key k hk
      simp only [hnext]
      omega

lemma Kept.requestResources (h : Kept funding s) (hs : s.Sound) (ho : s.king.registry.Ordered) {pid : ℕ}
    {amount : UInt64} (honce : GrantsOnce ⟨s,funding⟩ pid amount) :
    Kept (fundingAfter s funding (.requestResources pid amount))
      ⟨(s.king.requestResources pid amount).2,s.pending⟩ := by
  cases hp : s.king.registry.get pid with
  | none =>
    simp only [fundingAfter,King.requestResources,hp]
    exact h
  | some proc =>
    simp only [fundingAfter,King.requestResources,hp]
    cases ha : s.king.budget.allocate proc.ppid pid (tierFromCog proc.cognitiveTier) amount with
    | error e => exact h
    | ok budget =>
      obtain ⟨parent,hparent,hle,-⟩ := allocate_ok ha
      obtain ⟨hn,hzero⟩ := honce proc parent hp hparent hle
      have hlt := ho.ppid_lt hp
      have hbound := (Registry.get_bound hp).2
      have hagree := update_agrees funding (pid,tierFromCog proc.cognitiveTier) (some proc.ppid)
      change Kept (Function.update funding (pid,tierFromCog proc.cognitiveTier) (some proc.ppid))
        ⟨{ s.king with budget := budget },s.pending⟩
      refine ⟨h.balanced.allocate hs.solvent ha hlt.ne' hn hzero hagree (Function.update_self _ _ _),
        fun j tier hfd => ?_,funders_update h.funders _ (fun k hk => ?_)⟩
      swap
      · cases hk
        exact hlt.trans hbound
      rcases Funded.of_allocate ha hzero hagree hfd with hkey | hfd
      · cases hkey
        simp [hp]
      · exact h.registered j tier hfd

lemma Kept.reportMetric (h : Kept funding s) (now : ℤ) (pid : ℕ) (tokens : UInt64) :
    Kept funding ⟨s.king.reportMetric now pid tokens,s.pending⟩ := by
  have hn := King.reportMetric_nextPID s.king now pid tokens
  have hreg : ∀ j, ((s.king.reportMetric now pid tokens).registry.get j).isSome =
      (s.king.registry.get j).isSome :=
    fun j => (System.rewritten_reportMetric s.king now pid tokens j).isSome
  rcases King.reportMetric_cases s.king now pid tokens with hb | ⟨tier,hc⟩
  · exact h.of_same_budget hb hn.ge (fun j t hfd => (hreg j).trans (h.registered j t hfd))
  · refine ⟨h.balanced.consume hc,fun j t hfd => ?_,fun key k hk => (h.funders key k hk).trans_eq hn.symm⟩
    refine (hreg j).trans (h.registered j t ?_)
    obtain ⟨entry,he,-,hb⟩ := consume_ok hc
    simp only [hb] at hfd
    exact Funded.of_set he (by rfl) hfd

lemma Kept.release (h : Kept funding s) (ho : s.king.registry.Ordered) (pid : ℕ) (tier : ModelTier)
    (hto : ReleasesToFunder funding s.king.budget s.king.registry pid tier) :
    Kept (Function.update funding (pid,tier) none)
      ⟨{ s.king with budget := (s.king.budget.release s.king.registry pid tier).2 },s.pending⟩ := by
  have hagree := update_agrees funding (pid,tier) none
  refine ⟨h.balanced.release (fun proc hp => (ho.ppid_lt hp).ne) hto hagree,fun j t hfd => ?_,
    funders_update h.funders _ (by simp)⟩
  exact h.registered j t (Funded.of_release hagree hfd)

/-- The tiers are released one after the other, and they do not interfere. -/
lemma Kept.releaseAll (h : Kept funding s) (ho : s.king.registry.Ordered) {pid : ℕ}
    (hto : ∀ tier, ReleasesToFunder funding s.king.budget s.king.registry pid tier) :
    Kept (fundingAfter s funding (.releaseAll pid))
      ⟨{ s.king with budget := s.king.budget.releaseAll s.king.registry pid },s.pending⟩ := by
  have hlink : ∀ {f : Funding} {t tier : ModelTier}, t ≠ tier →
      Function.update f (pid,tier) none (pid,t) = f (pid,t) := by
    intro f t tier hne
    exact Function.update_of_ne (fun he => hne (Prod.mk.inj he).2) none f
  have hopus := h.release ho pid .opus (hto .opus)
  have hsonnet := hopus.release ho pid .sonnet ((hto .sonnet).congr (hlink (by decide))
    (fun j => getBudget_release_of_ne (by decide)))
  exact hsonnet.release ho pid .mini ((hto .mini).congr
    ((hlink (by decide)).trans (hlink (by decide)))
    (fun j => (getBudget_release_of_ne (by decide)).trans (getBudget_release_of_ne (by decide))))

/-- The whole invariant. -/
structure Audited (a : Audit) : Prop where
  sound : a.system.Sound
  ordered : a.system.king.registry.Ordered
  config : a.system.king.supervisor.config = defaultSupervisorConfig
  kept : Kept a.funding a.system

theorem Audited.step {a a' : Audit} (h : a.Audited) (hop : System.IsBudgetOp op)
    (hkeeps : a.KeepsLedger op) (hs : a.step op = some a') : a'.Audited := by
  obtain ⟨s',hs',rfl⟩ := Option.map_eq_some_iff.mp hs
  refine ⟨h.sound.step hs',System.ordered_step h.ordered hs',
    (System.config_step hs').trans h.config,?_⟩
  cases op with
  | spawnChild now launch req =>
    cases hs'
    exact h.kept.spawnChild h.sound hkeeps
  | requestResources pid amount =>
    cases hs'
    exact h.kept.requestResources h.sound h.ordered hkeeps
  | reportMetric now pid tokens =>
    cases hs'
    exact h.kept.reportMetric now pid tokens
  | release pid tier =>
    cases hs'
    exact h.kept.release h.ordered pid tier hkeeps
  | releaseAll pid =>
    cases hs'
    exact h.kept.releaseAll h.ordered hkeeps
  | killChild now order header target recursive =>
    obtain ⟨hb,-,hn⟩ := System.sameBooks_step hs' not_false
    refine h.kept.of_same_budget hb hn.ge (fun pid tier hfd => ?_)
    rw [(System.rewritten_step hs' (by simp) (by simp) pid).isSome]
    exact h.kept.registered pid tier hfd
  | handleKill now order caller target recursive =>
    obtain ⟨hb,-,hn⟩ := System.sameBooks_step hs' not_false
    refine h.kept.of_same_budget hb hn.ge (fun pid tier hfd => ?_)
    rw [(System.rewritten_step hs' (by simp) (by simp) pid).isSome]
    exact h.kept.registered pid tier hfd
  | reapZombies now order childOrder =>
    simp only [System.step] at hs'
    split_ifs at hs' with he
    cases hs'
    have htimeout : 0 ≤ a.system.king.supervisor.config.zombieTimeout := by
      rw [h.config]
      decide
    refine h.kept.of_same_budget rfl (System.nextPID_reapZombies he.2).ge (fun pid tier hfd => ?_)
    obtain ⟨p,hp⟩ := Option.isSome_iff_exists.mp (h.kept.registered pid tier hfd)
    exact System.isSome_reapZombies he.2 htimeout hp (hkeeps pid tier p hfd hp)
  | _ => exact hop.elim

lemma audited_boot (cfg : Config) (now : ℤ) (runtime : Option RuntimeManager) :
    (boot cfg now runtime).Audited := by
  refine ⟨System.sound_boot cfg now runtime,System.ordered_boot cfg now runtime,rfl,?_,?_,?_⟩
  · intro k tier e he
    have hget := King.getBudget_new cfg now runtime k tier
    rw [show (King.new cfg now runtime).budget.getBudget k tier = some e from he] at hget
    split_ifs at hget
    cases hget
    exact (owed_eq_zero (fun j _ hf => by cases hf)).symm
  · rintro pid tier ⟨e,k,-,-,hf,-⟩
    cases hf
  · intro key k hk
    cases hk

/-- The record takes nothing away: every run of the kernel is the run of an audited kernel. -/
theorem exists_run {trace : List (Transition System KernelOp)} (run : Run System.step s trace s')
    (funding : Funding) : ∃ trace' funding', Run step ⟨s,funding⟩ trace' ⟨s',funding'⟩ ∧
      trace'.map (fun e => (⟨e.source.system,e.label,e.target.system⟩ : Transition System KernelOp)) = trace := by
  induction run generalizing funding with
  | nil s => exact ⟨[],funding,.nil _,rfl⟩
  | @cons s t u op trace first _ ih =>
    obtain ⟨trace',funding',hrun,hmap⟩ := ih (fundingAfter s funding op)
    have hfirst : step ⟨s,funding⟩ op = some ⟨t,fundingAfter s funding op⟩ := by
      rw [step,first]
      rfl
    exact ⟨_,funding',.cons hfirst hrun,by rw [List.map_cons,hmap]⟩

/-- In a run of which every step keeps the ledger, the reservations add up in every state. -/
theorem reconciled_of_run {cfg : Config} {now : ℤ} {runtime : Option RuntimeManager}
    {trace : List (Transition Audit KernelOp)} {a : Audit} (run : Run step (boot cfg now runtime) trace a)
    (hops : ∀ e ∈ trace, System.IsBudgetOp e.label) (hkeeps : ∀ e ∈ trace, e.source.KeepsLedger e.label) :
    (boot cfg now runtime).Reconciled ∧ ∀ e ∈ trace, e.target.Reconciled := by
  have h0 := audited_boot cfg now runtime
  have hinv := (run.invariant_of_allowed
    (fun a op a' (h : a.Audited) (ha : System.IsBudgetOp op ∧ a.KeepsLedger op) hs => h.step ha.1 ha.2 hs)
    h0 (fun e he => ⟨hops e he,hkeeps e he⟩)).1
  refine ⟨h0.kept.reconciled,fun e he => ?_⟩
  exact ((hinv e he).1.step (hops e he) (hkeeps e he) (hinv e he).2).kept.reconciled

/-- An agent is spawned, spends some of its tokens, is killed, gives its budget back and is reaped. -/
theorem reconciled_of_run_lifecycle : ∃ trace a,
    Run step (boot King.exampleConfig 0 none) trace a ∧ trace.length = 5 ∧
    a.system.king.registry.get 2 = none ∧ ∀ e ∈ trace, e.target.Reconciled := by
  obtain ⟨a₁,a₂,a₃,a₄,a₅,proc,h₁,h₂,h₃,h₄,h₅,hproc,hppid,hf₃,hf₄,hopus,hsonnet,hmini,hgone⟩ :
      ∃ a₁ a₂ a₃ a₄ a₅ proc,
      step (boot King.exampleConfig 0 none)
        (.spawnChild 0 (.ok "") (System.fundedRequest 1 "agent" 50)) = some a₁ ∧
      step a₁ (.reportMetric 0 2 10) = some a₂ ∧
      step a₂ (.handleKill 0 (fun _ => [1,2]) 1 2 false) = some a₃ ∧
      step a₃ (.releaseAll 2) = some a₄ ∧
      step a₄ (.reapZombies (61*second) [1,2] (fun _ => [1,2])) = some a₅ ∧
      a₃.system.king.registry.get 2 = some proc ∧ proc.ppid = 1 ∧
      a₃.funding = Function.update (fun _ => none) (2,.sonnet) (some 1) ∧
      a₄.funding = fundingAfter a₃.system a₃.funding (.releaseAll 2) ∧
      a₃.system.king.budget.getBudget 2 .opus = none ∧
      (a₃.system.king.budget.getBudget 2 .sonnet = some ⟨2,.sonnet,50,10,0⟩ ∧
        (a₃.system.king.budget.getBudget 1 .sonnet).isSome) ∧
      a₃.system.king.budget.getBudget 2 .mini = none ∧ a₅.system.king.registry.get 2 = none :=
    ⟨_,_,_,_,_,_,rfl,rfl,rfl,rfl,rfl,rfl,rfl,rfl,rfl,rfl,⟨rfl,rfl⟩,rfl,rfl⟩
  have hrun := Run.cons h₁ (.cons h₂ (.cons h₃ (.cons h₄ (.cons h₅ (.nil a₅)))))
  have hlink : a₃.funding (2,.sonnet) = some 1 := by
    rw [hf₃]
    rfl
  have hstarts : StartsFunded (System.boot King.exampleConfig 0 none) 0 (.ok "")
      (System.fundedRequest 1 "agent" 50) := by
    rintro parent - - - - ⟨-,manager,hm,-⟩
    cases hm
  have hto : ∀ tier, ReleasesToFunder a₃.funding a₃.system.king.budget a₃.system.king.registry 2 tier := by
    intro tier
    have hnot : ∀ t, a₃.system.king.budget.getBudget 2 t = none →
        ReleasesToFunder a₃.funding a₃.system.king.budget a₃.system.king.registry 2 t := by
      intro t ht
      refine ⟨fun hf => absurd hf (not_funded_of_none ht),fun _ child _ _ hc _ => ?_⟩
      simp [ht] at hc
    cases tier with
    | opus => exact hnot .opus hopus
    | mini => exact hnot .mini hmini
    | sonnet =>
      refine ⟨fun _ => ⟨proc,hproc,?_⟩,fun hn => ?_⟩
      · rw [hppid,hlink]
      · exact absurd ⟨_,1,hsonnet.1,by decide,hlink,hsonnet.2⟩ hn
  have hnone : ∀ key, a₄.funding key = none := by
    intro key
    simp only [hf₄,hf₃,fundingAfter,Function.update_apply]
    split_ifs <;> rfl
  refine ⟨_,a₅,hrun,rfl,hgone,(reconciled_of_run hrun (by simp [System.IsBudgetOp]) ?_).2⟩
  intro e he
  simp only [List.mem_cons,List.not_mem_nil,or_false] at he
  rcases he with rfl | rfl | rfl | rfl | rfl
  · exact hstarts
  · trivial
  · trivial
  · exact hto
  · rintro pid tier p ⟨e,k,-,-,hk,-⟩
    simp [hnone] at hk

/-- A second grant to the same agent: 80 tokens are reserved for an entry of 30. -/
theorem second_grant_reserves_twice :
    ¬ ∀ (cfg : Config) (now : ℤ) (runtime : Option RuntimeManager)
      (trace : List (Transition Audit KernelOp)) (a : Audit),
      Run step (boot cfg now runtime) trace a → (∀ e ∈ trace, System.IsBudgetOp e.label) →
      a.Reconciled := by
  intro h
  let ops : List KernelOp := [.spawnChild 0 (.ok "") (System.fundedRequest 1 "agent" 50),
    .requestResources 2 30]
  obtain ⟨a,ha,hb,hsum⟩ : ∃ a, exec step ops (boot King.exampleConfig 0 none) = some a ∧
      a.system.king.budget.getBudget 1 .sonnet = some ⟨1,.sonnet,100,0,80⟩ ∧
      a.system.king.budget.budgets.sum (fun key e' =>
        if key.2 = .sonnet ∧ a.funding key = some 1 ∧ (a.system.king.registry.get key.1).isSome
        then e'.allocated.toNat else 0) = 30 := ⟨_,rfl,rfl,by decide⟩
  have hlabels : ∀ op ∈ ops, System.IsBudgetOp op := by simp [ops,System.IsBudgetOp]
  have hrec := h _ _ _ _ a (Run.of_exec ha) (fun e he => hlabels _ (label_mem_of_mem_transitions he))
    1 .sonnet _ hb
  rw [hsum] at hrec
  exact absurd hrec (by decide)

end Audit
end HiveKernel
