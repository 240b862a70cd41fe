import HiveKernel.Kernel.King

/-! How far a failed spawn is undone. The rollback of `spawnChild` removes the process from the
table and nothing else: it frees the name even if another process had it before, and it leaves the
budget, the reservation and the group of the child behind. -/
namespace HiveKernel
open Lib
namespace King

/-- Nothing refers to a process that does not exist yet, and groups are filed under their names. -/
structure Known (k : King) : Prop where
  budget : ∀ pid tier, (k.budget.getBudget pid tier).isSome → pid < k.registry.nextPID
  ignores : ∀ pid, k.registry.nextPID ≤ pid → k.cgroups.Ignores pid
  names : ∀ name g, k.cgroups.groups.get name = some g → g.name = name

/-- The processes, the names, the budgets, the groups and the traces of `k'` are those of `k`. -/
structure Unchanged (k k' : King) : Prop where
  processes : ∀ pid, k'.registry.get pid = k.registry.get pid
  names : ∀ name, k'.registry.getByName name = k.registry.getByName name
  budgets : ∀ pid tier, k'.budget.getBudget pid tier = k.budget.getBudget pid tier
  groups : ∀ name, k'.cgroups.groups.get name = k.cgroups.groups.get name
  traces : ∀ pid, k'.traceStore.get pid = k.traceStore.get pid

/-- The parent has a budget at the tier of the child, and it is too small. -/
def AllocationFails (k : King) (req : SpawnRequest) : Prop :=
  ∃ parent, k.budget.getBudget req.parentPID (tierFromCog req.cognitiveTier) = some parent ∧
    0 < req.limits.maxTokensTotal ∧ parent.remaining < req.limits.maxTokensTotal

/-- A request that got as far as being registered used a new name; and unless it failed for want
of budget, it asked for no budget and its parent was in no group. -/
def CleanFailure (k : King) (now : ℤ) (req : SpawnRequest) : Prop :=
  ∀ proc registry, k.admission req = .ok () → k.registry.spawn now req = .ok (proc,registry) →
    k.registry.byName.get req.name = none ∧
    (¬k.AllocationFails req →
      req.limits.maxTokensTotal = 0 ∧ k.cgroups.getByPID req.parentPID = none)

variable {k : King} {now : ℤ} {launch : Except String String} {req : SpawnRequest} {parent : Process}

lemma fund_error_iff (k : King) (req : SpawnRequest) (pid : ℕ) :
    (∃ e, fund k.budget req pid = .error e) ↔ k.AllocationFails req := by
  simp only [fund,AllocationFails]
  by_cases hn : 0 < req.limits.maxTokensTotal
  · cases hb : k.budget.getBudget req.parentPID (tierFromCog req.cognitiveTier) with
    | none => simp [hn]
    | some b =>
      rw [BudgetManager.getBudget] at hb
      by_cases hlt : b.remaining < req.limits.maxTokensTotal
      · simp [hn,BudgetManager.allocate,hb,hlt]
      · simp [hn,BudgetManager.allocate,hb,hlt]
  · simp [hn]

/-- The name index after a process was registered and taken out again. -/
lemma byName_rollback (hname : req.name ≠ "") {r : Registry}
    (hby : r.byName = (k.registered now req parent).byName)
    (hr : ∃ p, r.get k.registry.nextPID = some p ∧ p.name = req.name) (name : String) :
    (r.remove k.registry.nextPID).byName.get name =
      if name = req.name then none else k.registry.byName.get name := by
  obtain ⟨p,hp,hpn⟩ := hr
  rw [Registry.byName_remove hp,hpn,if_neg hname,Table.get_erase,hby]
  split_ifs with h
  · rfl
  · have hset : (k.registered now req parent).byName =
        k.registry.byName.set req.name k.registry.nextPID := if_neg hname
    rw [hset,Table.get_set_of_ne h]

/-- Such a rollback keeps the names exactly if the name was new. -/
lemma names_rollback_iff (hname : req.name ≠ "") {r : Registry}
    (hby : r.byName = (k.registered now req parent).byName)
    (hr : ∃ p, r.get k.registry.nextPID = some p ∧ p.name = req.name)
    (hget : ∀ j, (r.remove k.registry.nextPID).get j = k.registry.get j) :
    (∀ name, (r.remove k.registry.nextPID).getByName name = k.registry.getByName name) ↔
      k.registry.byName.get req.name = none := by
  constructor
  · intro h
    cases hn : k.registry.byName.get req.name with
    | none => rfl
    | some j =>
      obtain ⟨p,hp⟩ := Registry.getByName_of_some hn
      obtain ⟨e,he⟩ := Registry.getByName_of_none
        (show (r.remove k.registry.nextPID).byName.get req.name = none by
          rw [byName_rollback hname hby hr,if_pos rfl])
      have := h req.name
      rw [hp,he] at this
      cases this
  · intro hn name
    apply Registry.getByName_congr _ hget
    rw [byName_rollback hname hby hr]
    split_ifs with h
    · rw [h,hn]
    · rfl

/-- Whoever asks for a budget and gets it changes an entry. -/
lemma budgets_fund_iff (hk : k.Known) (hparent : (k.registry.get req.parentPID).isSome)
    {budget : BudgetManager} (hf : fund k.budget req k.registry.nextPID = .ok budget) :
    (∀ pid tier, budget.getBudget pid tier = k.budget.getBudget pid tier) ↔
      req.limits.maxTokensTotal = 0 := by
  have hfresh : ∀ tier, k.budget.getBudget k.registry.nextPID tier = none := by
    intro tier
    by_contra hne
    exact Nat.lt_irrefl _ (hk.budget _ tier (Option.isSome_iff_ne_none.mpr hne))
  constructor
  · intro h
    by_contra hne
    have hpos : 0 < req.limits.maxTokensTotal := UInt64.pos_iff_ne_zero.mpr hne
    simp only [fund,if_pos hpos] at hf
    cases hb : k.budget.getBudget req.parentPID (tierFromCog req.cognitiveTier) with
    | none =>
      simp only [hb,Except.ok.injEq] at hf
      have := h k.registry.nextPID (tierFromCog req.cognitiveTier)
      rw [hfresh,← hf,BudgetManager.setBudget_of_none (hfresh _),BudgetManager.getBudget,
        Table.get_set_self] at this
      cases this
    | some b =>
      simp only [hb] at hf
      obtain ⟨b',hb',-,rfl⟩ := BudgetManager.allocate_ok hf
      obtain rfl : b = b' := Option.some.inj (hb.symm.trans hb')
      obtain ⟨p,hp⟩ := Option.isSome_iff_exists.mp hparent
      have hlt := (Registry.get_bound hp).2
      have := h req.parentPID (tierFromCog req.cognitiveTier)
      rw [hb,BudgetManager.getBudget,Table.get_set_of_ne (fun he => hlt.ne (Prod.mk.inj he).1),
        Table.get_set_self] at this
      have hres := congrArg BudgetEntry.reserved (Option.some.inj this)
      exact hne (by simpa using hres)
  · intro hz
    have hnot : ¬(0 : UInt64) < 0 := UInt64.lt_irrefl 0
    simp only [fund,hz,if_neg hnot,Except.ok.injEq] at hf
    subst hf
    exact fun _ _ => rfl

/-- A child joins the group of its parent, if the parent has one. -/
lemma groups_joinGroup_iff (hk : k.Known) (hadm : Admitted k req parent) :
    (∀ name, (joinGroup k.cgroups req.parentPID k.registry.nextPID).groups.get name =
      k.cgroups.groups.get name) ↔ k.cgroups.getByPID req.parentPID = none := by
  unfold joinGroup
  cases hg : k.cgroups.getByPID req.parentPID with
  | none => simp
  | some g =>
    obtain ⟨name,hname,hget⟩ : ∃ name, k.cgroups.pidGroup.get req.parentPID = some name ∧
        k.cgroups.groups.get name = some g := by
      unfold CGroupManager.getByPID at hg
      cases hp : k.cgroups.pidGroup.get req.parentPID with
      | none => simp [hp] at hg
      | some name => exact ⟨name,rfl,by simpa [hp] using hg⟩
    have hmax : ¬CGroupManager.AtMaxProcesses g := by
      have hall := hadm.admission
      simp only [admission,bind_eq_ok,withContext_eq_ok] at hall
      obtain ⟨-,-,-,-,-,-,-,-,hcg⟩ := hall
      simp only [CGroupManager.checkSpawnAllowed,hg] at hcg
      exact require_eq_ok.mp hcg
    obtain rfl := hk.names name g hget
    simp only [CGroupManager.addProcess_of_ignores (hk.ignores _ (Nat.le_refl _)) hget hmax,
      reduceCtorEq,iff_false]
    intro h
    have := h g.name
    rw [Table.get_set_self,hget] at this
    have hcount := congrArg CGroup.processCount (Option.some.inj this)
    simp at hcount

/-- A failed spawn leaves everything as it was exactly if it failed cleanly. -/
theorem unchanged_iff_cleanFailure (hk : k.Known) {e : String} {k' : King}
    (h : k.spawnChild now launch req = (.error e,k')) : Unchanged k k' ↔ CleanFailure k now req := by
  rcases spawnChild_cases k now launch req with ⟨hnot,e',he⟩ | ⟨parent,hadm,hspawn,⟨e',hf,he⟩ | ⟨budget,hf,he⟩⟩
  · obtain ⟨-,rfl⟩ := Prod.mk.inj (he.symm.trans h)
    refine ⟨fun _ proc registry ha hs => ?_,fun _ => ⟨fun _ => rfl,fun _ => rfl,fun _ _ => rfl,
      fun _ => rfl,fun _ => rfl⟩⟩
    refine absurd ?_ hnot
    rw [Accepts,ha,hs]
    exact ⟨rfl,rfl⟩
  · obtain ⟨-,rfl⟩ := Prod.mk.inj (he.symm.trans h)
    have hfails : k.AllocationFails req := (fund_error_iff k req _).mp ⟨e',hf⟩
    have hget := get_registered_remove k now req parent
    have hnew : ∃ p, (k.registered now req parent).get k.registry.nextPID = some p ∧
        p.name = req.name := ⟨_,(Registry.get_register _ _ _ _).trans (if_pos rfl),rfl⟩
    have hnames := names_rollback_iff hadm.named rfl hnew hget
    constructor
    · intro hu proc registry _ _
      exact ⟨hnames.mp hu.names,fun hnot => absurd hfails hnot⟩
    · intro hclean
      exact ⟨hget,hnames.mpr (hclean _ _ hadm.admission hspawn).1,fun _ _ => rfl,fun _ => rfl,fun _ => rfl⟩
  · have hfails : ¬k.AllocationFails req := by
      rw [← fund_error_iff k req k.registry.nextPID,hf]
      simp
    have hp : (k.withChild now req parent budget).registry.get (k.newborn now req parent).pid =
        some (k.newborn now req parent) := (Registry.get_register _ _ _ _).trans (if_pos rfl)
    rw [he] at h
    rcases startChild_cases hp with ⟨-,e',hs⟩ | ⟨-,addr,registry,runtime,hs,-,-⟩
    · obtain ⟨-,rfl⟩ := Prod.mk.inj (hs.symm.trans h)
      have hget : ∀ j, ((setAddr (k.registered now req parent) k.registry.nextPID
          req.runtimeImage).remove k.registry.nextPID).get j = k.registry.get j := by
        intro j
        rw [get_setAddr_remove,get_registered_remove]
      have hnew : ∃ p, (setAddr (k.registered now req parent) k.registry.nextPID
          req.runtimeImage).get k.registry.nextPID = some p ∧ p.name = req.name := by
        refine ⟨{ k.newborn now req parent with runtimeAddr := req.runtimeImage },?_,rfl⟩
        rw [get_setAddr,if_pos rfl]
        exact congrArg _ hp
      have hnames := names_rollback_iff hadm.named (Registry.byName_modify _ _ _ _ _) hnew hget
      have hbudgets := budgets_fund_iff hk (by rw [hadm.found]; rfl) hf
      have hgroups := groups_joinGroup_iff hk hadm
      constructor
      · intro hu proc registry _ _
        exact ⟨hnames.mp hu.names,fun _ => ⟨hbudgets.mp hu.budgets,hgroups.mp hu.groups⟩⟩
      · intro hclean
        obtain ⟨hname,hrest⟩ := hclean _ _ hadm.admission hspawn
        exact ⟨hget,hnames.mpr hname,hbudgets.mpr (hrest hfails).1,hgroups.mpr (hrest hfails).2,
          fun _ => rfl⟩
    · rw [hs] at h
      cases h

lemma getBudget_new (cfg : Config) (now : ℤ) (runtime : Option RuntimeManager) (pid : ℕ)
    (tier : ModelTier) : (King.new cfg now runtime).budget.getBudget pid tier =
      if pid = 1 then some { pid := 1, tier := tier, allocated := match tier with
        | .opus => cfg.defaultLimits.maxTokensTotal
        | .sonnet => cfg.defaultLimits.maxTokensTotal*10
        | .mini => cfg.defaultLimits.maxTokensTotal*100 }
      else none := by
  by_cases hp : pid = 1
  · subst hp
    cases tier <;> rfl
  · simp only [King.new,Registry.spawnKernel,Registry.stamped,Registry.new]
    rw [BudgetManager.setBudget_of_none (by rfl),BudgetManager.setBudget_of_none (by rfl),
      BudgetManager.setBudget_of_none (by rfl)]
    simp [BudgetManager.getBudget,Table.get_set,hp,BudgetManager.new]

lemma known_new (cfg : Config) (now : ℤ) (runtime : Option RuntimeManager) :
    (King.new cfg now runtime).Known := by
  refine ⟨fun pid tier h => ?_,fun pid _ => ⟨rfl,fun name g hg => ?_⟩,fun name g hg => ?_⟩
  · rw [getBudget_new] at h
    split_ifs at h with hp
    · subst hp; exact Nat.one_lt_two
    · simp at h
  · cases hg
  · cases hg

lemma isSome_fund {budget budget' : BudgetManager} {pid j : ℕ} {tier : ModelTier}
    (hf : fund budget req pid = .ok budget') (hj : (budget'.getBudget j tier).isSome) :
    j = pid ∨ (budget.getBudget j tier).isSome := by
  by_cases hp : j = pid
  · exact .inl hp
  right
  rcases fund_cases hf with ⟨-,rfl⟩ | ⟨-,⟨b,-,ha⟩ | ⟨-,rfl⟩⟩
  · exact hj
  · exact (BudgetManager.isSome_of_allocate ha hj).resolve_left hp
  · unfold BudgetManager.setBudget at hj
    split at hj <;>
      rwa [BudgetManager.getBudget,Table.get_set_of_ne (fun he => hp (Prod.mk.inj he).1)] at hj

/-- The members of a new group exist. -/
lemma Known.create (hk : k.Known) {order : List ℕ → List ℕ} {name : String} {rootPID : ℕ}
    {maxTokens : UInt64} {maxProcs : ℤ} {g : CGroup} {cgroups : CGroupManager}
    (h : k.cgroups.create k.registry order name rootPID maxTokens maxProcs = some (.ok (g,cgroups))) :
    ({ k with cgroups := cgroups } : King).Known := by
  obtain ⟨hname,hgroups,hreg,hindex⟩ := CGroupManager.create_ok h
  have hnot : ∀ pid, k.registry.nextPID ≤ pid → pid ∉ g.members := by
    intro pid hpid hmem
    obtain ⟨p,hp⟩ := Option.isSome_iff_exists.mp (hreg pid hmem)
    have := (Registry.get_bound hp).2
    omega
  refine ⟨hk.budget,fun pid hpid => ⟨?_,fun n g' hg' => ?_⟩,fun n g' hg' => ?_⟩
  · exact (hindex pid (hnot pid hpid)).trans (hk.ignores pid hpid).1
  · simp only [hgroups,Table.get_set] at hg'
    split_ifs at hg' with hn
    · cases hg'
      exact hnot pid hpid
    · exact (hk.ignores pid hpid).2 n g' hg'
  · simp only [hgroups,Table.get_set] at hg'
    split_ifs at hg' with hn
    · cases hg'
      exact hname.trans hn.symm
    · exact hk.names n g' hg'

/-- Only the new process is added to a group. -/
lemma Known.joinGroup (hk : k.Known) (parentPID : ℕ) :
    (∀ pid, k.registry.nextPID < pid →
      (King.joinGroup k.cgroups parentPID k.registry.nextPID).Ignores pid) ∧
    ∀ name g, (King.joinGroup k.cgroups parentPID k.registry.nextPID).groups.get name = some g →
      g.name = name := by
  have hsame : (∀ pid, k.registry.nextPID < pid → k.cgroups.Ignores pid) ∧
      ∀ name g, k.cgroups.groups.get name = some g → g.name = name :=
    ⟨fun pid hpid => hk.ignores pid hpid.le,hk.names⟩
  unfold King.joinGroup
  cases hg : k.cgroups.getByPID parentPID with
  | none => exact hsame
  | some g =>
    cases hadd : k.cgroups.addProcess g.name k.registry.nextPID with
    | error e => simpa only [hadd] using hsame
    | ok cgroups' =>
      simp only [hadd]
      have hfresh := hk.ignores _ (Nat.le_refl k.registry.nextPID)
      cases hget : k.cgroups.groups.get g.name with
      | none => simp [CGroupManager.addProcess,hget] at hadd
      | some g' =>
        have hmax : ¬CGroupManager.AtMaxProcesses g' := by
          intro hmax
          simp [CGroupManager.addProcess,hget,hfresh.2 _ _ hget,hmax] at hadd
        rw [CGroupManager.addProcess_of_ignores hfresh hget hmax] at hadd
        cases hadd
        refine ⟨fun pid hpid => ⟨?_,fun name h hh => ?_⟩,fun name h hh => ?_⟩
        · rw [Table.get_set_of_ne hpid.ne']
          exact (hsame.1 pid hpid).1
        · rw [Table.get_set] at hh
          split_ifs at hh with hn
          · cases hh
            simp only [Finset.mem_insert,not_or]
            exact ⟨hpid.ne',(hsame.1 pid hpid).2 _ _ hget⟩
          · exact (hsame.1 pid hpid).2 name h hh
        · rw [Table.get_set] at hh
          split_ifs at hh with hn
          · cases hh
            have hname := hsame.2 g.name g' hget
            exact hname.trans hn.symm
          · exact hsame.2 name h hh

lemma Known.spawnChild (hk : k.Known) (now : ℤ) (launch : Except String String) (req : SpawnRequest) :
    (k.spawnChild now launch req).2.Known := by
  have hmono : ∀ {registry : Registry}, registry.nextPID = k.registry.nextPID+1 →
      ({ k with registry := registry } : King).Known := by
    intro registry hnext
    refine ⟨fun pid tier h => ?_,fun pid hp => hk.ignores pid ?_,hk.names⟩
    · have := hk.budget pid tier h
      simp only [hnext]
      omega
    · simp only [hnext] at hp
      omega
  rcases spawnChild_cases k now launch req with ⟨-,e,he⟩ | ⟨parent,hadm,-,⟨e,hf,he⟩ | ⟨budget,hf,he⟩⟩
  · rw [he]; exact hk
  · rw [he]
    exact hmono (Registry.nextPID_remove _ _)
  · have hp : (k.withChild now req parent budget).registry.get (k.newborn now req parent).pid =
        some (k.newborn now req parent) := (Registry.get_register _ _ _ _).trans (if_pos rfl)
    have hfull : ∀ (runtime : Option RuntimeManager) {registry : Registry},
        registry.nextPID = k.registry.nextPID+1 →
        ({ k.withChild now req parent budget with registry := registry, runtime := runtime } : King).Known := by
      intro runtime registry hnext
      obtain ⟨hig,hnames⟩ := hk.joinGroup req.parentPID
      refine ⟨fun pid tier h => ?_,fun pid hpid => hig pid ?_,hnames⟩
      · simp only [hnext]
        rcases isSome_fund hf h with rfl | h
        · exact Nat.lt_succ_self _
        · have := hk.budget pid tier h
          omega
      · simp only [hnext] at hpid
        omega
    rw [he]
    rcases startChild_cases hp with ⟨-,e,hs⟩ | ⟨-,addr,registry,runtime,hs,hnext,-⟩
    · rw [hs]
      apply hfull
      rw [Registry.nextPID_remove,setAddr,Registry.nextPID_modify]
      rfl
    · rw [hs]
      simp only [passTrace]
      split_ifs
      · exact hfull runtime hnext
      · obtain ⟨hb,hi,hn⟩ := hfull runtime hnext
        exact ⟨hb,hi,hn⟩

/-- A kernel with a runtime manager, just started. -/
def freshKing : King := King.new exampleConfig 0 (some .new)

/-- A lead that wants 50 tokens and a runtime. -/
def leadRequest (tokens : UInt64) : SpawnRequest where
  parentPID := 1
  name := "lead"
  role := .lead
  cognitiveTier := .tactical
  limits := { maxTokensTotal := tokens }
  runtimeType := runtimePython
  runtimeImage := "agents.lead:Lead"

theorem unchanged_iff_cleanFailure_unfunded : ∃ e k',
    freshKing.Known ∧ freshKing.spawnChild 0 (.ok "localhost:5000") (leadRequest 500) = (.error e,k') ∧
    CleanFailure freshKing 0 (leadRequest 500) ∧ Unchanged freshKing k' := by
  have hk : freshKing.Known := known_new _ _ _
  have hclean : CleanFailure freshKing 0 (leadRequest 500) := by
    intro proc registry _ _
    refine ⟨rfl,fun hnot => absurd ⟨⟨1,.sonnet,100,0,0⟩,rfl,by decide,by decide⟩ hnot⟩
  obtain ⟨e,k',h⟩ : ∃ e k', freshKing.spawnChild 0 (.ok "localhost:5000") (leadRequest 500) =
      (.error e,k') := ⟨_,_,rfl⟩
  exact ⟨e,k',hk,h,hclean,(unchanged_iff_cleanFailure hk h).mpr hclean⟩

/-- The runtime does not start, and the reservation at the parent stays. -/
theorem spawnChild_leaks_budget :
    ¬ ∀ (k : King) (now : ℤ) (launch : Except String String) (req : SpawnRequest) (e : String)
      (k' : King), k.Known → k.spawnChild now launch req = (.error e,k') → Unchanged k k' := by
  intro h
  obtain ⟨e,k',hs,hb⟩ : ∃ e k', freshKing.spawnChild 0 (.error "READY timeout (10s)") (leadRequest 50) =
      (.error e,k') ∧ k'.budget.getBudget 1 .sonnet = some ⟨1,.sonnet,100,0,50⟩ := ⟨_,_,rfl,rfl⟩
  have hu := (h freshKing 0 _ (leadRequest 50) e k' (known_new _ _ _) hs).budgets 1 .sonnet
  rw [hb] at hu
  exact absurd hu (by decide)

end King
end HiveKernel
