import HiveKernel.Kernel.SpawnAtomicity
import HiveKernel.Kernel.SystemTable
import HiveKernel.Resources.Solvency

/-! What the requests of the agents do to the budgets, and the two facts that every argument about
them needs: the entries are solvent, and a process that does not exist yet has none. -/
namespace HiveKernel
open Lib

namespace King

/-- What a spawn does to the budgets: nothing, or what `fund` does. -/
lemma spawnChild_budget (k : King) (now : ℤ) (launch : Except String String) (req : SpawnRequest) :
    ((k.spawnChild now launch req).2.budget = k.budget ∧
      k.registry.nextPID ≤ (k.spawnChild now launch req).2.registry.nextPID) ∨
    (fund k.budget req k.registry.nextPID = .ok (k.spawnChild now launch req).2.budget ∧
      k.registry.nextPID < (k.spawnChild now launch req).2.registry.nextPID ∧ k.Accepts now req) := by
  rcases spawnChild_effect k now launch req with ⟨-,e,he⟩ | ⟨parent,heff⟩
  · exact .inl (by simp [he])
  · have hnext := heff.nextPID
    rcases heff.outcome with ⟨-,-,hb,-⟩ | ⟨-,-,hf,-⟩ | ⟨addr,-,-,hf,-⟩
    · exact .inl ⟨hb,by omega⟩
    · exact .inr ⟨hf,by omega,heff.accepts⟩
    · exact .inr ⟨hf,by omega,heff.accepts⟩

end King

namespace System

/-- Spawns, requests for resources, reports of consumption, releases, kills and scans. -/
def IsBudgetOp : KernelOp → Prop
  | .spawnChild .. | .requestResources .. | .reportMetric .. | .release .. | .releaseAll ..
  | .killChild .. | .handleKill .. | .reapZombies .. => True
  | _ => False

/-- The entries are solvent and belong to processes that have been created. -/
structure Sound (s : System) : Prop where
  solvent : s.king.budget.Solvent
  known : ∀ pid tier, (s.king.budget.getBudget pid tier).isSome → pid < s.king.registry.nextPID

variable {s s' : System} {op : KernelOp}

lemma Sound.fresh (h : s.Sound) (tier : ModelTier) :
    s.king.budget.getBudget s.king.registry.nextPID tier = none := by
  by_contra hne
  exact absurd (h.known _ tier (Option.isSome_iff_ne_none.mpr hne)) (Nat.lt_irrefl _)

/-- Budgets, groups and the counter of PIDs are the same. -/
structure SameBooks (k k' : King) : Prop where
  budget : k'.budget = k.budget
  cgroups : k'.cgroups = k.cgroups
  nextPID : k'.registry.nextPID = k.registry.nextPID

lemma SameBooks.refl (k : King) : SameBooks k k := ⟨rfl,rfl,rfl⟩

/-- A kill only touches the table. -/
lemma kill_sameBooks {outcome : Option (Except String (List ℕ) × King)} {now : ℤ}
    {order : List ℕ → List ℕ} {caller target : ℕ} {recursive : Bool}
    (ho : s.king.kill now order caller target recursive = outcome)
    (hs : outcome.map s.killed = some s') : SameBooks s.king s'.king := by
  obtain ⟨⟨result,k'⟩,rfl,rfl⟩ := Option.map_eq_some_iff.mp hs
  rcases King.kill_cases ho with ⟨rfl,e,rfl⟩ | ⟨t,pids,-,-,-,rfl,rfl⟩
  · exact .refl _
  · exact ⟨King.killAll_budget _ _ _,King.killAll_cgroups _ _ _,King.killAll_nextPID _ _ _⟩

lemma nextPID_reapZombies {r : Registry} {config : SupervisorConfig} {now : ℤ} {order : List ℕ}
    {childOrder : ℕ → List ℕ} (hc : ∀ k ∈ order, r.Enumerates (childOrder k)) :
    (r.reapZombies config now order childOrder).nextPID = r.nextPID := by
  refine Registry.reapZombies_induction hc (fun r' => r'.nextPID = r.nextPID) rfl ?_
  intro r' k p hr' _ _ _
  rw [Registry.nextPID_reap,hr']

lemma nextPID_childExit (s : System) (now : ℤ) (pid : ℕ) :
    (s.king.childExit now pid).1.registry.nextPID = s.king.registry.nextPID := by
  rcases s.king.supervisor.handleChildExit_cases s.king.registry now pid with
    ⟨-,he⟩ | ⟨p,-,⟨-,-,he⟩ | ⟨-,-,he⟩ | ⟨-,he⟩⟩
  · simp only [King.childExit,he]
  · simp only [King.childExit,he,Registry.nextPID_setState]
  · simp only [King.childExit,he]
  · simp only [King.childExit,he,Registry.nextPID_setState]

lemma nextPID_restart (k : King) (now : ℤ) (launch : Except String String) (proc : Process) :
    (k.restart now launch proc).registry.nextPID = k.registry.nextPID := by
  have hcallback : (k.onRestart launch proc).2.1.nextPID = k.registry.nextPID := by
    unfold King.onRestart
    cases k.runtime with
    | none => rfl
    | some manager =>
      simp only
      split <;> simp only [King.setAddr,Registry.nextPID_modify]
  simp only [King.restart]
  split_ifs
  · rw [Registry.nextPID_setState,hcallback]
  · exact hcallback

/-- The requests that change a budget. -/
def TouchesBudget : KernelOp → Prop
  | .spawnChild .. | .requestResources .. | .reportMetric .. | .release .. | .releaseAll .. => True
  | _ => False

/-- All other steps leave the books alone. -/
theorem sameBooks_step (hs : s.step op = some s') (hop : ¬TouchesBudget op) :
    SameBooks s.king s'.king := by
  cases op with
  | killChild now order header target recursive =>
    rcases step_killChild hs with rfl | ⟨caller,hs⟩
    · exact .refl _
    · exact kill_sameBooks rfl hs
  | handleKill now order caller target recursive => exact kill_sameBooks rfl hs
  | setTrace pid traceID traceSpan => cases hs; exact ⟨rfl,rfl,rfl⟩
  | waitResult pid => cases hs; exact ⟨rfl,rfl,rfl⟩
  | childExit now pid => cases hs; exact ⟨rfl,rfl,nextPID_childExit s now pid⟩
  | restart now index launch =>
    obtain ⟨q,-,h⟩ := Option.bind_eq_some_iff.mp hs
    cases h
    exact ⟨rfl,rfl,nextPID_restart _ _ _ _⟩
  | reapZombies now order childOrder =>
    simp only [step] at hs
    split_ifs at hs with he
    cases hs
    exact ⟨rfl,rfl,nextPID_reapZombies he.2⟩
  | send now pid sig => cases hs; exact ⟨rfl,rfl,Registry.nextPID_send _ _ _ _⟩
  | sleep now pid =>
    cases hs
    obtain ⟨r,hr,hnext⟩ := s.king.sleep_frame now pid
    simp only [hr]
    exact ⟨rfl,rfl,hnext⟩
  | wake now pid =>
    cases hs
    obtain ⟨r,hr,hnext⟩ := s.king.wake_frame now pid
    simp only [hr]
    exact ⟨rfl,rfl,hnext⟩
  | completeTask now pid exitCode output errMsg =>
    cases hs
    simp only [King.completeTask]
    split
    · exact .refl _
    · exact ⟨rfl,rfl,by rw [Registry.nextPID_send,Registry.nextPID_setState]⟩
  | cronWake now pid => cases hs; exact ⟨rfl,rfl,Registry.nextPID_setState _ _ _ _⟩
  | _ => exact absurd trivial hop

/-- The counter of PIDs never goes back. -/
lemma nextPID_le_step (hs : s.step op = some s') : s.king.registry.nextPID ≤ s'.king.registry.nextPID := by
  cases op with
  | spawnChild now launch req =>
    cases hs
    rcases King.spawnChild_budget s.king now launch req with ⟨-,hn⟩ | ⟨-,hn,-⟩
    · exact hn
    · exact hn.le
  | requestResources pid amount =>
    cases hs
    simp only [requestResources_registry]
    exact le_rfl
  | reportMetric now pid tokens =>
    cases hs
    exact (King.reportMetric_nextPID s.king now pid tokens).ge
  | release pid tier => cases hs; exact le_rfl
  | releaseAll pid => cases hs; exact le_rfl
  | _ => exact (sameBooks_step hs not_false).nextPID.ge

/-- A step makes an entry only for a registered process or for the one it creates. -/
lemma owner_step (hs : s.step op = some s') {pid : ℕ} {tier : ModelTier}
    (hp : (s'.king.budget.getBudget pid tier).isSome) :
    (s.king.budget.getBudget pid tier).isSome ∨ (s.king.registry.get pid).isSome ∨
      (pid = s.king.registry.nextPID ∧ s.king.registry.nextPID < s'.king.registry.nextPID) := by
  cases op with
  | spawnChild now launch req =>
    cases hs
    rcases King.spawnChild_budget s.king now launch req with ⟨hb,-⟩ | ⟨hf,hn,-⟩
    · simp only [hb] at hp
      exact .inl hp
    · rcases King.isSome_fund hf hp with rfl | hp
      · exact .inr (.inr ⟨rfl,hn⟩)
      · exact .inl hp
  | requestResources j amount =>
    cases hs
    rcases King.requestResources_cases s.king j amount with he | ⟨proc,budget,hj,ha,he⟩
    · simp only [he] at hp
      exact .inl hp
    · simp only [he] at hp
      rcases BudgetManager.isSome_of_allocate ha hp with rfl | hp
      · exact .inr (.inl (Option.isSome_iff_exists.mpr ⟨proc,hj⟩))
      · exact .inl hp
  | reportMetric now j tokens =>
    cases hs
    rcases King.reportMetric_cases s.king now j tokens with hb | ⟨t,hc⟩
    · exact .inl (hb ▸ hp)
    · obtain ⟨entry,he,-,hb⟩ := BudgetManager.consume_ok hc
      simp only [hb,BudgetManager.getBudget,Table.get_set] at hp
      split_ifs at hp with hkey
      · cases hkey
        exact .inl (Option.isSome_iff_exists.mpr ⟨entry,he⟩)
      · exact .inl hp
  | release j t =>
    cases hs
    exact .inl (BudgetManager.isSome_of_release hp)
  | releaseAll j =>
    cases hs
    exact .inl (BudgetManager.isSome_of_release (BudgetManager.isSome_of_release
      (BudgetManager.isSome_of_release hp)))
  | _ => exact .inl ((sameBooks_step hs not_false).budget ▸ hp)

/-- Entries are only made for processes that exist. -/
lemma owners_step (hk : ∀ pid tier, (s.king.budget.getBudget pid tier).isSome → pid < s.king.registry.nextPID)
    (hs : s.step op = some s') (pid : ℕ) (tier : ModelTier)
    (hp : (s'.king.budget.getBudget pid tier).isSome) : pid < s'.king.registry.nextPID := by
  have hnext := nextPID_le_step hs
  rcases owner_step hs hp with hp | hp | ⟨rfl,hlt⟩
  · exact Nat.lt_of_lt_of_le (hk pid tier hp) hnext
  · obtain ⟨p,hp⟩ := Option.isSome_iff_exists.mp hp
    exact Nat.lt_of_lt_of_le (Registry.get_bound hp).2 hnext
  · exact hlt

theorem known_step (hk : s.king.Known) (hs : s.step op = some s') : s'.king.Known := by
  have hsame : s'.king.cgroups = s.king.cgroups →
      s'.king.registry.nextPID = s.king.registry.nextPID → s'.king.Known := by
    intro hc hn
    refine ⟨owners_step hk.budget hs,fun pid hpid => ?_,fun name g hg => ?_⟩
    · rw [hc]
      exact hk.ignores pid (hn ▸ hpid)
    · rw [hc] at hg
      exact hk.names name g hg
  cases op with
  | spawnChild now launch req =>
    cases hs
    exact hk.spawnChild now launch req
  | requestResources pid amount =>
    cases hs
    rcases King.requestResources_cases s.king pid amount with he | ⟨proc,budget,-,-,he⟩
    · exact hsame (by simp only [he]) (by simp only [he])
    · exact hsame (by simp only [he]) (by simp only [he])
  | reportMetric now pid tokens =>
    cases hs
    exact hsame (King.reportMetric_cgroups _ _ _ _) (King.reportMetric_nextPID _ _ _ _)
  | release pid tier => cases hs; exact hsame rfl rfl
  | releaseAll pid => cases hs; exact hsame rfl rfl
  | _ =>
    have hbooks := sameBooks_step hs not_false
    exact hsame hbooks.cgroups hbooks.nextPID

/-- Whatever has happened since the start, nothing refers to a process that does not exist yet. -/
theorem known_of_run {cfg : Config} {now : ℤ} {runtime : Option RuntimeManager}
    {trace : List (Transition System KernelOp)} (hrun : Run step (boot cfg now runtime) trace s) :
    (∀ e ∈ trace, e.source.king.Known) ∧ s.king.Known := by
  obtain ⟨hall,hlast⟩ := hrun.invariant (fun s op s' hk hs => known_step hk hs)
    (King.known_new cfg now runtime)
  exact ⟨fun e he => (hall e he).1,hlast⟩

lemma Sound.fund {budget : BudgetManager} {req : SpawnRequest} (h : s.Sound)
    (hf : King.fund s.king.budget req s.king.registry.nextPID = .ok budget) : budget.Solvent := by
  rcases King.fund_cases hf with ⟨-,rfl⟩ | ⟨-,⟨parent,-,ha⟩ | ⟨-,rfl⟩⟩
  · exact h.solvent
  · exact h.solvent.allocate ha
  · exact h.solvent.setBudget _ (h.fresh _)

theorem Sound.step (h : s.Sound) (hs : s.step op = some s') : s'.Sound := by
  refine ⟨?_,owners_step h.known hs⟩
  cases op with
  | spawnChild now launch req =>
    cases hs
    rcases King.spawnChild_budget s.king now launch req with ⟨hb,-⟩ | ⟨hf,-,-⟩
    · simpa only [hb] using h.solvent
    · exact h.fund hf
  | requestResources pid amount =>
    cases hs
    rcases King.requestResources_cases s.king pid amount with he | ⟨proc,budget,-,ha,he⟩
    · simpa only [he] using h.solvent
    · simpa only [he] using h.solvent.allocate ha
  | reportMetric now pid tokens =>
    cases hs
    rcases King.reportMetric_cases s.king now pid tokens with hb | ⟨tier,hc⟩
    · simpa only [hb] using h.solvent
    · exact h.solvent.consume hc
  | release pid tier => cases hs; exact h.solvent.release _ pid tier
  | releaseAll pid => cases hs; exact h.solvent.releaseAll _ pid
  | _ => exact (sameBooks_step hs not_false).budget ▸ h.solvent

lemma sound_boot (cfg : Config) (now : ℤ) (runtime : Option RuntimeManager) :
    (boot cfg now runtime).Sound := by
  refine ⟨fun key e he => ?_,(King.known_new cfg now runtime).budget⟩
  have hget := King.getBudget_new cfg now runtime key.1 key.2
  rw [show (King.new cfg now runtime).budget.getBudget key.1 key.2 = some e from he] at hget
  split_ifs at hget
  cases hget
  exact BudgetEntry.solvent_fresh _ _ _

/-- A request for an agent with a token limit, used on concrete runs. -/
def fundedRequest (parentPID : ℕ) (name : String) (tokens : UInt64) : SpawnRequest :=
  { Registry.agentRequest parentPID name .agent with limits := { maxTokensTotal := tokens } }

end System
end HiveKernel
