import HiveKernel.Kernel.KernelAlive

/-! Kills and the access control list. Sending and storing ask the list first; the two paths of a kill
only compare the caller with the parent of the target. So the rules for kills, and whatever is added
to them, do not matter: a process kills its children. -/
namespace HiveKernel
open Lib
namespace System

/-- What happens in the kernel, and custom rules that are added while it runs. -/
inductive GuardedOp
  | kernel (op : KernelOp)
  | addRule (rule : ACLRule)

def guardedStep (s : System) : GuardedOp → Option System
  | .kernel op => s.step op
  | .addRule rule => some ⟨{ s.king with rules := HiveKernel.addRule s.king.rules rule },s.pending⟩

/-- The two requests that kill. -/
def IsKill : KernelOp → Prop
  | .killChild .. | .handleKill .. => True
  | _ => False

/-- Some process is in another state afterwards. -/
def ChangesState (s s' : System) : Prop :=
  ∃ j, (s'.king.registry.get j).map Process.state ≠ (s.king.registry.get j).map Process.state

/-- The caller of the request is known, and the list lets it kill. -/
def CallerMayKill (s : System) (op : KernelOp) : Prop :=
  ∃ caller target, killRequest op = some (caller,target) ∧
    aclCheck s.king.rules s.king.registry caller .kill = .ok ()

/-- If a step is a kill that changes the state of a process, its caller may kill. -/
def Mediated (s s' : System) : GuardedOp → Prop
  | .kernel op => IsKill op → s.ChangesState s' → s.CallerMayKill op
  | .addRule _ => True

/-- The target is a child of the caller, and among those the request is for, which is the target or
its whole subtree, is one that is no zombie yet. -/
def ReachesLive (r : Registry) (order : List ℕ → List ℕ) (caller target : ℕ) (recursive : Bool) : Prop :=
  (∃ t, r.get target = some t ∧ t.ppid = caller) ∧
    ∃ pids, King.victims r order target recursive = some pids ∧
      ∃ j ∈ pids, ∃ p, r.get j = some p ∧ p.state ≠ .zombie

/-- A kill for which the list would have to be asked. -/
def KillsLive (s : System) : KernelOp → Prop
  | .killChild _ order header target recursive => ∃ caller, callerPID header = .ok caller ∧
      ReachesLive s.king.registry order caller target recursive
  | .handleKill _ order caller target recursive =>
    ReachesLive s.king.registry order caller target recursive
  | _ => False

variable {s s' : System} {op : KernelOp}

lemma changesState_refl (s : System) : ¬s.ChangesState s := fun ⟨_,h⟩ => h rfl

lemma changesState_kill_iff {now : ℤ} {order : List ℕ → List ℕ} {caller target : ℕ} {recursive : Bool}
    (hs : (s.king.kill now order caller target recursive).map s.killed = some s') :
    s.ChangesState s' ↔ ReachesLive s.king.registry order caller target recursive := by
  obtain ⟨⟨result,k'⟩,hk,rfl⟩ := Option.map_eq_some_iff.mp hs
  rcases King.kill_cases hk with ⟨rfl,e,rfl⟩ | ⟨t,pids,ht,hppid,hv,rfl,rfl⟩
  · apply iff_of_false (changesState_refl s)
    rintro ⟨⟨t,ht,hppid⟩,pids,hv,-⟩
    simp [King.kill,ht,hppid,hv] at hk
  · constructor
    · rintro ⟨j,hj⟩
      change ((s.king.killAll now pids).registry.get j).map _ ≠ _ at hj
      rw [King.get_killAll] at hj
      split_ifs at hj with hmem
      · cases hp : s.king.registry.get j with
        | none => simp [hp] at hj
        | some p =>
          refine ⟨⟨t,ht,hppid⟩,pids,hv,j,hmem,p,hp,fun hz => hj ?_⟩
          simp [hp,hz]
      · exact absurd rfl hj
    · rintro ⟨-,pids',hv',j,hj,p,hp,hz⟩
      cases hv.symm.trans hv'
      refine ⟨j,?_⟩
      change ((s.king.killAll now pids).registry.get j).map _ ≠ _
      rw [King.get_killAll,if_pos hj,hp]
      simpa using Ne.symm hz

/-- A kill changes the state of a process exactly if it reaches one that is no zombie. -/
theorem changesState_iff (hop : IsKill op) (hs : s.step op = some s') :
    s.ChangesState s' ↔ s.KillsLive op := by
  cases op with
  | killChild now order header target recursive =>
    simp only [step,King.killChild] at hs
    simp only [KillsLive]
    cases hc : callerPID header with
    | error e =>
      simp only [hc] at hs
      cases hs
      apply iff_of_false (changesState_refl s)
      rintro ⟨caller,he,-⟩
      cases he
    | ok caller =>
      simp only [hc] at hs
      rw [changesState_kill_iff hs]
      constructor
      · exact fun h => ⟨caller,rfl,h⟩
      · rintro ⟨c,he,h⟩
        cases he
        exact h
  | handleKill now order caller target recursive => exact changesState_kill_iff hs
  | _ => exact hop.elim

/-- The condition on a request: if it is a kill of a child that is still alive, or of one with live
descendants, then the list allows it. -/
def Asks (s : System) : GuardedOp → Prop
  | .kernel op => s.KillsLive op → s.CallerMayKill op
  | .addRule _ => True

lemma mediated_iff {op : GuardedOp} (hs : s.guardedStep op = some s') :
    s.Mediated s' op ↔ s.Asks op := by
  cases op with
  | addRule rule => rfl
  | kernel op =>
    simp only [Mediated,Asks]
    constructor
    · intro h hk
      have hop : IsKill op := by
        cases op with
        | killChild now order header target recursive => trivial
        | handleKill now order caller target recursive => trivial
        | _ => exact hk.elim
      exact h hop ((changesState_iff hop hs).mpr hk)
    · intro h hop hc
      exact h ((changesState_iff hop hs).mp hc)

/-- In every run, with whatever rules are added, the kills are mediated exactly if each one that is
for a live child of the caller, or one with live descendants, comes from a caller that the list
allows to kill. -/
theorem mediated_iff_of_run {cfg : Config} {now : ℤ} {runtime : Option RuntimeManager}
    {trace : List (Transition System GuardedOp)} (run : Run guardedStep (boot cfg now runtime) trace s) :
    (∀ e ∈ trace, e.source.Mediated e.target e.label) ↔ ∀ e ∈ trace, e.source.Asks e.label := by
  constructor
  · intro h e he
    exact (mediated_iff (run.steps e he)).mp (h e he)
  · intro h e he
    exact (mediated_iff (run.steps e he)).mpr (h e he)

/-- An agent and a worker below it. -/
def agentAndWorker : List GuardedOp :=
  [.kernel (.spawnChild 0 (.ok "") (Registry.agentRequest 1 "agent" .agent)),
    .kernel (.spawnChild 0 (.ok "") (Registry.agentRequest 2 "worker" .worker))]

/-- A kill over gRPC, with the caller in the header. -/
def killBy (caller : String) (target : ℕ) (recursive : Bool) : GuardedOp :=
  .kernel (.killChild 0 (fun _ => [1,2,3]) (some [caller]) target recursive)

/-- The kernel kills the agent with its worker, and the rules allow it that. -/
theorem mediated_iff_of_run_kernelKills : ∃ trace s p,
    Run guardedStep (boot King.exampleConfig 0 none) trace s ∧ s.king.registry.get 3 = some p ∧
    p.state = .zombie ∧ ∀ e ∈ trace, e.source.Mediated e.target e.label := by
  obtain ⟨t,s,p,ht,hs,hp,hz,hmay⟩ : ∃ t s p,
      exec guardedStep agentAndWorker (boot King.exampleConfig 0 none) = some t ∧
      guardedStep t (killBy "1" 2 true) = some s ∧ s.king.registry.get 3 = some p ∧
      p.state = .zombie ∧ aclCheck t.king.rules t.king.registry 1 .kill = .ok () :=
    ⟨_,_,_,rfl,rfl,rfl,rfl,rfl⟩
  have hrun := (Run.of_exec ht).snoc hs
  refine ⟨_,s,p,hrun,hp,hz,(mediated_iff_of_run hrun).mpr ?_⟩
  intro e he
  rcases List.mem_append.mp he with he | he
  · have hlabel := label_mem_of_mem_transitions he
    simp only [agentAndWorker,List.mem_cons,List.not_mem_nil,or_false] at hlabel
    rcases hlabel with h | h
    · rw [h]
      exact False.elim
    · rw [h]
      exact False.elim
  · cases List.mem_singleton.mp he
    exact fun _ => ⟨1,2,rfl,hmay⟩

/-- The rules give an agent no kill, and it kills its worker. -/
theorem agent_kills_worker :
    ¬ ∀ (cfg : Config) (now : ℤ) (runtime : Option RuntimeManager)
      (trace : List (Transition System GuardedOp)) (s : System),
      Run guardedStep (boot cfg now runtime) trace s → ∀ e ∈ trace, e.source.Mediated e.target e.label := by
  intro h
  obtain ⟨t,s,ht,hs,hchange,hdenied⟩ : ∃ t s,
      exec guardedStep agentAndWorker (boot King.exampleConfig 0 none) = some t ∧
      guardedStep t (killBy "2" 3 false) = some s ∧
      (s.king.registry.get 3).map Process.state ≠ (t.king.registry.get 3).map Process.state ∧
      aclCheck t.king.rules t.king.registry 2 .kill ≠ .ok () :=
    ⟨_,_,rfl,rfl,by decide,by decide⟩
  obtain ⟨caller,target,hreq,hok⟩ := h _ _ _ _ s ((Run.of_exec ht).snoc hs) ⟨t,killBy "2" 3 false,s⟩
    (by simp) trivial ⟨3,hchange⟩
  have hcaller : killRequest (.killChild 0 (fun _ => [1,2,3]) (some ["2"]) 3 false) = some (2,3) := rfl
  cases hcaller.symm.trans hreq
  exact hdenied hok

end System
end HiveKernel
