import HiveKernel.Ipc.Routing
import HiveKernel.Kernel.KernelAlive

/-! Routes between live processes. A scan that reaps a zombie moves its children to its parent,
except the dead ones: these keep a parent that is no longer there, and so does everything below
them. As long as no reaped process has a dead child, the table stays a tree. -/
namespace HiveKernel
open Lib
namespace System

/-- Spawns, kills of other processes than PID 1, exits with the restarts they schedule, and scans. -/
def IsTreeOp : KernelOp → Prop
  | .spawnChild .. | .childExit .. | .restart .. | .reapZombies .. => True
  | .killChild _ _ _ target _ | .handleKill _ _ _ target _ => target ≠ 1
  | _ => False

/-- A scan reaps no process that has a dead child. -/
def SparesOrphans (s : System) : KernelOp → Prop
  | .reapZombies now _ _ => s.king.registry.SparesDead s.king.supervisor.config now
  | _ => True

/-- Any two live processes have a nearest common ancestor, and a message between them a route. -/
def Routable (s : System) : Prop :=
  ∀ a b p q, a ≠ b → s.king.registry.get a = some p → ¬p.state.Terminal →
    s.king.registry.get b = some q → ¬q.state.Terminal → ∀ fuel, s.king.registry.nextPID ≤ fuel →
    (∃ c, s.king.registry.nearestCommonAncestor fuel a b = some (some c)) ∧
    ∃ route, s.king.registry.findRoute fuel a b = some (.ok route)

/-- The invariant behind this. PID 1 may have been given up, but nothing makes it a zombie. -/
structure WellRooted (s : System) : Prop where
  ordered : s.king.registry.Ordered
  attached : s.king.registry.Attached
  kernel : ∀ p, s.king.registry.get 1 = some p → p.role = .kernel ∧ p.state ≠ .zombie
  config : s.king.supervisor.config = defaultSupervisorConfig

variable {s s' : System} {op : KernelOp}

lemma WellRooted.routable (h : s.WellRooted) : s.Routable := by
  intro a b p q _ hp _ hq _ fuel hf
  have ha : (s.king.registry.get a).isSome := by simp [hp]
  have hb : (s.king.registry.get b).isSome := by simp [hq]
  exact ⟨Registry.exists_nearestCommonAncestor h.ordered h.attached ha hb hf,
    Registry.exists_route h.ordered h.attached ha hb hf⟩

/-- A table with the same processes under the same parents is attached too. -/
lemma attached_of_rewritten {r r' : Registry} {state : ℕ → Process → ProcessState} (ha : r.Attached)
    (h : ∀ j, Rewritten (r.get j) (r'.get j) (state j)) : r'.Attached := by
  refine ⟨(h 1).isSome ▸ ha.root,fun k p' hp' hk => ?_⟩
  obtain ⟨p,hp,hf,-⟩ := rewritten_ppid h k p' hp'
  rw [(h p'.ppid).isSome,hf.ppid]
  exact ha.parent k p hp hk

/-- So is a table with one more process under a registered parent. -/
lemma attached_of_added {r r' : Registry} {new : ℕ} {child : Process} (ha : r.Attached)
    (hparent : (r.get child.ppid).isSome) (hget : ∀ j, r'.get j = if j = new then some child else r.get j) :
    r'.Attached := by
  have hstay : ∀ j, (r.get j).isSome → (r'.get j).isSome := by
    intro j hj
    rw [hget]
    split_ifs
    · rfl
    · exact hj
  refine ⟨hstay 1 ha.root,fun k p hp hk => hstay _ ?_⟩
  rw [hget] at hp
  split_ifs at hp
  · cases hp
    exact hparent
  · exact ha.parent k p hp hk

lemma exitState_kernel {p : Process} (now : ℤ) (hrole : p.role = .kernel) (hz : p.state ≠ .zombie) :
    s.exitState now p ≠ .zombie := by
  simp only [exitState,hrole,restartPolicyForRole]
  split_ifs
  · decide
  · exact hz

lemma not_killsKernel (hop : IsTreeOp op) : ¬KillsKernel op := by
  cases op with
  | killChild now order header target recursive => exact fun h => hop h.2
  | handleKill now order caller target recursive => exact fun h => hop h.2
  | _ => exact id

/-- PID 1 does not become a zombie by any of these steps. -/
lemma stateAfter_kernel {p : Process} (ho : s.king.registry.Ordered) (hop : IsTreeOp op)
    (hrole : p.role = .kernel) (hz : p.state ≠ .zombie) : s.stateAfter op 1 p ≠ .zombie := by
  have hnot := not_mem_killedBy_one ho (not_killsKernel hop)
  cases op with
  | killChild now order header target recursive =>
    simp only [stateAfter]
    rwa [if_neg hnot]
  | handleKill now order caller target recursive =>
    simp only [stateAfter]
    rwa [if_neg hnot]
  | childExit now pid =>
    simp only [stateAfter]
    split_ifs
    · exact exitState_kernel now hrole hz
    · exact hz
  | restart now index launch =>
    simp only [stateAfter]
    cases s.pending[index]? with
    | none => exact hz
    | some q =>
      simp only
      split_ifs
      · decide
      · exact hz
  | spawnChild now launch req => exact hz
  | reapZombies now order childOrder => exact hz
  | _ => exact hop.elim

theorem wellRooted_step (h : s.WellRooted) (ha : IsTreeOp op ∧ s.SparesOrphans op)
    (hs : s.step op = some s') : s'.WellRooted := by
  have ho := ordered_step h.ordered hs
  have hconfig := (config_step hs).trans h.config
  rcases step_table hs with ⟨now,launch,req,-,rfl⟩ | ⟨now,order,childOrder,rfl,he,rfl⟩ | hrw
  · rcases get_spawnChild s.king now launch req with hget | ⟨parent,child,hadm,hppid,-,-,hget⟩
    · refine ⟨ho,⟨?_,fun k p hp hk => ?_⟩,fun p hp => ?_,hconfig⟩
      · rw [hget]
        exact h.attached.root
      · rw [hget] at hp ⊢
        exact h.attached.parent k p hp hk
      · rw [hget] at hp
        exact h.kernel p hp
    · refine ⟨ho,attached_of_added h.attached ?_ hget,fun p hp => ?_,hconfig⟩
      · rw [hppid,hadm.found]
        rfl
      · obtain ⟨q,hq⟩ := Option.isSome_iff_exists.mp h.attached.root
        have hne := (Registry.get_bound hq).2.ne
        rw [hget,if_neg hne] at hp
        exact h.kernel p hp
  · refine ⟨ho,?_,fun p' hp' => ?_,hconfig⟩
    · have htimeout : 0 ≤ s.king.supervisor.config.zombieTimeout := by
        rw [h.config]
        decide
      exact h.attached.reapZombies h.ordered he htimeout (fun p hp => (h.kernel p hp).2) ha.2
    · obtain ⟨p,hp,hstate,hrole⟩ := get_reapZombies he 1 p' hp'
      rw [hstate,hrole]
      exact h.kernel p hp
  · refine ⟨ho,attached_of_rewritten h.attached hrw,fun p' hp' => ?_,hconfig⟩
    obtain ⟨p,hp,hf,hstate⟩ := rewritten_ppid hrw 1 p' hp'
    obtain ⟨hrole,hz⟩ := h.kernel p hp
    exact ⟨hf.role.trans hrole,hstate ▸ stateAfter_kernel h.ordered ha.1 hrole hz⟩

lemma wellRooted_boot (cfg : Config) (now : ℤ) (runtime : Option RuntimeManager) :
    (boot cfg now runtime).WellRooted := by
  have hget : ∀ j, (boot cfg now runtime).king.registry.get j = if j = 1
      then some (Registry.new.stamped now (Registry.kernelProcess "king" cfg.kernelUser cfg.nodeName))
      else none := Registry.get_boot now "king" cfg.kernelUser cfg.nodeName
  refine ⟨ordered_boot cfg now runtime,⟨?_,fun k p hp hk => ?_⟩,fun p hp => ?_,rfl⟩
  · rw [hget,if_pos rfl]
    rfl
  · rw [hget,if_neg hk] at hp
    cases hp
  · rw [hget,if_pos rfl] at hp
    cases hp
    exact ⟨rfl,fun h => ProcessState.noConfusion h⟩

/-- In a run in which no scan reaps the parent of a dead process, there is a route between any two
live processes of every state that is reached. -/
theorem routable_of_run {cfg : Config} {now : ℤ} {runtime : Option RuntimeManager}
    {trace : List (Transition System KernelOp)} (run : Run step (boot cfg now runtime) trace s)
    (hops : ∀ e ∈ trace, IsTreeOp e.label) (hspares : ∀ e ∈ trace, e.source.SparesOrphans e.label) :
    (boot cfg now runtime).Routable ∧ ∀ e ∈ trace, e.target.Routable := by
  have h0 := wellRooted_boot cfg now runtime
  have hinv := (run.invariant_of_allowed
    (fun s op s' (h : s.WellRooted) ha hs => wellRooted_step h ha hs) h0
    (fun e he => ⟨hops e he,hspares e he⟩)).1
  exact ⟨h0.routable,fun e he =>
    (wellRooted_step (hinv e he).1 ⟨hops e he,hspares e he⟩ (hinv e he).2).routable⟩

/-- An agent with a daemon below it that has a worker. -/
def team : List KernelOp :=
  [.spawnChild 0 (.ok "") (Registry.agentRequest 1 "agent" .agent),
    .spawnChild 0 (.ok "") (Registry.agentRequest 2 "daemon" .daemon),
    .spawnChild 0 (.ok "") (Registry.agentRequest 3 "worker" .worker)]

def killAgent (now : ℤ) : KernelOp := .handleKill now (fun _ => [1,2,3,4]) 1 2 false

def scanTeam (now : ℤ) : KernelOp := .reapZombies now [1,2,3,4] (fun _ => [1,2,3,4])

/-- The daemon exits and is restarted, and it moves up to PID 1 when its parent is reaped. -/
theorem routable_of_run_adoptedDaemon : ∃ trace s p,
    Run step (boot King.exampleConfig 0 none) trace s ∧ s.king.registry.get 2 = none ∧
    s.king.registry.get 3 = some p ∧ p.ppid = 1 ∧ ∀ e ∈ trace, e.target.Routable := by
  let ops := team ++ [.childExit 0 3,.restart (5*second) 0 (.ok ""),killAgent (6*second)]
  obtain ⟨t,s,p,ht,henum,hstates,hs,h2,h3,hppid⟩ : ∃ t s p,
      exec step ops (boot King.exampleConfig 0 none) = some t ∧
      t.king.registry.Enumerates [1,2,3,4] ∧
      (∀ p ∈ t.king.registry.list [1,2,3,4], p.state ≠ .dead) ∧
      step t (scanTeam (67*second)) = some s ∧ s.king.registry.get 2 = none ∧
      s.king.registry.get 3 = some p ∧ p.ppid = 1 :=
    ⟨_,_,_,rfl,by decide,by decide,rfl,rfl,rfl,rfl⟩
  have hlabels : ∀ op ∈ ops, IsTreeOp op ∧ ∀ s : System, s.SparesOrphans op := by
    simp [ops,team,killAgent,IsTreeOp,SparesOrphans]
  have hspares : t.SparesOrphans (scanTeam (67*second)) := by
    intro j c _ hc hdead
    refine absurd hdead (hstates c (Registry.mem_list.mpr ?_))
    obtain rfl := Registry.get_pid hc
    exact ⟨(henum.mem_iff c.pid).mpr (by simp [hc]),hc⟩
  have hrun := (Run.of_exec ht).snoc hs
  have hall : ∀ e ∈ transitions step ops (boot King.exampleConfig 0 none)++[⟨t,scanTeam (67*second),s⟩],
      IsTreeOp e.label ∧ e.source.SparesOrphans e.label := by
    intro e he
    rcases List.mem_append.mp he with he | he
    · obtain ⟨hop,hs⟩ := hlabels e.label (label_mem_of_mem_transitions he)
      exact ⟨hop,hs e.source⟩
    · cases List.mem_singleton.mp he
      exact ⟨trivial,hspares⟩
  exact ⟨_,s,p,hrun,h2,h3,hppid,
    (routable_of_run hrun (fun e he => (hall e he).1) (fun e he => (hall e he).2)).2⟩

/-- The daemon is given up after its restarts and the agent above it is reaped: the worker has no
route to PID 1 any more. -/
theorem reaping_cuts_off_worker :
    ¬ ∀ (cfg : Config) (now : ℤ) (runtime : Option RuntimeManager)
      (trace : List (Transition System KernelOp)) (s : System),
      Run step (boot cfg now runtime) trace s → (∀ e ∈ trace, IsTreeOp e.label) → s.Routable := by
  intro h
  let ops := team ++ [.childExit 0 3,.restart (5*second) 0 (.ok ""),.childExit (6*second) 3,
    .restart (16*second) 0 (.ok ""),.childExit (17*second) 3,.restart (32*second) 0 (.ok ""),
    .childExit (33*second) 3,killAgent (34*second),scanTeam (95*second)]
  obtain ⟨s,p,q,hs,hp,hq,hlive,hnext,hnca⟩ : ∃ s p q,
      exec step ops (boot King.exampleConfig 0 none) = some s ∧
      s.king.registry.get 4 = some p ∧ s.king.registry.get 1 = some q ∧
      (¬p.state.Terminal ∧ ¬q.state.Terminal) ∧ s.king.registry.nextPID = 5 ∧
      s.king.registry.findRoute 5 4 1 = some (.error "no route from PID 4 to PID 1") :=
    ⟨_,_,_,rfl,rfl,rfl,by decide,rfl,rfl⟩
  have hlabels : ∀ op ∈ ops, IsTreeOp op := by
    simp [ops,team,killAgent,scanTeam,IsTreeOp]
  have hroute := h _ _ _ _ s (Run.of_exec hs)
    (fun e he => hlabels _ (label_mem_of_mem_transitions he)) 4 1 p q (by decide) hp hlive.1 hq hlive.2
    5 hnext.le
  obtain ⟨route,hroute⟩ := hroute.2
  rw [hnca] at hroute
  cases hroute

end System
end HiveKernel
