import HiveKernel.Kernel.SystemTable

/-! Terminal states. Zombie and dead are meant to be left by a restart only, but the signals that
stop and continue a process, `sleep` on a zombie, a cron entry that wakes its target, and a restart
that fires after a kill do not look at the state they overwrite. -/
namespace HiveKernel
open Lib
namespace System

/-- Process `j` had ended and has not any more. -/
def Revived (s s' : System) (j : ℕ) : Prop :=
  ∃ p p', s.king.registry.get j = some p ∧ p.state.Terminal ∧
    s'.king.registry.get j = some p' ∧ ¬p'.state.Terminal

/-- The step is a restart that an exit of `j` scheduled, and `j` was not killed since. -/
def ByRestart (s : System) (op : KernelOp) (j : ℕ) : Prop :=
  ∃ now index launch q, op = .restart now index launch ∧ s.pending[index]? = some q ∧
    q.restart.proc.pid = j ∧ q.killed = false

/-- Nothing is revived except by such a restart. -/
def Absorbing (e : Transition System KernelOp) : Prop :=
  ∀ j, Revived e.source e.target j → ByRestart e.source e.label j

/-- There is a runtime manager, and it cannot start the runtime of the process again. -/
def RestartFails (k : King) (launch : Except String String) (proc : Process) : Prop :=
  ∃ manager, k.runtime = some manager ∧ manager.Fails { proc with runtimeAddr := proc.runtimeImage }
    (if proc.runtimeType = "" then runtimePython else proc.runtimeType) launch

/-- The step does not overwrite a terminal state. -/
def SparesTerminal (s : System) : KernelOp → Prop
  | .send _ pid sig => ∀ p ∈ s.king.registry.get pid, p.state.Terminal →
      sig ≠ .sigterm ∧ sig ≠ .sigstop ∧ sig ≠ .sigcont
  | .sleep _ pid => ∀ p ∈ s.king.registry.get pid, p.state ≠ .zombie
  | .cronWake _ pid => ∀ p ∈ s.king.registry.get pid, ¬p.state.Terminal
  | .restart _ index launch => ∀ q ∈ s.pending[index]?, q.killed = true →
      ∀ p ∈ s.king.registry.get q.restart.proc.pid, p.state.Terminal →
        RestartFails s.king launch q.restart.proc
  | _ => True

variable {s s' : System} {op : KernelOp}

/-- Where entries are rewritten, what is revived can be read off the states. -/
lemma revived_iff {j : ℕ} {state : Process → ProcessState}
    (h : Rewritten (s.king.registry.get j) (s'.king.registry.get j) state) :
    Revived s s' j ↔ ∃ p, s.king.registry.get j = some p ∧ p.state.Terminal ∧ ¬(state p).Terminal := by
  constructor
  · rintro ⟨p,p',hp,ht,hp',hn⟩
    rw [hp] at h
    obtain ⟨q,hq,-,hst⟩ := h
    obtain rfl : p' = q := Option.some.inj (hp'.symm.trans hq)
    exact ⟨p,hp,ht,hst ▸ hn⟩
  · rintro ⟨p,hp,ht,hn⟩
    rw [hp] at h
    obtain ⟨q,hq,-,hst⟩ := h
    exact ⟨p,q,hp,ht,hq,hst.symm ▸ hn⟩

lemma not_byRestart {j : ℕ} (h : ∀ now index launch, op ≠ .restart now index launch) :
    ¬ByRestart s op j := by
  rintro ⟨now,index,launch,q,hop,-⟩
  exact h now index launch hop

lemma terminal_ne {p : Process} (h : p.state.Terminal) : p.state ≠ .sleeping := by
  rcases h with h | h <;> simp [h]

/-- For a step other than a restart, a spawn or a scan. -/
lemma absorbing_iff_of_rewritten (h : s.step op = some s')
    (hspawn : ∀ now launch req, op ≠ .spawnChild now launch req)
    (hreap : ∀ now order childOrder, op ≠ .reapZombies now order childOrder)
    (hrestart : ∀ now index launch, op ≠ .restart now index launch) :
    Absorbing ⟨s,op,s'⟩ ↔ ∀ j p, s.king.registry.get j = some p → p.state.Terminal →
      (s.stateAfter op j p).Terminal := by
  have hiff := fun j => revived_iff (rewritten_step h hspawn hreap j)
  constructor
  · intro ha j p hp ht
    by_contra hn
    exact not_byRestart hrestart (ha j ((hiff j).mpr ⟨p,hp,ht,hn⟩))
  · intro hall j hrev
    obtain ⟨p,hp,ht,hn⟩ := (hiff j).mp hrev
    exact absurd (hall j p hp ht) hn

lemma exitState_terminal (s : System) (now : ℤ) {p : Process} (ht : p.state.Terminal) :
    (s.exitState now p).Terminal := by
  unfold exitState
  cases restartPolicyForRole p.role with
  | always =>
    change (if _ then _ else _ : ProcessState).Terminal
    split_ifs
    · exact .inl rfl
    · exact ht
  | notify => exact .inr rfl
  | never => exact .inr rfl

/-- A step that spares terminal states keeps each of them. -/
lemma stateAfter_terminal {j : ℕ} {p : Process} (hp : s.king.registry.get j = some p)
    (ht : p.state.Terminal) (hsafe : SparesTerminal s op)
    (hrestart : ∀ now index launch, op ≠ .restart now index launch) :
    (s.stateAfter op j p).Terminal := by
  cases op with
  | killChild now order header target recursive =>
    simp only [stateAfter]
    split_ifs
    · exact .inr rfl
    · exact ht
  | handleKill now order caller target recursive =>
    simp only [stateAfter]
    split_ifs
    · exact .inr rfl
    · exact ht
  | childExit now pid =>
    simp only [stateAfter]
    split_ifs with hj
    · exact exitState_terminal s now ht
    · exact ht
  | restart now index launch => exact absurd rfl (hrestart now index launch)
  | send now pid sig =>
    simp only [stateAfter]
    split_ifs with hj
    · subst hj
      obtain ⟨h1,h2,h3⟩ := hsafe p hp ht
      cases sig with
      | sigterm => exact absurd rfl h1
      | sigstop => exact absurd rfl h2
      | sigcont => exact absurd rfl h3
      | sigkill => exact .inl rfl
      | sigchld => exact ht
      | sighup => exact ht
      | unknown code => exact ht
    · exact ht
  | sleep now pid =>
    simp only [stateAfter]
    split_ifs with hj
    · obtain ⟨rfl,hdead⟩ := hj
      exact absurd (ht.resolve_left hdead) (hsafe p hp)
    · exact ht
  | wake now pid =>
    simp only [stateAfter]
    rw [if_neg (fun hj => terminal_ne ht hj.2)]
    exact ht
  | completeTask now pid exitCode output errMsg =>
    simp only [stateAfter]
    split_ifs
    · exact .inr rfl
    · exact ht
  | cronWake now pid =>
    simp only [stateAfter]
    split_ifs with hj
    · subst hj
      exact absurd ht (hsafe p hp)
    · exact ht
  | _ => exact ht

lemma absorbing_spawnChild {now : ℤ} {launch : Except String String} {req : SpawnRequest}
    (h : s.step (.spawnChild now launch req) = some s') :
    Absorbing ⟨s,.spawnChild now launch req,s'⟩ := by
  rintro j ⟨p,p',hp,ht,hp',hn⟩
  cases h
  have hsame : p' = p := by
    rcases get_spawnChild s.king now launch req with hget | ⟨_,_,-,-,-,-,hget⟩
    · exact Option.some.inj (hp'.symm.trans ((hget j).trans hp))
    · have hj : j ≠ s.king.registry.nextPID := (Registry.get_bound hp).2.ne
      exact Option.some.inj (hp'.symm.trans ((hget j).trans ((if_neg hj).trans hp)))
  exact absurd (hsame ▸ ht) hn

lemma absorbing_reapZombies {now : ℤ} {order : List ℕ} {childOrder : ℕ → List ℕ}
    (h : s.step (.reapZombies now order childOrder) = some s') :
    Absorbing ⟨s,.reapZombies now order childOrder,s'⟩ := by
  rintro j ⟨p,p',hp,ht,hp',hn⟩
  simp only [step] at h
  split_ifs at h with ho
  cases h
  obtain ⟨q,hq,hs,-⟩ := get_reapZombies ho.2 j p' hp'
  obtain rfl : p = q := Option.some.inj (hp.symm.trans hq)
  exact absurd (hs ▸ ht) hn

lemma onRestart_eq_false_iff (k : King) (launch : Except String String) (proc : Process) :
    (k.onRestart launch proc).1 = false ↔ RestartFails k launch proc := by
  unfold King.onRestart RestartFails
  cases hrt : k.runtime with
  | none => simp
  | some manager =>
    simp only [Option.some.injEq,exists_eq_left']
    rcases manager.startRuntime_cases { proc with runtimeAddr := proc.runtimeImage }
      (if proc.runtimeType = "" then runtimePython else proc.runtimeType) launch with
      ⟨e,he,hfail⟩ | ⟨rt,manager',hok,hnot⟩
    · rw [he]
      exact iff_of_true rfl hfail
    · rw [hok]
      exact iff_of_false (fun h => Bool.noConfusion h) hnot

lemma absorbing_restart_iff {now : ℤ} {index : ℕ} {launch : Except String String}
    (h : s.step (.restart now index launch) = some s') :
    Absorbing ⟨s,.restart now index launch,s'⟩ ↔ SparesTerminal s (.restart now index launch) := by
  have hiff := fun j => revived_iff (rewritten_step h (by simp) (by simp) j)
  simp only [step] at h
  obtain ⟨q,hq,-⟩ := Option.bind_eq_some_iff.mp h
  simp only [stateAfter,hq] at hiff
  constructor
  · intro ha q' hq' hkilled p hp ht
    obtain rfl : q = q' := Option.some.inj (hq.symm.trans hq')
    rw [← onRestart_eq_false_iff]
    by_contra hok
    have hrev : Revived s s' q.restart.proc.pid := by
      refine (hiff _).mpr ⟨p,hp,ht,?_⟩
      rw [if_pos ⟨rfl,by simpa using hok⟩]
      decide
    obtain ⟨now',index',launch',q',hop,hq',-,hnot⟩ := ha _ hrev
    cases hop
    obtain rfl : q = q' := Option.some.inj (hq.symm.trans hq')
    simp [hkilled] at hnot
  · intro hsafe j hrev
    obtain ⟨p,hp,ht,hn⟩ := (hiff j).mp hrev
    split_ifs at hn with hj
    · obtain ⟨rfl,hok⟩ := hj
      refine ⟨now,index,launch,q,rfl,hq,rfl,?_⟩
      by_contra hkilled
      have hfails := hsafe q hq (by simpa using hkilled) p hp ht
      rw [← onRestart_eq_false_iff,hok] at hfails
      cases hfails
    · exact absurd ht hn

/-- One step revives nothing out of turn exactly if it spares terminal states. -/
lemma absorbing_iff_sparesTerminal (h : s.step op = some s') :
    Absorbing ⟨s,op,s'⟩ ↔ SparesTerminal s op := by
  by_cases hspawn : ∃ now launch req, op = .spawnChild now launch req
  · obtain ⟨now,launch,req,rfl⟩ := hspawn
    exact iff_of_true (absorbing_spawnChild h) trivial
  by_cases hreap : ∃ now order childOrder, op = .reapZombies now order childOrder
  · obtain ⟨now,order,childOrder,rfl⟩ := hreap
    exact iff_of_true (absorbing_reapZombies h) trivial
  by_cases hrestart : ∃ now index launch, op = .restart now index launch
  · obtain ⟨now,index,launch,rfl⟩ := hrestart
    exact absorbing_restart_iff h
  push Not at hspawn hreap hrestart
  rw [absorbing_iff_of_rewritten h hspawn hreap hrestart]
  refine ⟨fun hall => ?_,fun hsafe j p hp ht => stateAfter_terminal hp ht hsafe hrestart⟩
  cases op with
  | send now pid sig =>
    intro p hp ht
    have hafter := hall pid p hp ht
    simp only [stateAfter,if_true] at hafter
    refine ⟨?_,?_,?_⟩ <;> rintro rfl <;> simp [Signal.state,ProcessState.Terminal] at hafter
  | sleep now pid =>
    intro p hp hz
    have hafter := hall pid p hp (.inr hz)
    simp only [stateAfter,hz,ne_eq,reduceCtorEq,not_false_eq_true,and_self,if_true] at hafter
    exact absurd hafter (by decide)
  | cronWake now pid =>
    intro p hp ht
    have hafter := hall pid p hp ht
    simp only [stateAfter,if_true] at hafter
    exact absurd hafter (by decide)
  | restart now index launch => exact absurd rfl (hrestart now index launch)
  | _ => trivial

/-- In a run of the kernel, ended processes stay ended except for restarts in order, exactly if no
step of the run overwrites a terminal state. -/
theorem absorbing_iff_of_run {cfg : Config} {now : ℤ} {runtime : Option RuntimeManager}
    {trace : List (Transition System KernelOp)} (run : Run step (boot cfg now runtime) trace s) :
    (∀ e ∈ trace, Absorbing e) ↔ ∀ e ∈ trace, SparesTerminal e.source e.label := by
  exact forall₂_congr (fun e he => absorbing_iff_sparesTerminal (run.steps e he))

/-- A lead is spawned and killed by the kernel. -/
def killedLead : List KernelOp :=
  [.spawnChild 0 (.ok "") (Registry.agentRequest 1 "lead" .lead),
    .handleKill 0 (fun _ => [1,2]) 1 2 false]

theorem absorbing_iff_of_run_killedLead : ∃ trace s, Run step (boot King.exampleConfig 0 none) trace s ∧
    (s.king.registry.get 2).map Process.state = some .zombie ∧ ∀ e ∈ trace, Absorbing e := by
  obtain ⟨s,hs,hz⟩ : ∃ s, exec step killedLead (boot King.exampleConfig 0 none) = some s ∧
      (s.king.registry.get 2).map Process.state = some .zombie := ⟨_,rfl,rfl⟩
  have hrun := Run.of_exec hs
  refine ⟨_,s,hrun,hz,(absorbing_iff_of_run hrun).mpr (fun e he => ?_)⟩
  have hl := label_mem_of_mem_transitions he
  simp only [killedLead,List.mem_cons,List.not_mem_nil,or_false] at hl
  rcases hl with hl | hl <;> rw [hl] <;> trivial

/-- The killed lead is continued, and runs. -/
theorem sigcont_revives_zombie :
    ¬ ∀ (cfg : Config) (now : ℤ) (runtime : Option RuntimeManager)
      (trace : List (Transition System KernelOp)) (s : System),
      Run step (boot cfg now runtime) trace s → ∀ e ∈ trace, Absorbing e := by
  intro h
  obtain ⟨s,t,hs,ht,p,p',hp,hz,hp',hr⟩ : ∃ s t, exec step killedLead (boot King.exampleConfig 0 none) = some s ∧
      s.step (.send 1 2 .sigcont) = some t ∧ ∃ p p', s.king.registry.get 2 = some p ∧
        p.state = .zombie ∧ t.king.registry.get 2 = some p' ∧ p'.state = .running :=
    ⟨_,_,rfl,rfl,_,_,rfl,rfl,rfl,rfl⟩
  have hrun := (Run.of_exec hs).snoc ht
  have hrev : Revived s t 2 := ⟨p,p',hp,.inr hz,hp',by rw [hr]; decide⟩
  obtain ⟨now,index,launch,q,hop,-⟩ := h _ _ _ _ _ hrun ⟨s,.send 1 2 .sigcont,t⟩ (by simp) 2 hrev
  cases hop

end System
end HiveKernel
