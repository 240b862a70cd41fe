import HiveKernel.Kernel.SystemTable

/-! The survival of PID 1. A kill is allowed to whoever claims to be the parent of its target, and
PID 1 has parent 0: a request from a caller that gives itself as PID 0 kills the kernel. Nothing
else that agents and the supervisor's scans do can. -/
namespace HiveKernel
open Lib
namespace System

/-- PID 1 is registered, has its role and has not ended. -/
def KernelAlive (s : System) : Prop :=
  ∃ p, s.king.registry.get 1 = some p ∧ p.role = .kernel ∧ ¬p.state.Terminal

/-- Requests over gRPC, syscalls and scans for zombies. -/
def IsRequest : KernelOp → Prop
  | .spawnChild .. | .killChild .. | .handleKill .. | .requestResources .. | .reportMetric ..
  | .setTrace .. | .waitResult .. | .reapZombies .. => True
  | _ => False

/-- A kill of PID 1 by a caller that is taken for PID 0. -/
def KillsKernel : KernelOp → Prop
  | .killChild _ _ header target _ => callerPID header = .ok 0 ∧ target = 1
  | .handleKill _ _ caller target _ => caller = 0 ∧ target = 1
  | _ => False

variable {s s' : System} {op : KernelOp}

/-- The caller and the target of a kill. -/
def killRequest : KernelOp → Option (ℕ × ℕ)
  | .killChild _ _ header target _ => (callerPID header).toOption.map (·,target)
  | .handleKill _ _ caller target _ => some (caller,target)
  | _ => none

/-- Whoever is killed is the target or below it, and the target is a child of the caller. -/
lemma mem_killedBy {j : ℕ} (hj : j ∈ s.killedBy op) :
    ∃ caller target t, killRequest op = some (caller,target) ∧
      s.king.registry.get target = some t ∧ t.ppid = caller ∧
      (j = target ∨ Relation.TransGen (Link s.king.registry.link) j target) := by
  have hkill : ∀ {now order caller target recursive},
      j ∈ victimsOf (s.king.kill now order caller target recursive) →
      ∃ t, s.king.registry.get target = some t ∧ t.ppid = caller ∧
        (j = target ∨ Relation.TransGen (Link s.king.registry.link) j target) := by
    intro now order caller target recursive hj
    obtain ⟨pids,k',hk,hj⟩ := mem_victimsOf hj
    rcases King.kill_cases hk with ⟨-,e,he⟩ | ⟨t,killed,ht,hppid,hv,hres,-⟩
    · cases he
    · cases hres
      refine ⟨t,ht,hppid,?_⟩
      unfold King.victims at hv
      split_ifs at hv
      · obtain ⟨ds,hds,rfl⟩ := Option.map_eq_some_iff.mp hv
        rcases List.mem_append.mp hj with hj | hj
        · obtain ⟨d,hd,rfl⟩ := List.mem_map.mp hj
          exact .inr (Registry.mem_collectDescendants hds hd).2
        · exact .inl (List.mem_singleton.mp hj)
      · cases hv
        exact .inl (List.mem_singleton.mp hj)
  cases op with
  | killChild now order header target recursive =>
    simp only [killedBy,King.killChild] at hj
    cases hc : callerPID header with
    | error e => simp [hc,victimsOf] at hj
    | ok caller =>
      simp only [hc] at hj
      obtain ⟨t,ht⟩ := hkill hj
      exact ⟨caller,target,t,by simp [killRequest,hc,Except.toOption],ht⟩
  | handleKill now order caller target recursive =>
    obtain ⟨t,ht⟩ := hkill hj
    exact ⟨caller,target,t,rfl,ht⟩
  | _ => simp [killedBy] at hj

/-- Only a request that is counted as such reaches PID 1. -/
lemma not_mem_killedBy_one (ho : s.king.registry.Ordered) (hk : ¬KillsKernel op) : 1 ∉ s.killedBy op := by
  intro hj
  obtain ⟨caller,target,t,hreq,ht,hppid,h | h⟩ := mem_killedBy hj
  · subst h
    have h0 := ho.root t ht
    cases op with
    | killChild now order header target recursive =>
      obtain ⟨c,hc,he⟩ := Option.map_eq_some_iff.mp hreq
      cases he
      apply hk
      cases hh : callerPID header with
      | error e => simp [hh,Except.toOption] at hc
      | ok c' =>
        simp only [hh,Except.toOption,Option.some.injEq] at hc
        exact ⟨by rw [hh,hc,← hppid,h0],rfl⟩
    | handleKill now order caller target recursive =>
      cases hreq
      exact hk ⟨by rw [← hppid,h0],rfl⟩
    | _ => cases hreq
  · have hlt : target < 1 := ho.graded.lt h
    have := (Registry.get_bound ht).1
    omega

/-- A scan leaves PID 1 in the table unless it is a zombie. -/
lemma get_one_reapZombies {r : Registry} (ho : r.Ordered) {p : Process} (hp : r.get 1 = some p)
    (hz : p.state ≠ .zombie) {config : SupervisorConfig} {now : ℤ} {order : List ℕ}
    {childOrder : ℕ → List ℕ} (hc : ∀ k ∈ order, r.Enumerates (childOrder k)) :
    (r.reapZombies config now order childOrder).get 1 = some p := by
  refine (Registry.reapZombies_induction hc (fun r' => r'.get 1 = some p) hp ?_)
  intro r' k q hr' hq ht hall
  have hne : (1 : ℕ) ≠ q.pid := by
    intro h1
    rw [Registry.get_pid hq] at h1
    rw [← h1] at hq
    obtain rfl : p = q := Option.some.inj (hr'.symm.trans hq)
    exact hz ht.1
  have hroot : ¬(p.ppid = q.pid) := by
    have h0 := ho.root p hp
    have := (Registry.get_bound hq).1
    rw [Registry.get_pid hq]
    omega
  rw [Registry.get_reap hall,if_neg hne,hr']
  simp [Registry.adoptedBy,hroot]

lemma kernelAlive_step (h : s.KernelAlive ∧ s.king.registry.Ordered)
    (ha : IsRequest op ∧ ¬KillsKernel op) (hs : s.step op = some s') : s'.KernelAlive := by
  obtain ⟨⟨p,hp,hrole,hlive⟩,ho⟩ := h
  rcases step_table hs with ⟨now,launch,req,-,rfl⟩ | ⟨now,order,childOrder,-,he,rfl⟩ | hrw
  · refine ⟨p,?_,hrole,hlive⟩
    rcases get_spawnChild s.king now launch req with hget | ⟨_,_,-,-,-,-,hget⟩
    · exact (hget 1).trans hp
    · exact (hget 1).trans ((if_neg (Registry.get_bound hp).2.ne).trans hp)
  · exact ⟨p,get_one_reapZombies ho hp (fun hz => hlive (.inr hz)) he,hrole,hlive⟩
  · have hone := hrw 1
    rw [hp] at hone
    obtain ⟨p',hp',hf,hstate⟩ := hone
    have hsame : s.stateAfter op 1 p = p.state := by
      have hnot := not_mem_killedBy_one ho ha.2
      cases op with
      | killChild now order header target recursive => exact if_neg hnot
      | handleKill now order caller target recursive => exact if_neg hnot
      | requestResources pid amount => rfl
      | reportMetric now pid tokens => rfl
      | setTrace pid traceID traceSpan => rfl
      | waitResult pid => rfl
      | spawnChild now launch req => rfl
      | reapZombies now order childOrder => rfl
      | _ => exact ha.1.elim
    exact ⟨p',hp',hf.role.trans hrole,by rwa [hstate,hsame]⟩

/-- A kill by PID 0 does reach PID 1. -/
lemma not_kernelAlive_of_killsKernel (h : s.KernelAlive) (ho : s.king.registry.Ordered)
    (hk : KillsKernel op) (hs : s.step op = some s') : ¬s'.KernelAlive := by
  obtain ⟨p,hp,-,-⟩ := h
  have hkill : ∀ {now order recursive} {o : Option (Except String (List ℕ) × King)},
      s.king.kill now order 0 1 recursive = o → o.map s.killed = some s' →
      1 ∈ victimsOf o := by
    intro now order recursive o hk ho'
    obtain ⟨⟨result,k'⟩,rfl,-⟩ := Option.map_eq_some_iff.mp ho'
    simp only [King.kill,hp,ho.root p hp,ne_eq,not_true_eq_false,if_false] at hk
    obtain ⟨killed,hv,he⟩ := Option.map_eq_some_iff.mp hk
    cases he
    unfold King.victims at hv
    split_ifs at hv
    · obtain ⟨ds,-,rfl⟩ := Option.map_eq_some_iff.mp hv
      simp [victimsOf]
    · cases hv
      simp [victimsOf]
  have hmem : 1 ∈ s.killedBy op ∧ (∀ now launch req, op ≠ .spawnChild now launch req) ∧
      (∀ now order childOrder, op ≠ .reapZombies now order childOrder) ∧
      s.stateAfter op 1 p = (if 1 ∈ s.killedBy op then .zombie else p.state) := by
    cases op with
    | killChild now order header target recursive =>
      obtain ⟨hc,rfl⟩ := hk
      refine ⟨?_,by simp,by simp,rfl⟩
      simp only [step,King.killChild,hc] at hs
      simp only [killedBy,King.killChild,hc]
      exact hkill rfl hs
    | handleKill now order caller target recursive =>
      obtain ⟨rfl,rfl⟩ := hk
      exact ⟨hkill rfl hs,by simp,by simp,rfl⟩
    | _ => exact hk.elim
  have hrw := rewritten_step hs hmem.2.1 hmem.2.2.1 1
  rw [hp] at hrw
  obtain ⟨p',hp',-,hstate⟩ := hrw
  rintro ⟨q,hq,-,hlive⟩
  obtain rfl : p' = q := Option.some.inj (hp'.symm.trans hq)
  apply hlive
  rw [hstate,hmem.2.2.2,if_pos hmem.1]
  exact .inr rfl

lemma kernelAlive_boot (cfg : Config) (now : ℤ) (runtime : Option RuntimeManager) :
    (boot cfg now runtime).KernelAlive := by
  refine ⟨Registry.new.stamped now (Registry.kernelProcess "king" cfg.kernelUser cfg.nodeName),
    rfl,rfl,?_⟩
  change ¬ProcessState.Terminal .running
  decide

/-- In a run of requests, syscalls and scans the kernel stays alive exactly if no kill of PID 1
comes from a caller that is taken for PID 0. -/
theorem kernelAlive_iff_of_run {cfg : Config} {now : ℤ} {runtime : Option RuntimeManager}
    {trace : List (Transition System KernelOp)} (run : Run step (boot cfg now runtime) trace s)
    (hreq : ∀ e ∈ trace, IsRequest e.label) :
    ((boot cfg now runtime).KernelAlive ∧ ∀ e ∈ trace, e.target.KernelAlive) ↔
      ∀ e ∈ trace, ¬KillsKernel e.label := by
  have h0 := kernelAlive_boot cfg now runtime
  have hord := (run.invariant (fun _ _ _ hs hstep => ordered_step hs hstep)
    (ordered_boot cfg now runtime)).1
  constructor
  · rintro ⟨-,halive⟩ e he hk
    have hsource := run.source_of_target h0 halive e he
    exact not_kernelAlive_of_killsKernel hsource (hord e he).1 hk (hord e he).2 (halive e he)
  · intro hk
    have hinv := (run.invariant_of_allowed
      (fun s op s' (h : s.KernelAlive ∧ s.king.registry.Ordered) ha hs =>
        ⟨kernelAlive_step h ha hs,ordered_step h.2 hs⟩)
      ⟨h0,ordered_boot cfg now runtime⟩ (fun e he => ⟨hreq e he,hk e he⟩)).1
    exact ⟨h0,fun e he => kernelAlive_step (hinv e he).1 ⟨hreq e he,hk e he⟩ (hinv e he).2⟩

/-- A lead is spawned and killed with its subtree, and reaped; PID 1 cannot kill itself. -/
def refusedKill : List KernelOp :=
  [.spawnChild 0 (.ok "") (Registry.agentRequest 1 "lead" .lead),
    .killChild 0 (fun _ => [1,2]) (some ["1"]) 2 true,
    .killChild 0 (fun _ => [1,2]) (some ["1"]) 1 true,
    .reapZombies (61*second) [1,2] (fun _ => [1,2])]

theorem kernelAlive_iff_of_run_refusedKill : ∃ trace s,
    Run step (boot King.exampleConfig 0 none) trace s ∧ s.king.registry.get 2 = none ∧
    ∀ e ∈ trace, e.target.KernelAlive := by
  obtain ⟨s,hs,h2⟩ : ∃ s, exec step refusedKill (boot King.exampleConfig 0 none) = some s ∧
      s.king.registry.get 2 = none := ⟨_,rfl,rfl⟩
  have hrun := Run.of_exec hs
  have hlabels : ∀ op ∈ refusedKill, IsRequest op ∧ ¬KillsKernel op := by
    have hone : callerPID (some ["1"]) = .ok 1 := rfl
    simp [refusedKill,IsRequest,KillsKernel,hone]
  have hall : ∀ e ∈ transitions step refusedKill (boot King.exampleConfig 0 none),
      IsRequest e.label ∧ ¬KillsKernel e.label :=
    fun e he => hlabels _ (label_mem_of_mem_transitions he)
  exact ⟨_,s,hrun,h2,((kernelAlive_iff_of_run hrun (fun e he => (hall e he).1)).mpr
    (fun e he => (hall e he).2)).2⟩

/-- The request of the dashboard: a kill of PID 1 with the header `0`. -/
theorem killChild_kills_kernel :
    ¬ ∀ (cfg : Config) (now : ℤ) (runtime : Option RuntimeManager)
      (trace : List (Transition System KernelOp)) (s : System),
      Run step (boot cfg now runtime) trace s → (∀ e ∈ trace, IsRequest e.label) → s.KernelAlive := by
  intro h
  obtain ⟨s,hs,p,hp,hz⟩ : ∃ s, step (boot King.exampleConfig 0 none)
      (.killChild 0 (fun _ => [1]) (some ["0"]) 1 false) = some s ∧
      ∃ p, s.king.registry.get 1 = some p ∧ p.state = .zombie := ⟨_,rfl,_,rfl,rfl⟩
  obtain ⟨q,hq,-,hlive⟩ := h _ _ _ _ s (.cons hs (.nil s)) (by simp [IsRequest])
  obtain rfl : p = q := Option.some.inj (hp.symm.trans hq)
  exact hlive (.inr hz)

end System
end HiveKernel
