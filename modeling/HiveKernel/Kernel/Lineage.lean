import HiveKernel.Kernel.FrontEnds
import HiveKernel.Kernel.KernelBudget
import HiveKernel.Kernel.Routability

/-! What a process has from its parent. Role, user and tier are checked against the direct parent
when a process is spawned and are never changed; scans move processes to the parent of their
parent. Only the role of the kernel is not checked at all. -/
namespace HiveKernel
open Lib

namespace King

/-- The request passes all checks, is paid for and is launched. -/
def Creates (k : King) (now : ℤ) (launch : Except String String) (req : SpawnRequest) : Prop :=
  k.Accepts now req ∧ (fund k.budget req k.registry.nextPID).isOk ∧
    ¬k.LaunchFails req k.registry.nextPID launch

/-- Such a request adds its process to the table; every other one leaves the lookups alone. -/
lemma spawnChild_creates (k : King) (now : ℤ) (launch : Except String String) (req : SpawnRequest) :
    (¬k.Creates now launch req ∧
      ∀ j, (k.spawnChild now launch req).2.registry.get j = k.registry.get j) ∨
    (k.Creates now launch req ∧ ∃ parent addr, Admitted k req parent ∧
      k.registry.validateParent req parent = .ok () ∧
      ∀ j, (k.spawnChild now launch req).2.registry.get j = if j = k.registry.nextPID
        then some { k.newborn now req parent with runtimeAddr := addr } else k.registry.get j) := by
  rcases spawnChild_effect k now launch req with ⟨hnot,e,he⟩ | ⟨parent,heff⟩
  · exact .inl ⟨fun h => hnot h.1,fun j => by rw [he]⟩
  · rcases heff.outcome with ⟨-,⟨e,hf⟩,-,hget⟩ | ⟨-,hfail,-,hget⟩ | ⟨addr,-,hok,hf,hget⟩
    · refine .inl ⟨fun h => ?_,hget⟩
      have hfund := h.2.1
      simp [hf,Except.isOk,Except.toBool] at hfund
    · exact .inl ⟨fun h => h.2.2 hfail,hget⟩
    · exact .inr ⟨⟨heff.accepts,by rw [hf]; rfl,hok⟩,parent,addr,heff.admitted,
        Registry.validateParent_of_spawn heff.spawned heff.admitted.found,hget⟩

end King

namespace System
variable {s s' : System} {op : KernelOp}

/-- PID 1, and no other process, has the role of the kernel. -/
def OnlyKernel (s : System) : Prop := ∀ j p, s.king.registry.get j = some p → (p.role = .kernel ↔ j = 1)

/-- A spawn of a further kernel that nothing refuses. -/
def CreatesKernel (s : System) : KernelOp → Prop
  | .spawnChild now launch req => req.role = .kernel ∧ s.king.Creates now launch req
  | _ => False

lemma onlyKernel_step (h : s.OnlyKernel) (hk : ¬s.CreatesKernel op) (h1 : 1 < s.king.registry.nextPID)
    (hs : s.step op = some s') : s'.OnlyKernel := by
  rcases step_table hs with ⟨now,launch,req,rfl,rfl⟩ | ⟨now,order,childOrder,-,he,rfl⟩ | hrw
  · intro j p hp
    rcases s.king.spawnChild_creates now launch req with ⟨-,hget⟩ | ⟨hc,parent,addr,-,-,hget⟩
    · exact h j p ((hget j).symm.trans hp)
    · rw [hget] at hp
      split_ifs at hp with hj
      · cases hp
        exact iff_of_false (fun hrole => hk ⟨hrole,hc⟩) (by omega)
      · exact h j p hp
  · intro j p' hp'
    obtain ⟨p,hp,-,hrole⟩ := get_reapZombies he j p' hp'
    rw [hrole]
    exact h j p hp
  · intro j p' hp'
    obtain ⟨p,hp,hf,-⟩ := rewritten_ppid hrw j p' hp'
    rw [hf.role]
    exact h j p hp

/-- A further kernel is one. -/
lemma not_onlyKernel_of_createsKernel (hk : s.CreatesKernel op) (h1 : 1 < s.king.registry.nextPID)
    (hs : s.step op = some s') : ¬s'.OnlyKernel := by
  intro h
  cases op with
  | spawnChild now launch req =>
    cases hs
    obtain ⟨hrole,hc⟩ := hk
    rcases s.king.spawnChild_creates now launch req with ⟨hnot,-⟩ | ⟨-,parent,addr,-,-,hget⟩
    · exact hnot hc
    · have hnew := h s.king.registry.nextPID _ ((hget _).trans (if_pos rfl))
      have := hnew.mp hrole
      omega
  | _ => exact hk.elim

lemma get_boot (cfg : Config) (now : ℤ) (runtime : Option RuntimeManager) (j : ℕ) :
    (boot cfg now runtime).king.registry.get j = if j = 1
      then some (Registry.new.stamped now (Registry.kernelProcess "king" cfg.kernelUser cfg.nodeName))
      else none := Registry.get_boot now "king" cfg.kernelUser cfg.nodeName j

lemma onlyKernel_boot (cfg : Config) (now : ℤ) (runtime : Option RuntimeManager) :
    (boot cfg now runtime).OnlyKernel := by
  intro j p hp
  rw [get_boot] at hp
  split_ifs at hp with hj
  cases hp
  exact iff_of_true rfl hj

lemma one_lt_nextPID_of_run {cfg : Config} {now : ℤ} {runtime : Option RuntimeManager}
    {trace : List (Transition System KernelOp)} (run : Run step (boot cfg now runtime) trace s) :
    ∀ e ∈ trace, 1 < e.source.king.registry.nextPID ∧ step e.source e.label = some e.target := by
  have hboot : 1 < (boot cfg now runtime).king.registry.nextPID := Nat.lt_succ_self 1
  exact (run.invariant (fun _ _ _ (h : 1 < _) hs => Nat.lt_of_lt_of_le h (nextPID_le_step hs)) hboot).1

/-- In every run PID 1 stays the only kernel exactly if no step spawns another one. -/
theorem onlyKernel_iff_of_run {cfg : Config} {now : ℤ} {runtime : Option RuntimeManager}
    {trace : List (Transition System KernelOp)} (run : Run step (boot cfg now runtime) trace s) :
    ((boot cfg now runtime).OnlyKernel ∧ ∀ e ∈ trace, e.target.OnlyKernel) ↔
      ∀ e ∈ trace, ¬e.source.CreatesKernel e.label := by
  have h0 := onlyKernel_boot cfg now runtime
  rw [and_iff_right h0]
  apply run.good_iff_allowed (fun s => s.OnlyKernel ∧ 1 < s.king.registry.nextPID) OnlyKernel
    (fun s op => ¬s.CreatesKernel op)
  · rintro s op s' ⟨honly,hcount⟩ hs
    have hkept : ¬s.CreatesKernel op → s'.OnlyKernel := fun hk => onlyKernel_step honly hk hcount hs
    refine ⟨⟨fun h hk => not_onlyKernel_of_createsKernel hk hcount hs h,hkept⟩,fun hk => ⟨hkept hk,?_⟩⟩
    exact Nat.lt_of_lt_of_le hcount (nextPID_le_step hs)
  · exact ⟨h0,Nat.lt_succ_self 1⟩

/-- A kernel that asks for more than its parent may give. -/
def strategicKernel (parentPID : ℕ) : SpawnRequest :=
  { Registry.agentRequest parentPID "king" .kernel with cognitiveTier := .strategic }

/-- A lead that asks for a strategic kernel is refused: its own tier is weaker. -/
theorem onlyKernel_iff_of_run_refusedKernel : ∃ trace s,
    Run step (boot King.exampleConfig 0 none) trace s ∧ (s.king.registry.get 2).isSome ∧
    ∀ e ∈ trace, e.target.OnlyKernel := by
  obtain ⟨t,s,ht,hs,h2,hrefused⟩ : ∃ t s, step (boot King.exampleConfig 0 none)
      (.spawnChild 0 (.ok "") (Registry.agentRequest 1 "lead" .lead)) = some t ∧
      step t (.spawnChild 0 (.ok "") (strategicKernel 2)) = some s ∧ (s.king.registry.get 2).isSome ∧
      ¬t.king.Accepts 0 (strategicKernel 2) := ⟨_,_,rfl,rfl,rfl,by decide⟩
  have hrun := Run.cons ht (.cons hs (.nil s))
  refine ⟨_,s,hrun,h2,((onlyKernel_iff_of_run hrun).mpr ?_).2⟩
  intro e he
  simp only [List.mem_cons,List.not_mem_nil,or_false] at he
  rcases he with rfl | rfl
  · exact fun hk => AgentRole.noConfusion hk.1
  · exact fun hk => hrefused hk.2.1

/-- An agent asks the gRPC service for a process with the role number 0 and gets a second kernel. -/
theorem agent_spawns_kernel :
    ¬ ∀ (cfg : Config) (now : ℤ) (runtime : Option RuntimeManager)
      (trace : List (Transition System KernelOp)) (s : System),
      Run step (boot cfg now runtime) trace s → (∀ e ∈ trace, IsTreeOp e.label) → s.OnlyKernel := by
  intro h
  let ops : List KernelOp := [.spawnChild 0 (.ok "") (Registry.agentRequest 1 "leo" .agent),
    .spawnChild 0 (.ok "") (Registry.agentRequest 2 "usurper" (protoRoleToInternal 0))]
  obtain ⟨s,p,hs,hp,hrole⟩ : ∃ s p, exec step ops (boot King.exampleConfig 0 none) = some s ∧
      s.king.registry.get 3 = some p ∧ p.role = .kernel := ⟨_,_,rfl,rfl,rfl⟩
  have hlabels : ∀ op ∈ ops, IsTreeOp op := by
    simp [ops,IsTreeOp]
  have honly := h _ _ _ _ s (Run.of_exec hs) (fun e he => hlabels _ (label_mem_of_mem_transitions he))
  have h3 := (honly 3 p hp).mp hrole
  omega

/-- What a child has from its parent: a tier that is not stronger, the user unless PID 1 gave it
another, and a parent of a role that may have children. -/
structure Inherits (c p : Process) : Prop where
  tier : p.cognitiveTier.number ≤ c.cognitiveTier.number
  user : c.user = p.user ∨ p.pid = 1
  role : p.role ≠ .task ∧ p.role ≠ .architect

/-- The entry describes the same process, wherever it stands in the tree. -/
structure Same (p p' : Process) : Prop where
  pid : p'.pid = p.pid
  role : p'.role = p.role
  cognitiveTier : p'.cognitiveTier = p.cognitiveTier
  user : p'.user = p.user

lemma same_of_frame {p p' : Process} (h : Frame p p') : Same p p' :=
  ⟨h.pid,h.role,h.cognitiveTier,h.user⟩

lemma same_adoptedBy (r : Registry) (now : ℤ) (z c : Process) : Same c (r.adoptedBy now z c) := by
  unfold Registry.adoptedBy
  split_ifs
  · exact ⟨rfl,rfl,rfl,rfl⟩
  · exact ⟨rfl,rfl,rfl,rfl⟩

lemma Inherits.of_same {c c' p p' : Process} (h : Inherits c p) (hc : Same c c') (hp : Same p p') :
    Inherits c' p' := by
  refine ⟨?_,?_,?_⟩
  · rw [hc.cognitiveTier,hp.cognitiveTier]
    exact h.tier
  · rw [hc.user,hp.user,hp.pid]
    exact h.user
  · rw [hp.role]
    exact h.role

/-- Inheritance passes through every process but PID 1. -/
lemma Inherits.trans {c z p : Process} (h : Inherits c z) (h' : Inherits z p) (hz : z.pid ≠ 1) :
    Inherits c p := by
  refine ⟨Nat.le_trans h'.tier h.tier,?_,h'.role⟩
  have hu := h.user.resolve_right hz
  rw [hu]
  exact h'.user

/-- Every registered child of a registered process inherits from it. -/
def Lineage (r : Registry) : Prop :=
  ∀ j c p, r.get j = some c → r.get c.ppid = some p → Inherits c p

/-- A reaped process passes its children on to its parent, which it inherits from itself. -/
lemma lineage_reap {r : Registry} (h : Lineage r) (ho : r.Ordered) {now : ℤ} {childOrder : List ℕ}
    {k : ℕ} {z : Process} (hz : r.get k = some z) (hall : ∀ j, (r.get j).isSome → j ∈ childOrder) :
    Lineage (r.reap now childOrder z) := by
  intro j c' p' hc' hp'
  rw [Registry.get_reap hall] at hc' hp'
  split_ifs at hc' hp'
  obtain ⟨c,hc,rfl⟩ := Option.map_eq_some_iff.mp hc'
  obtain ⟨p,hp,rfl⟩ := Option.map_eq_some_iff.mp hp'
  refine Inherits.of_same ?_ (same_adoptedBy r now z c) (same_adoptedBy r now z p)
  unfold Registry.adoptedBy at hp
  split_ifs at hp with hm
  · have hcz : Inherits c z := h j c z hc (by rw [hm.1,Registry.get_pid hz]; exact hz)
    have hzp : Inherits z p := h k z p hz hp
    apply hcz.trans hzp
    intro h1
    have hroot := ho.root z (by rw [← h1,Registry.get_pid hz]; exact hz)
    have hreg := hm.2.2
    rw [hroot,Registry.get_zero] at hreg
    cases hreg
  · exact h j c p hc hp

lemma lineage_reapZombies {r : Registry} (h : Lineage r) (ho : r.Ordered) {config : SupervisorConfig}
    {now : ℤ} {order : List ℕ} {childOrder : ℕ → List ℕ}
    (hc : ∀ k ∈ order, r.Enumerates (childOrder k)) :
    Lineage (r.reapZombies config now order childOrder) := by
  have hboth : Lineage (r.reapZombies config now order childOrder) ∧
      (r.reapZombies config now order childOrder).Ordered := by
    apply Registry.reapZombies_induction hc (fun r' => Lineage r' ∧ r'.Ordered) ⟨h,ho⟩
    intro r' k z hr' hz _ hall
    exact ⟨lineage_reap hr'.1 hr'.2 hz hall,hr'.2.reap hz hall⟩
  exact hboth.1

/-- Nobody asks for a further kernel. -/
def AsksNoKernel : KernelOp → Prop
  | .spawnChild _ _ req => req.role ≠ .kernel
  | _ => True

lemma not_createsKernel (h : AsksNoKernel op) : ¬s.CreatesKernel op := by
  cases op with
  | spawnChild now launch req => exact fun hk => h hk.1
  | _ => exact id

/-- The default rules let neither a task nor an architect spawn. -/
lemma role_of_aclCheck_spawn {r : Registry} {pid : ℕ} {p : Process} (hp : r.get pid = some p)
    (h : aclCheck defaultRules r pid .spawn = .ok ()) : p.role ≠ .task ∧ p.role ≠ .architect := by
  constructor
  · intro hrole
    simp [aclCheck,hp,defaultRules,allowing,ACLRule.matches,hrole,require] at h
  · intro hrole
    simp [aclCheck,hp,defaultRules,allowing,ACLRule.matches,hrole] at h

/-- The user of a new child is its parent's unless the parent has the role of the kernel. -/
lemma user_of_validateInheritance {r : Registry} {req : SpawnRequest} {parent : Process}
    (hp : r.get req.parentPID = some parent)
    (h : validateInheritance r req.parentPID req.user = .ok ()) :
    (Registry.child req (some parent)).user = parent.user ∨ parent.role = .kernel := by
  simp only [validateInheritance,hp] at h
  simp only [Registry.child,Option.map_some,Option.getD_some]
  rcases require_eq_ok.mp h with hk | hu | hu
  · exact .inr hk
  · exact .inl (if_pos hu)
  · left
    split_ifs
    · rfl
    · exact hu

/-- A new child inherits from the parent that asked for it. -/
lemma inherits_newborn {k : King} {now : ℤ} {req : SpawnRequest} {parent : Process}
    (hrules : k.rules = defaultRules) (hadm : King.Admitted k req parent)
    (hv : k.registry.validateParent req parent = .ok ())
    (hkernel : parent.role = .kernel → req.parentPID = 1) (addr : String) :
    Inherits { k.newborn now req parent with runtimeAddr := addr } parent := by
  obtain ⟨hacl,hinherit,-⟩ := King.admission_ok hadm.admission
  refine ⟨(Registry.validateParent_ok hv).2.1,?_,?_⟩
  · rcases user_of_validateInheritance hadm.found hinherit with hu | hk
    · exact .inl hu
    · exact .inr ((Registry.get_pid hadm.found).trans (hkernel hk))
  · rw [hrules] at hacl
    exact role_of_aclCheck_spawn hadm.found hacl

/-- What the steps keep: the rules, one kernel, and inheritance along the edges. -/
structure Bred (s : System) : Prop where
  rules : s.king.rules = defaultRules
  kernel : s.OnlyKernel
  ordered : s.king.registry.Ordered
  lineage : Lineage s.king.registry

lemma lineage_step (h : s.Bred) (hs : s.step op = some s') : Lineage s'.king.registry := by
  rcases step_table hs with ⟨now,launch,req,-,rfl⟩ | ⟨now,order,childOrder,-,he,rfl⟩ | hrw
  · intro j c p hc hp
    rcases s.king.spawnChild_creates now launch req with ⟨-,hget⟩ | ⟨-,parent,addr,hadm,hv,hget⟩
    · rw [hget] at hc hp
      exact h.lineage j c p hc hp
    · rw [hget] at hc
      have hfound := hadm.found
      split_ifs at hc with hj
      · cases hc
        change (s.king.spawnChild now launch req).2.registry.get req.parentPID = some p at hp
        rw [hget,if_neg (Registry.get_bound hfound).2.ne,hfound] at hp
        cases hp
        exact inherits_newborn h.rules hadm hv (h.kernel _ _ hfound).mp addr
      · rw [hget] at hp
        split_ifs at hp with hnew
        · have := h.ordered.ppid_lt hc
          have := (Registry.get_bound hc).2
          omega
        · exact h.lineage j c p hc hp
  · exact lineage_reapZombies h.lineage h.ordered he
  · intro j c' p' hc' hp'
    obtain ⟨c,hc,hf,-⟩ := rewritten_ppid hrw j c' hc'
    obtain ⟨p,hp,hf',-⟩ := rewritten_ppid hrw c'.ppid p' hp'
    rw [hf.ppid] at hp
    exact (h.lineage j c p hc hp).of_same (same_of_frame hf) (same_of_frame hf')

theorem bred_step (h : s.Bred) (ha : AsksNoKernel op) (h1 : 1 < s.king.registry.nextPID)
    (hs : s.step op = some s') : s'.Bred :=
  ⟨(rules_step hs).trans h.rules,onlyKernel_step h.kernel (not_createsKernel ha) h1 hs,
    ordered_step h.ordered hs,lineage_step h hs⟩

lemma bred_boot (cfg : Config) (now : ℤ) (runtime : Option RuntimeManager) :
    (boot cfg now runtime).Bred := by
  refine ⟨rfl,onlyKernel_boot cfg now runtime,ordered_boot cfg now runtime,?_⟩
  intro j c p hc hp
  rw [get_boot] at hc
  split_ifs at hc
  cases hc
  cases hp

/-- In every run without a request for a further kernel, every child inherits from its registered
parent, also from one that adopted it. -/
theorem lineage_of_run {cfg : Config} {now : ℤ} {runtime : Option RuntimeManager}
    {trace : List (Transition System KernelOp)} (run : Run step (boot cfg now runtime) trace s)
    (hasks : ∀ e ∈ trace, AsksNoKernel e.label) :
    Lineage (boot cfg now runtime).king.registry ∧ ∀ e ∈ trace, Lineage e.target.king.registry := by
  have h0 := bred_boot cfg now runtime
  have hcount := one_lt_nextPID_of_run run
  have hinv := (run.invariant_of_allowed
    (fun s op s' (h : s.Bred) (ha : AsksNoKernel op ∧ 1 < s.king.registry.nextPID) hs =>
      bred_step h ha.1 ha.2 hs) h0
    (fun e he => ⟨hasks e he,(hcount e he).1⟩)).1
  exact ⟨h0.lineage,fun e he => lineage_step (hinv e he).1 (hinv e he).2⟩

/-- The kernel gives an agent another user. The agent's child, which runs as that user too, is moved
up to the kernel when the agent is reaped. -/
theorem lineage_of_run_adopted : ∃ trace s c,
    Run step (boot King.exampleConfig 0 none) trace s ∧ s.king.registry.get 2 = none ∧
    s.king.registry.get 3 = some c ∧ c.ppid = 1 ∧ c.user = "leo" ∧
    ∀ e ∈ trace, Lineage e.target.king.registry := by
  let ops : List KernelOp :=
    [.spawnChild 0 (.ok "") { Registry.agentRequest 1 "agent" .agent with user := "leo" },
      .spawnChild 0 (.ok "") (Registry.agentRequest 2 "worker" .worker),
      .handleKill 0 (fun _ => [1,2,3]) 1 2 false,
      .reapZombies (61*second) [1,2,3] (fun _ => [1,2,3])]
  obtain ⟨s,c,hs,h2,h3,hppid,huser⟩ : ∃ s c, exec step ops (boot King.exampleConfig 0 none) = some s ∧
      s.king.registry.get 2 = none ∧ s.king.registry.get 3 = some c ∧ c.ppid = 1 ∧ c.user = "leo" :=
    ⟨_,_,rfl,rfl,rfl,rfl,rfl⟩
  have hlabels : ∀ op ∈ ops, AsksNoKernel op := by
    simp [ops,AsksNoKernel,Registry.agentRequest]
  exact ⟨_,s,c,Run.of_exec hs,h2,h3,hppid,huser,(lineage_of_run (Run.of_exec hs)
    (fun e he => hlabels _ (label_mem_of_mem_transitions he))).2⟩

end System
end HiveKernel
