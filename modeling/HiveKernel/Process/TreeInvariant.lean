import HiveKernel.Lib.Run
import HiveKernel.Process.Spawner
import HiveKernel.Process.Supervisor
import HiveKernel.Process.TreeWalks

/-! The order of PIDs along the process tree. PIDs are handed out in increasing order and a
reaped process passes its children to its own parent, so a parent always has a smaller PID than
its children, even when it has been removed meanwhile. Every walk over the tree ends for that
reason. -/
namespace HiveKernel
open Lib
namespace Registry

/-- PID 1 has no parent, every other process a non-zero parent with a smaller PID. -/
structure Ordered (r : Registry) : Prop where
  root : ∀ p, r.get 1 = some p → p.ppid = 0
  lower : ∀ k p, r.get k = some p → k ≠ 1 → 0 < p.ppid ∧ p.ppid < k

variable {r r' : Registry}

lemma Ordered.ppid_lt (h : r.Ordered) {k : ℕ} {p : Process} (hp : r.get k = some p) : p.ppid < k := by
  by_cases h1 : k = 1
  · have h0 := h.root p (h1 ▸ hp)
    omega
  · exact (h.lower k p hp h1).2

/-- Nothing to check where entries only disappear or keep their parents. -/
lemma Ordered.of_ppid (h : r.Ordered)
    (hsub : ∀ k p', r'.get k = some p' → ∃ p, r.get k = some p ∧ p'.ppid = p.ppid) : r'.Ordered where
  root p' hp' := by
    obtain ⟨p,hp,he⟩ := hsub 1 p' hp'
    rw [he]
    exact h.root p hp
  lower k p' hp' hk := by
    obtain ⟨p,hp,he⟩ := hsub k p' hp'
    rw [he]
    exact h.lower k p hp hk

lemma Ordered.modify (h : r.Ordered) (pid : ℕ) (fn : Process → Process)
    (hpid : ∀ p, (fn p).pid = p.pid) (hname : ∀ p, (fn p).name = p.name)
    (hppid : ∀ p, (fn p).ppid = p.ppid) : (r.modify pid fn hpid hname).Ordered := by
  apply h.of_ppid
  intro k p' hp'
  rw [get_modify] at hp'
  split_ifs at hp'
  · obtain ⟨p,hp,rfl⟩ := Option.map_eq_some_iff.mp hp'
    exact ⟨p,hp,hppid p⟩
  · exact ⟨p',hp',rfl⟩

lemma Ordered.setState (h : r.Ordered) (now : ℤ) (pid : ℕ) (state : ProcessState) :
    (r.setState now pid state).Ordered := by
  rw [Registry.setState,Registry.update]
  exact h.modify _ _ _ _ (fun _ => rfl)

lemma Ordered.remove (h : r.Ordered) (pid : ℕ) : (r.remove pid).Ordered := by
  apply h.of_ppid
  intro k p' hp'
  rw [get_remove] at hp'
  split_ifs at hp'
  exact ⟨p',hp',rfl⟩

/-- A new process gets the largest PID so far. -/
lemma Ordered.register (h : r.Ordered) (now : ℤ) (p : Process) (hp : (r.get p.ppid).isSome) :
    (r.register now p).Ordered := by
  obtain ⟨q,hq⟩ := Option.isSome_iff_exists.mp hp
  have hb := get_bound hq
  constructor
  · intro p' hp'
    rw [get_register] at hp'
    split_ifs at hp' with h1
    · omega
    · exact h.root p' hp'
  · intro k p' hp' hk
    rw [get_register] at hp'
    split_ifs at hp' with h1
    · cases hp'
      rw [h1]
      exact hb
    · exact h.lower k p' hp' hk

lemma Ordered.reap (h : r.Ordered) {now : ℤ} {childOrder : List ℕ} {k : ℕ} {p : Process}
    (hp : r.get k = some p) (hall : ∀ j, (r.get j).isSome → j ∈ childOrder) :
    (r.reap now childOrder p).Ordered := by
  obtain rfl := get_pid hp
  have hmoved : ∀ j c, r.get j = some c → c.ppid = p.pid → (r.get p.ppid).isSome →
      j ≠ 1 ∧ 0 < p.ppid ∧ p.ppid < j := by
    intro j c hc hcp hpp
    have hp0 : p.ppid ≠ 0 := by
      intro h0
      rw [h0,get_zero] at hpp
      simp at hpp
    have hp1 : p.pid ≠ 1 := fun h1 => hp0 (h.root p (h1 ▸ hp))
    have hj1 : j ≠ 1 := by
      rintro rfl
      have := h.root c hc
      have := (get_bound hp).1
      omega
    have hlow := h.lower p.pid p hp hp1
    have hlow' := h.lower j c hc hj1
    omega
  constructor
  · intro q hq
    rw [get_reap hall] at hq
    split_ifs at hq
    obtain ⟨c,hc,rfl⟩ := Option.map_eq_some_iff.mp hq
    unfold adoptedBy
    split_ifs with hm
    · exact absurd rfl (hmoved 1 c hc hm.1 hm.2.2).1
    · exact h.root c hc
  · intro j q hq hj
    rw [get_reap hall] at hq
    split_ifs at hq
    obtain ⟨c,hc,rfl⟩ := Option.map_eq_some_iff.mp hq
    unfold adoptedBy
    split_ifs with hm
    · exact (hmoved j c hc hm.1 hm.2.2).2
    · exact h.lower j c hc hj

lemma Ordered.reapZombies (h : r.Ordered) {config : SupervisorConfig} {now : ℤ} {order : List ℕ}
    {childOrder : ℕ → List ℕ} (hc : ∀ k ∈ order, r.Enumerates (childOrder k)) :
    (r.reapZombies config now order childOrder).Ordered :=
  reapZombies_induction hc Ordered h (fun _ _ _ hr hk _ hall => hr.reap hk hall)

/-- The PID itself is a rank, so every walk ends. -/
lemma Ordered.graded (h : r.Ordered) : Graded r.link id := by
  intro k b hkb
  obtain ⟨p,hp,rfl⟩ := link_eq_some.mp hkb
  by_cases hk : k = 1
  · subst hk
    simp [h.root p hp]
  · exact (h.lower k p hp hk).2

lemma Ordered.walksReturn (h : r.Ordered) {fuel : ℕ} (hf : r.nextPID ≤ fuel) : r.WalksReturn fuel := by
  have hpos := r.nextPID_pos
  have hbound : r.RankBound id (r.nextPID-1) := by
    intro k hk
    obtain ⟨p,hp⟩ := Option.isSome_iff_exists.mp hk
    have := (get_bound hp).2
    change k ≤ r.nextPID-1
    omega
  exact walksReturn_of_graded h.graded hbound (by omega)

/-- The events that change the table while the kernel runs, with the choices the runtime makes. -/
inductive TreeOp
  | spawn (now : ℤ) (req : SpawnRequest)
  | rollback (pid : ℕ)
  | setState (now : ℤ) (pid : ℕ) (state : ProcessState)
  | reapZombies (config : SupervisorConfig) (now : ℤ) (order : List ℕ) (childOrder : ℕ → List ℕ)

/-- One event; a spawn that is refused is none, and the loops of a scan visit every process.
A rollback may remove any process here, in particular the one just spawned. -/
def treeStep (r : Registry) : TreeOp → Option Registry
  | .spawn now req =>
    if req.parentPID = 0 then none
    else match r.spawn now req with
      | .ok (_,r') => some r'
      | .error _ => none
  | .rollback pid => some (r.remove pid)
  | .setState now pid state => some (r.setState now pid state)
  | .reapZombies config now order childOrder =>
    if r.Enumerates order ∧ ∀ k ∈ order, r.Enumerates (childOrder k) then
      some (r.reapZombies config now order childOrder)
    else none

/-- The table after the bootstrap of PID 1. -/
def boot (now : ℤ) (name user vps : String) : Registry := (new.spawnKernel now name user vps).2

lemma get_boot (now : ℤ) (name user vps : String) (k : ℕ) :
    (boot now name user vps).get k =
      if k = 1 then some (new.stamped now (kernelProcess name user vps)) else none := by
  unfold boot spawnKernel
  rw [get_register]
  rfl

lemma boot_ordered (now : ℤ) (name user vps : String) : (boot now name user vps).Ordered := by
  constructor
  · intro p hp
    rw [get_boot,if_pos rfl] at hp
    cases hp
    rfl
  · intro k p hp hk
    rw [get_boot,if_neg hk] at hp
    cases hp

lemma Ordered.treeStep {op : TreeOp} (h : r.Ordered) (hs : r.treeStep op = some r') : r'.Ordered := by
  cases op with
  | spawn now req =>
    simp only [Registry.treeStep] at hs
    split_ifs at hs with hparent
    split at hs
    next p r'' hspawn =>
      cases hs
      obtain ⟨parent,hp,-,-,-,rfl⟩ := spawn_ok hspawn hparent
      exact h.register _ _ (by simp [child,hp])
    next => cases hs
  | rollback pid =>
    cases hs
    exact h.remove pid
  | setState now pid state =>
    cases hs
    exact h.setState now pid state
  | reapZombies config now order childOrder =>
    simp only [Registry.treeStep] at hs
    split_ifs at hs with ho
    cases hs
    exact h.reapZombies ho.2

/-- In every state the kernel reaches, parents have smaller PIDs than their children and every
walk over the tree ends, from any PID and also where a parent is gone. -/
theorem ordered_of_run {now : ℤ} {name user vps : String} {trace : List (Transition Registry TreeOp)}
    (run : Run treeStep (boot now name user vps) trace r) :
    (∀ k p, r.get k = some p → p.pid ≠ 1 → 0 < p.ppid ∧ p.ppid < p.pid) ∧ r.WalksTerminate := by
  have h : r.Ordered := (run.invariant (fun _ _ _ hs hstep => hs.treeStep hstep)
    (boot_ordered now name user vps)).2
  refine ⟨fun k p hp hk => ?_,r.nextPID,fun fuel hf => h.walksReturn hf⟩
  have hpid := get_pid hp
  rw [hpid] at hk ⊢
  exact h.lower k p hp hk

/-- A request for an agent, used on concrete runs. -/
def agentRequest (parentPID : ℕ) (name : String) (role : AgentRole) : SpawnRequest where
  parentPID := parentPID
  name := name
  role := role
  cognitiveTier := .tactical

/-- PID 2 is spawned under the kernel, PID 3 under it, then PID 2 is killed and reaped. -/
def reapedParent : List TreeOp :=
  [.spawn 0 (agentRequest 1 "lead" .lead),.spawn 0 (agentRequest 2 "worker" .worker),
    .setState 0 2 .zombie,
    .reapZombies defaultSupervisorConfig (61*second) [2,1,3] (fun _ => [1,2,3])]

theorem ordered_of_run_reaped : ∃ trace r,
    Run treeStep (boot 0 "king" "root" "vps1") trace r ∧
    r.get 2 = none ∧ r.link 3 = some 1 ∧
    (∀ k p, r.get k = some p → p.pid ≠ 1 → 0 < p.ppid ∧ p.ppid < p.pid) ∧ r.WalksTerminate := by
  obtain ⟨r,hr,h2,h3⟩ : ∃ r, exec treeStep reapedParent
      (boot 0 "king" "root" "vps1") = some r ∧ r.get 2 = none ∧ r.link 3 = some 1 :=
    ⟨_,rfl,rfl,rfl⟩
  have hrun := Run.of_exec hr
  exact ⟨_,r,hrun,h2,h3,ordered_of_run hrun⟩

end Registry
end HiveKernel
