import HiveKernel.Process.Tree

/-! The supervisor: restart policies, restarts with backoff, and the reaping of zombies.
Its event channel is written and never read by the kernel, so it is left out. -/
namespace HiveKernel
open Lib

inductive RestartPolicy
  | always | notify | never
  deriving DecidableEq, Repr

def restartPolicyForRole : AgentRole → RestartPolicy
  | .kernel => .always
  | .daemon => .always
  | .agent => .notify
  | .lead => .notify
  | .worker => .notify
  | .architect => .never
  | .task => .never

structure SupervisorConfig where
  zombieScanInterval : ℤ
  zombieTimeout : ℤ
  maxRestartAttempts : ℤ
  restartBackoff : ℤ
  deriving DecidableEq, Repr

def defaultSupervisorConfig : SupervisorConfig where
  zombieScanInterval := 15*second
  zombieTimeout := 60*second
  maxRestartAttempts := 3
  restartBackoff := 5*second

structure Supervisor where
  config : SupervisorConfig
  restartCounts : Table ℕ ℤ
  lastRestart : Table ℕ ℤ

def Supervisor.new (config : SupervisorConfig) : Supervisor := ⟨config,.empty,.empty⟩

/-- A restart that has been scheduled: the goroutine sleeps for the backoff, then acts on the
process as it holds it. -/
structure PendingRestart where
  proc : Process
  backoff : ℤ
  deriving DecidableEq, Repr

namespace Supervisor

/-- The restart count that applies now. A restart that is more than five minutes ago, or never
happened, resets it. -/
def restartCount (s : Supervisor) (now : ℤ) (pid : ℕ) : ℤ :=
  match s.lastRestart.get pid with
  | none => 0
  | some lastTime => if 5*minute < now-lastTime then 0 else (s.restartCounts.get pid).getD 0

/-- Schedule a restart, or give up and declare the process dead. -/
def attemptRestart (s : Supervisor) (r : Registry) (now : ℤ) (proc : Process) :
    Supervisor × Registry × Option PendingRestart :=
  let count := s.restartCount now proc.pid
  if s.config.maxRestartAttempts ≤ count then
    (s,(r.setState now proc.pid .dead).notifyParent now proc.pid,none)
  else
    ({ s with
        restartCounts := s.restartCounts.set proc.pid (count+1)
        lastRestart := s.lastRestart.set proc.pid now },
      r,some ⟨proc,s.config.restartBackoff*(count+1)⟩)

/-- Decide what happens to an exited process: restart it, or mark it a zombie and tell its
parent. The exit code only travels with the notification. -/
def handleChildExit (s : Supervisor) (r : Registry) (now : ℤ) (exitedPID : ℕ) :
    Supervisor × Registry × Option PendingRestart :=
  match r.get exitedPID with
  | none => (s,r,none)
  | some proc => match restartPolicyForRole proc.role with
    | .always => s.attemptRestart r now proc
    | .notify => (s,(r.setState now exitedPID .zombie).notifyParent now exitedPID,none)
    | .never => (s,(r.setState now exitedPID .zombie).notifyParent now exitedPID,none)

/-- Every way an exit can go: nobody there, given up, scheduled for a restart, or a zombie. -/
lemma handleChildExit_cases (s : Supervisor) (r : Registry) (now : ℤ) (pid : ℕ) :
    (r.get pid = none ∧ s.handleChildExit r now pid = (s,r,none)) ∨
    ∃ proc, r.get pid = some proc ∧
      ((restartPolicyForRole proc.role = .always ∧
          s.config.maxRestartAttempts ≤ s.restartCount now pid ∧
          s.handleChildExit r now pid = (s,r.setState now pid .dead,none)) ∨
        (restartPolicyForRole proc.role = .always ∧
          s.restartCount now pid < s.config.maxRestartAttempts ∧
          s.handleChildExit r now pid =
            ({ s with
                restartCounts := s.restartCounts.set pid (s.restartCount now pid+1)
                lastRestart := s.lastRestart.set pid now },
              r,some ⟨proc,s.config.restartBackoff*(s.restartCount now pid+1)⟩)) ∨
        (restartPolicyForRole proc.role ≠ .always ∧
          s.handleChildExit r now pid = (s,r.setState now pid .zombie,none))) := by
  unfold handleChildExit
  cases hp : r.get pid with
  | none => exact .inl ⟨rfl,rfl⟩
  | some proc =>
    refine .inr ⟨proc,rfl,?_⟩
    obtain rfl := Registry.get_pid hp
    cases hpol : restartPolicyForRole proc.role with
    | always =>
      simp only [hpol,attemptRestart,Registry.notifyParent_eq]
      by_cases hmax : s.config.maxRestartAttempts ≤ s.restartCount now proc.pid
      · exact .inl ⟨trivial,hmax,if_pos hmax⟩
      · exact .inr (.inl ⟨trivial,not_le.mp hmax,if_neg hmax⟩)
    | notify => exact .inr (.inr ⟨by simp,by simp only [hpol,Registry.notifyParent_eq]⟩)
    | never => exact .inr (.inr ⟨by simp,by simp only [hpol,Registry.notifyParent_eq]⟩)

end Supervisor

namespace Registry

/-- Move the children of a reaped zombie to its own parent, except the dead ones. A move that
fails is ignored. -/
def reparentChildren (r : Registry) (now : ℤ) (newParentPID : ℕ) (children : List Process) :
    Registry :=
  children.foldl (fun r child =>
    if child.state = .dead then r else r.tryReparent now child.pid newParentPID) r

/-- Reap one zombie: tell its parent once more, move its children, drop its entry. -/
def reap (r : Registry) (now : ℤ) (childOrder : List ℕ) (p : Process) : Registry :=
  let r := r.notifyParent now p.pid
  (r.reparentChildren now p.ppid (r.getChildren childOrder p.pid)).remove p.pid

/-- The condition under which a scan reaps a process. -/
def TimedOut (config : SupervisorConfig) (now : ℤ) (p : Process) : Prop :=
  p.state = .zombie ∧ config.zombieTimeout < now-p.updatedAt

instance (config : SupervisorConfig) (now : ℤ) (p : Process) : Decidable (TimedOut config now p) :=
  inferInstanceAs (Decidable (_ ∧ _))

/-- One iteration of the scan; the entry is read when its turn comes. -/
def reapStep (config : SupervisorConfig) (now : ℤ) (childOrder : ℕ → List ℕ) (r : Registry)
    (k : ℕ) : Registry :=
  match r.get k with
  | none => r
  | some p => if TimedOut config now p then r.reap now (childOrder k) p else r

/-- One scan for zombies, over the table as listed when the scan starts. -/
def reapZombies (r : Registry) (config : SupervisorConfig) (now : ℤ) (order : List ℕ)
    (childOrder : ℕ → List ℕ) : Registry := order.foldl (reapStep config now childOrder) r

/-- What a scan does to the entry of a child of the reaped process. -/
def adoptedBy (r : Registry) (now : ℤ) (p c : Process) : Process :=
  if c.ppid = p.pid ∧ c.state ≠ .dead ∧ (r.get p.ppid).isSome then moved now p.ppid c else c

@[simp] lemma moved_moved (now : ℤ) (new : ℕ) (p : Process) :
    moved now new (moved now new p) = moved now new p := rfl

@[simp] lemma adoptedBy_state (r : Registry) (now : ℤ) (p c : Process) :
    (r.adoptedBy now p c).state = c.state := by
  unfold adoptedBy
  split_ifs <;> rfl

@[simp] lemma adoptedBy_role (r : Registry) (now : ℤ) (p c : Process) :
    (r.adoptedBy now p c).role = c.role := by
  unfold adoptedBy
  split_ifs <;> rfl

/-- A process that was just moved is not due. -/
lemma not_timedOut_adoptedBy (r : Registry) {config : SupervisorConfig} {now : ℤ} (p : Process)
    {c : Process} (htimeout : 0 ≤ config.zombieTimeout) (h : ¬TimedOut config now c) :
    ¬TimedOut config now (r.adoptedBy now p c) := by
  unfold adoptedBy
  split_ifs
  · rintro ⟨-,hold⟩
    simp only [moved,sub_self] at hold
    omega
  · exact h

lemma reparentChildren_cons (r : Registry) (now : ℤ) (new : ℕ) (c : Process) (children : List Process) :
    r.reparentChildren now new (c::children) =
      Registry.reparentChildren (if c.state = .dead then r else r.tryReparent now c.pid new)
        now new children := rfl

lemma get_reparentChildren (r : Registry) (now : ℤ) (new : ℕ) (children : List Process) (k : ℕ) :
    (r.reparentChildren now new children).get k =
      if (∃ c ∈ children, c.pid = k ∧ c.state ≠ .dead) ∧ (r.get new).isSome
      then (r.get k).map (moved now new) else r.get k := by
  induction children generalizing r with
  | nil => simp [reparentChildren]
  | cons c children ih =>
    rw [reparentChildren_cons]
    by_cases hd : c.state = .dead
    · rw [if_pos hd,ih]
      simp [hd]
    · rw [if_neg hd,ih]
      have hnew : ((r.tryReparent now c.pid new).get new).isSome = (r.get new).isSome := by
        rw [get_tryReparent]
        split_ifs <;> simp
      rw [hnew,get_tryReparent]
      by_cases hn : (r.get new).isSome
      · by_cases hk : k = c.pid
        · subst hk
          split_ifs <;> simp_all [Option.map_map,Function.comp_def]
        · simp [hn,hk,Ne.symm hk]
      · simp [hn]

lemma get_reap {r : Registry} {now : ℤ} {childOrder : List ℕ} {p : Process}
    (hall : ∀ k, (r.get k).isSome → k ∈ childOrder) (k : ℕ) :
    (r.reap now childOrder p).get k =
      if k = p.pid then none else (r.get k).map (r.adoptedBy now p) := by
  unfold reap
  rw [notifyParent_eq,get_remove]
  split_ifs with hk
  · rfl
  rw [get_reparentChildren]
  cases hc : r.get k with
  | none => split_ifs <;> rfl
  | some c =>
    have hpid := get_pid hc
    have hchild : (∃ c' ∈ r.getChildren childOrder p.pid, c'.pid = k ∧ c'.state ≠ .dead) ↔
        c.ppid = p.pid ∧ c.state ≠ .dead := by
      constructor
      · rintro ⟨c',hc',rfl,hs⟩
        obtain ⟨⟨-,hget⟩,hpp,-⟩ := mem_getChildren.mp hc'
        obtain rfl : c' = c := Option.some.inj (hget.symm.trans hc)
        exact ⟨hpp,hs⟩
      · rintro ⟨hpp,hs⟩
        refine ⟨c,mem_getChildren.mpr ⟨⟨?_,by rw [hpid]; exact hc⟩,hpp,by rwa [hpid]⟩,hpid,hs⟩
        rw [hpid]
        exact hall k (by simp [hc])
    simp only [hchild,adoptedBy,Option.map_some,and_assoc]
    split_ifs <;> rfl

@[simp] lemma nextPID_reap (r : Registry) (now : ℤ) (childOrder : List ℕ) (p : Process) :
    (r.reap now childOrder p).nextPID = r.nextPID := by
  unfold reap
  rw [notifyParent_eq,nextPID_remove]
  generalize r.getChildren childOrder p.pid = children
  induction children generalizing r with
  | nil => rfl
  | cons c children ih =>
    rw [reparentChildren_cons,ih]
    split_ifs
    · rfl
    · exact nextPID_tryReparent _ _ _ _

/-- What every single reaping keeps, a whole scan keeps. While the scan runs, entries only
disappear, so the orders of the inner loops still cover the table. -/
theorem reapZombies_induction {r : Registry} {config : SupervisorConfig} {now : ℤ} {order : List ℕ}
    {childOrder : ℕ → List ℕ} (hc : ∀ k ∈ order, r.Enumerates (childOrder k)) (inv : Registry → Prop)
    (h0 : inv r)
    (hstep : ∀ r' k p, inv r' → r'.get k = some p → TimedOut config now p →
      (∀ j, (r'.get j).isSome → j ∈ childOrder k) → inv (r'.reap now (childOrder k) p)) :
    inv (r.reapZombies config now order childOrder) := by
  have hfold : ∀ (order : List ℕ) (r' : Registry), (∀ k ∈ order, r.Enumerates (childOrder k)) →
      inv r' → (∀ j, (r'.get j).isSome → (r.get j).isSome) →
      inv (order.foldl (reapStep config now childOrder) r') := by
    intro order
    induction order with
    | nil => exact fun r' _ hr' _ => hr'
    | cons k order ih =>
      intro r' hc hr' hsub
      have hrest := fun j hj => hc j (List.mem_cons_of_mem k hj)
      rw [List.foldl_cons]
      cases hk : r'.get k with
      | none => simpa [reapStep,hk] using ih r' hrest hr' hsub
      | some p =>
        by_cases ht : TimedOut config now p
        · have hall : ∀ j, (r'.get j).isSome → j ∈ childOrder k :=
            fun j hj => ((hc k (by simp)).mem_iff j).mpr (hsub j hj)
          have hs : reapStep config now childOrder r' k = r'.reap now (childOrder k) p := by
            simp [reapStep,hk,ht]
          rw [hs]
          refine ih _ hrest (hstep r' k p hr' hk ht hall) (fun j hj => hsub j ?_)
          rw [get_reap hall] at hj
          split_ifs at hj with hjp
          · simp at hj
          · simpa using hj
        · have hs : reapStep config now childOrder r' k = r' := by simp [reapStep,hk,ht]
          rw [hs]
          exact ih r' hrest hr' hsub
  exact hfold order r hc h0 (fun _ h => h)

end Registry
end HiveKernel
