import HiveKernel.Kernel.System

/-! Restarts, kills and the reaper on one process table. A restart is a goroutine that sleeps,
starts the runtime and then declares the process running; a kill stops a runtime and then makes the
process a zombie; the reaper decides, moves the children and then drops the entry. Nobody looks
again at what the others have done in between. -/
namespace HiveKernel
open Lib

/-- The goroutine of a restart, by what it does next. -/
inductive RestartStage
  /-- Sleep until the backoff is over, then call `onRestart`. -/
  | sleeping (proc : Process) (due : ℤ)
  /-- Set the state to running. -/
  | started (proc : Process)

def RestartStage.pid : RestartStage → ℕ
  | sleeping proc _ => proc.pid
  | started proc => proc.pid

/-- A kill request that has passed its checks, by what it does next. -/
inductive KillStage
  /-- Stop the runtime of the next victim. -/
  | stopping (victims : List ℕ)
  /-- Make this victim a zombie. -/
  | marking (pid : ℕ) (rest : List ℕ)

/-- The victim that is about to become a zombie. -/
def KillStage.marks : KillStage → Option ℕ
  | stopping _ => none
  | marking pid _ => some pid

/-- A scan for zombies, by what it does next. -/
inductive ReapStage
  /-- Look at the next process on the list. -/
  | scanning (now : ℤ) (rest : List ℕ)
  /-- Move the children of a zombie to its parent, then remove it. -/
  | moving (now : ℤ) (pid : ℕ) (children rest : List ℕ)

def ReapStage.victim : ReapStage → Option ℕ
  | scanning _ _ => none
  | moving _ pid _ _ => some pid

/-- The kernel with the goroutines that act on the states of processes. Which processes a kill has
made zombies is recorded for the statements; no step looks at that. -/
structure RestartRace where
  king : King
  exits : Table ℕ ℕ
  restarts : Table ℕ RestartStage
  kills : Table ℕ KillStage
  reaper : Option ReapStage
  killed : List ℕ

inductive RaceOp
  /-- The watcher of a runtime sees it exit and untracks it. -/
  | processExit (i pid : ℕ)
  /-- The watcher goes on to `HandleChildExit`. -/
  | childExit (i : ℕ) (now : ℤ)
  | restart (i : ℕ) (now : ℤ) (launch : Except String String)
  | setRunning (i : ℕ) (now : ℤ)
  | killChild (i : ℕ) (order : List ℕ → List ℕ) (header : Option (List String)) (target : ℕ)
      (recursive : Bool)
  | handleKill (i : ℕ) (order : List ℕ → List ℕ) (caller target : ℕ) (recursive : Bool)
  | stopRuntime (i : ℕ)
  | setZombie (i : ℕ) (now : ℤ)
  | scan (now : ℤ) (order : List ℕ)
  | visit (now : ℤ) (childOrder : List ℕ)
  | reparent (now : ℤ)
  | remove

namespace RestartRace

def start (king : King) : RestartRace := ⟨king,.empty,.empty,.empty,none,[]⟩

/-- The supervisor decides about an exit; a restart becomes a goroutine. -/
def childExit (s : RestartRace) (i : ℕ) (now : ℤ) (pid : ℕ) : RestartRace :=
  let (supervisor,registry,pending) := s.king.supervisor.handleChildExit s.king.registry now pid
  { s with
    king := { s.king with supervisor := supervisor, registry := registry }
    exits := s.exits.erase i
    restarts := match pending with
      | none => s.restarts
      | some p => s.restarts.set i (.sleeping p.proc (now+p.backoff)) }

/-- The checks of a kill request, and the list of its victims. -/
def beginKill (s : RestartRace) (i : ℕ) (order : List ℕ → List ℕ) (caller target : ℕ) (recursive : Bool) :
    Option RestartRace :=
  match s.king.registry.get target with
  | none => some s
  | some t =>
    if t.ppid ≠ caller then some s
    else (King.victims s.king.registry order target recursive).map fun victims =>
      { s with kills := s.kills.set i (.stopping victims) }

/-- Make a process a zombie and tell its parent. -/
def markKilled (s : RestartRace) (now : ℤ) (pid : ℕ) : RestartRace :=
  { s with
    king := { s.king with registry := (s.king.registry.setState now pid .zombie).notifyParent now pid }
    killed := if (s.king.registry.get pid).isSome then pid::s.killed else s.killed }

/-- Reap the process if it is a zombie for long enough, else go on. -/
def visit (s : RestartRace) (now scanned : ℤ) (childOrder : List ℕ) (pid : ℕ) (rest : List ℕ) :
    RestartRace :=
  match s.king.registry.get pid with
  | none => { s with reaper := some (.scanning scanned rest) }
  | some p =>
    if Registry.TimedOut s.king.supervisor.config scanned p then
      let registry := s.king.registry.notifyParent now pid
      let children := (registry.getChildren childOrder pid).map Process.pid
      { s with
        king := { s.king with registry := registry }
        reaper := some (.moving scanned pid children rest) }
    else { s with reaper := some (.scanning scanned rest) }

/-- Move one child of a zombie to the parent of the zombie, unless the child is dead. -/
def adopt (r : Registry) (now : ℤ) (pid child : ℕ) : Registry :=
  match r.get pid,r.get child with
  | some p,some c => if c.state = .dead then r else r.tryReparent now child p.ppid
  | _,_ => r

def step (s : RestartRace) : RaceOp → Option RestartRace
  | .processExit i pid =>
    if (s.exits.get i).isSome ∨ (s.restarts.get i).isSome then none
    else match s.king.runtime with
      | none => none
      | some manager =>
        if (manager.runtimes.get pid).isSome then
          some { s with
            king := { s.king with runtime := some (manager.stopRuntime pid) }
            exits := s.exits.set i pid }
        else none
  | .childExit i now => match s.exits.get i with
    | none => none
    | some pid => some (s.childExit i now pid)
  | .restart i now launch => match s.restarts.get i with
    | some (.sleeping proc due) =>
      if now < due then none
      else
        let (ok,registry,runtime) := s.king.onRestart launch proc
        some { s with
          king := { s.king with registry := registry, runtime := runtime }
          restarts := if ok then s.restarts.set i (.started proc) else s.restarts.erase i }
    | _ => none
  | .setRunning i now => match s.restarts.get i with
    | some (.started proc) => some { s with
        king := { s.king with registry := s.king.registry.setState now proc.pid .running }
        restarts := s.restarts.erase i }
    | _ => none
  | .killChild i order header target recursive =>
    if (s.kills.get i).isSome then none
    else match callerPID header with
      | .error _ => some s
      | .ok caller => s.beginKill i order caller target recursive
  | .handleKill i order caller target recursive =>
    if (s.kills.get i).isSome then none
    else s.beginKill i order caller target recursive
  | .stopRuntime i => match s.kills.get i with
    | some (.stopping []) => some { s with kills := s.kills.erase i }
    | some (.stopping (pid::rest)) => some { s with
        king := { s.king with runtime := s.king.runtime.map (fun manager => manager.stopRuntime pid) }
        kills := s.kills.set i (.marking pid rest) }
    | _ => none
  | .setZombie i now => match s.kills.get i with
    | some (.marking pid rest) =>
      some { s.markKilled now pid with kills := s.kills.set i (.stopping rest) }
    | _ => none
  | .scan now order =>
    if s.reaper.isSome ∨ ¬s.king.registry.Enumerates order then none
    else some { s with reaper := some (.scanning now order) }
  | .visit now childOrder => match s.reaper with
    | some (.scanning _ []) => some { s with reaper := none }
    | some (.scanning scanned (pid::rest)) =>
      if s.king.registry.Enumerates childOrder then some (s.visit now scanned childOrder pid rest)
      else none
    | _ => none
  | .reparent now => match s.reaper with
    | some (.moving scanned pid (child::children) rest) => some { s with
        king := { s.king with registry := adopt s.king.registry now pid child }
        reaper := some (.moving scanned pid children rest) }
    | _ => none
  | .remove => match s.reaper with
    | some (.moving scanned pid [] rest) => some { s with
        king := { s.king with registry := s.king.registry.remove pid }
        reaper := some (.scanning scanned rest) }
    | _ => none

/-- The role and the state of a registered process. -/
def statusOf (r : Registry) (pid : ℕ) : Option (AgentRole × ProcessState) :=
  (r.get pid).map fun p => (p.role,p.state)

def status (s : RestartRace) (pid : ℕ) : Option (AgentRole × ProcessState) :=
  statusOf s.king.registry pid

/-- A restart makes sense: the process is registered, supervised and no zombie, nobody has killed
it, and the reaper is not about to remove it. -/
structure Restartable (s : RestartRace) (pid : ℕ) : Prop where
  registered : ∃ role state, s.status pid = some (role,state) ∧ restartPolicyForRole role = .always ∧
    state ≠ .zombie
  not_killed : pid ∉ s.killed
  not_reaped : s.reaper.bind ReapStage.victim ≠ some pid

/-- Restarts go on for processes that may be restarted, and no killed process runs. -/
structure Safe (s : RestartRace) : Prop where
  restarts : ∀ i stage, s.restarts.get i = some stage → s.Restartable stage.pid
  killed : ∀ pid ∈ s.killed, ∀ role, s.status pid ≠ some (role,.running)

/-- A step that changes no state, picks no victim and schedules no restart. -/
structure Calm (s t : RestartRace) : Prop where
  status : ∀ pid, t.status pid = s.status pid
  killed : t.killed = s.killed
  victim : ∀ pid, t.reaper.bind ReapStage.victim = some pid → s.reaper.bind ReapStage.victim = some pid
  restarts : ∀ i stage, t.restarts.get i = some stage → ∃ j stage', s.restarts.get j = some stage' ∧
    stage'.pid = stage.pid

variable {s t : RestartRace} {op : RaceOp}

lemma Restartable.of_calm {pid : ℕ} (h : s.Restartable pid) (hc : Calm s t) : t.Restartable pid where
  registered := by
    rw [hc.status]
    exact h.registered
  not_killed := by
    rw [hc.killed]
    exact h.not_killed
  not_reaped := fun hv => h.not_reaped (hc.victim pid hv)

/-- Most steps leave the table, the restarts and the record alone. -/
lemma Calm.of_same (hregistry : t.king.registry = s.king.registry) (hkilled : t.killed = s.killed)
    (hrestarts : t.restarts = s.restarts)
    (hreaper : t.reaper = s.reaper ∨ t.reaper.bind ReapStage.victim = none) : Calm s t where
  status := by simp only [RestartRace.status,hregistry,implies_true]
  killed := hkilled
  victim := by
    intro pid hv
    rcases hreaper with hr | hr
    · rwa [hr] at hv
    · rw [hr] at hv
      cases hv
  restarts := by
    intro i stage hi
    exact ⟨i,stage,hrestarts ▸ hi,rfl⟩

lemma Safe.of_calm (h : s.Safe) (hc : Calm s t) : t.Safe where
  restarts := by
    intro i stage hi
    obtain ⟨j,stage',hj,hpid⟩ := hc.restarts i stage hi
    exact hpid ▸ (h.restarts j stage' hj).of_calm hc
  killed := by
    rw [hc.killed]
    intro pid hpid role
    rw [hc.status]
    exact h.killed pid hpid role

lemma statusOf_setState (r : Registry) (now : ℤ) (pid : ℕ) (state : ProcessState) (j : ℕ) :
    statusOf (r.setState now pid state) j =
      if j = pid then (statusOf r j).map (fun st => (st.1,state)) else statusOf r j := by
  unfold statusOf
  rw [Registry.get_setState]
  split_ifs
  · cases r.get j <;> rfl
  · rfl

lemma statusOf_setAddr (r : Registry) (pid : ℕ) (addr : String) (j : ℕ) :
    statusOf (King.setAddr r pid addr) j = statusOf r j := by
  unfold statusOf
  rw [King.get_setAddr]
  split_ifs
  · cases r.get j <;> rfl
  · rfl

lemma statusOf_onRestart (k : King) (launch : Except String String) (proc : Process) (j : ℕ) :
    statusOf (k.onRestart launch proc).2.1 j = statusOf k.registry j := by
  unfold King.onRestart
  cases k.runtime with
  | none => rfl
  | some manager =>
    simp only
    split
    · exact statusOf_setAddr k.registry proc.pid _ j
    · rw [statusOf_setAddr,statusOf_setAddr]

lemma statusOf_adopt (r : Registry) (now : ℤ) (pid child j : ℕ) :
    statusOf (adopt r now pid child) j = statusOf r j := by
  unfold adopt
  split
  · split_ifs
    · rfl
    · unfold statusOf
      rw [Registry.get_tryReparent]
      split_ifs
      · cases r.get j <;> rfl
      · rfl
  · rfl

lemma statusOf_remove (r : Registry) (pid j : ℕ) :
    statusOf (r.remove pid) j = if j = pid then none else statusOf r j := by
  unfold statusOf
  rw [Registry.get_remove]
  split_ifs <;> rfl

/-- The supervisor will schedule a restart if this process exits. -/
def SchedulesRestart (s : RestartRace) (now : ℤ) (pid : ℕ) : Prop :=
  ∃ p ∈ s.king.registry.get pid, restartPolicyForRole p.role = .always ∧
    s.king.supervisor.restartCount now pid < s.king.supervisor.config.maxRestartAttempts

/-- A restart is scheduled only for a process that nobody has made a zombie, kills or reaps, and
nobody is made a zombie by a kill while a restart is on its way. -/
def Orderly (s : RestartRace) : RaceOp → Prop
  | .childExit i now => ∀ pid ∈ s.exits.get i, s.SchedulesRestart now pid →
      (∀ p ∈ s.king.registry.get pid, p.state ≠ .zombie) ∧ pid ∉ s.killed ∧
        s.reaper.bind ReapStage.victim ≠ some pid
  | .setZombie i _ => ∀ pid ∈ (s.kills.get i).bind KillStage.marks,
      ∀ j stage, s.restarts.get j = some stage → stage.pid ≠ pid
  | _ => True

instance (s : RestartRace) (now : ℤ) (pid : ℕ) : Decidable (s.SchedulesRestart now pid) :=
  inferInstanceAs (Decidable (∃ p ∈ s.king.registry.get pid, _))

instance (s : RestartRace) (op : RaceOp) : Decidable (s.Orderly op) :=
  match op with
  | .childExit i now => inferInstanceAs (Decidable (∀ pid ∈ s.exits.get i, s.SchedulesRestart now pid →
      (∀ p ∈ s.king.registry.get pid, p.state ≠ .zombie) ∧ pid ∉ s.killed ∧
        s.reaper.bind ReapStage.victim ≠ some pid))
  | .setZombie i _ => inferInstanceAs (Decidable (∀ pid ∈ (s.kills.get i).bind KillStage.marks,
      ∀ j stage, s.restarts.get j = some stage → stage.pid ≠ pid))
  | .processExit .. | .restart .. | .setRunning .. | .killChild .. | .handleKill .. | .stopRuntime _
  | .scan .. | .visit .. | .reparent _ | .remove => .isTrue trivial

/-- The step starts the runtime of this process, with success. -/
def Starts (s : RestartRace) (op : RaceOp) (pid : ℕ) : Prop :=
  ∃ i now launch proc due, op = .restart i now launch ∧ s.restarts.get i = some (.sleeping proc due) ∧
    due ≤ now ∧ (s.king.onRestart launch proc).1 = true ∧ pid = proc.pid

/-- A step that sets the state of one process. -/
structure Sets (s t : RestartRace) (pid : ℕ) (state : ProcessState) : Prop where
  status : ∀ j, t.status j = if j = pid then (s.status j).map (fun st => (st.1,state)) else s.status j
  killed : t.killed = s.killed ∨ (state = .zombie ∧ t.killed = pid::s.killed)
  victim : t.reaper = s.reaper
  restarts : ∀ i stage, t.restarts.get i = some stage → s.restarts.get i = some stage

/-- Only a process without a restart may become a zombie, and only one that was not killed may run. -/
lemma Safe.of_sets {pid : ℕ} {state : ProcessState} (h : s.Safe) (hset : Sets s t pid state)
    (hzombie : state = .zombie → ∀ i stage, s.restarts.get i = some stage → stage.pid ≠ pid)
    (hrunning : state = .running → pid ∉ s.killed) : t.Safe where
  restarts := by
    intro i stage hi
    have hold := hset.restarts i stage hi
    obtain ⟨⟨role,state',hst,hpol,hnz⟩,hnk,hnr⟩ := h.restarts i stage hold
    refine ⟨?_,?_,?_⟩
    · rw [hset.status]
      split_ifs with hj
      · exact ⟨role,state,by rw [hst]; rfl,hpol,fun hz => hzombie hz i stage hold hj⟩
      · exact ⟨role,state',hst,hpol,hnz⟩
    · rcases hset.killed with hk | ⟨hz,hk⟩
      · rwa [hk]
      · rw [hk,List.mem_cons,not_or]
        exact ⟨hzombie hz i stage hold,hnk⟩
    · rwa [hset.victim]
  killed := by
    intro j hj role
    rw [hset.status]
    split_ifs with hjp
    · intro hrun
      obtain ⟨st,-,heq⟩ := Option.map_eq_some_iff.mp hrun
      obtain rfl : state = .running := congrArg Prod.snd heq
      rcases hset.killed with hk | ⟨hz,-⟩
      · exact hrunning rfl (hjp ▸ hk ▸ hj)
      · cases hz
    · rcases hset.killed with hk | ⟨-,hk⟩
      · exact h.killed j (hk ▸ hj) role
      · rw [hk,List.mem_cons] at hj
        exact h.killed j (hj.resolve_left hjp) role

lemma calm_beginKill {i caller target : ℕ} {order : List ℕ → List ℕ} {recursive : Bool}
    (h : s.beginKill i order caller target recursive = some t) : Calm s t := by
  unfold beginKill at h
  split at h
  · cases h
    exact .of_same rfl rfl rfl (.inl rfl)
  · split_ifs at h
    · cases h
      exact .of_same rfl rfl rfl (.inl rfl)
    · obtain ⟨victims,-,rfl⟩ := Option.map_eq_some_iff.mp h
      exact .of_same rfl rfl rfl (.inl rfl)

lemma safe_childExit {i pid : ℕ} {now : ℤ} (h : s.Safe) (hi : s.exits.get i = some pid)
    (hop : s.Orderly (.childExit i now)) : (s.childExit i now pid).Safe := by
  rcases s.king.supervisor.handleChildExit_cases s.king.registry now pid with
    ⟨-,he⟩ | ⟨proc,hp,⟨-,-,he⟩ | ⟨hpol,hmax,he⟩ | ⟨hpol,he⟩⟩
  · simp only [childExit,he]
    exact h.of_calm (.of_same rfl rfl rfl (.inl rfl))
  · simp only [childExit,he]
    exact h.of_sets ⟨statusOf_setState _ _ _ _,.inl rfl,rfl,fun _ _ hj => hj⟩ (by simp) (by simp)
  · simp only [childExit,he]
    obtain ⟨hnz,hnk,hnr⟩ := hop pid hi ⟨proc,hp,hpol,hmax⟩
    refine ⟨fun j stage hj => ?_,h.killed⟩
    rcases Table.get_set_some hj with ⟨-,rfl⟩ | ⟨-,hj⟩
    · obtain rfl := Registry.get_pid hp
      refine ⟨⟨proc.role,proc.state,?_,hpol,hnz proc hp⟩,hnk,hnr⟩
      simp only [RestartStage.pid,status,statusOf,hp,Option.map_some]
    · exact ⟨(h.restarts j stage hj).registered,(h.restarts j stage hj).not_killed,
        (h.restarts j stage hj).not_reaped⟩
  · simp only [childExit,he]
    refine h.of_sets ⟨statusOf_setState _ _ _ _,.inl rfl,rfl,fun _ _ hj => hj⟩ (fun _ j stage hj hpid => ?_)
      (by simp)
    obtain ⟨role,state,hst,halways,-⟩ := (h.restarts j stage hj).registered
    simp only [hpid,status,statusOf,hp,Option.map_some,Option.some.injEq,Prod.mk.injEq] at hst
    exact hpol (hst.1 ▸ halways)

lemma safe_visit (h : s.Safe) (now scanned : ℤ) (childOrder : List ℕ) (pid : ℕ) (rest : List ℕ) :
    (s.visit now scanned childOrder pid rest).Safe := by
  have hscan : ({ s with reaper := some (.scanning scanned rest) } : RestartRace).Safe :=
    h.of_calm (.of_same rfl rfl rfl (.inr rfl))
  unfold visit
  cases hp : s.king.registry.get pid with
  | none => exact hscan
  | some p =>
    simp only [Registry.notifyParent_eq]
    split_ifs with hout
    · refine ⟨fun j stage hj => ?_,h.killed⟩
      obtain ⟨hreg,hnk,-⟩ := h.restarts j stage hj
      refine ⟨hreg,hnk,fun hv => ?_⟩
      obtain rfl : pid = stage.pid := Option.some.inj hv
      obtain ⟨role,state,hst,-,hnz⟩ := hreg
      simp only [status,statusOf,hp,Option.map_some,Option.some.injEq,Prod.mk.injEq] at hst
      exact hnz (hst.2 ▸ hout.1)
    · exact hscan

lemma safe_remove {scanned : ℤ} {pid : ℕ} {children rest : List ℕ} (h : s.Safe)
    (hr : s.reaper = some (.moving scanned pid children rest)) :
    ({ s with
        king := { s.king with registry := s.king.registry.remove pid }
        reaper := some (.scanning scanned rest) } : RestartRace).Safe where
  restarts := by
    intro j stage hj
    obtain ⟨⟨role,state,hst,hpol,hnz⟩,hnk,hnr⟩ := h.restarts j stage hj
    have hne : stage.pid ≠ pid := by
      rintro rfl
      exact hnr (by rw [hr]; rfl)
    refine ⟨⟨role,state,?_,hpol,hnz⟩,hnk,by simp [ReapStage.victim]⟩
    simp only [status,statusOf_remove,if_neg hne]
    exact hst
  killed := by
    intro j hj role
    simp only [status,statusOf_remove]
    split_ifs
    · simp
    · exact h.killed j hj role

/-- An orderly step keeps the restarts apart from the kills and the reaper. -/
theorem safe_step (h : s.Safe) (hop : s.Orderly op) (hs : s.step op = some t) : t.Safe := by
  cases op with
  | processExit i pid =>
    simp only [step] at hs
    split_ifs at hs
    split at hs
    · cases hs
    · split_ifs at hs
      cases hs
      exact h.of_calm (.of_same rfl rfl rfl (.inl rfl))
  | childExit i now =>
    cases hi : s.exits.get i with
    | none => simp [step,hi] at hs
    | some pid =>
      simp only [step,hi,Option.some.injEq] at hs
      exact hs ▸ safe_childExit h hi hop
  | restart i now launch =>
    simp only [step] at hs
    split at hs
    · rename_i proc due hi
      split_ifs at hs
      · cases hs
        refine h.of_calm ⟨statusOf_onRestart s.king launch proc,rfl,fun _ hv => hv,fun j stage hj => ?_⟩
        rcases Table.get_set_some hj with ⟨-,rfl⟩ | ⟨-,hj⟩
        · exact ⟨i,_,hi,rfl⟩
        · exact ⟨j,stage,hj,rfl⟩
      · cases hs
        refine h.of_calm ⟨statusOf_onRestart s.king launch proc,rfl,fun _ hv => hv,fun j stage hj => ?_⟩
        exact ⟨j,stage,(Table.get_erase_some hj).2,rfl⟩
    · cases hs
  | setRunning i now =>
    simp only [step] at hs
    split at hs
    · rename_i proc hi
      cases hs
      refine h.of_sets ⟨statusOf_setState _ _ _ _,.inl rfl,rfl,fun _ _ hj => (Table.get_erase_some hj).2⟩
        (by simp) (fun _ => (h.restarts i _ hi).not_killed)
    · cases hs
  | killChild i order header target recursive =>
    simp only [step] at hs
    split_ifs at hs
    split at hs
    · cases hs
      exact h
    · exact h.of_calm (calm_beginKill hs)
  | handleKill i order caller target recursive =>
    simp only [step] at hs
    split_ifs at hs
    exact h.of_calm (calm_beginKill hs)
  | stopRuntime i =>
    simp only [step] at hs
    split at hs
    · cases hs
      exact h.of_calm (.of_same rfl rfl rfl (.inl rfl))
    · cases hs
      exact h.of_calm (.of_same rfl rfl rfl (.inl rfl))
    · cases hs
  | setZombie i now =>
    simp only [step] at hs
    split at hs
    · rename_i pid rest hi
      cases hs
      have hfree := hop pid (by rw [hi]; rfl)
      simp only [markKilled,Registry.notifyParent_eq]
      have hkilled : ∀ known : Bool, (if known then pid::s.killed else s.killed) = s.killed ∨
          (ProcessState.zombie = .zombie ∧ (if known then pid::s.killed else s.killed) = pid::s.killed) := by
        intro known
        cases known
        · exact .inl rfl
        · exact .inr ⟨rfl,rfl⟩
      exact h.of_sets ⟨statusOf_setState _ _ _ _,hkilled _,rfl,fun _ _ hj => hj⟩ (fun _ => hfree) (by simp)
    · cases hs
  | scan now order =>
    simp only [step] at hs
    split_ifs at hs
    cases hs
    exact h.of_calm (.of_same rfl rfl rfl (.inr rfl))
  | visit now childOrder =>
    simp only [step] at hs
    split at hs
    · cases hs
      exact h.of_calm (.of_same rfl rfl rfl (.inr rfl))
    · split_ifs at hs
      cases hs
      exact safe_visit h now _ childOrder _ _
    · cases hs
  | reparent now =>
    simp only [step] at hs
    split at hs
    · rename_i scanned pid child children rest hr
      cases hs
      refine h.of_calm ⟨statusOf_adopt _ now pid child,rfl,fun _ hv => ?_,
        fun j stage hj => ⟨j,stage,hj,rfl⟩⟩
      rw [hr]
      exact hv
    · cases hs
  | remove =>
    simp only [step] at hs
    split at hs
    · rename_i scanned pid rest hr
      cases hs
      exact safe_remove h hr
    · cases hs

lemma safe_start (king : King) : (start king).Safe where
  restarts := by
    intro i stage hi
    cases hi
  killed := by simp [start]

/-- If restarts, kills and the reaper keep out of each other's way, a killed process never runs
again, and a runtime starts only for a process that is registered and no zombie. -/
theorem stays_dead_of_run {king : King} {trace : List (Transition RestartRace RaceOp)}
    (run : Run step (start king) trace s) (hops : ∀ e ∈ trace, e.source.Orderly e.label) :
    (∀ pid ∈ s.killed, ∀ p ∈ s.king.registry.get pid, p.state ≠ .running) ∧
    ∀ e ∈ trace, ∀ pid, e.source.Starts e.label pid →
      ∃ p ∈ e.source.king.registry.get pid, p.state ≠ .zombie := by
  obtain ⟨htrace,hs⟩ := run.invariant_of_allowed
    (fun s op t (h : s.Safe) hop hs => safe_step h hop hs) (safe_start king) hops
  constructor
  · intro pid hpid p hp hrun
    refine hs.killed pid hpid p.role ?_
    simp only [status,statusOf,Option.mem_def.mp hp,Option.map_some,hrun]
  · rintro e he pid ⟨i,now,launch,proc,due,-,hi,-,-,rfl⟩
    obtain ⟨role,state,hst,-,hnz⟩ := ((htrace e he).1.restarts i _ hi).registered
    obtain ⟨p,hp,hst⟩ := Option.map_eq_some_iff.mp hst
    cases hst
    exact ⟨p,hp,hnz⟩

/-- A kernel with one daemon, which has a runtime, for examples. -/
def kingAndDaemon : King :=
  ((King.new King.exampleConfig 0 (some .new)).spawnChild 0 (.ok "localhost:5000")
    { parentPID := 1, name := "queen", role := .daemon, cognitiveTier := .tactical,
      runtimeType := runtimePython, runtimeImage := "queen:Queen" }).2

/-- The daemon exits, is restarted, is killed after that, and is reaped. -/
def restartThenKill : List RaceOp :=
  [.processExit 0 2,.childExit 0 0,.restart 0 (5*second) (.ok "localhost:5001"),.setRunning 0 (5*second),
    .handleKill 0 (fun _ => [1,2]) 1 2 true,.stopRuntime 0,.setZombie 0 (6*second),.stopRuntime 0,
    .scan (67*second) [1,2],.visit (67*second) [1,2],.visit (67*second) [1,2],.remove,
    .visit (67*second) [1]]

theorem stays_dead_of_run_restartThenKill :
    ∃ s, exec step restartThenKill (start kingAndDaemon) = some s ∧ s.killed = [2] ∧
      (∀ pid ∈ s.killed, ∀ p ∈ s.king.registry.get pid, p.state ≠ .running) ∧
      ∀ e ∈ transitions step restartThenKill (start kingAndDaemon), ∀ pid, e.source.Starts e.label pid →
        ∃ p ∈ e.source.king.registry.get pid, p.state ≠ .zombie := by
  obtain ⟨s,hs,hkilled⟩ : ∃ s, exec step restartThenKill (start kingAndDaemon) = some s ∧
      s.killed = [2] := ⟨_,rfl,rfl⟩
  have h := stays_dead_of_run (.of_exec hs) (by decide)
  exact ⟨s,hs,hkilled,h⟩

/-- The daemon is killed while its restart sleeps. The restart starts a runtime for the zombie and
declares it running. -/
theorem restart_revives_killed : ¬ ∀ (king : King) (trace : List (Transition RestartRace RaceOp))
    (s : RestartRace), Run step (start king) trace s →
    (∀ pid ∈ s.killed, ∀ p ∈ s.king.registry.get pid, p.state ≠ .running) ∧
    ∀ e ∈ trace, ∀ pid, e.source.Starts e.label pid →
      ∃ p ∈ e.source.king.registry.get pid, p.state ≠ .zombie := by
  intro h
  let ops : List RaceOp := [.processExit 0 2,.childExit 0 0,.handleKill 0 (fun _ => [1,2]) 1 2 false,
    .stopRuntime 0,.setZombie 0 0,.restart 0 (5*second) (.ok "localhost:5001"),.setRunning 0 (5*second)]
  obtain ⟨s,p,hs,hkilled,hp,hrunning⟩ : ∃ s p, exec step ops (start kingAndDaemon) = some s ∧
      2 ∈ s.killed ∧ s.king.registry.get 2 = some p ∧ p.state = .running :=
    ⟨_,_,rfl,List.mem_singleton.mpr rfl,rfl,rfl⟩
  exact (h kingAndDaemon _ s (.of_exec hs)).1 2 hkilled p hp hrunning

end RestartRace
end HiveKernel
