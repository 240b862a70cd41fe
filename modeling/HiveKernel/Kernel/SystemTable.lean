import HiveKernel.Kernel.System

/-! What each step does to the process table, said once: a spawn adds an entry, a scan removes and
moves entries, and every other step rewrites states. -/
namespace HiveKernel
open Lib

/-- The fields of an entry that no state change touches. -/
structure Frame (p p' : Process) : Prop where
  pid : p'.pid = p.pid
  ppid : p'.ppid = p.ppid
  role : p'.role = p.role
  cognitiveTier : p'.cognitiveTier = p.cognitiveTier
  user : p'.user = p.user
  limits : p'.limits = p.limits

lemma Frame.refl (p : Process) : Frame p p := ⟨rfl,rfl,rfl,rfl,rfl,rfl⟩

/-- The entry is rewritten within its frame and ends up in this state. -/
def Rewritten (o o' : Option Process) (state : Process → ProcessState) : Prop :=
  match o with
  | none => o' = none
  | some p => ∃ p', o' = some p' ∧ Frame p p' ∧ p'.state = state p

lemma Rewritten.refl (o : Option Process) : Rewritten o o Process.state := by
  cases o with
  | none => rfl
  | some p => exact ⟨p,rfl,.refl p,rfl⟩

lemma rewritten_map (o : Option Process) {f : Process → Process} {state : Process → ProcessState}
    (hf : ∀ p, o = some p → Frame p (f p) ∧ (f p).state = state p) : Rewritten o (o.map f) state := by
  cases o with
  | none => rfl
  | some p => exact ⟨f p,rfl,(hf p rfl).1,(hf p rfl).2⟩

lemma rewritten_setState (r : Registry) (now : ℤ) (pid : ℕ) (state : ProcessState) (j : ℕ) :
    Rewritten (r.get j) ((r.setState now pid state).get j)
      (fun p => if j = pid then state else p.state) := by
  rw [Registry.get_setState]
  split_ifs with hj
  · exact rewritten_map _ (fun p _ => ⟨⟨rfl,rfl,rfl,rfl,rfl,rfl⟩,rfl⟩)
  · exact .refl _

lemma Rewritten.congr {o o' : Option Process} {state state' : Process → ProcessState}
    (h : Rewritten o o' state) (hs : ∀ p, o = some p → state p = state' p) : Rewritten o o' state' := by
  cases o with
  | none => exact h
  | some p =>
    obtain ⟨p',hp',hf,hst⟩ := h
    exact ⟨p',hp',hf,hst.trans (hs p rfl)⟩

lemma Frame.trans {p q r : Process} (h : Frame p q) (h' : Frame q r) : Frame p r :=
  ⟨h'.pid.trans h.pid,h'.ppid.trans h.ppid,h'.role.trans h.role,
    h'.cognitiveTier.trans h.cognitiveTier,h'.user.trans h.user,h'.limits.trans h.limits⟩

/-- A rewriting after one that keeps the state; the second only reads the state. -/
lemma Rewritten.trans {o o' o'' : Option Process} {state : Process → ProcessState}
    (h : Rewritten o o' Process.state) (h' : Rewritten o' o'' state)
    (hstate : ∀ p q : Process, p.state = q.state → state p = state q) : Rewritten o o'' state := by
  cases o with
  | none =>
    rw [show o' = none from h] at h'
    exact h'
  | some p =>
    obtain ⟨q,rfl,hf,hs⟩ := h
    obtain ⟨r,rfl,hf',hs'⟩ := h'
    exact ⟨r,rfl,hf.trans hf',hs'.trans (hstate q p hs)⟩

lemma Rewritten.isSome {o o' : Option Process} {state : Process → ProcessState}
    (h : Rewritten o o' state) : o'.isSome = o.isSome := by
  cases o with
  | none => rw [show o' = none from h]
  | some p =>
    obtain ⟨p',rfl,-⟩ := h
    rfl

namespace System

/-- The processes on the list that a kill returns. -/
def victimsOf : Option (Except String (List ℕ) × King) → List ℕ
  | some (.ok pids,_) => pids
  | _ => []

lemma mem_victimsOf {o : Option (Except String (List ℕ) × King)} {j : ℕ} (h : j ∈ victimsOf o) :
    ∃ pids k', o = some (.ok pids,k') ∧ j ∈ pids := by
  unfold victimsOf at h
  split at h
  next pids k' => exact ⟨pids,k',rfl,h⟩
  next => simp at h

/-- The processes a request kills. -/
def killedBy (s : System) : KernelOp → List ℕ
  | .killChild now order header target recursive =>
    victimsOf (s.king.killChild now order header target recursive)
  | .handleKill now order caller target recursive =>
    victimsOf (s.king.handleKill now order caller target recursive)
  | _ => []

/-- The state an exit leaves a process in. -/
def exitState (s : System) (now : ℤ) (p : Process) : ProcessState :=
  match restartPolicyForRole p.role with
  | .always =>
    if s.king.supervisor.config.maxRestartAttempts ≤ s.king.supervisor.restartCount now p.pid
    then .dead else p.state
  | .notify => .zombie
  | .never => .zombie

/-- The state of process `j` after a step that is neither a spawn nor a scan. -/
def stateAfter (s : System) (op : KernelOp) (j : ℕ) (p : Process) : ProcessState :=
  match op with
  | .killChild .. | .handleKill .. => if j ∈ s.killedBy op then .zombie else p.state
  | .childExit now pid => if j = pid then s.exitState now p else p.state
  | .restart _ index launch =>
    match s.pending[index]? with
    | none => p.state
    | some q =>
      if j = q.restart.proc.pid ∧ (s.king.onRestart launch q.restart.proc).1 then .running else p.state
  | .send _ pid sig => if j = pid then sig.state.getD p.state else p.state
  | .sleep _ pid => if j = pid ∧ p.state ≠ .dead then .sleeping else p.state
  | .wake _ pid => if j = pid ∧ p.state = .sleeping then .idle else p.state
  | .completeTask _ pid _ _ _ => if j = pid then .zombie else p.state
  | .cronWake _ pid => if j = pid then .running else p.state
  | _ => p.state

variable {s s' : System} {op : KernelOp}

lemma rewritten_kill {outcome : Option (Except String (List ℕ) × King)} {now : ℤ}
    {order : List ℕ → List ℕ} {caller target : ℕ} {recursive : Bool}
    (ho : outcome = s.king.kill now order caller target recursive)
    (hs : outcome.map s.killed = some s') (j : ℕ) :
    Rewritten (s.king.registry.get j) (s'.king.registry.get j) (fun p =>
      if j ∈ victimsOf outcome then .zombie else p.state) := by
  obtain ⟨⟨result,k'⟩,hout,rfl⟩ := Option.map_eq_some_iff.mp hs
  rw [hout] at ho ⊢
  rcases King.kill_cases ho.symm with ⟨rfl,e,rfl⟩ | ⟨t,pids,-,-,-,rfl,rfl⟩
  · simpa [killed,victimsOf] using Rewritten.refl _
  · change Rewritten _ ((s.king.killAll now pids).registry.get j)
      (fun p => if j ∈ pids then .zombie else p.state)
    rw [King.get_killAll]
    split_ifs with hj
    · exact rewritten_map _ (fun p _ => ⟨⟨rfl,rfl,rfl,rfl,rfl,rfl⟩,rfl⟩)
    · exact .refl _

/-- The entry that is read back is the one a new state was computed from. -/
lemma eq_of_get {r : Registry} {pid j : ℕ} {p q : Process} (hq : r.get pid = some q)
    (hj : r.get j = some p) (h : j = pid) : p = q := by
  subst h
  exact Option.some.inj (hj.symm.trans hq)

lemma rewritten_childExit (s : System) (now : ℤ) (pid j : ℕ) :
    Rewritten (s.king.registry.get j) ((s.king.childExit now pid).1.registry.get j)
      (fun p => if j = pid then s.exitState now p else p.state) := by
  have hset : ∀ {q state}, s.king.registry.get pid = some q → s.exitState now q = state →
      Rewritten (s.king.registry.get j) ((s.king.registry.setState now pid state).get j)
        (fun p => if j = pid then s.exitState now p else p.state) := by
    intro q state hq hstate
    refine (rewritten_setState _ _ _ _ _).congr (fun p hj => ?_)
    split_ifs with h
    · rw [eq_of_get hq hj h,hstate]
    · rfl
  rcases s.king.supervisor.handleChildExit_cases s.king.registry now pid with
    ⟨hp,he⟩ | ⟨q,hp,⟨hpol,hmax,he⟩ | ⟨hpol,hmax,he⟩ | ⟨hpol,he⟩⟩
  · simp only [King.childExit,he]
    refine (Rewritten.refl _).congr (fun p hj => ?_)
    rw [if_neg]
    rintro rfl
    simp [hp] at hj
  · simp only [King.childExit,he]
    obtain rfl := Registry.get_pid hp
    refine hset hp ?_
    rw [exitState,hpol]
    exact if_pos hmax
  · simp only [King.childExit,he]
    obtain rfl := Registry.get_pid hp
    refine (Rewritten.refl _).congr (fun p hj => ?_)
    split_ifs with h
    · rw [eq_of_get hp hj h,exitState,hpol]
      exact (if_neg (not_le.mpr hmax)).symm
    · rfl
  · simp only [King.childExit,he]
    refine hset hp ?_
    unfold exitState
    cases h : restartPolicyForRole q.role with
    | always => exact absurd h hpol
    | notify => rfl
    | never => rfl

/-- The callback only fills in addresses. -/
lemma get_onRestart (k : King) (launch : Except String String) (proc : Process) (j : ℕ) :
    Rewritten (k.registry.get j) ((k.onRestart launch proc).2.1.get j) Process.state := by
  have haddr : ∀ (r : Registry) (addr : String),
      Rewritten (r.get j) ((King.setAddr r proc.pid addr).get j) Process.state := by
    intro r addr
    rw [King.get_setAddr]
    split_ifs
    · exact rewritten_map _ (fun p _ => ⟨⟨rfl,rfl,rfl,rfl,rfl,rfl⟩,rfl⟩)
    · exact .refl _
  unfold King.onRestart
  cases k.runtime with
  | none => exact .refl _
  | some manager =>
    simp only
    cases manager.startRuntime { proc with runtimeAddr := proc.runtimeImage }
        (if proc.runtimeType = "" then runtimePython else proc.runtimeType) launch with
    | error e => exact haddr _ _
    | ok q => exact (haddr _ _).trans (haddr _ _) (fun _ _ h => h)

lemma rewritten_restart (k : King) (now : ℤ) (launch : Except String String) (proc : Process) (j : ℕ) :
    Rewritten (k.registry.get j) ((k.restart now launch proc).registry.get j)
      (fun p => if j = proc.pid ∧ (k.onRestart launch proc).1 then .running else p.state) := by
  have hget := get_onRestart k launch proc j
  simp only [King.restart]
  cases hok : (k.onRestart launch proc).1 with
  | false => simpa using hget
  | true =>
    simp only [and_true,if_true]
    refine hget.trans (rewritten_setState _ now proc.pid .running j) (fun p q hpq => ?_)
    simp only [hpq]

lemma rewritten_send (r : Registry) (now : ℤ) (pid : ℕ) (sig : Signal) (j : ℕ) :
    Rewritten (r.get j) ((r.send now pid sig).get j)
      (fun p => if j = pid then sig.state.getD p.state else p.state) := by
  cases hs : sig.state with
  | none => simpa [Registry.send_of_state_none r now pid hs] using Rewritten.refl (r.get j)
  | some state =>
    rw [Registry.get_send_of_state r now pid hs]
    exact rewritten_setState r now pid state j

lemma rewritten_sleep (k : King) (now : ℤ) (pid j : ℕ) :
    Rewritten (k.registry.get j) ((k.sleep now pid).2.registry.get j)
      (fun p => if j = pid ∧ p.state ≠ .dead then .sleeping else p.state) := by
  unfold King.sleep
  cases hp : k.registry.get pid with
  | none =>
    refine (Rewritten.refl _).congr (fun p hj => ?_)
    rw [if_neg]
    rintro ⟨rfl,-⟩
    simp [hp] at hj
  | some q =>
    simp only
    split_ifs with hdead hsleep
    · refine (Rewritten.refl _).congr (fun p hj => ?_)
      rw [if_neg]
      rintro ⟨h,hne⟩
      exact hne (eq_of_get hp hj h ▸ hdead)
    · refine (Rewritten.refl _).congr (fun p hj => ?_)
      split_ifs with h
      · rw [eq_of_get hp hj h.1,hsleep]
      · rfl
    · refine (rewritten_setState _ _ _ _ _).congr (fun p hj => ?_)
      by_cases h : j = pid
      · rw [if_pos h,if_pos ⟨h,eq_of_get hp hj h ▸ hdead⟩]
      · rw [if_neg h,if_neg (fun hx => h hx.1)]

lemma rewritten_wake (k : King) (now : ℤ) (pid j : ℕ) :
    Rewritten (k.registry.get j) ((k.wake now pid).2.registry.get j)
      (fun p => if j = pid ∧ p.state = .sleeping then .idle else p.state) := by
  unfold King.wake
  cases hp : k.registry.get pid with
  | none =>
    refine (Rewritten.refl _).congr (fun p hj => ?_)
    rw [if_neg]
    rintro ⟨rfl,-⟩
    simp [hp] at hj
  | some q =>
    simp only
    split_ifs with hsleep
    · refine (Rewritten.refl _).congr (fun p hj => ?_)
      rw [if_neg]
      rintro ⟨h,hs⟩
      exact hsleep (eq_of_get hp hj h ▸ hs)
    · simp only [Registry.get_setState,
        Registry.get_send_of_state k.registry now pid (show Signal.state .sigcont = some .running from rfl)]
      by_cases h : j = pid
      · rw [if_pos h,if_pos h,Option.map_map]
        refine rewritten_map _ (fun p hj => ⟨⟨rfl,rfl,rfl,rfl,rfl,rfl⟩,?_⟩)
        rw [if_pos ⟨h,eq_of_get hp hj h ▸ not_not.mp hsleep⟩]
        rfl
      · rw [if_neg h,if_neg h]
        exact (Rewritten.refl _).congr (fun p _ => (if_neg (fun hx => h hx.1)).symm)

lemma rewritten_completeTask (k : King) (now : ℤ) (pid : ℕ) (exitCode : ℤ) (output : List UInt8)
    (errMsg : String) (j : ℕ) :
    Rewritten (k.registry.get j) ((k.completeTask now pid exitCode output errMsg).2.registry.get j)
      (fun p => if j = pid then .zombie else p.state) := by
  unfold King.completeTask
  cases hp : k.registry.get pid with
  | none =>
    refine (Rewritten.refl _).congr (fun p hj => ?_)
    rw [if_neg]
    rintro rfl
    simp [hp] at hj
  | some q =>
    simp only [Registry.send_of_state_none _ now q.ppid (show Signal.state .sigchld = none from rfl)]
    exact rewritten_setState _ _ _ _ _

lemma rewritten_reportMetric (k : King) (now : ℤ) (pid : ℕ) (tokens : UInt64) (j : ℕ) :
    Rewritten (k.registry.get j) ((k.reportMetric now pid tokens).registry.get j) Process.state := by
  unfold King.reportMetric
  cases hp : k.registry.get pid with
  | none => exact .refl _
  | some q =>
    simp only [Registry.get_update]
    split_ifs
    · exact rewritten_map _ (fun p _ => ⟨⟨rfl,rfl,rfl,rfl,rfl,rfl⟩,rfl⟩)
    · exact .refl _

lemma requestResources_registry (k : King) (pid : ℕ) (amount : UInt64) :
    (k.requestResources pid amount).2.registry = k.registry := by
  rcases King.requestResources_cases k pid amount with he | ⟨proc,budget,-,-,he⟩
  · rw [he]
  · rw [he]

/-- A step that is neither a spawn nor a scan keeps every process, with its frame, and puts it into
the state that `stateAfter` says. -/
theorem rewritten_step (h : s.step op = some s')
    (hspawn : ∀ now launch req, op ≠ .spawnChild now launch req)
    (hreap : ∀ now order childOrder, op ≠ .reapZombies now order childOrder) (j : ℕ) :
    Rewritten (s.king.registry.get j) (s'.king.registry.get j) (s.stateAfter op j) := by
  cases op with
  | spawnChild now launch req => exact absurd rfl (hspawn now launch req)
  | reapZombies now order childOrder => exact absurd rfl (hreap now order childOrder)
  | killChild now order header target recursive =>
    simp only [step] at h
    have hk : ∀ o, s.king.killChild now order header target recursive = o → o.map s.killed = some s' →
        Rewritten (s.king.registry.get j) (s'.king.registry.get j) (fun p =>
          if j ∈ victimsOf o then .zombie else p.state) := by
      intro o ho hs
      unfold King.killChild at ho
      cases hc : callerPID header with
      | error e =>
        simp only [hc] at ho
        subst ho
        cases hs
        simpa [killed,victimsOf] using Rewritten.refl _
      | ok caller =>
        simp only [hc] at ho
        exact rewritten_kill ho.symm hs j
    exact hk _ rfl h
  | handleKill now order caller target recursive => exact rewritten_kill rfl h j
  | requestResources pid amount =>
    cases h
    simp only [requestResources_registry]
    exact .refl _
  | reportMetric now pid tokens =>
    cases h
    exact rewritten_reportMetric s.king now pid tokens j
  | release pid tier => cases h; exact .refl _
  | releaseAll pid => cases h; exact .refl _
  | setTrace pid traceID traceSpan => cases h; exact .refl _
  | waitResult pid => cases h; exact .refl _
  | childExit now pid =>
    cases h
    exact rewritten_childExit s now pid j
  | restart now index launch =>
    simp only [step] at h
    obtain ⟨q,hq,h⟩ := Option.bind_eq_some_iff.mp h
    cases h
    refine (rewritten_restart s.king now launch q.restart.proc j).congr (fun p _ => ?_)
    simp only [stateAfter,hq]
  | send now pid sig =>
    cases h
    exact rewritten_send s.king.registry now pid sig j
  | sleep now pid =>
    cases h
    exact rewritten_sleep s.king now pid j
  | wake now pid =>
    cases h
    exact rewritten_wake s.king now pid j
  | completeTask now pid exitCode output errMsg =>
    cases h
    exact rewritten_completeTask s.king now pid exitCode output errMsg j
  | cronWake now pid =>
    cases h
    exact rewritten_setState s.king.registry now pid .running j

/-- What a step can do to the process table. -/
theorem step_table (h : s.step op = some s') :
    (∃ now launch req, op = .spawnChild now launch req ∧
      s' = ⟨(s.king.spawnChild now launch req).2,s.pending⟩) ∨
    (∃ now order childOrder, op = .reapZombies now order childOrder ∧
      (∀ k ∈ order, s.king.registry.Enumerates (childOrder k)) ∧
      s' = ⟨s.king.reapZombies now order childOrder,s.pending⟩) ∨
    ∀ j, Rewritten (s.king.registry.get j) (s'.king.registry.get j) (s.stateAfter op j) := by
  by_cases hspawn : ∃ now launch req, op = .spawnChild now launch req
  · obtain ⟨now,launch,req,rfl⟩ := hspawn
    exact .inl ⟨now,launch,req,rfl,(Option.some.inj h).symm⟩
  by_cases hreap : ∃ now order childOrder, op = .reapZombies now order childOrder
  · obtain ⟨now,order,childOrder,rfl⟩ := hreap
    simp only [step] at h
    split_ifs at h with he
    exact .inr (.inl ⟨now,order,childOrder,rfl,he.2,(Option.some.inj h).symm⟩)
  push Not at hspawn hreap
  exact .inr (.inr (rewritten_step h hspawn hreap))

/-- A spawn adds at most one process, a child of a live one. -/
theorem get_spawnChild (k : King) (now : ℤ) (launch : Except String String) (req : SpawnRequest) :
    (∀ j, (k.spawnChild now launch req).2.registry.get j = k.registry.get j) ∨
    ∃ parent child, King.Admitted k req parent ∧ child.ppid = req.parentPID ∧ child.state = .idle ∧
      child.role = req.role ∧
      ∀ j, (k.spawnChild now launch req).2.registry.get j =
        if j = k.registry.nextPID then some child else k.registry.get j := by
  rcases King.spawnChild_effect k now launch req with ⟨-,e,he⟩ | ⟨parent,heff⟩
  · exact .inl (fun j => by rw [he])
  · rcases heff.outcome with ⟨-,-,-,hget⟩ | ⟨-,-,-,hget⟩ | ⟨addr,-,-,-,hget⟩
    · exact .inl hget
    · exact .inl hget
    · exact .inr ⟨parent,_,heff.admitted,rfl,rfl,rfl,hget⟩

/-- A scan only removes and moves processes. -/
theorem get_reapZombies {r : Registry} {config : SupervisorConfig} {now : ℤ} {order : List ℕ}
    {childOrder : ℕ → List ℕ} (hc : ∀ k ∈ order, r.Enumerates (childOrder k)) (j : ℕ) (p' : Process)
    (hj : (r.reapZombies config now order childOrder).get j = some p') :
    ∃ p, r.get j = some p ∧ p'.state = p.state ∧ p'.role = p.role := by
  refine Registry.reapZombies_induction hc
    (fun r' => ∀ j p', r'.get j = some p' → ∃ p, r.get j = some p ∧ p'.state = p.state ∧ p'.role = p.role)
    (fun j p hp => ⟨p,hp,rfl,rfl⟩) ?_ j p' hj
  intro r' k q hr' _ _ hall j p' hp'
  rw [Registry.get_reap hall] at hp'
  split_ifs at hp'
  obtain ⟨c,hc,rfl⟩ := Option.map_eq_some_iff.mp hp'
  obtain ⟨p,hp,hs,hr⟩ := hr' j c hc
  refine ⟨p,hp,?_,?_⟩
  · rw [Registry.adoptedBy_state,hs]
  · rw [Registry.adoptedBy_role,hr]

/-- A scan removes only processes that were due when it began: those it moves are not due. -/
theorem isSome_reapZombies {r : Registry} {config : SupervisorConfig} {now : ℤ} {order : List ℕ}
    {childOrder : ℕ → List ℕ} (hc : ∀ k ∈ order, r.Enumerates (childOrder k))
    (htimeout : 0 ≤ config.zombieTimeout) {j : ℕ} {p : Process} (hp : r.get j = some p)
    (ht : ¬Registry.TimedOut config now p) : ((r.reapZombies config now order childOrder).get j).isSome := by
  have hstay : ∃ q, (r.reapZombies config now order childOrder).get j = some q ∧
      ¬Registry.TimedOut config now q := by
    refine Registry.reapZombies_induction hc
      (fun r' => ∃ q, r'.get j = some q ∧ ¬Registry.TimedOut config now q) ⟨p,hp,ht⟩ ?_
    rintro r' k z ⟨q,hq,hnot⟩ hz hdue hall
    have hne : j ≠ z.pid := by
      rw [Registry.get_pid hz]
      rintro rfl
      exact hnot (Option.some.inj (hz.symm.trans hq) ▸ hdue)
    refine ⟨r'.adoptedBy now z q,?_,r'.not_timedOut_adoptedBy z htimeout hnot⟩
    rw [Registry.get_reap hall,if_neg hne,hq]
    rfl
  obtain ⟨q,hq,-⟩ := hstay
  exact Option.isSome_iff_exists.mpr ⟨q,hq⟩

/-- A kill request over gRPC does nothing, or is the kill request of the caller in its header. -/
lemma step_killChild {now : ℤ} {order : List ℕ → List ℕ} {header : Option (List String)} {target : ℕ}
    {recursive : Bool} (hs : s.step (.killChild now order header target recursive) = some s') :
    s' = s ∨ ∃ caller, (s.king.kill now order caller target recursive).map s.killed = some s' := by
  simp only [step,King.killChild] at hs
  cases hc : callerPID header with
  | error e =>
    simp only [hc] at hs
    cases hs
    exact .inl rfl
  | ok caller =>
    simp only [hc] at hs
    exact .inr ⟨caller,hs⟩

/-- The steps that write groups, traces or results. -/
def WritesFiles : KernelOp → Prop
  | .spawnChild .. | .setTrace .. | .waitResult .. | .completeTask .. => True
  | _ => False

/-- All other steps change the table, the budgets, the accounts, the runtimes and the crash counts of
the supervisor at most. -/
theorem quiet_step {α : Type} (f : King → α)
    (hf : ∀ (k : King) (registry : Registry) (budget : BudgetManager) (accountant : Accountant)
      (runtime : Option RuntimeManager) (supervisor : Supervisor), supervisor.config = k.supervisor.config →
      f { k with
        registry := registry, budget := budget, accountant := accountant, runtime := runtime,
        supervisor := supervisor } = f k)
    (hs : s.step op = some s') (hop : ¬WritesFiles op) : f s'.king = f s.king := by
  have hkillAll : ∀ (k : King) (now : ℤ) (pids : List ℕ), f (k.killAll now pids) = f k := by
    intro k now pids
    induction pids generalizing k with
    | nil => rfl
    | cons pid pids ih => exact (ih (King.killOne now k pid)).trans (hf k _ _ _ _ _ rfl)
  have hkill : ∀ {now order caller target recursive},
      (s.king.kill now order caller target recursive).map s.killed = some s' → f s'.king = f s.king := by
    intro now order caller target recursive h
    obtain ⟨⟨result,k'⟩,hk,rfl⟩ := Option.map_eq_some_iff.mp h
    rcases King.kill_cases hk with ⟨rfl,e,rfl⟩ | ⟨t,pids,-,-,-,rfl,rfl⟩
    · rfl
    · exact hkillAll s.king now pids
  cases op with
  | killChild now order header target recursive =>
    rcases step_killChild hs with rfl | ⟨caller,hs⟩
    · rfl
    · exact hkill hs
  | handleKill now order caller target recursive => exact hkill hs
  | requestResources pid amount =>
    cases hs
    rcases King.requestResources_cases s.king pid amount with he | ⟨proc,budget,-,-,he⟩
    · simp only [he]
    · simp only [he]
      exact hf s.king _ _ _ _ _ rfl
  | reportMetric now pid tokens =>
    cases hs
    simp only [King.reportMetric]
    split
    · rfl
    · exact hf s.king _ _ _ _ _ rfl
  | release pid tier => cases hs; exact hf s.king _ _ _ _ _ rfl
  | releaseAll pid => cases hs; exact hf s.king _ _ _ _ _ rfl
  | childExit now pid =>
    cases hs
    apply hf
    change (s.king.supervisor.handleChildExit s.king.registry now pid).1.config = _
    rcases s.king.supervisor.handleChildExit_cases s.king.registry now pid with
      ⟨-,he⟩ | ⟨p,-,⟨-,-,he⟩ | ⟨-,-,he⟩ | ⟨-,he⟩⟩
    · rw [he]
    · rw [he]
    · rw [he]
    · rw [he]
  | restart now index launch =>
    obtain ⟨q,-,h⟩ := Option.bind_eq_some_iff.mp hs
    cases h
    exact hf s.king _ _ _ _ _ rfl
  | reapZombies now order childOrder =>
    simp only [step] at hs
    split_ifs at hs
    cases hs
    exact hf s.king _ _ _ _ _ rfl
  | send now pid sig => cases hs; exact hf s.king _ _ _ _ _ rfl
  | sleep now pid =>
    cases hs
    obtain ⟨r,hr,-⟩ := s.king.sleep_frame now pid
    simp only [hr]
    exact hf s.king _ _ _ _ _ rfl
  | wake now pid =>
    cases hs
    obtain ⟨r,hr,-⟩ := s.king.wake_frame now pid
    simp only [hr]
    exact hf s.king _ _ _ _ _ rfl
  | cronWake now pid => cases hs; exact hf s.king _ _ _ _ _ rfl
  | spawnChild | setTrace | waitResult | completeTask => exact absurd trivial hop

/-- No step changes what depends only on the rules, the grants and the settings of the supervisor. -/
theorem step_frame {α : Type} (f : King → α)
    (hf : ∀ (k : King) (registry : Registry) (budget : BudgetManager) (accountant : Accountant)
      (cgroups : CGroupManager) (runtime : Option RuntimeManager) (traceStore : Table ℕ TraceCtx)
      (supervisor : Supervisor) (results : Table ℕ TaskResult),
      supervisor.config = k.supervisor.config →
      f ⟨registry,budget,accountant,k.rules,k.grants,cgroups,runtime,traceStore,supervisor,results⟩ = f k)
    (hs : s.step op = some s') : f s'.king = f s.king := by
  cases op with
  | spawnChild now launch req =>
    cases hs
    exact King.spawnChild_frame f (fun k _ _ _ _ _ => hf k _ _ _ _ _ _ _ _ rfl) s.king now launch req
  | setTrace pid traceID traceSpan => cases hs; exact hf s.king _ _ _ _ _ _ _ _ rfl
  | waitResult pid => cases hs; exact hf s.king _ _ _ _ _ _ _ _ rfl
  | completeTask now pid exitCode output errMsg =>
    cases hs
    simp only [King.completeTask]
    split
    · rfl
    · exact hf s.king _ _ _ _ _ _ _ _ rfl
  | _ => exact quiet_step f (fun k _ _ _ _ _ h => hf k _ _ _ _ _ _ _ _ h) hs not_false

theorem config_step (hs : s.step op = some s') :
    s'.king.supervisor.config = s.king.supervisor.config :=
  step_frame (fun k => k.supervisor.config) (fun _ _ _ _ _ _ _ _ _ h => h) hs

lemma rules_step (hs : s.step op = some s') : s'.king.rules = s.king.rules :=
  step_frame King.rules (fun _ _ _ _ _ _ _ _ _ _ => rfl) hs

lemma rewritten_ppid {r r' : Registry} {state : ℕ → Process → ProcessState}
    (h : ∀ j, Rewritten (r.get j) (r'.get j) (state j)) (j : ℕ) (p' : Process) (hp' : r'.get j = some p') :
    ∃ p, r.get j = some p ∧ Frame p p' ∧ p'.state = state j p := by
  have hj := h j
  cases hp : r.get j with
  | none =>
    rw [hp] at hj
    rw [show r'.get j = none from hj] at hp'
    cases hp'
  | some p =>
    rw [hp] at hj
    obtain ⟨q,hq,hf,hs⟩ := hj
    obtain rfl : p' = q := Option.some.inj (hp'.symm.trans hq)
    exact ⟨p,rfl,hf,hs⟩

/-- Every step keeps parents below their children. -/
theorem ordered_step (h : s.king.registry.Ordered) (hs : s.step op = some s') :
    s'.king.registry.Ordered := by
  rcases step_table hs with ⟨now,launch,req,-,rfl⟩ | ⟨now,order,childOrder,-,he,rfl⟩ | hrw
  · rcases get_spawnChild s.king now launch req with hget | ⟨parent,child,hadm,hppid,-,-,hget⟩
    · exact h.of_ppid (fun k p' hp' => ⟨p',(hget k).symm.trans hp',rfl⟩)
    · have hb := Registry.get_bound hadm.found
      refine ⟨fun p hp => ?_,fun k p hp hk => ?_⟩
      · rw [hget,if_neg (by omega)] at hp
        exact h.root p hp
      · rw [hget] at hp
        split_ifs at hp with hn
        · cases hp
          rw [hppid,hn]
          exact hb
        · exact h.lower k p hp hk
  · exact h.reapZombies he
  · apply h.of_ppid
    intro k p' hp'
    obtain ⟨p,hp,hf,-⟩ := rewritten_ppid hrw k p' hp'
    exact ⟨p,hp,hf.ppid⟩

lemma ordered_boot (cfg : Config) (now : ℤ) (runtime : Option RuntimeManager) :
    (boot cfg now runtime).king.registry.Ordered := Registry.boot_ordered now "king" cfg.kernelUser cfg.nodeName

end System
end HiveKernel
