import HiveKernel.Process.Branches

/-! What happens to a killed process after its grace period. Every kill leaves goroutines behind, each of which
later looks at its processes one after the other and sends `SIGKILL` to those that it finds alive; between a look
and its signal, and between two looks, anything may happen to the table. -/
namespace HiveKernel
open Lib Relation
namespace Registry

/-- A goroutine that sleeps for the grace period: the processes it has still to look at, and the one that it has
found alive. -/
structure ForcedKill where
  targets : List ℕ
  striking : Option ℕ := none
  deriving DecidableEq, Repr

namespace ForcedKill

def Finished (f : ForcedKill) : Prop := f.targets = [] ∧ f.striking = none

/-- The steps left. -/
def remaining (f : ForcedKill) : ℕ := 2*f.targets.length+(if f.striking.isSome then 1 else 0)

/-- It will still look at the process, or strike it. -/
def Seeks (f : ForcedKill) (pid : ℕ) : Prop := pid ∈ f.targets ∨ f.striking = some pid

lemma not_seeks_of_finished {f : ForcedKill} (h : f.Finished) (pid : ℕ) : ¬f.Seeks pid := by
  rintro (hin | hstrike)
  · rw [h.1] at hin
    exact absurd hin (List.not_mem_nil)
  · rw [h.2] at hstrike
    cases hstrike

end ForcedKill

structure GraceState where
  registry : Registry
  /-- the goroutines, in the order of their start -/
  forced : List ForcedKill

inductive GraceOp
  | killBranch (now : ℤ) (order : List ℕ → List ℕ) (pid : ℕ)
  | sendWithGrace (now : ℤ) (pid : ℕ)
  | look (i : ℕ)
  | strike (now : ℤ) (i : ℕ)
  | send (now : ℤ) (pid : ℕ) (sig : Signal)
  | setState (now : ℤ) (pid : ℕ) (state : ProcessState)
  | register (now : ℤ) (p : Process)
  | reparent (now : ℤ) (pid newParentPID : ℕ)
  | remove (pid : ℕ)

/-- The PIDs of the descendants in the order in which they are killed. -/
def branchOrder (r : Registry) (order : List ℕ → List ℕ) (pid : ℕ) : Option (List ℕ) := do
  let descendants ← r.getDescendants order pid
  let ordered ← r.bottomUpOrder pid descendants
  some (ordered.map Process.pid)

namespace GraceState

def graceStep (s : GraceState) : GraceOp → Option GraceState
  | .killBranch now order pid =>
    match s.registry.killBranch now order pid with
    | none => none
    | some (.error _) => some s
    | some (.ok kill) => (s.registry.branchOrder order pid).map fun targets =>
      { registry := kill.registry
        -- one goroutine for the descendants, and one for the root unless it was dead
        forced := s.forced++⟨targets,none⟩::(if pid ∈ kill.killed then [⟨[pid],none⟩] else []) }
  | .sendWithGrace now pid =>
    match s.registry.get pid with
    | none => some s
    | some _ => some ⟨s.registry.send now pid .sigterm,s.forced++[⟨[pid],none⟩]⟩
  | .look i =>
    match s.forced[i]? with
    | some ⟨pid::rest,none⟩ =>
      some { s with forced := s.forced.set i ⟨rest,if s.registry.Alive pid then some pid else none⟩ }
    | _ => none
  | .strike now i =>
    match s.forced[i]? with
    | some ⟨targets,some pid⟩ => some ⟨s.registry.send now pid .sigkill,s.forced.set i ⟨targets,none⟩⟩
    | _ => none
  | .send now pid sig => some { s with registry := s.registry.send now pid sig }
  | .setState now pid state => some { s with registry := s.registry.setState now pid state }
  | .register now p => some { s with registry := s.registry.register now p }
  | .reparent now pid newParentPID => some { s with registry := s.registry.tryReparent now pid newParentPID }
  | .remove pid => some { s with registry := s.registry.remove pid }

/-- The goroutine that takes the step. -/
def mover : GraceOp → Option ℕ
  | .look i => some i
  | .strike _ i => some i
  | _ => none

/-- The call writes a state other than dead into the entry of the process. -/
def Revives (pid : ℕ) : GraceOp → Prop
  | .sendWithGrace _ k => k = pid
  | .send _ k sig => k = pid ∧ ∃ state, sig.state = some state ∧ state ≠ .dead
  | .setState _ k state => k = pid ∧ state ≠ .dead
  | _ => False

variable {s t u : GraceState} {op : GraceOp} {pid i : ℕ}

/-- Every way a step of a goroutine can go. -/
lemma look_cases (h : s.graceStep (.look i) = some t) : ∃ pid rest, s.forced[i]? = some ⟨pid::rest,none⟩ ∧
    t = { s with forced := s.forced.set i ⟨rest,if s.registry.Alive pid then some pid else none⟩ } := by
  simp only [graceStep] at h
  split at h
  · next pid rest hi => exact ⟨pid,rest,hi,(Option.some.inj h).symm⟩
  · cases h

lemma strike_cases {now : ℤ} (h : s.graceStep (.strike now i) = some t) :
    ∃ targets pid, s.forced[i]? = some ⟨targets,some pid⟩ ∧
      t = ⟨s.registry.send now pid .sigkill,s.forced.set i ⟨targets,none⟩⟩ := by
  simp only [graceStep] at h
  split at h
  · next targets pid hi => exact ⟨targets,pid,hi,(Option.some.inj h).symm⟩
  · cases h

lemma killBranch_cases {now : ℤ} {order : List ℕ → List ℕ} (h : s.graceStep (.killBranch now order pid) = some t) :
    ((∃ e, s.registry.killBranch now order pid = some (.error e)) ∧ t = s) ∨
    ∃ kill targets, s.registry.killBranch now order pid = some (.ok kill) ∧
      s.registry.branchOrder order pid = some targets ∧
      t = ⟨kill.registry,s.forced++⟨targets,none⟩::(if pid ∈ kill.killed then [⟨[pid],none⟩] else [])⟩ := by
  simp only [graceStep] at h
  cases hk : s.registry.killBranch now order pid with
  | none => simp [hk] at h
  | some result =>
    cases result with
    | error e =>
      simp only [hk] at h
      exact .inl ⟨⟨e,rfl⟩,(Option.some.inj h).symm⟩
    | ok kill =>
      simp only [hk] at h
      obtain ⟨targets,htargets,rfl⟩ := Option.map_eq_some_iff.mp h
      exact .inr ⟨kill,targets,rfl,htargets,rfl⟩

/-- A goroutine that no step moves stays where it is; new ones are put at the end. -/
lemma forced_step (h : s.graceStep op = some t) (hi : mover op ≠ some i) {f : ForcedKill}
    (hf : s.forced[i]? = some f) : t.forced[i]? = some f := by
  have hlt : i < s.forced.length := (List.getElem?_eq_some_iff.mp hf).1
  cases op with
  | look j =>
    obtain ⟨pid,rest,-,rfl⟩ := look_cases h
    have hne : j ≠ i := fun he => hi (by rw [mover,he])
    rw [List.getElem?_set_ne hne]
    exact hf
  | strike now j =>
    obtain ⟨targets,pid,-,rfl⟩ := strike_cases h
    have hne : j ≠ i := fun he => hi (by rw [mover,he])
    rw [List.getElem?_set_ne hne]
    exact hf
  | killBranch now order pid =>
    rcases killBranch_cases h with ⟨-,rfl⟩ | ⟨kill,targets,-,-,rfl⟩
    · exact hf
    · rw [List.getElem?_append_left hlt]
      exact hf
  | sendWithGrace now pid =>
    simp only [graceStep] at h
    split at h
    · cases h
      exact hf
    · cases h
      rw [List.getElem?_append_left hlt]
      exact hf
  | _ =>
    cases h
    exact hf

/-- A goroutine that moves has one step less left. -/
lemma remaining_step (h : s.graceStep op = some t) (hi : mover op = some i) :
    ∃ f g, s.forced[i]? = some f ∧ t.forced[i]? = some g ∧ g.remaining < f.remaining := by
  cases op with
  | look j =>
    obtain rfl : j = i := Option.some.inj hi
    obtain ⟨pid,rest,hf,rfl⟩ := look_cases h
    have hlt : j < s.forced.length := (List.getElem?_eq_some_iff.mp hf).1
    refine ⟨_,_,hf,List.getElem?_set_self hlt,?_⟩
    simp only [ForcedKill.remaining,List.length_cons]
    split_ifs <;> omega
  | strike now j =>
    obtain rfl : j = i := Option.some.inj hi
    obtain ⟨targets,pid,hf,rfl⟩ := strike_cases h
    have hlt : j < s.forced.length := (List.getElem?_eq_some_iff.mp hf).1
    refine ⟨_,_,hf,List.getElem?_set_self hlt,?_⟩
    simp [ForcedKill.remaining]
  | _ => cases hi

/-- Nothing can keep a goroutine from its next step. -/
lemma exists_step_of_not_finished {f : ForcedKill} (hf : s.forced[i]? = some f) (hnot : ¬f.Finished) (now : ℤ) :
    ∃ op t, mover op = some i ∧ (op = .look i ∨ op = .strike now i) ∧ s.graceStep op = some t := by
  obtain ⟨targets,striking⟩ := f
  cases striking with
  | some pid => exact ⟨.strike now i,_,rfl,.inr rfl,by simp only [graceStep,hf]; rfl⟩
  | none =>
    cases targets with
    | nil => exact absurd ⟨rfl,rfl⟩ hnot
    | cons pid rest => exact ⟨.look i,_,rfl,.inl rfl,by simp only [graceStep,hf]; rfl⟩

lemma not_alive_send {r : Registry} (h : ¬r.Alive pid) (now : ℤ) (k : ℕ) (sig : Signal)
    (hsig : k = pid → ∀ state, sig.state = some state → state = .dead) : ¬(r.send now k sig).Alive pid := by
  rintro ⟨p,hp,hne⟩
  cases hstate : sig.state with
  | none =>
    rw [send_of_state_none r now k hstate] at hp
    exact h ⟨p,hp,hne⟩
  | some state =>
    rw [Option.mem_def,get_send_of_state r now k hstate,get_setState] at hp
    split_ifs at hp with hk
    · obtain ⟨q,hq,rfl⟩ := Option.map_eq_some_iff.mp hp
      exact hne (hsig hk.symm state hstate)
    · exact h ⟨p,hp,hne⟩

lemma not_alive_kill (r : Registry) (now : ℤ) (pid : ℕ) : ¬(r.send now pid .sigkill).Alive pid := by
  rintro ⟨p,hp,hne⟩
  rw [Option.mem_def,get_send_of_state r now pid (show Signal.state .sigkill = some .dead from rfl),
    get_setState,if_pos rfl] at hp
  obtain ⟨q,hq,rfl⟩ := Option.map_eq_some_iff.mp hp
  exact hne rfl

lemma not_alive_killMember {b : BranchKill} (h : ¬b.registry.Alive pid) (now : ℤ) (k : ℕ) :
    ¬(killMember now b k).registry.Alive pid := by
  rintro ⟨p,hp,hne⟩
  rw [Option.mem_def,get_killMember] at hp
  split_ifs at hp with hk
  · exact h (hk.1 ▸ hk.2)
  · exact h ⟨p,hp,hne⟩

lemma not_alive_killBranch {r : Registry} (h : ¬r.Alive pid) {now : ℤ} {order : List ℕ → List ℕ} {root : ℕ}
    {kill : BranchKill} (hk : r.killBranch now order root = some (.ok kill)) : ¬kill.registry.Alive pid := by
  have hfold : ∀ (ks : List ℕ) (b : BranchKill), ¬b.registry.Alive pid →
      ¬(ks.foldl (killMember now) b).registry.Alive pid := by
    intro ks
    induction ks with
    | nil => exact fun b hb => hb
    | cons k ks ih => exact fun b hb => ih _ (not_alive_killMember hb now k)
  unfold killBranch at hk
  cases hroot : r.get root with
  | none => simp [hroot] at hk
  | some p =>
    simp only [hroot] at hk
    obtain ⟨ds,-,hk⟩ := Option.bind_eq_some_iff.mp hk
    obtain ⟨ordered,-,hk⟩ := Option.bind_eq_some_iff.mp hk
    obtain rfl := Except.ok.inj (Option.some.inj hk)
    exact not_alive_killMember (hfold _ _ h) now root

/-- Only a call that revives it makes a dead process alive: no goroutine does, no kill of a branch, and no
registration, since PIDs are not used again. -/
lemma not_alive_step (h : s.graceStep op = some t) (hlt : pid < s.registry.nextPID)
    (hdead : ¬s.registry.Alive pid) (hnot : ¬Revives pid op) : ¬t.registry.Alive pid := by
  cases op with
  | killBranch now order root =>
    rcases killBranch_cases h with ⟨-,rfl⟩ | ⟨kill,targets,hk,-,rfl⟩
    · exact hdead
    · exact not_alive_killBranch hdead hk
  | sendWithGrace now k =>
    simp only [graceStep] at h
    split at h
    · cases h
      exact hdead
    · cases h
      exact not_alive_send hdead now k _ (fun hk => absurd hk hnot)
  | look i =>
    obtain ⟨k,rest,-,rfl⟩ := look_cases h
    exact hdead
  | strike now i =>
    obtain ⟨targets,k,-,rfl⟩ := strike_cases h
    apply not_alive_send hdead now k
    intro _ state hstate
    cases hstate
    rfl
  | send now k sig =>
    cases h
    apply not_alive_send hdead now k
    intro hk state hstate
    by_contra hne
    exact hnot ⟨hk,state,hstate,hne⟩
  | setState now k state =>
    cases h
    rintro ⟨p,hp,hne⟩
    rw [Option.mem_def,get_setState] at hp
    split_ifs at hp with hk
    · obtain ⟨q,-,rfl⟩ := Option.map_eq_some_iff.mp hp
      exact hnot ⟨hk.symm,hne⟩
    · exact hdead ⟨p,hp,hne⟩
  | register now q =>
    cases h
    rintro ⟨p,hp,hne⟩
    rw [Option.mem_def,get_register,if_neg (by omega)] at hp
    exact hdead ⟨p,hp,hne⟩
  | reparent now k newParentPID =>
    cases h
    rintro ⟨p,hp,hne⟩
    rw [Option.mem_def,get_tryReparent] at hp
    split_ifs at hp
    · obtain ⟨q,hq,rfl⟩ := Option.map_eq_some_iff.mp hp
      exact hdead ⟨q,hq,hne⟩
    · exact hdead ⟨p,hp,hne⟩
  | remove k =>
    cases h
    rintro ⟨p,hp,hne⟩
    rw [Option.mem_def,get_remove] at hp
    split_ifs at hp
    exact hdead ⟨p,hp,hne⟩

lemma nextPID_killBranch {r : Registry} {now : ℤ} {order : List ℕ → List ℕ} {root : ℕ} {kill : BranchKill}
    (hk : r.killBranch now order root = some (.ok kill)) : kill.registry.nextPID = r.nextPID := by
  have hmember : ∀ (b : BranchKill) (k : ℕ), (killMember now b k).registry.nextPID = b.registry.nextPID := by
    intro b k
    unfold killMember
    split
    · rfl
    · split_ifs
      · rfl
      · exact nextPID_send _ _ _ _
  have hfold : ∀ (ks : List ℕ) (b : BranchKill),
      (ks.foldl (killMember now) b).registry.nextPID = b.registry.nextPID := by
    intro ks
    induction ks with
    | nil => exact fun b => rfl
    | cons k ks ih => exact fun b => (ih _).trans (hmember b k)
  unfold killBranch at hk
  cases hroot : r.get root with
  | none => simp [hroot] at hk
  | some p =>
    simp only [hroot] at hk
    obtain ⟨ds,-,hk⟩ := Option.bind_eq_some_iff.mp hk
    obtain ⟨ordered,-,hk⟩ := Option.bind_eq_some_iff.mp hk
    obtain rfl := Except.ok.inj (Option.some.inj hk)
    rw [hmember,hfold]

lemma nextPID_le_step (h : s.graceStep op = some t) : s.registry.nextPID ≤ t.registry.nextPID := by
  cases op with
  | killBranch now order root =>
    rcases killBranch_cases h with ⟨-,rfl⟩ | ⟨kill,targets,hk,-,rfl⟩
    · exact Nat.le_refl _
    · exact (nextPID_killBranch hk).ge
  | sendWithGrace now k =>
    simp only [graceStep] at h
    split at h
    · cases h
      exact Nat.le_refl _
    · cases h
      exact (nextPID_send _ _ _ _).ge
  | look i =>
    obtain ⟨k,rest,-,rfl⟩ := look_cases h
    exact Nat.le_refl _
  | strike now i =>
    obtain ⟨targets,k,-,rfl⟩ := strike_cases h
    exact (nextPID_send _ _ _ _).ge
  | send now k sig =>
    cases h
    exact (nextPID_send _ _ _ _).ge
  | setState now k state =>
    cases h
    exact (nextPID_setState _ _ _ _).ge
  | register now q =>
    cases h
    exact Nat.le_succ _
  | reparent now k newParentPID =>
    cases h
    exact (nextPID_tryReparent _ _ _ _).ge
  | remove k =>
    cases h
    exact (nextPID_remove _ _).ge

/-- The goroutine still has the process before it. -/
def Sought (s : GraceState) (i pid : ℕ) : Prop := ∃ f, s.forced[i]? = some f ∧ f.Seeks pid

/-- A process leaves the list of a goroutine only when it is not alive. -/
lemma Sought.step (hsought : s.Sought i pid) (h : s.graceStep op = some t) :
    t.Sought i pid ∨ ¬t.registry.Alive pid := by
  obtain ⟨f,hf,hseeks⟩ := hsought
  by_cases hi : mover op = some i
  · have hlt : i < s.forced.length := (List.getElem?_eq_some_iff.mp hf).1
    cases op with
    | look j =>
      obtain rfl : j = i := Option.some.inj hi
      obtain ⟨k,rest,hj,rfl⟩ := look_cases h
      obtain rfl := Option.some.inj (hf.symm.trans hj)
      rcases hseeks with hin | hstrike
      · rcases List.mem_cons.mp hin with rfl | hin
        · by_cases halive : s.registry.Alive pid
          · exact .inl ⟨_,List.getElem?_set_self hlt,.inr (if_pos halive)⟩
          · exact .inr halive
        · exact .inl ⟨_,List.getElem?_set_self hlt,.inl hin⟩
      · cases hstrike
    | strike now j =>
      obtain rfl : j = i := Option.some.inj hi
      obtain ⟨targets,k,hj,rfl⟩ := strike_cases h
      obtain rfl := Option.some.inj (hf.symm.trans hj)
      rcases hseeks with hin | hstrike
      · exact .inl ⟨_,List.getElem?_set_self hlt,.inl hin⟩
      · obtain rfl := Option.some.inj hstrike
        exact .inr (not_alive_kill _ _ _)
    | _ => cases hi
  · exact .inl ⟨f,forced_step h hi hf,hseeks⟩

/-- Along a run the process is found dead at some moment, unless the goroutine has it still before it. -/
lemma Sought.run {trace : List (Transition GraceState GraceOp)} (run : Run graceStep s trace t)
    (hsought : s.Sought i pid) : t.Sought i pid ∨ ∃ e ∈ trace, ¬e.target.registry.Alive pid := by
  induction run with
  | nil => exact .inl hsought
  | @cons s t u op trace first rest ih =>
    rcases hsought.step first with hsought | hdead
    · rcases ih hsought with hsought | ⟨e,he,hdead⟩
      · exact .inl hsought
      · exact .inr ⟨e,List.mem_cons_of_mem _ he,hdead⟩
    · exact .inr ⟨_,List.mem_cons_self,hdead⟩

/-- Once dead, a process is dead at the end of every run that does not revive it. -/
lemma not_alive_run {trace : List (Transition GraceState GraceOp)} (run : Run graceStep s trace t)
    (hlt : pid < s.registry.nextPID) (hnot : ∀ e ∈ trace, ¬Revives pid e.label)
    (hdead : ¬s.registry.Alive pid ∨ ∃ e ∈ trace, ¬e.target.registry.Alive pid) : ¬t.registry.Alive pid := by
  induction run with
  | nil =>
    rcases hdead with hdead | ⟨e,he,-⟩
    · exact hdead
    · exact absurd he List.not_mem_nil
  | @cons s t u op trace first rest ih =>
    have hlt' : pid < t.registry.nextPID := Nat.lt_of_lt_of_le hlt (nextPID_le_step first)
    have hrest := fun e he => hnot e (List.mem_cons_of_mem _ he)
    have hnow := not_alive_step first hlt
    rcases hdead with hdead | ⟨e,he,hdead⟩
    · exact ih hlt' hrest (.inl (hnow hdead (hnot _ List.mem_cons_self)))
    · rcases List.mem_cons.mp he with rfl | he
      · exact ih hlt' hrest (.inl hdead)
      · exact ih hlt' hrest (.inr ⟨e,he,hdead⟩)

/-- A goroutine takes no more steps than it has left. -/
lemma moves_add_remaining_le {trace : List (Transition GraceState GraceOp)} (run : Run graceStep s trace t)
    {f : ForcedKill} (hf : s.forced[i]? = some f) : ∃ g, t.forced[i]? = some g ∧
      trace.countP (fun e => mover e.label = some i)+g.remaining ≤ f.remaining := by
  induction run generalizing f with
  | nil => exact ⟨f,hf,by simp⟩
  | @cons s t u op trace first rest ih =>
    rw [List.countP_cons]
    by_cases hi : mover op = some i
    · obtain ⟨f',g,hf',hg,hless⟩ := remaining_step first hi
      obtain rfl := Option.some.inj (hf.symm.trans hf')
      obtain ⟨g',hg',hle⟩ := ih hg
      refine ⟨g',hg',?_⟩
      simp only [hi,decide_true,if_true]
      omega
    · obtain ⟨g',hg',hle⟩ := ih (forced_step first hi hf)
      refine ⟨g',hg',?_⟩
      simp only [hi,decide_false,Bool.false_eq_true,if_false]
      omega

/-- A goroutine gets no new processes. -/
lemma Sought.of_step (h : s.graceStep op = some t) {f : ForcedKill} (hf : s.forced[i]? = some f)
    (hsought : t.Sought i pid) : s.Sought i pid := by
  obtain ⟨g,hg,hseeks⟩ := hsought
  by_cases hi : mover op = some i
  · have hlt : i < s.forced.length := (List.getElem?_eq_some_iff.mp hf).1
    cases op with
    | look j =>
      obtain rfl : j = i := Option.some.inj hi
      obtain ⟨k,rest,hj,rfl⟩ := look_cases h
      obtain rfl := Option.some.inj ((List.getElem?_set_self hlt).symm.trans hg)
      refine ⟨_,hj,.inl ?_⟩
      rcases hseeks with hin | hstrike
      · exact List.mem_cons_of_mem k hin
      · have hk : (if s.registry.Alive k then some k else none) = some pid := hstrike
        split_ifs at hk
        obtain rfl := Option.some.inj hk
        exact List.mem_cons_self
    | strike now j =>
      obtain rfl : j = i := Option.some.inj hi
      obtain ⟨targets,k,hj,rfl⟩ := strike_cases h
      obtain rfl := Option.some.inj ((List.getElem?_set_self hlt).symm.trans hg)
      refine ⟨_,hj,.inl ?_⟩
      rcases hseeks with hin | hstrike
      · exact hin
      · cases hstrike
    | _ => cases hi
  · obtain rfl := Option.some.inj ((forced_step h hi hf).symm.trans hg)
    exact ⟨f,hf,hseeks⟩

lemma Sought.of_run {trace : List (Transition GraceState GraceOp)} (run : Run graceStep s trace t)
    {f : ForcedKill} (hf : s.forced[i]? = some f) (hsought : t.Sought i pid) : s.Sought i pid := by
  induction run generalizing f with
  | nil => exact hsought
  | @cons s t u op trace first rest ih =>
    by_cases hi : mover op = some i
    · obtain ⟨f',g,-,hg,-⟩ := remaining_step first hi
      exact Sought.of_step first hf (ih hg hsought)
    · exact Sought.of_step first hf (ih (forced_step first hi hf) hsought)

/-- The goroutines that a kill of a branch starts: one for the descendants and, unless it was dead, one for the
root. -/
lemma started_of_killBranch {now : ℤ} {root : ℕ} (v : s.registry.Visits) (hacyclic : Acyclic s.registry.link)
    (hroot : (s.registry.get root).isSome) (h : s.graceStep (.killBranch now v.order root) = some t) :
    ∃ targets last, t.forced = s.forced++⟨targets,none⟩::last ∧
      (∀ j, j ∈ targets ↔ TransGen s.registry.ChildOf j root) ∧
      ((last = [⟨[root],none⟩]) ∨ (last = [] ∧ ¬t.registry.Alive root)) := by
  rcases killBranch_cases h with ⟨⟨e,he⟩,-⟩ | ⟨kill,targets,hk,htargets,rfl⟩
  · obtain ⟨p,hp⟩ := Option.isSome_iff_exists.mp hroot
    obtain ⟨ds,ordered,hds,hord,-⟩ := bottomUpOrder_spec hacyclic v root
    simp [killBranch,hp,hds,hord] at he
  · obtain ⟨ds,ordered,hds,hord,-,hmem,-,-⟩ := bottomUpOrder_spec hacyclic v root
    obtain rfl : ordered.map Process.pid = targets := by
      simpa [branchOrder,hds,hord] using htargets
    refine ⟨_,_,rfl,hmem,?_⟩
    obtain ⟨p,hp⟩ := Option.isSome_iff_exists.mp hroot
    split_ifs with hin
    · exact .inl rfl
    · refine .inr ⟨rfl,?_⟩
      simp only [killBranch,hp,hds,hord,Option.bind_eq_bind,Option.bind_some] at hk
      obtain rfl := Except.ok.inj (Option.some.inj hk)
      intro halive
      by_cases hbefore : ((ordered.map Process.pid).foldl (killMember now) ⟨s.registry,[],[]⟩).registry.Alive root
      · rw [killMember_of_alive now hbefore] at hin
        simp at hin
      · rw [killMember_of_not_alive now hbefore] at halive
        exact hbefore halive

/-- A kill of a branch is finished by the goroutines it starts, whatever else happens meanwhile: each of them takes
at most two steps for each of its processes and can always take the next one, they strike nobody outside the branch
as it was at the call, and once they are done every process of the branch has been dead or gone at some moment
since and is so still, unless a later call has revived it. -/
theorem killBranch_forces {now : ℤ} {root : ℕ} (v : s.registry.Visits) (hacyclic : Acyclic s.registry.link)
    (hroot : (s.registry.get root).isSome) (h : s.graceStep (.killBranch now v.order root) = some t)
    {trace : List (Transition GraceState GraceOp)} (run : Run graceStep t trace u) :
    (∀ i, s.forced.length ≤ i → i < t.forced.length → ∃ f g, t.forced[i]? = some f ∧ u.forced[i]? = some g ∧
      f.striking = none ∧ trace.countP (fun e => mover e.label = some i)+g.remaining ≤ 2*f.targets.length ∧
      (¬g.Finished → ∀ now, ∃ op w, mover op = some i ∧ (op = .look i ∨ op = .strike now i) ∧
        u.graceStep op = some w)) ∧
    (∀ e ∈ trace, ∀ i f k, s.forced.length ≤ i → i < t.forced.length → e.source.forced[i]? = some f →
      f.striking = some k → ReflTransGen s.registry.ChildOf k root) ∧
    ((∀ i g, s.forced.length ≤ i → i < t.forced.length → u.forced[i]? = some g → g.Finished) →
      ∀ j, ReflTransGen s.registry.ChildOf j root →
        (¬t.registry.Alive j ∨ ∃ e ∈ trace, ¬e.target.registry.Alive j) ∧
        ((∀ e ∈ trace, ¬Revives j e.label) → ¬u.registry.Alive j)) := by
  obtain ⟨targets,last,hforced,hmem,hlast⟩ := started_of_killBranch v hacyclic hroot h
  have hnew : ∀ i, s.forced.length ≤ i → i < t.forced.length → ∃ f, t.forced[i]? = some f ∧
      f.striking = none ∧ ∀ k ∈ f.targets, ReflTransGen s.registry.ChildOf k root := by
    intro i hge hlt
    rw [hforced,List.getElem?_append_right hge]
    rw [hforced,List.length_append] at hlt
    rcases hi : i-s.forced.length with _ | d
    · exact ⟨_,rfl,rfl,fun k hk => ((hmem k).mp hk).to_reflTransGen⟩
    · rcases hlast with rfl | ⟨rfl,-⟩
      · obtain rfl : d = 0 := by
          simp only [List.length_cons,List.length_nil] at hlt
          omega
        refine ⟨_,rfl,rfl,fun k hk => ?_⟩
        rw [List.mem_singleton.mp hk]
      · simp only [List.length_cons,List.length_nil] at hlt
        omega
  refine ⟨fun i hge hlt => ?_,fun e he i f k hge hlt hf hstrike => ?_,fun hfinished j hj => ?_⟩
  · obtain ⟨f,hf,hstriking,-⟩ := hnew i hge hlt
    obtain ⟨g,hg,hle⟩ := moves_add_remaining_le run hf
    refine ⟨f,g,hf,hg,hstriking,?_,fun hnot now => exists_step_of_not_finished hg hnot now⟩
    have hremaining : f.remaining = 2*f.targets.length := by
      simp [ForcedKill.remaining,hstriking]
    omega
  · obtain ⟨f₀,hf₀,hstriking,hbranch⟩ := hnew i hge hlt
    obtain ⟨before,later,rfl⟩ := List.append_of_mem he
    obtain ⟨hbefore,-,-⟩ := run.split
    obtain ⟨f',hf',hseeks⟩ := Sought.of_run hbefore hf₀ ⟨f,hf,.inr hstrike⟩
    obtain rfl := Option.some.inj (hf₀.symm.trans hf')
    rcases hseeks with hin | hnone
    · exact hbranch k hin
    · rw [hstriking] at hnone
      cases hnone
  · have hsought : ¬t.registry.Alive j ∨ ∃ i, s.forced.length ≤ i ∧ i < t.forced.length ∧ t.Sought i j := by
      rcases reflTransGen_iff_eq_or_transGen.mp hj with rfl | hbelow
      · rcases hlast with rfl | ⟨-,hdead⟩
        · refine .inr ⟨s.forced.length+1,by omega,?_,⟨[root],none⟩,?_,.inl List.mem_cons_self⟩
          · rw [hforced]
            simp
          · rw [hforced,List.getElem?_append_right (by omega)]
            simp
        · exact .inl hdead
      · refine .inr ⟨s.forced.length,Nat.le_refl _,?_,⟨targets,none⟩,?_,.inl ((hmem j).mpr hbelow)⟩
        · rw [hforced]
          simp
        · rw [hforced,List.getElem?_append_right (Nat.le_refl _)]
          simp
    have hmoment : ¬t.registry.Alive j ∨ ∃ e ∈ trace, ¬e.target.registry.Alive j := by
      rcases hsought with hdead | ⟨i,hge,hlt,hsought⟩
      · exact .inl hdead
      · rcases hsought.run run with ⟨g,hg,hseeks⟩ | hdead
        · exact absurd hseeks (ForcedKill.not_seeks_of_finished (hfinished i g hge hlt hg) j)
        · exact .inr hdead
    have hregistered : (s.registry.get j).isSome := by
      rcases reflTransGen_iff_eq_or_transGen.mp hj with rfl | hbelow
      · exact hroot
      · obtain ⟨k,hchild,-⟩ := TransGen.head'_iff.mp hbelow
        obtain ⟨p,hp,-⟩ := hchild
        exact Option.isSome_iff_exists.mpr ⟨p,hp⟩
    obtain ⟨p,hp⟩ := Option.isSome_iff_exists.mp hregistered
    have hlt : j < t.registry.nextPID := Nat.lt_of_lt_of_le (get_bound hp).2 (nextPID_le_step h)
    exact ⟨hmoment,fun hnot => not_alive_run run hlt hnot hmoment⟩

/-- The household, whose queen is about to be killed. -/
def household : GraceState := ⟨royalHousehold,[]⟩

/-- The task exits by itself before its goroutine looks at it; the others are struck. -/
def aftermath : List GraceOp :=
  [.setState 1 5 .dead,.look 0,.look 0,.strike 2 0,.look 0,.strike 3 0,.look 1,.strike 4 1]

/-- Both goroutines are done, and the worker, which was only blocked by the kill, is dead. -/
theorem killBranch_forces_queen : ∃ t u, household.graceStep (.killBranch 0 visitHousehold.order 2) = some t ∧
    exec graceStep aftermath t = some u ∧ (t.registry.get 3).map Process.state = some .blocked ∧
    ¬u.registry.Alive 3 := by
  obtain ⟨t,ht⟩ : ∃ t, household.graceStep (.killBranch 0 visitHousehold.order 2) = some t := ⟨_,rfl⟩
  obtain ⟨u,hu⟩ : ∃ u, exec graceStep aftermath t = some u := by
    cases ht
    exact ⟨_,rfl⟩
  obtain ⟨-,-,hdone⟩ := killBranch_forces (s := household) visitHousehold
    royalHousehold_ordered.graded.acyclic rfl ht (Run.of_exec hu)
  refine ⟨t,u,ht,hu,?_,(hdone ?_ 3 (.single ⟨_,rfl,by decide⟩)).2 ?_⟩
  · cases ht
    rfl
  · intro i g _ hlt hg
    cases ht
    cases hu
    have hi : i = 0 ∨ i = 1 := by
      change i < 2 at hlt
      omega
    rcases hi with rfl | rfl
    · obtain rfl := Option.some.inj hg
      exact ⟨rfl,rfl⟩
    · obtain rfl := Option.some.inj hg
      exact ⟨rfl,rfl⟩
  · intro e he hrevives
    have hlabel := label_mem_of_mem_transitions he
    simp only [aftermath,List.mem_cons,List.not_mem_nil,or_false] at hlabel
    rcases hlabel with h | h | h | h | h | h | h | h <;> rw [h] at hrevives
    · exact hrevives.2 rfl
    all_goals exact hrevives

end GraceState
end Registry
end HiveKernel
