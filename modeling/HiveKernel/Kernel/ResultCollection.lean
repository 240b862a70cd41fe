import HiveKernel.Kernel.King
import HiveKernel.Lib.Run
import HiveKernel.Lib.TicketStore

/-! The results of tasks: recorded when a task completes, collected by whoever waits for it or
collapses its branch. Each access to the results is a step of its own; between the look at a
result and the filler for a missing one, a completion can come in. -/
namespace HiveKernel
open Lib

/-- A call in progress, by what it does next. -/
inductive ResultCall
  /-- `CompleteTask` records its result. -/
  | completing (result : TaskResult) (ppid : ℕ)
  /-- `CompleteTask` makes the process a zombie. -/
  | ending (pid ppid : ℕ)
  /-- `CollapseBranch` turns to the next child. -/
  | collapsing (children : List ℕ)
  /-- `CollapseBranch` kills a child, its descendants first. -/
  | killing (descendants : List ℕ) (child : ℕ) (rest : List ℕ)
  /-- `CollapseBranch` looks whether there is a result. -/
  | peeking (child : ℕ) (rest : List ℕ)
  /-- `CollapseBranch` puts in a synthetic result. -/
  | inserting (child : ℕ) (rest : List ℕ)
  /-- `CollapseBranch` takes the result of a child. -/
  | taking (child : ℕ) (rest : List ℕ)
  /-- `WaitChild` looks at the state of the child. -/
  | waiting (target : ℕ)
  /-- `WaitChild` takes the result. -/
  | collecting (target : ℕ)

namespace ResultCall

/-- The child a synthetic result is about to be put in for. -/
def inserts : ResultCall → Option ℕ
  | inserting child _ => some child
  | _ => none

/-- The process a result is about to be recorded for. -/
def records : ResultCall → Option ℕ
  | completing result _ => some result.pid
  | _ => none

end ResultCall

structure ResultBoard where
  registry : Registry
  results : TicketStore ℕ TaskResult
  calls : Table ℕ ResultCall

/-- A step: a call begins, goes on, or stops waiting. The orders of the loops, and the order that
the descendants of a child are sorted into, are given with it. -/
inductive ResultOp
  | completeTask (i : ℕ) (now : ℤ) (pid : ℕ) (exitCode : ℤ) (output : List UInt8) (errMsg : String)
  | collapseBranch (i : ℕ) (order : List ℕ) (parentPID : ℕ)
  | waitChild (i caller target : ℕ)
  | advance (i : ℕ) (now : ℤ) (order : List ℕ → List ℕ) (sorted : List ℕ)
  | giveUp (i : ℕ)

namespace ResultBoard

def start (registry : Registry) : ResultBoard := ⟨registry,.empty,.empty⟩

/-- The result of a child that was killed before it completed. -/
def synthetic (now : ℤ) (pid : ℕ) : TaskResult := ⟨pid,-1,[],"branch collapsed",0,now⟩

/-- Terminate a process and declare it dead. -/
def terminate (r : Registry) (now : ℤ) (pid : ℕ) : Registry :=
  (r.send now pid .sigterm).setState now pid .dead

def IsDead (r : Registry) (pid : ℕ) : Prop := ∃ p ∈ r.get pid, p.state = .dead

instance (r : Registry) (pid : ℕ) : Decidable (IsDead r pid) :=
  inferInstanceAs (Decidable (∃ p ∈ r.get pid, p.state = .dead))

/-- The next child of a collapse: a dead one has its result taken, any other is killed. -/
def nextChild (s : ResultBoard) (i : ℕ) (order : List ℕ → List ℕ) (sorted : List ℕ) (child : ℕ)
    (rest : List ℕ) : Option ResultBoard :=
  if IsDead s.registry child then some { s with calls := s.calls.set i (.taking child rest) }
  else match s.registry.getDescendants order child with
    | none => none
    | some descendants =>
      if sorted.Perm (descendants.map Process.pid) then
        some { s with calls := s.calls.set i (.killing sorted child rest) }
      else none

/-- A wait ends if the child is gone, and goes on to its result if the child has ended. -/
def look (s : ResultBoard) (i target : ℕ) : ResultBoard :=
  match s.registry.get target with
  | none => { s with calls := s.calls.erase i }
  | some p => if p.state.Terminal then { s with calls := s.calls.set i (.collecting target) } else s

def advance (s : ResultBoard) (i : ℕ) (now : ℤ) (order : List ℕ → List ℕ) (sorted : List ℕ) :
    Option ResultBoard :=
  match s.calls.get i with
  | none => none
  | some (.completing result ppid) => some { s with
      results := s.results.deposit result.pid result
      calls := s.calls.set i (.ending result.pid ppid) }
  | some (.ending pid ppid) => some { s with
      registry := (s.registry.setState now pid .zombie).send now ppid .sigchld
      calls := s.calls.erase i }
  | some (.collapsing []) => some { s with calls := s.calls.erase i }
  | some (.collapsing (child::rest)) => s.nextChild i order sorted child rest
  | some (.killing (d::ds) child rest) => some { s with
      registry := if IsDead s.registry d then s.registry else terminate s.registry now d
      calls := s.calls.set i (.killing ds child rest) }
  | some (.killing [] child rest) => some { s with
      registry := terminate s.registry now child
      calls := s.calls.set i (.peeking child rest) }
  | some (.peeking child rest) =>
    if (s.results.slots.get child).isSome then
      some { s with calls := s.calls.set i (.taking child rest) }
    else some { s with calls := s.calls.set i (.inserting child rest) }
  | some (.inserting child rest) => some { s with
      results := s.results.fill child (synthetic now child)
      calls := s.calls.set i (.taking child rest) }
  | some (.taking child rest) => some { s with
      results := s.results.take child
      calls := s.calls.set i (.collapsing rest) }
  | some (.waiting target) => some (s.look i target)
  | some (.collecting target) => some { s with
      results := s.results.take target
      calls := s.calls.erase i }

def step (s : ResultBoard) : ResultOp → Option ResultBoard
  | .completeTask i now pid exitCode output errMsg =>
    if (s.calls.get i).isSome then none
    else match s.registry.get pid with
      | none => some s
      | some proc =>
        let result : TaskResult := ⟨pid,exitCode,output,errMsg,now-proc.startedAt,now⟩
        some { s with calls := s.calls.set i (.completing result proc.ppid) }
  | .collapseBranch i order parentPID =>
    if (s.calls.get i).isSome ∨ ¬s.registry.Enumerates order then none
    else
      let children := s.registry.getChildren order parentPID
      some { s with calls := s.calls.set i (.collapsing (children.map Process.pid)) }
  | .waitChild i caller target =>
    if (s.calls.get i).isSome then none
    else match s.registry.get target with
      | none => some s
      | some proc =>
        if proc.ppid ≠ caller then some s
        else some { s with calls := s.calls.set i (.waiting target) }
  | .advance i now order sorted => s.advance i now order sorted
  | .giveUp i => match s.calls.get i with
    | some (.waiting _) => some { s with calls := s.calls.erase i }
    | _ => none

/-- A step that leaves the results alone: no call gets to insert a filler, unless a collapse has
just found no result. -/
def Quiet (s t : ResultBoard) : Prop :=
  t.results = s.results ∧ ∀ j call c, t.calls.get j = some call → call.inserts = some c →
    s.calls.get j = some call ∨ s.results.slots.get c = none

/-- A step on the results, by call `i`, which inserts no filler next. -/
def Accesses (s t : ResultBoard) (i : ℕ) (results : TicketStore ℕ TaskResult) : Prop :=
  t.results = results ∧ ∀ j call c, t.calls.get j = some call → call.inserts = some c →
    j ≠ i ∧ s.calls.get j = some call

variable {s t : ResultBoard} {op : ResultOp}

lemma Quiet.of_set {s : ResultBoard} {registry : Registry} {i : ℕ} {call : ResultCall}
    (hcall : call.inserts = none) :
    Quiet s { s with registry := registry, calls := s.calls.set i call } := by
  refine ⟨rfl,fun j call' c hj hc => ?_⟩
  rcases Table.get_set_some hj with ⟨-,rfl⟩ | ⟨-,hj⟩
  · rw [hcall] at hc
    cases hc
  · exact .inl hj

lemma Quiet.of_erase (s : ResultBoard) (registry : Registry) (i : ℕ) :
    Quiet s { s with registry := registry, calls := s.calls.erase i } :=
  ⟨rfl,fun _ _ _ hj _ => .inl (Table.get_erase_some hj).2⟩

lemma Quiet.refl (s : ResultBoard) : Quiet s s := ⟨rfl,fun _ _ _ hj _ => .inl hj⟩

lemma Accesses.of_set {s : ResultBoard} {i : ℕ} {call : ResultCall} {results : TicketStore ℕ TaskResult}
    (hcall : call.inserts = none) :
    Accesses s { s with results := results, calls := s.calls.set i call } i results := by
  refine ⟨rfl,fun j call' c hj hc => ?_⟩
  rcases Table.get_set_some hj with ⟨-,rfl⟩ | ⟨hji,hj⟩
  · rw [hcall] at hc
    cases hc
  · exact ⟨hji,hj⟩

/-- Every step is quiet, or it records, fills or takes one result. -/
theorem advance_cases {i : ℕ} {now : ℤ} {order : List ℕ → List ℕ} {sorted : List ℕ}
    (h : s.advance i now order sorted = some t) :
    Quiet s t ∨
    (∃ result ppid, s.calls.get i = some (.completing result ppid) ∧
      Accesses s t i (s.results.deposit result.pid result)) ∨
    (∃ child rest, s.calls.get i = some (.inserting child rest) ∧
      Accesses s t i (s.results.fill child (synthetic now child))) ∨
    ∃ child, Accesses s t i (s.results.take child) := by
  unfold advance at h
  cases hi : s.calls.get i with
  | none => simp [hi] at h
  | some call =>
    cases call with
    | completing result ppid =>
      simp only [hi,Option.some.injEq] at h
      subst h
      exact .inr (.inl ⟨result,ppid,rfl,.of_set rfl⟩)
    | ending pid ppid =>
      simp only [hi,Option.some.injEq] at h
      subst h
      exact .inl (.of_erase s _ i)
    | collapsing children =>
      cases children with
      | nil =>
        simp only [hi,Option.some.injEq] at h
        subst h
        exact .inl (.of_erase s _ i)
      | cons child rest =>
        simp only [hi,nextChild] at h
        left
        split_ifs at h with hdead
        · cases h
          exact .of_set rfl
        · cases hd : s.registry.getDescendants order child with
          | none => simp [hd] at h
          | some descendants =>
            simp only [hd] at h
            split_ifs at h
            cases h
            exact .of_set rfl
    | killing descendants child rest =>
      left
      cases descendants with
      | nil =>
        simp only [hi,Option.some.injEq] at h
        subst h
        exact .of_set rfl
      | cons d ds =>
        simp only [hi,Option.some.injEq] at h
        subst h
        exact .of_set rfl
    | peeking child rest =>
      simp only [hi] at h
      left
      split_ifs at h with hr
      · cases h
        exact .of_set rfl
      · cases h
        refine ⟨rfl,fun j call c hj hc => ?_⟩
        rcases Table.get_set_some hj with ⟨-,rfl⟩ | ⟨-,hj⟩
        · simp only [ResultCall.inserts,Option.some.injEq] at hc
          subst hc
          exact .inr (by simpa using hr)
        · exact .inl hj
    | inserting child rest =>
      simp only [hi,Option.some.injEq] at h
      subst h
      exact .inr (.inr (.inl ⟨child,rest,rfl,.of_set rfl⟩))
    | taking child rest =>
      simp only [hi,Option.some.injEq] at h
      subst h
      exact .inr (.inr (.inr ⟨child,.of_set rfl⟩))
    | waiting target =>
      simp only [hi,Option.some.injEq,look] at h
      subst h
      left
      cases s.registry.get target with
      | none => exact .of_erase s _ i
      | some p =>
        simp only
        split_ifs
        · exact .of_set rfl
        · exact .refl s
    | collecting target =>
      simp only [hi,Option.some.injEq] at h
      subst h
      refine .inr (.inr (.inr ⟨target,rfl,fun j call c hj _ => ?_⟩))
      exact Table.get_erase_some hj

/-- The steps that begin or end a call are quiet. -/
lemma quiet_of_not_advance (hop : ∀ i now order sorted, op ≠ .advance i now order sorted)
    (h : s.step op = some t) : Quiet s t := by
  cases op with
  | completeTask i now pid exitCode output errMsg =>
    simp only [step] at h
    split_ifs at h
    cases hp : s.registry.get pid with
    | none =>
      simp only [hp,Option.some.injEq] at h
      exact h ▸ .refl s
    | some proc =>
      simp only [hp,Option.some.injEq] at h
      exact h ▸ .of_set rfl
  | collapseBranch i order parentPID =>
    simp only [step] at h
    split_ifs at h
    cases h
    exact .of_set rfl
  | waitChild i caller target =>
    simp only [step] at h
    split_ifs at h
    cases hp : s.registry.get target with
    | none =>
      simp only [hp,Option.some.injEq] at h
      exact h ▸ .refl s
    | some proc =>
      simp only [hp] at h
      split_ifs at h
      · cases h
        exact .refl s
      · cases h
        exact .of_set rfl
  | advance i now order sorted => exact absurd rfl (hop i now order sorted)
  | giveUp i =>
    simp only [step] at h
    cases hi : s.calls.get i with
    | none => simp [hi] at h
    | some call =>
      cases call with
      | waiting target =>
        simp only [hi,Option.some.injEq] at h
        exact h ▸ .of_erase s _ i
      | _ => simp [hi] at h

/-- A filler is put over a result that was recorded. -/
def Overwrites (s : ResultBoard) : ResultOp → Prop
  | .advance i _ _ _ => ∃ child ∈ (s.calls.get i).bind ResultCall.inserts, s.results.Holds child
  | _ => False

/-- No result is recorded for a child between the look at it and the filler for it. -/
def Undisturbed (s : ResultBoard) : ResultOp → Prop
  | .advance i _ _ _ => ∀ call ∈ s.calls.get i, ∀ pid ∈ call.records,
      ∀ j call', s.calls.get j = some call' → call'.inserts ≠ some pid
  | _ => True

instance (s : ResultBoard) (op : ResultOp) : Decidable (s.Undisturbed op) :=
  match op with
  | .advance i _ _ _ => inferInstanceAs (Decidable (∀ call ∈ s.calls.get i, ∀ pid ∈ call.records,
      ∀ j call', s.calls.get j = some call' → call'.inserts ≠ some pid))
  | .completeTask .. | .collapseBranch .. | .waitChild .. | .giveUp _ => .isTrue trivial

lemma sound_step (h : s.results.Sound) (hs : s.step op = some t) : t.results.Sound := by
  cases op with
  | advance i now order sorted =>
    rcases advance_cases hs with hq | ⟨result,ppid,-,ha⟩ | ⟨child,rest,-,ha⟩ | ⟨child,ha⟩
    · rw [hq.1]
      exact h
    · rw [ha.1]
      exact h.deposit _ _
    · rw [ha.1]
      exact h.fill _ _
    · rw [ha.1]
      exact h.take _
  | _ =>
    rw [(quiet_of_not_advance (by simp) hs).1]
    exact h

/-- Where a filler is about to be put in, nothing is recorded. -/
def Guarded (s : ResultBoard) : Prop :=
  ∀ j call c, s.calls.get j = some call → call.inserts = some c → ¬s.results.Holds c

lemma Guarded.of_quiet (h : s.Guarded) (hq : Quiet s t) : t.Guarded := by
  intro j call c hj hc
  rw [hq.1]
  rcases hq.2 j call c hj hc with hold | hnone
  · exact h j call c hold hc
  · rintro ⟨v,n,hv⟩
    rw [hnone] at hv
    cases hv

theorem guarded_step (h : s.Guarded) (hop : s.Undisturbed op) (hs : s.step op = some t) : t.Guarded := by
  cases op with
  | advance i now order sorted =>
    rcases advance_cases hs with hq | ⟨result,ppid,hi,ha⟩ | ⟨child,rest,-,ha⟩ | ⟨child,ha⟩
    · exact h.of_quiet hq
    · intro j call c hj hc
      obtain ⟨-,hold⟩ := ha.2 j call c hj hc
      have hne : c ≠ result.pid := by
        rintro rfl
        exact hop _ hi _ rfl j call hold hc
      rintro ⟨v,n,hv⟩
      rw [ha.1] at hv
      rcases Table.get_set_some hv with ⟨heq,-⟩ | ⟨-,hv⟩
      · exact hne heq
      · exact h j call c hold hc ⟨v,n,hv⟩
    · intro j call c hj hc
      rintro ⟨v,n,hv⟩
      rw [ha.1] at hv
      rcases Table.get_set_some hv with ⟨-,heq⟩ | ⟨-,hv⟩
      · cases heq
      · exact h j call c (ha.2 j call c hj hc).2 hc ⟨v,n,hv⟩
    · intro j call c hj hc
      rintro ⟨v,n,hv⟩
      rw [ha.1] at hv
      exact h j call c (ha.2 j call c hj hc).2 hc ⟨v,n,(Table.get_erase_some hv).2⟩
  | _ => exact h.of_quiet (quiet_of_not_advance (by simp) hs)

/-- Whatever the schedule, a recorded result is taken by at most one call; and none is overwritten
by a filler if no completion comes in between the look and the filler. -/
theorem collected_once_of_run {registry : Registry} {trace : List (Transition ResultBoard ResultOp)}
    (run : Run step (start registry) trace s) :
    s.results.taken.Nodup ∧
    ((∀ e ∈ trace, e.source.Undisturbed e.label) → ∀ e ∈ trace, ¬e.source.Overwrites e.label) := by
  constructor
  · have hsound := run.invariant (fun s op t (h : s.results.Sound) hs => sound_step h hs)
      TicketStore.sound_empty
    exact hsound.2.taken
  · intro hops e he
    have hstart : (start registry).Guarded := by
      intro j call c hj
      cases hj
    obtain ⟨hguard,-⟩ := (run.invariant_of_allowed
      (fun s op t (h : s.Guarded) hop hs => guarded_step h hop hs) hstart hops).1 e he
    intro hover
    cases hlabel : e.label with
    | advance i now order sorted =>
      rw [hlabel] at hover
      obtain ⟨child,hchild,hholds⟩ := hover
      obtain ⟨call,hcall,hins⟩ := Option.bind_eq_some_iff.mp hchild
      exact hguard i call child hcall hins hholds
    | _ =>
      rw [hlabel] at hover
      exact hover

/-- The kernel and a worker below it, for examples. -/
def kernelAndWorker : Registry :=
  (Registry.new.spawnKernel 0 "king" "root" "vps1").2.register 0
    (Registry.child { parentPID := 1, name := "worker", role := .worker, cognitiveTier := .operational } none)

/-- One step of call `i` at time zero, with loops in the order of the PIDs. -/
def goOn (i : ℕ) : ResultOp := .advance i 0 (fun _ => [1,2]) []

/-- The worker completes, the kernel collapses its branch, and a wait comes too late. -/
def completeThenCollapse : List ResultOp :=
  [.waitChild 2 1 2,.completeTask 0 0 2 7 [] "",goOn 0,goOn 0,.collapseBranch 1 [1,2] 1,goOn 1,goOn 1,goOn 1,
    goOn 1,goOn 2,goOn 2]

theorem collected_once_of_run_completeThenCollapse :
    ∃ s, exec step completeThenCollapse (start kernelAndWorker) = some s ∧ s.results.taken = [0] ∧
      s.results.taken.Nodup ∧
      ∀ e ∈ transitions step completeThenCollapse (start kernelAndWorker), ¬e.source.Overwrites e.label := by
  obtain ⟨s,hs,htaken⟩ : ∃ s, exec step completeThenCollapse (start kernelAndWorker) = some s ∧
      s.results.taken = [0] := ⟨_,rfl,rfl⟩
  have h := collected_once_of_run (.of_exec hs)
  exact ⟨s,hs,htaken,h.1,h.2 (by decide)⟩

/-- The worker completes right after the collapse has found no result, and its result is lost. -/
theorem collapse_overwrites_result : ¬ ∀ (registry : Registry)
    (trace : List (Transition ResultBoard ResultOp)) (s : ResultBoard),
    Run step (start registry) trace s → ∀ e ∈ trace, ¬e.source.Overwrites e.label := by
  intro h
  let ops : List ResultOp := [.completeTask 0 0 2 7 [] "",.collapseBranch 1 [1,2] 1,goOn 1,goOn 1,goOn 1,
    goOn 0]
  obtain ⟨s,t,hs,ht,hover⟩ : ∃ s t, exec step ops (start kernelAndWorker) = some s ∧
      s.step (goOn 1) = some t ∧ s.Overwrites (goOn 1) := ⟨_,_,rfl,rfl,2,rfl,_,_,rfl⟩
  exact h kernelAndWorker _ t ((Run.of_exec hs).snoc ht) ⟨s,goOn 1,t⟩ (by simp) hover

end ResultBoard
end HiveKernel
