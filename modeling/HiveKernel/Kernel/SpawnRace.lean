import HiveKernel.Kernel.King
import HiveKernel.Lib.Run

/-! Concurrent spawns. `SpawnChild` takes the locks of the process table and of the groups one after
the other, and what it found out under one may be out of date under the next: other spawns register
processes in between, and the supervisor moves and removes them. -/
namespace HiveKernel
open Lib

/-- A call of `SpawnChild` in progress, by what it does next. -/
inductive SpawnCall
  /-- Look up the parent. -/
  | looking (req : SpawnRequest)
  /-- Check the request against the parent, of which the call holds a pointer, and count its children. -/
  | validating (req : SpawnRequest) (parent : Option Process)
  | registering (req : SpawnRequest) (parent : Option Process)
  | funding (req : SpawnRequest) (proc : Process)
  /-- Look for the group of the parent. -/
  | finding (req : SpawnRequest) (proc : Process)
  /-- Add the process to that group. -/
  | joining (req : SpawnRequest) (proc : Process) (group : String)
  /-- Start the runtime and pass the trace on. -/
  | launching (req : SpawnRequest) (proc : Process)
  | returned (result : Except String Process)

structure SpawnBoard where
  king : King
  calls : Table ℕ SpawnCall

/-- A step: a call begins or goes on; a process changes its state; the supervisor moves a child of a
zombie or removes the zombie; a group is created. -/
inductive SpawnOp
  | spawnChild (i : ℕ) (req : SpawnRequest)
  | advance (i : ℕ) (now : ℤ) (launch : Except String String)
  | setState (now : ℤ) (pid : ℕ) (state : ProcessState)
  | adopt (now : ℤ) (zombie child : ℕ)
  | reap (zombie : ℕ)
  | createGroup (order : List ℕ → List ℕ) (name : String) (rootPID : ℕ) (maxTokens : UInt64) (maxProcs : ℤ)

namespace SpawnBoard

def start (king : King) : SpawnBoard := ⟨king,.empty⟩

/-- Go on with a call. -/
def goOn (s : SpawnBoard) (i : ℕ) (call : SpawnCall) : SpawnBoard := { s with calls := s.calls.set i call }

def setKing (s : SpawnBoard) (king : King) : SpawnBoard := { s with king := king }

/-- The parent as the pointer shows it now; an entry that was removed stays as it was. -/
def current (r : Registry) (parent : Option Process) : Option Process :=
  parent.map (fun p => (r.get p.pid).getD p)

/-- The next step of a call. -/
def advance (s : SpawnBoard) (i : ℕ) (now : ℤ) (launch : Except String String) : Option SpawnBoard :=
  match s.calls.get i with
  | none => none
  | some (.looking req) => match s.king.registry.spawnParent req.parentPID with
    | .error e => some (s.goOn i (.returned (.error e)))
    | .ok parent => some (s.goOn i (.validating req parent))
  | some (.validating req parent) =>
    match withContext "spawn: validation failed: "
        (s.king.registry.validate req (current s.king.registry parent)) with
    | .error e => some (s.goOn i (.returned (.error e)))
    | .ok _ => some (s.goOn i (.registering req parent))
  | some (.registering req parent) =>
    let r := s.king.registry
    let proc := r.stamped now (Registry.child req parent)
    some ((s.setKing { s.king with registry := r.register now (Registry.child req parent) }).goOn i
      (.funding req proc))
  | some (.funding req proc) => match King.fund s.king.budget req proc.pid with
    | .error e => some ((s.setKing { s.king with registry := s.king.registry.remove proc.pid }).goOn i
        (.returned (.error s!"spawn denied: {e}")))
    | .ok budget => some ((s.setKing { s.king with budget := budget }).goOn i (.finding req proc))
  | some (.finding req proc) => match s.king.cgroups.getByPID req.parentPID with
    | none => some (s.goOn i (.launching req proc))
    | some g => some (s.goOn i (.joining req proc g.name))
  | some (.joining req proc group) =>
    -- the error is discarded
    let cgroups := match s.king.cgroups.addProcess group proc.pid with
      | .ok cgroups => cgroups
      | .error _ => s.king.cgroups
    some ((s.setKing { s.king with cgroups := cgroups }).goOn i (.launching req proc))
  | some (.launching req proc) =>
    let (result,king) := s.king.startChild req proc launch
    some ((s.setKing king).goOn i (.returned result))
  | some (.returned _) => none

def step (s : SpawnBoard) : SpawnOp → Option SpawnBoard
  | .spawnChild i req =>
    if (s.calls.get i).isSome then none
    else match s.king.admission req with
      | .error e => some (s.goOn i (.returned (.error e)))
      | .ok _ => some (s.goOn i (.looking req))
  | .advance i now launch => s.advance i now launch
  | .setState now pid state =>
    some (s.setKing { s.king with registry := s.king.registry.setState now pid state })
  | .adopt now zombie child => match s.king.registry.get zombie,s.king.registry.get child with
    | some z,some c =>
      if z.state = .zombie ∧ Registry.IsChild c zombie ∧ c.state ≠ .dead then
        some (s.setKing { s.king with registry := s.king.registry.tryReparent now child z.ppid })
      else none
    | _,_ => none
  | .reap zombie => match s.king.registry.get zombie with
    | some z => if z.state = .zombie then
        some (s.setKing { s.king with registry := s.king.registry.remove zombie })
      else none
    | none => none
  | .createGroup order name rootPID maxTokens maxProcs =>
    (s.king.cgroups.create s.king.registry order name rootPID maxTokens maxProcs).map fun
      | .error _ => s
      | .ok (_,cgroups) => s.setKing { s.king with cgroups := cgroups }

variable {s s' t : SpawnBoard} {i : ℕ} {now : ℤ} {launch : Except String String} {req : SpawnRequest}

/-- Every way a call can go on. -/
inductive Advanced (s : SpawnBoard) (i : ℕ) (now : ℤ) (launch : Except String String) : SpawnBoard → Prop
  | notFound {req : SpawnRequest} (e : String) (stage : s.calls.get i = some (.looking req)) :
      Advanced s i now launch (s.goOn i (.returned (.error e)))
  | found {req : SpawnRequest} {parent : Option Process} (stage : s.calls.get i = some (.looking req))
      (hparent : s.king.registry.spawnParent req.parentPID = .ok parent) :
      Advanced s i now launch (s.goOn i (.validating req parent))
  | invalid {req : SpawnRequest} {parent : Option Process} (e : String)
      (stage : s.calls.get i = some (.validating req parent)) :
      Advanced s i now launch (s.goOn i (.returned (.error e)))
  | validated {req : SpawnRequest} {parent : Option Process}
      (stage : s.calls.get i = some (.validating req parent))
      (hvalid : s.king.registry.validate req (current s.king.registry parent) = .ok ()) :
      Advanced s i now launch (s.goOn i (.registering req parent))
  | registered {req : SpawnRequest} {parent : Option Process}
      (stage : s.calls.get i = some (.registering req parent)) :
      Advanced s i now launch ((s.setKing { s.king with
        registry := s.king.registry.register now (Registry.child req parent) }).goOn i
          (.funding req (s.king.registry.stamped now (Registry.child req parent))))
  | unfunded {req : SpawnRequest} {proc : Process} (e : String)
      (stage : s.calls.get i = some (.funding req proc)) :
      Advanced s i now launch ((s.setKing { s.king with
        registry := s.king.registry.remove proc.pid }).goOn i (.returned (.error e)))
  | funded {req : SpawnRequest} {proc : Process} (budget : BudgetManager)
      (stage : s.calls.get i = some (.funding req proc)) :
      Advanced s i now launch ((s.setKing { s.king with budget := budget }).goOn i (.finding req proc))
  | ungrouped {req : SpawnRequest} {proc : Process} (stage : s.calls.get i = some (.finding req proc))
      (hgroup : s.king.cgroups.getByPID req.parentPID = none) :
      Advanced s i now launch (s.goOn i (.launching req proc))
  | grouped {req : SpawnRequest} {proc : Process} {g : CGroup}
      (stage : s.calls.get i = some (.finding req proc))
      (hgroup : s.king.cgroups.getByPID req.parentPID = some g) :
      Advanced s i now launch (s.goOn i (.joining req proc g.name))
  | joined {req : SpawnRequest} {proc : Process} {group : String} {cgroups : CGroupManager}
      (stage : s.calls.get i = some (.joining req proc group))
      (hadd : s.king.cgroups.addProcess group proc.pid = .ok cgroups) :
      Advanced s i now launch ((s.setKing { s.king with cgroups := cgroups }).goOn i (.launching req proc))
  | escaped {req : SpawnRequest} {proc : Process} {group e : String}
      (stage : s.calls.get i = some (.joining req proc group))
      (hadd : s.king.cgroups.addProcess group proc.pid = .error e) :
      Advanced s i now launch (s.goOn i (.launching req proc))
  | launched {req : SpawnRequest} {proc : Process} (stage : s.calls.get i = some (.launching req proc)) :
      Advanced s i now launch ((s.setKing (s.king.startChild req proc launch).2).goOn i
        (.returned (s.king.startChild req proc launch).1))

theorem advanced (h : s.advance i now launch = some s') : Advanced s i now launch s' := by
  unfold advance at h
  split at h
  next => cases h
  next req stage =>
    cases hp : s.king.registry.spawnParent req.parentPID with
    | error e =>
      simp only [hp] at h
      cases h
      exact .notFound e stage
    | ok parent =>
      simp only [hp] at h
      cases h
      exact .found stage hp
  next req parent stage =>
    cases hv : s.king.registry.validate req (current s.king.registry parent) with
    | error e =>
      simp only [hv] at h
      cases h
      exact .invalid _ stage
    | ok u =>
      simp only [hv] at h
      cases h
      exact .validated stage hv
  next req parent stage =>
    cases h
    exact .registered stage
  next req proc stage =>
    cases hf : King.fund s.king.budget req proc.pid with
    | error e =>
      simp only [hf] at h
      cases h
      exact .unfunded _ stage
    | ok budget =>
      simp only [hf] at h
      cases h
      exact .funded budget stage
  next req proc stage =>
    cases hg : s.king.cgroups.getByPID req.parentPID with
    | none =>
      simp only [hg] at h
      cases h
      exact .ungrouped stage hg
    | some g =>
      simp only [hg] at h
      cases h
      exact .grouped stage hg
  next req proc group stage =>
    cases ha : s.king.cgroups.addProcess group proc.pid with
    | error e =>
      simp only [ha] at h
      cases h
      exact .escaped stage ha
    | ok cgroups =>
      simp only [ha] at h
      cases h
      exact .joined stage ha
  next req proc stage =>
    cases h
    exact .launched stage
  next => cases h

/-- The start of the runtime leaves the groups and the counter of PIDs alone. -/
lemma startChild_frame (k : King) (req : SpawnRequest) (proc : Process) (launch : Except String String) :
    (k.startChild req proc launch).2.cgroups = k.cgroups ∧
      (k.startChild req proc launch).2.registry.nextPID = k.registry.nextPID ∧
      ∀ p, (k.startChild req proc launch).1 = .ok p → p.pid = proc.pid := by
  have htrace : ∀ (k : King) (parentPID pid : ℕ), (k.passTrace parentPID pid).cgroups = k.cgroups := by
    intro k parentPID pid
    simp only [King.passTrace]
    split_ifs <;> rfl
  unfold King.startChild King.launchChild
  cases k.runtime with
  | none =>
    simp only [htrace,King.passTrace_registry,Except.ok.injEq,forall_eq',and_self]
  | some manager =>
    by_cases himg : req.runtimeImage = ""
    · simp only [if_pos himg,htrace,King.passTrace_registry,Except.ok.injEq,forall_eq',and_self]
    · simp only [if_neg himg]
      cases manager.startRuntime { proc with runtimeAddr := req.runtimeImage } req.runtimeType launch with
      | error e =>
        refine ⟨rfl,?_,fun p hp => by cases hp⟩
        simp only [Registry.nextPID_remove,King.setAddr,Registry.nextPID_modify]
      | ok q =>
        simp only [htrace,King.passTrace_registry,King.setAddr,Registry.nextPID_modify,Except.ok.injEq,
          forall_eq',and_self]

@[simp] lemma calls_goOn (s : SpawnBoard) (i : ℕ) (call : SpawnCall) :
    (s.goOn i call).calls.get i = some call := Table.get_set_self _ _ _

/-- Some steps of one call lead from one state to the other. -/
def Goes (i : ℕ) (now : ℤ) (launch : Except String String) (s s' : SpawnBoard) : Prop :=
  ∃ n, exec step (List.replicate n (.advance i now launch)) s = some s'

lemma Goes.refl (s : SpawnBoard) : Goes i now launch s s := ⟨0,rfl⟩

lemma Goes.head (h : s.advance i now launch = some t) (hg : Goes i now launch t s') :
    Goes i now launch s s' := by
  obtain ⟨n,hn⟩ := hg
  refine ⟨n+1,?_⟩
  rw [List.replicate_succ]
  change (s.advance i now launch).bind _ = _
  rw [h]
  exact hn

/-- A step of a call. -/
def go (i : ℕ) : SpawnOp := .advance i 0 (.ok "")

/-- All steps of a call that is not disturbed and finds no group. -/
def alone (i : ℕ) (req : SpawnRequest) : List SpawnOp := .spawnChild i req::List.replicate 6 (go i)

/-- The call has returned this, and the kernel is left in this state. -/
def Finished (s : SpawnBoard) (i : ℕ) (outcome : Except String Process × King) : Prop :=
  s.king = outcome.2 ∧ s.calls.get i = some (.returned outcome.1)

lemma finishes_launching {proc : Process} (hcall : s.calls.get i = some (.launching req proc)) :
    ∃ s', Goes i now launch s s' ∧ s'.Finished i (s.king.startChild req proc launch) := by
  refine ⟨(s.setKing (s.king.startChild req proc launch).2).goOn i
    (.returned (s.king.startChild req proc launch).1),Goes.head ?_ (.refl _),rfl,calls_goOn _ _ _⟩
  simp only [advance,hcall]

lemma finishes_finding {proc : Process} (hcall : s.calls.get i = some (.finding req proc)) :
    ∃ s', Goes i now launch s s' ∧ s'.Finished i (King.startChild
      { s.king with cgroups := King.joinGroup s.king.cgroups req.parentPID proc.pid } req proc launch) := by
  cases hg : s.king.cgroups.getByPID req.parentPID with
  | none =>
    obtain ⟨s',hgoes,hfin⟩ := finishes_launching (calls_goOn s i (.launching req proc))
    refine ⟨s',Goes.head ?_ hgoes,?_⟩
    · simp only [advance,hcall,hg]
    · simp only [King.joinGroup,hg]
      exact hfin
  | some g =>
    let cgroups := match s.king.cgroups.addProcess g.name proc.pid with
      | .ok cgroups => cgroups
      | .error _ => s.king.cgroups
    have hjoin : King.joinGroup s.king.cgroups req.parentPID proc.pid = cgroups := by
      simp only [King.joinGroup,hg]
      rfl
    let s₁ := s.goOn i (.joining req proc g.name)
    obtain ⟨s',hgoes,hfin⟩ := finishes_launching
      (calls_goOn (s₁.setKing { s.king with cgroups := cgroups }) i (.launching req proc))
    refine ⟨s',Goes.head (t := s₁) ?_ (Goes.head ?_ hgoes),?_⟩
    · simp only [advance,hcall,hg]
      rfl
    · simp only [advance,s₁,calls_goOn]
      rfl
    · rw [hjoin]
      exact hfin

lemma finishes_validating {parent : Option Process} (hcall : s.calls.get i = some (.validating req parent))
    (hcurrent : current s.king.registry parent = parent)
    (hparent : s.king.registry.spawnParent req.parentPID = .ok parent)
    (hadm : s.king.admission req = .ok ()) :
    ∃ s', Goes i now launch s s' ∧ s'.Finished i (s.king.spawnChild now launch req) := by
  have hspawn : s.king.registry.spawn now req =
      (withContext "spawn: validation failed: " (s.king.registry.validate req parent)).map
        (fun _ => (s.king.registry.stamped now (Registry.child req parent),
          s.king.registry.register now (Registry.child req parent))) := by
    unfold Registry.spawn
    rw [hparent]
    change (withContext _ _ >>= _) = _
    cases withContext "spawn: validation failed: " (s.king.registry.validate req parent) <;> rfl
  cases hv : withContext "spawn: validation failed: " (s.king.registry.validate req parent) with
  | error e =>
    refine ⟨s.goOn i (.returned (.error e)),Goes.head ?_ (.refl _),?_⟩
    · simp only [advance,hcall,hcurrent,hv]
    · have hout : s.king.spawnChild now launch req = (.error e,s.king) := by
        simp only [King.spawnChild,hadm,hspawn,hv,Except.map]
      rw [hout]
      exact ⟨rfl,calls_goOn _ _ _⟩
  | ok u =>
    let proc := s.king.registry.stamped now (Registry.child req parent)
    let registry := s.king.registry.register now (Registry.child req parent)
    let s₁ := s.goOn i (.registering req parent)
    let s₂ := (s₁.setKing { s.king with registry := registry }).goOn i (.funding req proc)
    have hsp : s.king.registry.spawn now req = .ok (proc,registry) := by
      rw [hspawn,hv]
      rfl
    have h₁ : s.advance i now launch = some s₁ := by
      simp only [advance,hcall,hcurrent,hv]
      rfl
    have h₂ : s₁.advance i now launch = some s₂ := by
      simp only [advance,s₁,calls_goOn]
      rfl
    cases hf : King.fund s.king.budget req proc.pid with
    | error e =>
      refine ⟨(s₂.setKing { s₂.king with registry := s₂.king.registry.remove proc.pid }).goOn i
        (.returned (.error s!"spawn denied: {e}")),
        Goes.head h₁ (Goes.head h₂ (Goes.head ?_ (.refl _))),?_⟩
      · have hf' : King.fund s₂.king.budget req proc.pid = .error e := hf
        simp only [advance,s₂,calls_goOn]
        simp only [s₂] at hf'
        simp only [hf']
      · have hout : s.king.spawnChild now launch req =
            (.error s!"spawn denied: {e}",{ s.king with registry := registry.remove proc.pid }) := by
          simp only [King.spawnChild,hadm,hsp,hf]
        rw [hout]
        exact ⟨rfl,calls_goOn _ _ _⟩
    | ok budget =>
      let s₃ := (s₂.setKing { s₂.king with budget := budget }).goOn i (.finding req proc)
      have h₃ : s₂.advance i now launch = some s₃ := by
        have hf' : King.fund s₂.king.budget req proc.pid = .ok budget := hf
        simp only [advance,s₂,calls_goOn]
        simp only [s₂] at hf'
        simp only [hf']
        rfl
      obtain ⟨s',hgoes,hfin⟩ : ∃ s', Goes i now launch s₃ s' ∧ s'.Finished i (King.startChild
          { s₃.king with cgroups := King.joinGroup s₃.king.cgroups req.parentPID proc.pid } req proc launch) :=
        finishes_finding (calls_goOn _ i (.finding req proc))
      refine ⟨s',Goes.head h₁ (Goes.head h₂ (Goes.head h₃ hgoes)),?_⟩
      have hout : s.king.spawnChild now launch req = King.startChild
          { s.king with
            registry := registry
            budget := budget
            cgroups := King.joinGroup s.king.cgroups req.parentPID proc.pid } req proc launch := by
        simp only [King.spawnChild,hadm,hsp,hf]
      rw [hout]
      exact hfin

/-- Taken one after the other, the steps of a call are `spawnChild`. -/
theorem exec_spawnChild (k : King) (calls : Table ℕ SpawnCall) (hi : calls.get i = none) (now : ℤ)
    (launch : Except String String) (req : SpawnRequest) :
    ∃ n s', exec step (.spawnChild i req::List.replicate n (.advance i now launch)) ⟨k,calls⟩ = some s' ∧
      s'.Finished i (k.spawnChild now launch req) := by
  let s : SpawnBoard := ⟨k,calls⟩
  have hfirst : ∀ t, s.step (.spawnChild i req) = some t →
      (∃ s', Goes i now launch t s' ∧ s'.Finished i (k.spawnChild now launch req)) →
      ∃ n s', exec step (.spawnChild i req::List.replicate n (.advance i now launch)) s = some s' ∧
        s'.Finished i (k.spawnChild now launch req) := by
    rintro t ht ⟨s',⟨n,hn⟩,hfin⟩
    refine ⟨n,s',?_,hfin⟩
    change (s.step _).bind _ = _
    rw [ht]
    exact hn
  cases hadm : k.admission req with
  | error e =>
    refine hfirst (s.goOn i (.returned (.error e))) ?_ ⟨_,.refl _,?_⟩
    · simp only [step,s,hi,hadm,Option.isSome_none,Bool.false_eq_true,if_false]
    · have hout : k.spawnChild now launch req = (.error e,k) := by
        simp only [King.spawnChild,hadm]
      rw [hout]
      exact ⟨rfl,calls_goOn _ _ _⟩
  | ok u =>
    let s₁ := s.goOn i (.looking req)
    refine hfirst s₁ ?_ ?_
    · simp only [step,s,hi,hadm,Option.isSome_none,Bool.false_eq_true,if_false]
      rfl
    cases hp : k.registry.spawnParent req.parentPID with
    | error e =>
      refine ⟨s₁.goOn i (.returned (.error e)),Goes.head ?_ (.refl _),?_⟩
      · have hp' : s₁.king.registry.spawnParent req.parentPID = .error e := hp
        simp only [advance,s₁,calls_goOn]
        simp only [s₁] at hp'
        simp only [hp']
      · have hspawn : k.registry.spawn now req = .error e := by
          unfold Registry.spawn
          rw [hp]
          rfl
        have hout : k.spawnChild now launch req = (.error e,k) := by
          simp only [King.spawnChild,hadm,hspawn]
        rw [hout]
        exact ⟨rfl,calls_goOn _ _ _⟩
    | ok parent =>
      have hstep : s₁.advance i now launch = some (s₁.goOn i (.validating req parent)) := by
        have hp' : s₁.king.registry.spawnParent req.parentPID = .ok parent := hp
        simp only [advance,s₁,calls_goOn]
        simp only [s₁] at hp'
        simp only [hp']
      have hcurrent : current k.registry parent = parent := by
        unfold Registry.spawnParent at hp
        split_ifs at hp
        · cases hp
          rfl
        · cases hget : k.registry.get req.parentPID with
          | none => simp [hget] at hp
          | some p =>
            simp only [hget,Except.ok.injEq] at hp
            subst hp
            simp only [current,Option.map_some,Registry.get_pid hget,hget,Option.getD_some]
      obtain ⟨s',hgoes,hfin⟩ : ∃ s', Goes i now launch (s₁.goOn i (.validating req parent)) s' ∧
          s'.Finished i (k.spawnChild now launch req) :=
        finishes_validating (calls_goOn s₁ i (.validating req parent)) hcurrent hp hadm
      exact ⟨s',Goes.head hstep hgoes,hfin⟩

end SpawnBoard
end HiveKernel
