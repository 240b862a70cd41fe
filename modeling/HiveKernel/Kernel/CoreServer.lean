import HiveKernel.Kernel.King
import HiveKernel.Lib.Text

/-! The requests of the agents that change the kernel, as the gRPC service and the syscall handler
carry them out. Both front ends kill with the same code. -/
namespace HiveKernel
open Lib

/-- Skip leading spaces; a newline is an error. -/
def skipSpace : List Char → Option (List Char)
  | [] => some []
  | c::cs => if c = '\n' then none else if isSpace c then skipSpace cs else some (c::cs)

/-- Scan a 64-bit unsigned integer with the format `%d`: digits only, and whatever follows them is
ignored. -/
def scanUint (s : String) : Option ℕ := do
  let rest ← skipSpace s.toList
  let digits := rest.takeWhile Char.isDigit
  let n := digits.foldl (fun n c => 10*n+(c.toNat - '0'.toNat)) 0
  if digits ≠ [] ∧ n < 2^64 then some n else none

/-- The caller names itself in the header `x-hivekernel-pid`: `none` is a request without
metadata, otherwise the values of the header are given. -/
def callerPID (header : Option (List String)) : Except String ℕ :=
  match header with
  | none => .error "missing metadata"
  | some [] => .error "missing x-hivekernel-pid"
  | some (v::_) => match scanUint v with
    | none => .error s!"invalid pid: {v}"
    | some pid => .ok pid

namespace King

/-- Stop the runtime of one process, make it a zombie and tell its parent. -/
def killOne (now : ℤ) (k : King) (pid : ℕ) : King :=
  { k with
    runtime := k.runtime.map (fun manager => manager.stopRuntime pid)
    registry := (k.registry.setState now pid .zombie).notifyParent now pid }

def killAll (k : King) (now : ℤ) (pids : List ℕ) : King := pids.foldl (killOne now) k

/-- Whom a kill reaches, in order: the descendants first if asked for, the target last. There is
no answer if the collection of the descendants does not end. -/
def victims (r : Registry) (order : List ℕ → List ℕ) (target : ℕ) (recursive : Bool) :
    Option (List ℕ) :=
  if recursive then
    (r.getDescendants order target).map (fun descendants => descendants.map Process.pid ++ [target])
  else some [target]

/-- Kill a child of the caller, with its descendants if asked to. -/
def kill (k : King) (now : ℤ) (order : List ℕ → List ℕ) (caller target : ℕ) (recursive : Bool) :
    Option (Except String (List ℕ) × King) :=
  match k.registry.get target with
  | none => some (.error "process not found",k)
  | some t =>
    if t.ppid ≠ caller then some (.error "can only kill own children",k)
    else (victims k.registry order target recursive).map fun killed =>
      (.ok killed,k.killAll now killed)

/-- The gRPC request: the caller is whoever the header says. -/
def killChild (k : King) (now : ℤ) (order : List ℕ → List ℕ) (header : Option (List String))
    (target : ℕ) (recursive : Bool) : Option (Except String (List ℕ) × King) :=
  match callerPID header with
  | .error e => some (.error e,k)
  | .ok caller => k.kill now order caller target recursive

/-- The syscall: the caller is the process the stream belongs to. -/
def handleKill (k : King) (now : ℤ) (order : List ℕ → List ℕ) (caller target : ℕ) (recursive : Bool) :
    Option (Except String (List ℕ) × King) := k.kill now order caller target recursive

/-- Ask for more tokens from the parent's budget. -/
def requestResources (k : King) (pid : ℕ) (amount : UInt64) : Except String UInt64 × King :=
  match k.registry.get pid with
  | none => (.error (Registry.notFound pid),k)
  | some proc =>
    match k.budget.allocate proc.ppid pid (tierFromCog proc.cognitiveTier) amount with
    | .error e => (.error e,k)
    | .ok budget => (.ok amount,{ k with budget := budget })

/-- Report consumed tokens: they are accounted for, charged to the budget if it allows them, and
added to the counter of the process in any case. -/
def reportMetric (k : King) (now : ℤ) (pid : ℕ) (tokens : UInt64) : King :=
  match k.registry.get pid with
  | none => k
  | some proc =>
    let tier := tierFromCog proc.cognitiveTier
    { k with
      accountant := k.accountant.record k.registry now pid tier tokens
      budget := match k.budget.consume pid tier tokens with
        | .ok budget => budget
        | .error _ => k.budget
      registry := k.registry.update now pid
        (fun p => { p with tokensConsumed := p.tokensConsumed+tokens }) }

/-- The remaining tokens that `GetResourceUsage` reports; without an entry, those of the static limit. -/
def tokensRemaining (k : King) (pid : ℕ) : Except String UInt64 :=
  match k.registry.get pid with
  | none => .error s!"process {pid} not found"
  | some proc => match k.budget.getBudget pid (tierFromCog proc.cognitiveTier) with
    | some b => .ok b.remaining
    | none => .ok (if proc.tokensConsumed < proc.limits.maxTokensTotal then
        proc.limits.maxTokensTotal-proc.tokensConsumed else 0)

lemma killOne_registry (now : ℤ) (k : King) (pid : ℕ) :
    (killOne now k pid).registry = k.registry.setState now pid .zombie := by
  rw [killOne,Registry.notifyParent_eq]

@[simp] lemma killAll_budget (k : King) (now : ℤ) (pids : List ℕ) :
    (k.killAll now pids).budget = k.budget := by
  induction pids generalizing k with
  | nil => rfl
  | cons pid pids ih => exact ih (killOne now k pid)

@[simp] lemma killAll_cgroups (k : King) (now : ℤ) (pids : List ℕ) :
    (k.killAll now pids).cgroups = k.cgroups := by
  induction pids generalizing k with
  | nil => rfl
  | cons pid pids ih => exact ih (killOne now k pid)

@[simp] lemma killAll_results (k : King) (now : ℤ) (pids : List ℕ) :
    (k.killAll now pids).results = k.results := by
  induction pids generalizing k with
  | nil => rfl
  | cons pid pids ih => exact ih (killOne now k pid)

@[simp] lemma killAll_nextPID (k : King) (now : ℤ) (pids : List ℕ) :
    (k.killAll now pids).registry.nextPID = k.registry.nextPID := by
  induction pids generalizing k with
  | nil => rfl
  | cons pid pids ih =>
    refine (ih (killOne now k pid)).trans ?_
    rw [killOne_registry,Registry.nextPID_setState]

/-- Everything on the list becomes a zombie, everything else stays as it is. -/
lemma get_killAll (k : King) (now : ℤ) (pids : List ℕ) (j : ℕ) :
    (k.killAll now pids).registry.get j =
      if j ∈ pids then (k.registry.get j).map (fun p => { p with state := .zombie, updatedAt := now })
      else k.registry.get j := by
  induction pids generalizing k with
  | nil => rfl
  | cons pid pids ih =>
    refine (ih (killOne now k pid)).trans ?_
    rw [killOne_registry,Registry.get_setState]
    by_cases hj : j = pid
    · simp only [hj,if_true,List.mem_cons,true_or]
      split_ifs
      · rw [Option.map_map]; rfl
      · rfl
    · simp [hj]

/-- A kill request that changes anything names a child of the caller. -/
lemma kill_cases {k k' : King} {now : ℤ} {order : List ℕ → List ℕ} {caller target : ℕ}
    {recursive : Bool} {result : Except String (List ℕ)}
    (h : k.kill now order caller target recursive = some (result,k')) :
    (k' = k ∧ ∃ e, result = .error e) ∨
    ∃ t killed, k.registry.get target = some t ∧ t.ppid = caller ∧
      victims k.registry order target recursive = some killed ∧
      result = .ok killed ∧ k' = k.killAll now killed := by
  unfold kill at h
  cases ht : k.registry.get target with
  | none =>
    simp only [ht,Option.some.injEq,Prod.mk.injEq] at h
    exact .inl ⟨h.2.symm,_,h.1.symm⟩
  | some t =>
    simp only [ht] at h
    split_ifs at h with hp
    · simp only [Option.some.injEq,Prod.mk.injEq] at h
      exact .inl ⟨h.2.symm,_,h.1.symm⟩
    · obtain ⟨killed,hk,h⟩ := Option.map_eq_some_iff.mp h
      cases h
      exact .inr ⟨t,killed,rfl,not_not.mp hp,hk,rfl,rfl⟩

lemma requestResources_cases (k : King) (pid : ℕ) (amount : UInt64) :
    (k.requestResources pid amount).2 = k ∨
    ∃ proc budget, k.registry.get pid = some proc ∧
      k.budget.allocate proc.ppid pid (tierFromCog proc.cognitiveTier) amount = .ok budget ∧
      (k.requestResources pid amount).2 = { k with budget := budget } := by
  unfold requestResources
  cases hp : k.registry.get pid with
  | none => exact .inl rfl
  | some proc =>
    cases ha : k.budget.allocate proc.ppid pid (tierFromCog proc.cognitiveTier) amount with
    | error e => exact .inl (by simp only [ha])
    | ok budget => exact .inr ⟨proc,budget,rfl,ha,by simp only [ha]⟩

lemma reportMetric_cases (k : King) (now : ℤ) (pid : ℕ) (tokens : UInt64) :
    (k.reportMetric now pid tokens).budget = k.budget ∨
    ∃ tier, k.budget.consume pid tier tokens = .ok (k.reportMetric now pid tokens).budget := by
  unfold reportMetric
  cases k.registry.get pid with
  | none => exact .inl rfl
  | some proc =>
    simp only
    cases hc : k.budget.consume pid (tierFromCog proc.cognitiveTier) tokens with
    | error e => exact .inl rfl
    | ok budget => exact .inr ⟨_,hc⟩

lemma reportMetric_cgroups (k : King) (now : ℤ) (pid : ℕ) (tokens : UInt64) :
    (k.reportMetric now pid tokens).cgroups = k.cgroups := by
  unfold reportMetric
  cases k.registry.get pid <;> rfl

lemma reportMetric_nextPID (k : King) (now : ℤ) (pid : ℕ) (tokens : UInt64) :
    (k.reportMetric now pid tokens).registry.nextPID = k.registry.nextPID := by
  unfold reportMetric
  cases k.registry.get pid with
  | none => rfl
  | some proc => simp only [Registry.update,Registry.nextPID_modify]

end King
end HiveKernel
