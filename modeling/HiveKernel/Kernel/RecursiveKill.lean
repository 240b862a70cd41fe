import HiveKernel.Kernel.FrontEnds
import HiveKernel.Process.Branches

/-! Whom a kill request reaches, through either front end. -/
namespace HiveKernel
open Lib Relation

/-- The listed processes, which are the target and, if asked for, everything below it, have become zombies.
Nothing else has changed. -/
structure Slays (r r' : Registry) (now : ℤ) (target : ℕ) (recursive : Bool) (killed : List ℕ) : Prop where
  members : ∀ j, j ∈ killed ↔ j = target ∨ (recursive = true ∧ TransGen r.ChildOf j target)
  once : killed.Nodup
  last : killed.getLast? = some target
  zombies : ∀ j ∈ killed, ∃ p, r.get j = some p ∧ r'.get j = some { p with state := .zombie, updatedAt := now }
  others : ∀ j, j ∉ killed → r'.get j = r.get j

namespace King
variable {k : King} {target : ℕ} {recursive : Bool} {killed : List ℕ}

/-- Whom a kill reaches: the collected subtree, each process once, with the target behind it. -/
lemma victims_spec {r : Registry} (v : r.Visits) (h : victims r v.order target recursive = some killed) :
    (∀ j, j ∈ killed ↔ j = target ∨ (recursive = true ∧ TransGen r.ChildOf j target)) ∧ killed.Nodup ∧
      killed.getLast? = some target := by
  unfold victims at h
  cases recursive with
  | false =>
    cases h
    simp
  | true =>
    obtain ⟨ds,hds,rfl⟩ := Option.map_eq_some_iff.mp h
    have hmem := Registry.mem_collectDescendants_iff v hds
    refine ⟨fun j => ?_,?_,by simp⟩
    · simp only [List.mem_append,List.mem_singleton,hmem,true_and]
      tauto
    · rw [List.nodup_append]
      refine ⟨Registry.nodup_collectDescendants v hds,List.nodup_singleton _,?_⟩
      rintro j hj t ht rfl
      rw [List.mem_singleton.mp ht,hmem] at hj
      exact Registry.not_cyclic_of_collectDescendants v hds hj

lemma slays_killAll (now : ℤ) (v : k.registry.Visits) (htarget : (k.registry.get target).isSome)
    (h : victims k.registry v.order target recursive = some killed) :
    Slays k.registry (k.killAll now killed).registry now target recursive killed := by
  obtain ⟨hmem,hnd,hlast⟩ := victims_spec v h
  refine ⟨hmem,hnd,hlast,fun j hj => ?_,fun j hj => ?_⟩
  · have hsome : (k.registry.get j).isSome := by
      rcases (hmem j).mp hj with rfl | ⟨-,hbelow⟩
      · exact htarget
      · obtain ⟨_,⟨p,hp,-⟩,-⟩ := TransGen.head'_iff.mp hbelow
        simp [hp]
    obtain ⟨p,hp⟩ := Option.isSome_iff_exists.mp hsome
    exact ⟨p,hp,by rw [get_killAll,if_pos hj,hp]; rfl⟩
  · rw [get_killAll,if_neg hj]

lemma isSome_victims {r : Registry} (ho : r.Ordered) (order : List ℕ → List ℕ) (target : ℕ)
    (recursive : Bool) :
    (victims r order target recursive).isSome := by
  unfold victims
  split_ifs
  · rw [Option.isSome_map]
    exact (ho.walksReturn le_rfl).collectDescendants order [] target
  · rfl

end King

variable {k k' : Kernel} {env : Env} {req : KillRequest}

/-- A request through the gRPC service is refused, or the list of victims is killed. -/
lemma killChild_cases {header : Option (List String)} {resp : KillResponse}
    (h : CoreServer.killChild k env header req = some (.ok resp,k')) (hok : resp.success = true) :
    ∃ target killed, k.king.registry.get req.targetPid = some target ∧ callerPID header = .ok target.ppid ∧
      King.victims k.king.registry env.order req.targetPid req.recursive = some killed ∧
      resp.killedPids = killed ∧ k'.king = k.king.killAll env.now killed := by
  unfold CoreServer.killChild at h
  cases hc : callerPID header with
  | error e => simp [hc] at h
  | ok caller =>
    cases ht : k.king.registry.get req.targetPid with
    | none =>
      simp only [hc,ht,Option.some.injEq,Prod.mk.injEq,Except.ok.injEq] at h
      rw [← h.1] at hok
      cases hok
    | some target =>
      simp only [hc,ht] at h
      split_ifs at h with hparent
      · simp only [Option.some.injEq,Prod.mk.injEq,Except.ok.injEq] at h
        rw [← h.1] at hok
        cases hok
      · obtain ⟨killed,hk,h⟩ := Option.map_eq_some_iff.mp h
        cases h
        exact ⟨target,killed,rfl,by rw [not_not.mp hparent],hk,rfl,rfl⟩

/-- The handler of system calls builds its list on the way, and it is the same. -/
lemma handleKill_cases {callID : String} {caller : ℕ} {result : SyscallResult} {resp : KillResponse}
    (h : KernelSyscallHandler.handleKill k env callID caller req = some (result,k'))
    (hresp : result.result = .kill resp) (hok : resp.success = true) :
    ∃ target killed, k.king.registry.get req.targetPid = some target ∧ target.ppid = caller ∧
      King.victims k.king.registry env.order req.targetPid req.recursive = some killed ∧
      resp.killedPids = killed ∧ k'.king = k.king.killAll env.now killed := by
  unfold KernelSyscallHandler.handleKill at h
  cases ht : k.king.registry.get req.targetPid with
  | none =>
    simp only [ht,Option.some.injEq,Prod.mk.injEq] at h
    rw [← h.1] at hresp
    cases hresp
    cases hok
  | some target =>
    simp only [ht] at h
    by_cases hparent : target.ppid ≠ caller
    · rw [if_pos hparent] at h
      simp only [Option.some.injEq,Prod.mk.injEq] at h
      rw [← h.1] at hresp
      cases hresp
      cases hok
    · rw [if_neg hparent] at h
      cases hrec : req.recursive with
      | true =>
        simp only [hrec,if_true] at h
        obtain ⟨ds,hds,h⟩ := Option.bind_eq_some_iff.mp h
        rw [foldl_killNext] at h
        cases h
        cases hresp
        refine ⟨target,_,rfl,not_not.mp hparent,?_,rfl,?_⟩
        · simp only [King.victims,if_true,hds,Option.map_some]
          rfl
        · simp [KernelSyscallHandler.killNext,King.killAll]
      | false =>
        simp only [hrec,Bool.false_eq_true,if_false] at h
        cases h
        cases hresp
        exact ⟨target,_,rfl,not_not.mp hparent,rfl,rfl,rfl⟩

/-- A kill request that succeeds kills the target, with everything below it if asked to, and each once;
where parents have smaller PIDs every request returns. -/
theorem kill_correct (horder : ∀ path, k.king.registry.Enumerates (env.order path)) :
    (∀ header resp, CoreServer.killChild k env header req = some (.ok resp,k') → resp.success = true →
      Slays k.king.registry k'.king.registry env.now req.targetPid req.recursive resp.killedPids) ∧
    (∀ callID caller result resp,
      KernelSyscallHandler.handleKill k env callID caller req = some (result,k') →
      result.result = .kill resp → resp.success = true →
      Slays k.king.registry k'.king.registry env.now req.targetPid req.recursive resp.killedPids) ∧
    (k.king.registry.Ordered → (∀ header, (CoreServer.killChild k env header req).isSome) ∧
      ∀ callID caller, (KernelSyscallHandler.handleKill k env callID caller req).isSome) := by
  let v : k.king.registry.Visits := ⟨env.order,horder⟩
  refine ⟨fun header resp h hok => ?_,fun callID caller result resp h hresp hok => ?_,fun ho =>
    ⟨fun header => ?_,fun callID caller => ?_⟩⟩
  · obtain ⟨target,killed,ht,-,hvictims,rfl,hk⟩ := killChild_cases h hok
    rw [hk]
    exact King.slays_killAll env.now v (by simp [ht]) hvictims
  · obtain ⟨target,killed,ht,-,hvictims,rfl,hk⟩ := handleKill_cases h hresp hok
    rw [hk]
    exact King.slays_killAll env.now v (by simp [ht]) hvictims
  · have hvictims := King.isSome_victims ho env.order req.targetPid req.recursive
    unfold CoreServer.killChild
    split
    · rfl
    · split
      · rfl
      · split_ifs
        · rfl
        · rwa [Option.isSome_map]
  · unfold KernelSyscallHandler.handleKill
    split
    · rfl
    · split_ifs
      · rfl
      · obtain ⟨ds,hds⟩ := Option.isSome_iff_exists.mp
          ((ho.walksReturn le_rfl).collectDescendants env.order [] req.targetPid)
        have hget : k.king.registry.getDescendants env.order req.targetPid = some ds := hds
        rw [hget]
        rfl
      · rfl

/-- A kernel over a queen with two workers and a task. -/
def householdKernel : Kernel :=
  { exampleKernel with king := { exampleKernel.king with registry := Registry.royalHousehold } }

def householdEnv : Env := { exampleEnv with order := fun _ => [1,2,3,4,5] }

/-- The king kills the queen and everyone below her, by either way in. -/
theorem kill_correct_queen : (∃ resp k',
    CoreServer.killChild householdKernel householdEnv (some [toString 1]) ⟨2,true⟩ = some (.ok resp,k') ∧
    resp.killedPids = [3,5,4,2] ∧
    Slays Registry.royalHousehold k'.king.registry 0 2 true resp.killedPids) ∧
    ∃ result resp k',
    KernelSyscallHandler.handleKill householdKernel householdEnv "kill-1" 1 ⟨2,true⟩ = some (result,k') ∧
    result.result = .kill resp ∧ resp.killedPids = [3,5,4,2] ∧
    Slays Registry.royalHousehold k'.king.registry 0 2 true resp.killedPids := by
  have horder : ∀ path, householdKernel.king.registry.Enumerates (householdEnv.order path) :=
    Registry.visitHousehold.enumerates
  constructor
  · obtain ⟨resp,k',h,hok,hlist⟩ : ∃ resp k',
        CoreServer.killChild householdKernel householdEnv (some [toString 1]) ⟨2,true⟩ = some (.ok resp,k') ∧
        resp.success = true ∧ resp.killedPids = [3,5,4,2] := ⟨_,_,rfl,rfl,rfl⟩
    exact ⟨resp,k',h,hlist,(kill_correct horder).1 _ resp h hok⟩
  · obtain ⟨result,resp,k',h,hresult,hok,hlist⟩ : ∃ result resp k',
        KernelSyscallHandler.handleKill householdKernel householdEnv "kill-1" 1 ⟨2,true⟩ = some (result,k') ∧
        result.result = .kill resp ∧ resp.success = true ∧ resp.killedPids = [3,5,4,2] := ⟨_,_,_,rfl,rfl,rfl,rfl⟩
    exact ⟨result,resp,k',h,hresult,hlist,(kill_correct horder).2.1 _ _ _ _ h hresult hok⟩

end HiveKernel
