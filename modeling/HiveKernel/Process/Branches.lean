import HiveKernel.Lib.ExchangeSort
import HiveKernel.Process.TreeInvariant

/-! Branches of the process tree: the order in which they are killed, from the leaves up, and what the
kill does to them. -/
namespace HiveKernel
open Lib Relation
namespace Registry

/-- The depths of some processes below a root. -/
def depthMap (r : Registry) (rootPID : ℕ) (descendants : List Process) : Option (Table ℕ ℕ) :=
  descendants.foldlM (fun m p => (r.depthFrom r.nextPID rootPID p.pid).map (m.set p.pid)) .empty

/-- Descendants sorted so that leaves come first. -/
def bottomUpOrder (r : Registry) (rootPID : ℕ) (descendants : List Process) : Option (List Process) :=
  (r.depthMap rootPID descendants).map fun depth =>
    exchangeSort (fun p => (depth.get p.pid).getD 0) descendants

/-- A kill of a branch in progress: the table, the signals sent so far and the PIDs to be returned. -/
structure BranchKill where
  registry : Registry
  sent : List (ℕ × Signal) := []
  killed : List ℕ := []

/-- A member of the branch is terminated unless it is dead. -/
def killMember (now : ℤ) (s : BranchKill) (pid : ℕ) : BranchKill :=
  match s.registry.get pid with
  | none => s
  | some target =>
    if target.state = .dead then s
    else
      { registry := s.registry.send now pid .sigterm
        sent := s.sent++[(pid,.sigterm)]
        killed := s.killed++[pid] }

/-- Kill a process and all its descendants, leaf nodes first. The forced kill after the grace period is
not part of the call. -/
def killBranch (r : Registry) (now : ℤ) (order : List ℕ → List ℕ) (pid : ℕ) :
    Option (Except String BranchKill) :=
  match r.get pid with
  | none => some (.error s!"kill branch: {notFound pid}")
  | some _ => do
    let descendants ← r.getDescendants order pid
    let ordered ← r.bottomUpOrder pid descendants
    some (.ok (killMember now ((ordered.map Process.pid).foldl (killMember now) ⟨r,[],[]⟩) pid))

/-- A registered process that is not dead. -/
def Alive (r : Registry) (pid : ℕ) : Prop := ∃ p ∈ r.get pid, p.state ≠ .dead

instance (r : Registry) (pid : ℕ) : Decidable (r.Alive pid) :=
  inferInstanceAs (Decidable (∃ p ∈ r.get pid, p.state ≠ .dead))

variable {r : Registry} {root : ℕ}

/-- The loop stops or goes up, whatever it has counted so far. -/
lemma depthFromBody_cases (r : Registry) (root k : ℕ) : (∀ d, r.depthFromBody root (k,d) = .inr d) ∨
    ∃ p, r.get k = some p ∧ ∀ d, r.depthFromBody root (k,d) = .inl (p.ppid,d+1) := by
  by_cases hroot : k = root
  · exact .inl (fun d => by simp [depthFromBody,hroot])
  · cases hp : r.get k with
    | none => exact .inl (fun d => by simp [depthFromBody,hroot,hp])
    | some p =>
      by_cases hself : p.ppid = k
      · exact .inl (fun d => by simp [depthFromBody,hroot,hp,hself])
      · exact .inr ⟨p,rfl,fun d => by simp [depthFromBody,hroot,hp,hself]⟩

/-- The loop counts from any number on. -/
lemma loop_depthFromBody (fuel k d : ℕ) :
    loop (r.depthFromBody root) fuel (k,d) = (loop (r.depthFromBody root) fuel (k,0)).map (·+d) := by
  induction fuel generalizing k d with
  | zero => rfl
  | succ fuel ih =>
    rcases r.depthFromBody_cases root k with hstop | ⟨p,-,hup⟩
    · simp [loop,hstop]
    · simp only [loop,hup]
      rw [ih p.ppid (d+1),ih p.ppid (0+1),Option.map_map]
      congr 1
      funext n
      change n+(d+1) = n+(0+1)+d
      omega

/-- A process is one level below its parent. -/
lemma depthFrom_of_link (hw : r.WalksReturn r.nextPID) {j k : ℕ} (hj : j ≠ root) (hne : j ≠ k)
    (hl : Link r.link j k) : ∃ d, r.depthFrom r.nextPID root k = some d ∧
      r.depthFrom r.nextPID root j = some (d+1) := by
  obtain ⟨d,hd⟩ := Option.isSome_iff_exists.mp (hw.depthFrom root k)
  obtain ⟨e,he⟩ := Option.isSome_iff_exists.mp (hw.depthFrom root j)
  refine ⟨d,hd,?_⟩
  obtain ⟨p,hp,rfl⟩ := link_eq_some.mp hl
  obtain ⟨fuel,hfuel⟩ : ∃ n, r.nextPID = n+1 := ⟨r.nextPID-1,by have := r.nextPID_pos; omega⟩
  have hup : (loop (r.depthFromBody root) fuel (p.ppid,0)).map (·+1) = some e := by
    rw [← he,depthFrom,hfuel,← loop_depthFromBody]
    conv_rhs => rw [loop]
    simp only [depthFromBody,if_neg hj,hp,if_neg hne.symm,Nat.zero_add]
  obtain ⟨n,hn,rfl⟩ := Option.map_eq_some_iff.mp hup
  have hmore := loop_of_le hn (show fuel ≤ r.nextPID by omega)
  obtain rfl : n = d := Option.some.inj (hmore.symm.trans hd)
  exact he

/-- Further down means deeper. -/
lemma depthFrom_lt (h : Acyclic r.link) {j k : ℕ} (hjk : TransGen r.ChildOf j k)
    (hk : TransGen r.ChildOf k root) : ∃ d e, r.depthFrom r.nextPID root k = some d ∧
      r.depthFrom r.nextPID root j = some e ∧ d < e := by
  have hw := walksReturn_of_acyclic h (le_refl r.nextPID)
  induction hjk using TransGen.head_induction_on with
  | single hc =>
    obtain ⟨d,hd,he⟩ := depthFrom_of_link hw (ne_of_below h (.head hc hk)) (ne_of_below h (.single hc)) hc.link
    exact ⟨d,d+1,hd,he,Nat.lt_succ_self d⟩
  | head hc hbelow ih =>
    obtain ⟨d,e,hd,he,hlt⟩ := ih
    obtain ⟨e',he',hj⟩ := depthFrom_of_link hw (ne_of_below h (.head hc (hbelow.trans hk)))
      (ne_of_below h (.single hc)) hc.link
    obtain rfl : e = e' := Option.some.inj (he.symm.trans he')
    exact ⟨d,e+1,hd,hj,Nat.lt_succ_of_lt hlt⟩

lemma get_depthMap {ds : List Process} {m m' : Table ℕ ℕ}
    (h : ds.foldlM (fun m p => (r.depthFrom r.nextPID root p.pid).map (m.set p.pid)) m = some m') (k : ℕ) :
    m'.get k = if k ∈ ds.map Process.pid then r.depthFrom r.nextPID root k else m.get k := by
  induction ds generalizing m with
  | nil =>
    cases h
    rfl
  | cons p ds ih =>
    rw [List.foldlM_cons] at h
    obtain ⟨m₁,hm₁,h⟩ := Option.bind_eq_some_iff.mp h
    obtain ⟨d,hd,rfl⟩ := Option.map_eq_some_iff.mp hm₁
    rw [ih h,List.map_cons]
    by_cases hk : k ∈ ds.map Process.pid
    · rw [if_pos hk,if_pos (List.mem_cons_of_mem _ hk)]
    · rw [if_neg hk,Table.get_set]
      by_cases heq : k = p.pid
      · rw [if_pos heq,if_pos (by simp [heq]),heq,hd]
      · rw [if_neg heq,if_neg (by simp only [List.mem_cons]; tauto)]

lemma isSome_depthMap (hw : r.WalksReturn r.nextPID) (root : ℕ) (ds : List Process) (m : Table ℕ ℕ) :
    (ds.foldlM (fun m p => (r.depthFrom r.nextPID root p.pid).map (m.set p.pid)) m).isSome := by
  induction ds generalizing m with
  | nil => rfl
  | cons p ds ih =>
    obtain ⟨d,hd⟩ := Option.isSome_iff_exists.mp (hw.depthFrom root p.pid)
    rw [List.foldlM_cons,hd]
    exact ih _

/-- The order is one of the descendants, and no process comes before one that lies below it. -/
theorem bottomUpOrder_spec (h : Acyclic r.link) (v : r.Visits) (root : ℕ) :
    ∃ ds ordered, r.getDescendants v.order root = some ds ∧ r.bottomUpOrder root ds = some ordered ∧
      ordered.Perm ds ∧ (∀ j, j ∈ ordered.map Process.pid ↔ TransGen r.ChildOf j root) ∧
      (ordered.map Process.pid).Nodup ∧
      ordered.Pairwise (fun p q => ¬TransGen r.ChildOf q.pid p.pid) := by
  have hw := walksReturn_of_acyclic h (le_refl r.nextPID)
  obtain ⟨ds,hds⟩ := Option.isSome_iff_exists.mp (hw.collectDescendants v.order [] root)
  obtain ⟨depth,hdepth⟩ := Option.isSome_iff_exists.mp (isSome_depthMap hw root ds .empty)
  let key : Process → ℕ := fun p => (depth.get p.pid).getD 0
  have hperm : (exchangeSort key ds).Perm ds := exchangeSort_perm key ds
  have hmem := mem_collectDescendants_iff v hds
  have hpids : ((exchangeSort key ds).map Process.pid).Perm (ds.map Process.pid) := hperm.map _
  refine ⟨ds,exchangeSort key ds,hds,?_,hperm,fun j => hpids.mem_iff.trans (hmem j),
    hpids.nodup_iff.mpr (nodup_collectDescendants v hds),?_⟩
  · rw [bottomUpOrder,depthMap,hdepth,Option.map_some]
  · apply (pairwise_exchangeSort key ds).imp_of_mem
    intro p q hp hq hle hbelow
    have hpin : p.pid ∈ ds.map Process.pid := List.mem_map_of_mem (hperm.mem_iff.mp hp)
    have hqin : q.pid ∈ ds.map Process.pid := List.mem_map_of_mem (hperm.mem_iff.mp hq)
    obtain ⟨d,e,hd,he,hlt⟩ := depthFrom_lt h hbelow ((hmem p.pid).mp hpin)
    have hkp : key p = d := by simp only [key,get_depthMap hdepth,if_pos hpin,hd,Option.getD_some]
    have hkq : key q = e := by simp only [key,get_depthMap hdepth,if_pos hqin,he,Option.getD_some]
    omega

/-- The entry of a process that SIGTERM was sent to. -/
def terminated (now : ℤ) (p : Process) : Process := { p with state := .blocked, updatedAt := now }

lemma killMember_of_not_alive {s : BranchKill} {pid : ℕ} (now : ℤ) (h : ¬s.registry.Alive pid) :
    killMember now s pid = s := by
  unfold killMember
  cases hp : s.registry.get pid with
  | none => rfl
  | some p =>
    have hdead : p.state = .dead := by
      by_contra hne
      exact h ⟨p,hp,hne⟩
    simp [hdead]

lemma killMember_of_alive {s : BranchKill} {pid : ℕ} (now : ℤ) (h : s.registry.Alive pid) :
    killMember now s pid = ⟨s.registry.send now pid .sigterm,s.sent++[(pid,.sigterm)],s.killed++[pid]⟩ := by
  obtain ⟨p,hp,hne⟩ := h
  have hget : s.registry.get pid = some p := hp
  simp [killMember,hget,hne]

lemma get_killMember (now : ℤ) (s : BranchKill) (pid k : ℕ) :
    (killMember now s pid).registry.get k =
      if k = pid ∧ s.registry.Alive pid then (s.registry.get k).map (terminated now)
      else s.registry.get k := by
  by_cases halive : s.registry.Alive pid
  · rw [killMember_of_alive now halive]
    simp only [halive,and_true]
    rw [get_send_of_state _ _ _ (show Signal.state .sigterm = some .blocked from rfl),get_setState]
    rfl
  · rw [killMember_of_not_alive now halive,if_neg (fun h => halive h.2)]

/-- A loop over different PIDs terminates those that are alive at its beginning, in its order. -/
lemma foldl_killMember (now : ℤ) (s : BranchKill) {pids : List ℕ} (hnd : pids.Nodup) :
    (pids.foldl (killMember now) s).killed = s.killed++pids.filter s.registry.Alive ∧
    (pids.foldl (killMember now) s).sent = s.sent++(pids.filter s.registry.Alive).map (·,.sigterm) ∧
    ∀ k, (pids.foldl (killMember now) s).registry.get k =
      if k ∈ pids ∧ s.registry.Alive k then (s.registry.get k).map (terminated now)
      else s.registry.get k := by
  induction pids generalizing s with
  | nil => simp
  | cons pid pids ih =>
    obtain ⟨hnew,hnd⟩ := List.nodup_cons.mp hnd
    obtain ⟨hkilled,hsent,hget⟩ := ih (killMember now s pid) hnd
    have hother : ∀ k, k ≠ pid → (killMember now s pid).registry.get k = s.registry.get k := by
      intro k hk
      rw [get_killMember,if_neg (fun h => hk h.1)]
    have halive : ∀ k, k ≠ pid → ((killMember now s pid).registry.Alive k ↔ s.registry.Alive k) := by
      intro k hk
      unfold Alive
      rw [hother k hk]
    have hfilter : pids.filter (killMember now s pid).registry.Alive = pids.filter s.registry.Alive := by
      apply List.filter_congr
      intro k hk
      simp only [decide_eq_decide]
      apply halive
      rintro rfl
      exact hnew hk
    rw [List.foldl_cons,hkilled,hsent,hfilter]
    refine ⟨?_,?_,fun k => ?_⟩
    · by_cases hp : s.registry.Alive pid
      · rw [killMember_of_alive now hp,List.filter_cons_of_pos (by simpa using hp)]
        simp
      · rw [killMember_of_not_alive now hp,List.filter_cons_of_neg (by simpa using hp)]
    · by_cases hp : s.registry.Alive pid
      · rw [killMember_of_alive now hp,List.filter_cons_of_pos (by simpa using hp)]
        simp
      · rw [killMember_of_not_alive now hp,List.filter_cons_of_neg (by simpa using hp)]
    · rw [hget]
      by_cases hk : k = pid
      · subst hk
        rw [if_neg (fun h => hnew h.1),get_killMember]
        simp only [List.mem_cons,true_or,true_and]
      · rw [hother k hk]
        simp only [halive k hk,List.mem_cons,hk,false_or]

/-- On an acyclic table the order has every proper descendant of the root once, below before above, and the
kill of a registered root terminates whoever of the branch is alive in that order, the root last. -/
theorem killBranch_correct (h : Acyclic r.link) (v : r.Visits) (root : ℕ) (now : ℤ) :
    ∃ ds ordered, r.getDescendants v.order root = some ds ∧ r.bottomUpOrder root ds = some ordered ∧
      ordered.Perm ds ∧ (∀ j, j ∈ ordered.map Process.pid ↔ TransGen r.ChildOf j root) ∧
      (ordered.map Process.pid).Nodup ∧ ordered.Pairwise (fun p q => ¬TransGen r.ChildOf q.pid p.pid) ∧
      (r.get root = none → ∃ e, r.killBranch now v.order root = some (.error e)) ∧
      ((r.get root).isSome → ∃ s, r.killBranch now v.order root = some (.ok s) ∧
        s.killed = (ordered.map Process.pid++[root]).filter r.Alive ∧
        s.sent = s.killed.map (·,.sigterm) ∧
        ∀ k, s.registry.get k = if k ∈ s.killed then (r.get k).map (terminated now) else r.get k) := by
  obtain ⟨ds,ordered,hds,hord,hperm,hmem,hnd,hpair⟩ := bottomUpOrder_spec h v root
  refine ⟨ds,ordered,hds,hord,hperm,hmem,hnd,hpair,fun hnone => ?_,fun hroot => ?_⟩
  · exact ⟨_,by simp only [killBranch,hnone]; rfl⟩
  · obtain ⟨p,hp⟩ := Option.isSome_iff_exists.mp hroot
    have hbranch : (ordered.map Process.pid++[root]).Nodup := by
      rw [List.nodup_append]
      refine ⟨hnd,List.nodup_singleton _,?_⟩
      rintro j hj k hk rfl
      rw [List.mem_singleton.mp hk,hmem] at hj
      exact not_cyclic_of_collectDescendants v hds hj
    obtain ⟨hkilled,hsent,hget⟩ := foldl_killMember now ⟨r,[],[]⟩ hbranch
    rw [List.foldl_append] at hkilled hsent hget
    refine ⟨_,?_,hkilled,?_,fun k => ?_⟩
    · simp only [killBranch,hp,hds,hord,Option.bind_eq_bind,Option.bind_some]
      rfl
    · rw [hkilled]
      exact hsent
    · rw [hkilled]
      simp only [List.nil_append,List.mem_filter,decide_eq_true_eq]
      exact hget k

/-- A king, a queen with two workers, and a task of the first worker. -/
def royalHousehold : Registry :=
  let agent := fun parent name => child (agentRequest parent name .worker) none
  ((((boot 0 "king" "root" "vps1").register 0 (agent 1 "queen")).register 0 (agent 2 "worker-a")).register 0
    (agent 2 "worker-b")).register 0 (agent 3 "task")

lemma royalHousehold_ordered : royalHousehold.Ordered :=
  ((((boot_ordered _ _ _ _).register _ _ (by decide)).register _ _ (by decide)).register _ _
    (by decide)).register _ _ (by decide)

def visitHousehold : royalHousehold.Visits := ⟨fun _ => [1,2,3,4,5],fun _ => by decide⟩

/-- The task goes before its worker and the queen last. -/
theorem killBranch_correct_queen : ∃ s, royalHousehold.killBranch 0 visitHousehold.order 2 = some (.ok s) ∧
    s.killed = [5,3,4,2] ∧ s.sent = [(5,.sigterm),(3,.sigterm),(4,.sigterm),(2,.sigterm)] := by
  obtain ⟨ds,ordered,hds,hord,-,-,-,-,-,hkill⟩ :=
    killBranch_correct royalHousehold_ordered.graded.acyclic visitHousehold 2 0
  obtain ⟨s,hs,hkilled,hsent,-⟩ := hkill rfl
  have hpids : ordered.map Process.pid = [5,3,4] := by
    obtain rfl := Option.some.inj (hds.symm.trans rfl)
    obtain rfl := Option.some.inj (hord.symm.trans rfl)
    rfl
  have hlist : s.killed = [5,3,4,2] := by
    rw [hkilled,hpids]
    decide
  refine ⟨s,hs,hlist,?_⟩
  rw [hsent,hlist]
  rfl

end Registry
end HiveKernel
