import Mathlib.Algebra.Order.BigOperators.Group.List
import Mathlib.Algebra.Order.Ring.Nat
import Mathlib.Order.Interval.Finset.Nat
import HiveKernel.Lib.ParentLinks
import HiveKernel.Process.Tree

/-! Termination of the walks over the process tree. All four of them follow raw parent links,
upwards or downwards, and tolerate links that leave the table; a rank that every link lowers is
all they need. -/
namespace HiveKernel
open Lib
namespace Registry

/-- With this much fuel every walk has returned, from every PID and in every order. -/
structure WalksReturn (r : Registry) (fuel : ℕ) : Prop where
  collectDescendants : ∀ order path pid, (r.collectDescendants order fuel path pid).isSome
  findAncestor : ∀ pid accept, (r.findAncestor fuel pid accept).isSome
  nearestCommonAncestor : ∀ a b, (r.nearestCommonAncestor fuel a b).isSome
  depthFrom : ∀ root pid, (r.depthFrom fuel root pid).isSome

/-- The walks terminate: from some bound on, more iterations make no difference. -/
def WalksTerminate (r : Registry) : Prop := ∃ bound, ∀ fuel, bound ≤ fuel → r.WalksReturn fuel

variable {r : Registry} {rank : ℕ → ℕ}

/-- A bound on the ranks of the registered processes. -/
def RankBound (r : Registry) (rank : ℕ → ℕ) (bound : ℕ) : Prop :=
  ∀ k, (r.get k).isSome → rank k ≤ bound

lemma exists_rankBound (r : Registry) (rank : ℕ → ℕ) : ∃ bound, r.RankBound rank bound := by
  refine ⟨(r.processes.keys.map rank).sum,fun k hk => ?_⟩
  exact List.single_le_sum (fun _ _ => Nat.zero_le _) _ (List.mem_map_of_mem (Table.mem_keys.mpr hk))

/-- The weight of a PID on an upward walk: a walk stops as soon as it leaves the table. -/
def upWeight (r : Registry) (rank : ℕ → ℕ) (k : ℕ) : ℕ := if (r.get k).isSome then rank k else 0

lemma upWeight_le {bound : ℕ} (hb : r.RankBound rank bound) (k : ℕ) : r.upWeight rank k ≤ bound := by
  unfold upWeight
  split_ifs with hk
  · exact hb k hk
  · exact Nat.zero_le _

lemma upWeight_lt (hg : Graded r.link rank) {k : ℕ} {p : Process} (hp : r.get k = some p) :
    r.upWeight rank p.ppid < r.upWeight rank k := by
  have hlt := hg k p.ppid (link_eq_some.mpr ⟨p,hp,rfl⟩)
  have hk : r.upWeight rank k = rank k := by simp [upWeight,hp]
  have hle : r.upWeight rank p.ppid ≤ rank p.ppid := by unfold upWeight; split_ifs <;> omega
  omega

lemma parentOf_eq_some {k b : ℕ} (h : r.parentOf k = some b) : ∃ p, r.get k = some p ∧ p.ppid = b := by
  unfold parentOf at h
  cases hp : r.get k with
  | none => simp [hp] at h
  | some p =>
    simp only [hp] at h
    split_ifs at h
    exact ⟨p,rfl,Option.some.inj h⟩

lemma findAncestor_isSome (hg : Graded r.link rank) {bound fuel : ℕ} (hb : r.RankBound rank bound)
    (hf : bound < fuel) (pid : ℕ) (accept : Process → Bool) :
    (r.findAncestor fuel pid accept).isSome := by
  unfold findAncestor
  cases hp : r.get pid with
  | none => rfl
  | some current =>
    apply loop_isSome_of_measure _ (fun p => r.upWeight rank p.ppid)
    · intro p q hpq
      unfold findAncestorBody at hpq
      split_ifs at hpq
      cases hq : r.get p.ppid with
      | none => simp [hq] at hpq
      | some parent =>
        simp only [hq] at hpq
        split_ifs at hpq
        cases hpq
        exact upWeight_lt hg hq
    · have := upWeight_le hb current.ppid
      omega

lemma nearestCommonAncestor_isSome (hg : Graded r.link rank) {bound fuel : ℕ}
    (hb : r.RankBound rank bound) (hf : bound < fuel) (a b : ℕ) :
    (r.nearestCommonAncestor fuel a b).isSome := by
  have hup : ∀ {k n}, r.parentOf k = some n → r.upWeight rank n < r.upWeight rank k := by
    intro k n hk
    obtain ⟨p,hp,rfl⟩ := parentOf_eq_some hk
    exact upWeight_lt hg hp
  obtain ⟨ancestors,ha⟩ : ∃ ancestors, loop r.ancestorsBody fuel ([],a) = some ancestors := by
    apply Option.isSome_iff_exists.mp
    apply loop_isSome_of_measure _ (fun s => r.upWeight rank s.2)
    · intro s t hst
      unfold ancestorsBody at hst
      cases hn : r.parentOf s.2 with
      | none => simp [hn] at hst
      | some n =>
        simp only [hn,Sum.inl.injEq] at hst
        subst hst
        exact hup hn
    · have := upWeight_le hb a
      change r.upWeight rank a < fuel
      omega
  unfold nearestCommonAncestor
  rw [ha]
  apply loop_isSome_of_measure _ (fun k => r.upWeight rank k)
  · intro s t hst
    unfold meetBody at hst
    split_ifs at hst
    cases hn : r.parentOf s with
    | none => simp [hn] at hst
    | some n =>
      simp only [hn,Sum.inl.injEq] at hst
      subst hst
      exact hup hn
  · have := upWeight_le hb b
    omega

lemma depthFrom_isSome (hg : Graded r.link rank) {bound fuel : ℕ} (hb : r.RankBound rank bound)
    (hf : bound < fuel) (root pid : ℕ) : (r.depthFrom fuel root pid).isSome := by
  apply loop_isSome_of_measure _ (fun s => r.upWeight rank s.1)
  · intro s t hst
    unfold depthFromBody at hst
    split_ifs at hst
    cases hp : r.get s.1 with
    | none => simp [hp] at hst
    | some p =>
      simp only [hp] at hst
      split_ifs at hst
      cases hst
      exact upWeight_lt hg hp
  · have := upWeight_le hb pid
    change r.upWeight rank pid < fuel
    omega

/-- A call returns if the calls for the children do. -/
lemma isSome_collectDescendants_succ {order : List ℕ → List ℕ} {fuel : ℕ} {path : List ℕ} {pid : ℕ}
    (h : ∀ p ∈ r.getChildren (order path) pid,
      (r.collectDescendants order fuel (p.pid::path) p.pid).isSome) :
    (r.collectDescendants order (fuel+1) path pid).isSome := by
  unfold collectDescendants
  obtain ⟨subtrees,hs⟩ := Option.isSome_iff_exists.mp
    (mapM_isSome (fun p => (r.collectDescendants order fuel (p.pid::path) p.pid).bind
      (fun below => some (p::below))) _ (fun p hp => by
        obtain ⟨below,hbelow⟩ := Option.isSome_iff_exists.mp (h p hp)
        simp [hbelow]))
  simp only [Option.bind_eq_bind,Option.pure_def]
  rw [hs]
  rfl

/-- Going down, the rank grows with every call and cannot exceed its bound. -/
lemma collectDescendants_isSome (hg : Graded r.link rank) {bound : ℕ} (hb : r.RankBound rank bound)
    (order : List ℕ → List ℕ) (fuel : ℕ) (path : List ℕ) (pid : ℕ) (hf : bound < fuel+rank pid)
    (hpos : 0 < fuel) :
    (r.collectDescendants order fuel path pid).isSome := by
  induction fuel generalizing path pid with
  | zero => omega
  | succ fuel ih =>
    have hchild : ∀ p ∈ r.getChildren (order path) pid,
        (r.collectDescendants order fuel (p.pid::path) p.pid).isSome := by
      intro p hp
      obtain ⟨⟨-,hget⟩,hppid,-⟩ := mem_getChildren.mp hp
      have hlt := hg p.pid pid (link_eq_some.mpr ⟨p,hget,hppid⟩)
      have hle := hb p.pid (by simp [hget])
      exact ih _ _ (by omega) (by omega)
    exact isSome_collectDescendants_succ hchild

/-- What is collected is registered and lies below the process asked for. -/
lemma mem_collectDescendants {order : List ℕ → List ℕ} {fuel : ℕ} {path : List ℕ} {pid : ℕ}
    {descendants : List Process} (h : r.collectDescendants order fuel path pid = some descendants)
    {p : Process} (hp : p ∈ descendants) :
    r.get p.pid = some p ∧ Relation.TransGen (Link r.link) p.pid pid := by
  induction fuel generalizing path pid descendants with
  | zero => cases h
  | succ fuel ih =>
    unfold collectDescendants at h
    obtain ⟨subtrees,hs,h⟩ := Option.bind_eq_some_iff.mp h
    cases h
    obtain ⟨subtree,hsub,hp⟩ := List.mem_flatten.mp hp
    obtain ⟨c,hc,hbelow⟩ := exists_of_mem_mapM _ hs hsub
    obtain ⟨below,hb,hcons⟩ := Option.bind_eq_some_iff.mp hbelow
    cases hcons
    obtain ⟨⟨-,hget⟩,hppid,-⟩ := mem_getChildren.mp hc
    have hlink : Link r.link c.pid pid := link_eq_some.mpr ⟨c,hget,hppid⟩
    rcases List.mem_cons.mp hp with rfl | hp
    · exact ⟨hget,.single hlink⟩
    · obtain ⟨hpget,hpc⟩ := ih hb hp
      exact ⟨hpget,hpc.tail hlink⟩

/-- `j` is listed as a child of `pid`. -/
def ChildOf (r : Registry) (j pid : ℕ) : Prop := ∃ p, r.get j = some p ∧ IsChild p pid

lemma childOf_unique (r : Registry) : Relator.RightUnique r.ChildOf := by
  rintro j a b ⟨p,hp,ha⟩ ⟨q,hq,hb⟩
  obtain rfl : p = q := Option.some.inj (hp.symm.trans hq)
  exact ha.1.symm.trans hb.1

lemma ChildOf.link {r : Registry} {j pid : ℕ} (h : r.ChildOf j pid) : Link r.link j pid := by
  obtain ⟨p,hp,hchild⟩ := h
  exact link_eq_some.mpr ⟨p,hp,hchild.1⟩

/-- Without a cycle, nobody is below himself. -/
lemma ne_of_below {r : Registry} (h : Acyclic r.link) {j k : ℕ} (hjk : Relation.TransGen r.ChildOf j k) : j ≠ k := by
  rintro rfl
  exact h j (Relation.TransGen.mono (fun _ _ hc => hc.link) _ _ hjk)

/-- The orders of the loops of a walk down the tree; each visits every process once. -/
structure Visits (r : Registry) where
  order : List ℕ → List ℕ
  enumerates : ∀ path, r.Enumerates (order path)

lemma Visits.mem_getChildren (v : r.Visits) (path : List ℕ) (pid : ℕ) (p : Process) :
    p ∈ r.getChildren (v.order path) pid ↔ r.get p.pid = some p ∧ IsChild p pid := by
  rw [Registry.mem_getChildren,(v.enumerates path).mem_iff]
  constructor
  · exact fun h => ⟨h.1.2,h.2⟩
  · exact fun h => ⟨⟨by simp [h.1],h.1⟩,h.2⟩

lemma nodup_getChildren (v : r.Visits) (path : List ℕ) (pid : ℕ) :
    (r.getChildren (v.order path) pid).Nodup := by
  unfold getChildren list
  apply List.Nodup.filter
  have hnd : (v.order path).Nodup := (v.enumerates path).symm.nodup r.processes.toAList.nodupKeys
  apply List.Nodup.filterMap ?_ hnd
  intro a b p ha hb
  exact (get_pid ha).symm.trans (get_pid hb)

/-- One level of the walk. -/
lemma collectDescendants_succ {order : List ℕ → List ℕ} {fuel : ℕ} {path : List ℕ} {pid : ℕ}
    {descendants : List Process} (h : r.collectDescendants order (fuel+1) path pid = some descendants) :
    (∀ c ∈ r.getChildren (order path) pid,
      (r.collectDescendants order fuel (c.pid::path) c.pid).isSome) ∧
    descendants = (r.getChildren (order path) pid).flatMap
      (fun c => c::(r.collectDescendants order fuel (c.pid::path) c.pid).getD []) := by
  unfold collectDescendants at h
  obtain ⟨subtrees,hs,h⟩ := Option.bind_eq_some_iff.mp h
  obtain ⟨hsome,hflat⟩ := flatten_of_mapM _ hs
  cases h
  have hcalls : ∀ c ∈ r.getChildren (order path) pid,
      (r.collectDescendants order fuel (c.pid::path) c.pid).isSome := by
    intro c hc
    have := hsome c hc
    cases hb : r.collectDescendants order fuel (c.pid::path) c.pid with
    | none => simp [hb] at this
    | some below => rfl
  refine ⟨hcalls,hflat.trans ?_⟩
  apply List.flatMap_congr
  intro c hc
  obtain ⟨below,hb⟩ := Option.isSome_iff_exists.mp (hcalls c hc)
  simp [hb]

/-- Whether the walk returns does not depend on the order of its loops. -/
lemma isSome_collectDescendants_visits (v v' : r.Visits) {fuel : ℕ} {path path' : List ℕ} {pid : ℕ}
    (h : (r.collectDescendants v.order fuel path pid).isSome) :
    (r.collectDescendants v'.order fuel path' pid).isSome := by
  induction fuel generalizing path path' pid with
  | zero => cases h
  | succ fuel ih =>
    obtain ⟨descendants,hd⟩ := Option.isSome_iff_exists.mp h
    apply isSome_collectDescendants_succ
    intro p hp
    rw [v'.mem_getChildren,← v.mem_getChildren path] at hp
    exact ih ((collectDescendants_succ hd).1 p hp)

/-- On a cycle the walk does not return. -/
lemma not_cyclic_of_collectDescendants (v : r.Visits) {fuel : ℕ} {path : List ℕ} {pid : ℕ}
    {descendants : List Process} (h : r.collectDescendants v.order fuel path pid = some descendants) :
    ¬Relation.TransGen r.ChildOf pid pid := by
  induction fuel generalizing path pid descendants with
  | zero => cases h
  | succ fuel ih =>
    intro hcycle
    obtain ⟨c,hpc,hc⟩ := Relation.TransGen.tail'_iff.mp hcycle
    obtain ⟨p,hp,hchild⟩ := hc
    obtain rfl := get_pid hp
    have hmem := (v.mem_getChildren path pid p).mpr ⟨hp,hchild⟩
    obtain ⟨below,hb⟩ := Option.isSome_iff_exists.mp ((collectDescendants_succ h).1 p hmem)
    exact ih hb (Relation.TransGen.head' ⟨p,hp,hchild⟩ hpc)

/-- The walk collects the whole subtree. -/
lemma mem_collectDescendants_iff (v : r.Visits) {fuel : ℕ} {path : List ℕ} {pid : ℕ}
    {descendants : List Process} (h : r.collectDescendants v.order fuel path pid = some descendants)
    (j : ℕ) : j ∈ descendants.map Process.pid ↔ Relation.TransGen r.ChildOf j pid := by
  induction fuel generalizing path pid descendants with
  | zero => cases h
  | succ fuel ih =>
    obtain ⟨hcalls,rfl⟩ := collectDescendants_succ h
    have hmem : ∀ c ∈ r.getChildren (v.order path) pid,
        (j ∈ (c::(r.collectDescendants v.order fuel (c.pid::path) c.pid).getD []).map Process.pid ↔
          Relation.ReflTransGen r.ChildOf j c.pid) := by
      intro c hc
      obtain ⟨below,hb⟩ := Option.isSome_iff_exists.mp (hcalls c hc)
      rw [hb,List.map_cons,List.mem_cons,Option.getD_some,ih hb,Relation.reflTransGen_iff_eq_or_transGen,
        eq_comm]
    rw [Relation.TransGen.tail'_iff]
    simp only [List.map_flatMap,List.mem_flatMap]
    constructor
    · rintro ⟨c,hc,hj⟩
      exact ⟨c.pid,(hmem c hc).mp hj,c,(v.mem_getChildren path pid c).mp hc⟩
    · rintro ⟨_,hj,c,hc,hchild⟩
      obtain rfl := get_pid hc
      have hin := (v.mem_getChildren path pid c).mpr ⟨hc,hchild⟩
      exact ⟨c,hin,(hmem c hin).mpr hj⟩

lemma mem_subtree_iff (v : r.Visits) {fuel : ℕ} {path : List ℕ} {c : Process} {below : List Process}
    (h : r.collectDescendants v.order fuel path c.pid = some below) (j : ℕ) :
    j ∈ (c::below).map Process.pid ↔ Relation.ReflTransGen r.ChildOf j c.pid := by
  rw [List.map_cons,List.mem_cons,mem_collectDescendants_iff v h,
    Relation.reflTransGen_iff_eq_or_transGen,eq_comm]

/-- A process that lies below a sibling lies on a cycle. -/
lemma cyclic_of_sibling {c d pid : ℕ} (hc : r.ChildOf c pid) (hd : r.ChildOf d pid) (hne : c ≠ d)
    (h : Relation.ReflTransGen r.ChildOf c d) : Relation.TransGen r.ChildOf d d := by
  rcases Relation.ReflTransGen.cases_head h with he | ⟨x,hcx,hxd⟩
  · exact absurd he hne
  · obtain rfl : pid = x := r.childOf_unique hc hcx
    exact Relation.TransGen.head' hd hxd

/-- Every process of the subtree is collected once: it has one parent, and the walk is on no cycle. -/
lemma nodup_collectDescendants (v : r.Visits) {fuel : ℕ} {path : List ℕ} {pid : ℕ}
    {descendants : List Process} (h : r.collectDescendants v.order fuel path pid = some descendants) :
    (descendants.map Process.pid).Nodup := by
  induction fuel generalizing path pid descendants with
  | zero => cases h
  | succ fuel ih =>
    obtain ⟨hcalls,rfl⟩ := collectDescendants_succ h
    rw [List.map_flatMap,List.nodup_flatMap]
    constructor
    · intro c hc
      obtain ⟨below,hb⟩ := Option.isSome_iff_exists.mp (hcalls c hc)
      rw [hb,Option.getD_some,List.map_cons,List.nodup_cons,mem_collectDescendants_iff v hb]
      exact ⟨not_cyclic_of_collectDescendants v hb,ih hb⟩
    · apply (nodup_getChildren v path pid).imp_of_mem
      intro c d hc hd hne j hj hj'
      obtain ⟨below,hb⟩ := Option.isSome_iff_exists.mp (hcalls c hc)
      obtain ⟨below',hb'⟩ := Option.isSome_iff_exists.mp (hcalls d hd)
      simp only [hb] at hj
      simp only [hb'] at hj'
      have hcpid := (v.mem_getChildren path pid c).mp hc
      have hdpid := (v.mem_getChildren path pid d).mp hd
      have hpids : c.pid ≠ d.pid := by
        intro he
        apply hne
        exact Option.some.inj (hcpid.1.symm.trans (he ▸ hdpid.1))
      rcases Relation.ReflTransGen.total_of_right_unique r.childOf_unique
        ((mem_subtree_iff v hb j).mp hj) ((mem_subtree_iff v hb' j).mp hj') with hcd | hdc
      · exact not_cyclic_of_collectDescendants v hb'
          (cyclic_of_sibling ⟨c,hcpid⟩ ⟨d,hdpid⟩ hpids hcd)
      · exact not_cyclic_of_collectDescendants v hb
          (cyclic_of_sibling ⟨d,hdpid⟩ ⟨c,hcpid⟩ hpids.symm hdc)

theorem walksReturn_of_graded (hg : Graded r.link rank) {bound fuel : ℕ}
    (hb : r.RankBound rank bound) (hf : bound < fuel) : r.WalksReturn fuel where
  collectDescendants order path pid :=
    collectDescendants_isSome hg hb order fuel path pid (by omega) (by omega)
  findAncestor := findAncestor_isSome hg hb hf
  nearestCommonAncestor := nearestCommonAncestor_isSome hg hb hf
  depthFrom := depthFrom_isSome hg hb hf

theorem walksTerminate_of_graded (hg : Graded r.link rank) : r.WalksTerminate := by
  obtain ⟨bound,hb⟩ := r.exists_rankBound rank
  exact ⟨bound+1,fun fuel hf => walksReturn_of_graded hg hb (by omega)⟩

/-- In an acyclic table every walk returns within as many iterations as PIDs were handed out. -/
theorem walksReturn_of_acyclic (h : Acyclic r.link) {fuel : ℕ} (hf : r.nextPID ≤ fuel) :
    r.WalksReturn fuel := by
  have hin : ∀ k, (r.link k).isSome → k ∈ Finset.Ico 1 r.nextPID := by
    intro k hk
    rw [link_isSome] at hk
    obtain ⟨p,hp⟩ := Option.isSome_iff_exists.mp hk
    exact Finset.mem_Ico.mpr (get_bound hp)
  obtain ⟨rank,hg,hle⟩ := h.exists_graded _ hin
  have hpos := r.nextPID_pos
  refine walksReturn_of_graded hg (show r.RankBound rank (r.nextPID-1) from fun k _ => ?_) (by omega)
  have hk := hle k
  rwa [Nat.card_Ico] at hk

end Registry
end HiveKernel
