import HiveKernel.Kernel.ResultCollection
import HiveKernel.Process.Branches

/-! The collapse of a branch with nothing in between: the children of a process are killed with all that is
below them, and their results are collected. -/
namespace HiveKernel
open Lib Relation ResultBoard

/-- The table and the results that nobody has collected. -/
structure LifecycleManager where
  registry : Registry
  results : Table ℕ TaskResult

namespace LifecycleManager

/-- Retrieve a result and remove it. -/
def waitResult (lm : LifecycleManager) (pid : ℕ) : Option TaskResult × LifecycleManager :=
  match lm.results.get pid with
  | none => (none,lm)
  | some result => (some result,{ lm with results := lm.results.erase pid })

/-- A result that is there is put on the list. -/
def collect (results : List TaskResult) (lm : LifecycleManager) (pid : ℕ) :
    List TaskResult × LifecycleManager :=
  match lm.waitResult pid with
  | (none,lm) => (results,lm)
  | (some result,lm) => (results++[result],lm)

/-- A descendant is terminated and declared dead unless it is. -/
def killDescendant (now : ℤ) (r : Registry) (pid : ℕ) : Registry :=
  if IsDead r pid then r else terminate r now pid

/-- The results with a synthetic one if none exists. -/
def filled (now : ℤ) (results : Table ℕ TaskResult) (pid : ℕ) : Table ℕ TaskResult :=
  match results.get pid with
  | none => results.set pid (synthetic now pid)
  | some _ => results

/-- One turn of the loop. -/
def collapseChild (now : ℤ) (order : List ℕ → List ℕ) (s : List TaskResult × LifecycleManager)
    (child : ℕ) : Option (List TaskResult × LifecycleManager) :=
  if IsDead s.2.registry child then some (collect s.1 s.2 child)
  else do
    let descendants ← s.2.registry.getDescendants order child
    let ordered ← s.2.registry.bottomUpOrder child descendants
    let registry := (ordered.map Process.pid).foldl (killDescendant now) s.2.registry
    some (collect s.1 ⟨terminate registry now child,filled now s.2.results child⟩ child)

/-- Kill all children of a process and collect their results. The loop over the children has an order, and so
has every walk over the descendants of one. -/
def collapseBranch (lm : LifecycleManager) (now : ℤ) (childOrder : List ℕ) (order : ℕ → List ℕ → List ℕ)
    (parentPID : ℕ) : Option (List TaskResult × LifecycleManager) :=
  ((lm.registry.getChildren childOrder parentPID).map Process.pid).foldlM
    (fun s child => collapseChild now (order child) s child) ([],lm)

/-- The result a collapse owes for a child: the recorded one, or a synthetic one if the child was not dead. -/
def owed (lm : LifecycleManager) (now : ℤ) (child : ℕ) : Option TaskResult :=
  match lm.results.get child with
  | some result => some result
  | none => if IsDead lm.registry child then none else some (synthetic now child)

/-- The branch has been collapsed: everything below the process is dead, there is one result for each child
that had one or was not dead, nobody else has another state, and no result is left behind. -/
structure Collapsed (lm lm' : LifecycleManager) (now : ℤ) (parentPID : ℕ) (results : List TaskResult) :
    Prop where
  dead : ∀ k, TransGen lm.registry.ChildOf k parentPID → IsDead lm'.registry k
  results : ∃ children : List ℕ, children.Nodup ∧ (∀ c, c ∈ children ↔ lm.registry.ChildOf c parentPID) ∧
    results = children.filterMap (lm.owed now)
  others : ∀ k, ¬TransGen lm.registry.ChildOf k parentPID →
    (lm'.registry.get k).map Process.state = (lm.registry.get k).map Process.state
  collected : ∀ k, TransGen lm.registry.ChildOf k parentPID → lm'.results.get k = none

/-- What is below a dead child is dead as well, and only children have results. -/
structure Shallow (lm : LifecycleManager) (parentPID : ℕ) : Prop where
  dead : ∀ c, lm.registry.ChildOf c parentPID → IsDead lm.registry c →
    ∀ k, TransGen lm.registry.ChildOf k c → IsDead lm.registry k
  results : ∀ k, TransGen lm.registry.ChildOf k parentPID → ¬lm.registry.ChildOf k parentPID →
    lm.results.get k = none

variable {lm lm' : LifecycleManager} {r r' : Registry} {now : ℤ}

lemma get_terminate (r : Registry) (now : ℤ) (pid k : ℕ) :
    (terminate r now pid).get k =
      if k = pid then (r.get k).map (fun p => { p with state := .dead, updatedAt := now }) else r.get k := by
  rw [terminate,Registry.get_setState,Registry.get_send_of_state _ _ _
    (show Signal.state .sigterm = some .blocked from rfl),Registry.get_setState]
  split_ifs
  · rw [Option.map_map]
    rfl
  · rfl

lemma isDead_iff {k : ℕ} : IsDead r k ↔ (r.get k).map Process.state = some .dead :=
  Option.map_eq_some_iff.symm

/-- Exactly the processes with the property have died, whatever their state was; the rest keep theirs. -/
structure Dies (r r' : Registry) (P : ℕ → Prop) : Prop where
  links : ∀ k, r'.link k = r.link k
  dead : ∀ k, P k → (r'.get k).map Process.state = (r.get k).map (fun _ => .dead)
  kept : ∀ k, ¬P k → (r'.get k).map Process.state = (r.get k).map Process.state

namespace Dies
variable {P Q : ℕ → Prop}

lemma isSome (h : Dies r r' P) (k : ℕ) : (r'.get k).isSome = (r.get k).isSome := by
  rw [← Registry.link_isSome,← Registry.link_isSome,h.links]

/-- Children are told by the links. -/
lemma childOf (h : Dies r r' P) : r'.ChildOf = r.ChildOf := by
  have hiff : ∀ (r : Registry) (j k : ℕ), r.ChildOf j k ↔ r.link j = some k ∧ j ≠ k := by
    intro r j k
    rw [Registry.link_eq_some]
    constructor
    · rintro ⟨p,hp,hpp,hne⟩
      exact ⟨⟨p,hp,hpp⟩,by rwa [Registry.get_pid hp] at hne⟩
    · rintro ⟨⟨p,hp,hpp⟩,hne⟩
      exact ⟨p,hp,hpp,by rwa [Registry.get_pid hp]⟩
  funext j k
  rw [hiff,hiff,h.links]

lemma acyclic (h : Dies r r' P) (ha : Acyclic r.link) : Acyclic r'.link := by
  rwa [show r'.link = r.link from funext h.links]

/-- A loop over one of the tables is a loop over the other. -/
lemma enumerates (h : Dies r r' P) {order : List ℕ} (ho : r.Enumerates order) : r'.Enumerates order := by
  have hnd : order.Nodup := ho.symm.nodup r.processes.toAList.nodupKeys
  apply (List.perm_ext_iff_of_nodup hnd r'.processes.toAList.nodupKeys).mpr
  intro k
  rw [ho.mem_iff,← h.isSome]
  exact Table.mem_keys.symm

lemma refl (r : Registry) : Dies r r (fun _ => False) :=
  ⟨fun _ => rfl,fun _ h => h.elim,fun _ _ => rfl⟩

lemma trans {r'' : Registry} (h : Dies r r' P) (h' : Dies r' r'' Q) : Dies r r'' (fun k => P k ∨ Q k) := by
  refine ⟨fun k => (h'.links k).trans (h.links k),fun k hk => ?_,fun k hk => ?_⟩
  · by_cases hq : Q k
    · rw [h'.dead k hq]
      have hsome := h.isSome k
      cases hr : r.get k with
      | none =>
        cases hr' : r'.get k with
        | none => rfl
        | some p' => simp [hr,hr'] at hsome
      | some p =>
        cases hr' : r'.get k with
        | none => simp [hr,hr'] at hsome
        | some p' => rfl
    · rw [h'.kept k hq,h.dead k (hk.resolve_right hq)]
  · rw [h'.kept k (fun hq => hk (.inr hq)),h.kept k (fun hp => hk (.inl hp))]

lemma congr (h : Dies r r' P) (hiff : ∀ k, P k ↔ Q k) : Dies r r' Q :=
  ⟨h.links,fun k hk => h.dead k ((hiff k).mpr hk),fun k hk => h.kept k (fun hp => hk ((hiff k).mp hp))⟩

lemma isDead_iff_of_not (h : Dies r r' P) {k : ℕ} (hk : ¬P k) : IsDead r' k ↔ IsDead r k := by
  rw [isDead_iff,isDead_iff,h.kept k hk]

end Dies

lemma dies_terminate (r : Registry) (now : ℤ) (pid : ℕ) : Dies r (terminate r now pid) (· = pid) := by
  refine ⟨fun k => ?_,fun k hk => ?_,fun k hk => ?_⟩
  · unfold Registry.link
    rw [get_terminate]
    split_ifs
    · rw [Option.map_map]
      rfl
    · rfl
  · rw [get_terminate,if_pos hk,Option.map_map]
    rfl
  · rw [get_terminate,if_neg hk]

lemma dies_killDescendant (r : Registry) (now : ℤ) (pid : ℕ) :
    Dies r (killDescendant now r pid) (· = pid) := by
  unfold killDescendant
  split_ifs with hdead
  · refine ⟨fun _ => rfl,fun k hk => ?_,fun _ _ => rfl⟩
    obtain ⟨p,hp,hstate⟩ := hdead
    rw [hk,show r.get pid = some p from hp,Option.map_some,Option.map_some,hstate]
  · exact dies_terminate r now pid

lemma dies_foldl_killDescendant (r : Registry) (now : ℤ) (pids : List ℕ) :
    Dies r (pids.foldl (killDescendant now) r) (· ∈ pids) := by
  induction pids generalizing r with
  | nil => exact (Dies.refl r).congr (by simp)
  | cons pid pids ih =>
    exact ((dies_killDescendant r now pid).trans (ih _)).congr (fun k => List.mem_cons.symm)

lemma collect_eq (acc : List TaskResult) (lm : LifecycleManager) (pid : ℕ) :
    ∃ results, collect acc lm pid = (acc++(lm.results.get pid).toList,⟨lm.registry,results⟩) ∧
      ∀ k, results.get k = if k = pid then none else lm.results.get k := by
  unfold collect waitResult
  cases hr : lm.results.get pid with
  | none =>
    refine ⟨lm.results,by simp,fun k => ?_⟩
    split_ifs with hk
    · rw [hk,hr]
    · rfl
  | some result => exact ⟨lm.results.erase pid,rfl,fun k => Table.get_erase _ _ _⟩

lemma get_filled (results : Table ℕ TaskResult) (now : ℤ) (pid k : ℕ) :
    (filled now results pid).get k =
      if k = pid then some ((results.get pid).getD (synthetic now pid)) else results.get k := by
  unfold filled
  cases hr : results.get pid with
  | none => exact Table.get_set _ _ _ _
  | some result =>
    split_ifs with hk
    · rw [hk,hr]
      rfl
    · rfl

/-- One turn puts what is owed for the child on the list, and kills the child with everything below it unless
the child is dead. -/
lemma collapseChild_spec (ha : Acyclic lm.registry.link) {order : List ℕ → List ℕ}
    (ho : ∀ path, lm.registry.Enumerates (order path)) (now : ℤ) (acc : List TaskResult) (child : ℕ) :
    ∃ lm', collapseChild now order (acc,lm) child = some (acc++(lm.owed now child).toList,lm') ∧
      Dies lm.registry lm'.registry
        (fun k => ¬IsDead lm.registry child ∧ ReflTransGen lm.registry.ChildOf k child) ∧
      ∀ k, lm'.results.get k = if k = child then none else lm.results.get k := by
  unfold collapseChild
  by_cases hdead : IsDead lm.registry child
  · rw [if_pos hdead]
    obtain ⟨results,hcollect,hget⟩ := collect_eq acc lm child
    refine ⟨⟨lm.registry,results⟩,?_,(Dies.refl lm.registry).congr (fun k => ?_),hget⟩
    · rw [hcollect,owed]
      cases lm.results.get child with
      | none => simp only [if_pos hdead]
      | some result => rfl
    · simp [hdead]
  · obtain ⟨ds,ordered,hds,hord,-,hmem,-⟩ := Registry.bottomUpOrder_spec ha ⟨order,ho⟩ child
    have hget : lm.registry.getDescendants order child = some ds := hds
    let registry := terminate ((ordered.map Process.pid).foldl (killDescendant now) lm.registry) now child
    obtain ⟨results,hcollect,hresults⟩ :=
      collect_eq acc ⟨registry,filled now lm.results child⟩ child
    refine ⟨⟨registry,results⟩,?_,?_,fun k => ?_⟩
    · rw [if_neg hdead]
      simp only [hget,hord,Option.bind_eq_bind,Option.bind_some]
      rw [hcollect,get_filled,if_pos rfl,owed]
      cases lm.results.get child with
      | none => simp only [if_neg hdead,Option.getD_none]
      | some result => rfl
    · refine ((dies_foldl_killDescendant lm.registry now _).trans (dies_terminate _ now child)).congr
        (fun k => ?_)
      rw [hmem,reflTransGen_iff_eq_or_transGen]
      simp only [hdead,not_false_eq_true,true_and]
      rw [eq_comm,or_comm]
    · rw [hresults]
      simp only [get_filled]
      split_ifs <;> rfl

/-- Two children of one process do not lie below each other. -/
lemma not_below_of_siblings (ha : Acyclic r.link) {c d parentPID : ℕ} (hc : r.ChildOf c parentPID)
    (hd : r.ChildOf d parentPID) (hne : c ≠ d) : ¬ReflTransGen r.ChildOf c d := by
  intro h
  exact Registry.ne_of_below ha (Registry.cyclic_of_sibling hc hd hne h) rfl

/-- A process lies in the subtree of one child only. -/
lemma child_unique (ha : Acyclic r.link) {k c d parentPID : ℕ} (hc : r.ChildOf c parentPID)
    (hd : r.ChildOf d parentPID) (hkc : ReflTransGen r.ChildOf k c) (hkd : ReflTransGen r.ChildOf k d) :
    c = d := by
  by_contra hne
  rcases ReflTransGen.total_of_right_unique r.childOf_unique hkc hkd with hcd | hdc
  · exact not_below_of_siblings ha hc hd hne hcd
  · exact not_below_of_siblings ha hd hc (Ne.symm hne) hdc

/-- The loop over the children, from any of its turns on. -/
lemma foldlM_collapseChild {order : ℕ → List ℕ → List ℕ} {parentPID : ℕ} (cs : List ℕ) (hnd : cs.Nodup)
    (now : ℤ) (acc : List TaskResult) (ha : Acyclic lm.registry.link)
    (ho : ∀ c path, lm.registry.Enumerates (order c path)) (hcs : ∀ c ∈ cs, lm.registry.ChildOf c parentPID) :
    ∃ lm', cs.foldlM (fun s child => collapseChild now (order child) s child) (acc,lm) =
        some (acc++cs.filterMap (lm.owed now),lm') ∧
      Dies lm.registry lm'.registry
        (fun k => ∃ c ∈ cs, ¬IsDead lm.registry c ∧ ReflTransGen lm.registry.ChildOf k c) ∧
      ∀ k, lm'.results.get k = if k ∈ cs then none else lm.results.get k := by
  induction cs generalizing acc lm with
  | nil => exact ⟨lm,by simp,(Dies.refl lm.registry).congr (by simp),by simp⟩
  | cons c cs ih =>
    obtain ⟨hnew,hnd⟩ := List.nodup_cons.mp hnd
    rw [List.forall_mem_cons] at hcs
    obtain ⟨lm₁,hstep,hdies,hresults⟩ := collapseChild_spec ha (ho c) now acc c
    obtain ⟨lm',hrest,hdies',hresults'⟩ := ih hnd (acc++(lm.owed now c).toList) (hdies.acyclic ha)
      (fun c path => hdies.enumerates (ho c path)) (fun d hd => by rw [hdies.childOf]; exact hcs.2 d hd)
    have hkept : ∀ d ∈ cs, IsDead lm₁.registry d ↔ IsDead lm.registry d := by
      intro d hd
      apply hdies.isDead_iff_of_not
      rintro ⟨-,hbelow⟩
      refine not_below_of_siblings ha (hcs.2 d hd) hcs.1 ?_ hbelow
      rintro rfl
      exact hnew hd
    have howed : cs.filterMap (lm₁.owed now) = cs.filterMap (lm.owed now) := by
      apply List.filterMap_congr
      intro d hd
      have hne : d ≠ c := by
        rintro rfl
        exact hnew hd
      simp only [owed,hresults,if_neg hne,hkept d hd]
    refine ⟨lm',?_,(hdies.trans hdies').congr (fun k => ?_),fun k => ?_⟩
    · rw [List.foldlM_cons,hstep]
      refine hrest.trans ?_
      rw [howed,List.append_assoc]
      congr 2
      cases hc : lm.owed now c with
      | none => rw [List.filterMap_cons_none hc]; rfl
      | some result => rw [List.filterMap_cons_some hc]; rfl
    · rw [hdies.childOf]
      simp only [List.mem_cons,exists_eq_or_imp]
      apply or_congr Iff.rfl
      apply exists_congr
      intro d
      apply and_congr_right
      intro hd
      rw [hkept d hd]
    · rw [hresults',hresults]
      simp only [List.mem_cons]
      by_cases hk : k = c
      · simp [hk]
      · simp [hk]

/-- What a collapse does in any case, on an acyclic table and for every order of the loops. -/
lemma collapseBranch_spec (ha : Acyclic lm.registry.link) {childOrder : List ℕ}
    {order : ℕ → List ℕ → List ℕ} (hc : lm.registry.Enumerates childOrder)
    (ho : ∀ c path, lm.registry.Enumerates (order c path)) (now : ℤ) (parentPID : ℕ) :
    ∃ (children : List ℕ) (lm' : LifecycleManager), lm.collapseBranch now childOrder order parentPID =
        some (children.filterMap (lm.owed now),lm') ∧
      children.Nodup ∧ (∀ c, c ∈ children ↔ lm.registry.ChildOf c parentPID) ∧
      Dies lm.registry lm'.registry
        (fun k => ∃ c ∈ children, ¬IsDead lm.registry c ∧ ReflTransGen lm.registry.ChildOf k c) ∧
      ∀ k, lm'.results.get k = if k ∈ children then none else lm.results.get k := by
  let v : lm.registry.Visits := ⟨fun _ => childOrder,fun _ => hc⟩
  let children := (lm.registry.getChildren childOrder parentPID).map Process.pid
  have hmem : ∀ c, c ∈ children ↔ lm.registry.ChildOf c parentPID := by
    intro c
    rw [List.mem_map]
    constructor
    · rintro ⟨p,hp,rfl⟩
      exact ⟨p,(v.mem_getChildren [] parentPID p).mp hp⟩
    · rintro ⟨p,hp,hchild⟩
      obtain rfl := Registry.get_pid hp
      exact ⟨p,(v.mem_getChildren [] parentPID p).mpr ⟨hp,hchild⟩,rfl⟩
  have hnd : children.Nodup := by
    apply List.Nodup.map_on ?_ (Registry.nodup_getChildren v [] parentPID)
    intro p hp q hq he
    have hgp := ((v.mem_getChildren [] parentPID p).mp hp).1
    have hgq := ((v.mem_getChildren [] parentPID q).mp hq).1
    rw [he] at hgp
    exact Option.some.inj (hgp.symm.trans hgq)
  obtain ⟨lm',hrun,hdies,hresults⟩ := foldlM_collapseChild children hnd now [] ha ho
    (fun c hin => (hmem c).mp hin)
  exact ⟨children,lm',hrun,hnd,hmem,hdies,hresults⟩

/-- A collapse returns, and collapses the branch exactly if it is shallow: what is below a dead child stays as
it is, and results of deeper descendants are not looked for. -/
theorem collapseBranch_collapsed_iff (ha : Acyclic lm.registry.link) {childOrder : List ℕ}
    {order : ℕ → List ℕ → List ℕ} (hc : lm.registry.Enumerates childOrder)
    (ho : ∀ c path, lm.registry.Enumerates (order c path)) (now : ℤ) (parentPID : ℕ) :
    ∃ results lm', lm.collapseBranch now childOrder order parentPID = some (results,lm') ∧
      (Collapsed lm lm' now parentPID results ↔ lm.Shallow parentPID) := by
  obtain ⟨children,lm',hrun,hnd,hmem,hdies,hresults⟩ := collapseBranch_spec ha hc ho now parentPID
  refine ⟨_,lm',hrun,fun h => ⟨fun c hc hdead k hk => ?_,fun k hk hnot => ?_⟩,fun h => ⟨fun k hk => ?_,
    ⟨children,hnd,hmem,rfl⟩,fun k hk => hdies.kept k ?_,fun k hk => ?_⟩⟩
  · have hbelow : TransGen lm.registry.ChildOf k parentPID := hk.tail hc
    refine (hdies.isDead_iff_of_not ?_).mp (h.dead k hbelow)
    rintro ⟨d,hd,hlive,hkd⟩
    obtain rfl := child_unique ha hc ((hmem d).mp hd) hk.to_reflTransGen hkd
    exact hlive hdead
  · have hleft := h.collected k hk
    rwa [hresults,if_neg (fun hin => hnot ((hmem k).mp hin))] at hleft
  · obtain ⟨c,hkc,hchild⟩ := TransGen.tail'_iff.mp hk
    by_cases hdead : IsDead lm.registry c
    · refine (hdies.isDead_iff_of_not ?_).mpr ?_
      · rintro ⟨d,hd,hlive,hkd⟩
        obtain rfl := child_unique ha hchild ((hmem d).mp hd) hkc hkd
        exact hlive hdead
      · rcases reflTransGen_iff_eq_or_transGen.mp hkc with rfl | hbelow
        · exact hdead
        · exact h.dead c hchild hdead k hbelow
    · obtain ⟨_,⟨p,hp,-⟩,-⟩ := TransGen.head'_iff.mp hk
      rw [isDead_iff,hdies.dead k ⟨c,(hmem c).mpr hchild,hdead,hkc⟩,hp]
      rfl
  · rintro ⟨c,hcin,-,hbelow⟩
    exact hk (TransGen.tail'_iff.mpr ⟨c,hbelow,(hmem c).mp hcin⟩)
  · rw [hresults]
    split_ifs with hin
    · rfl
    · exact h.results k hk (fun hchild => hin ((hmem k).mpr hchild))

/-- A lead's workers and their task are killed, and none of them had a result. -/
theorem collapseBranch_collapsed_iff_queen : ∃ results lm',
    LifecycleManager.collapseBranch ⟨Registry.royalHousehold,.empty⟩ 7 [1,2,3,4,5]
      (fun _ => Registry.visitHousehold.order) 2 = some (results,lm') ∧
    results = [synthetic 7 3,synthetic 7 4] ∧
    Collapsed ⟨Registry.royalHousehold,.empty⟩ lm' 7 2 results := by
  have hidle : ∀ k, ¬IsDead Registry.royalHousehold k := by
    rintro k ⟨p,hp,hdead⟩
    have hb := Registry.get_bound (show Registry.royalHousehold.get k = some p from hp)
    have h6 : Registry.royalHousehold.nextPID = 6 := rfl
    obtain rfl | rfl | rfl | rfl | rfl : k = 1 ∨ k = 2 ∨ k = 3 ∨ k = 4 ∨ k = 5 := by omega
    all_goals
      cases hp
      cases hdead
  have hshallow : LifecycleManager.Shallow ⟨Registry.royalHousehold,.empty⟩ 2 :=
    ⟨fun c _ hdead => absurd hdead (hidle c),fun _ _ _ => rfl⟩
  obtain ⟨results,lm',hrun,hiff⟩ := @collapseBranch_collapsed_iff
    ⟨Registry.royalHousehold,.empty⟩ Registry.royalHousehold_ordered.graded.acyclic _ _
    (Registry.visitHousehold.enumerates []) (fun _ => Registry.visitHousehold.enumerates) 7 2
  have hlist : results = [synthetic 7 3,synthetic 7 4] :=
    congrArg Prod.fst (Option.some.inj (hrun.symm.trans rfl))
  exact ⟨results,lm',hrun,hlist,hiff.mpr hshallow⟩

/-- The queen is dead already, and her workers are left alive. -/
theorem collapse_spares_below_dead : ¬∀ (lm lm' : LifecycleManager) (childOrder : List ℕ)
    (order : ℕ → List ℕ → List ℕ) (now : ℤ) (parentPID : ℕ) (results : List TaskResult),
    Acyclic lm.registry.link → lm.registry.Enumerates childOrder →
    (∀ c path, lm.registry.Enumerates (order c path)) →
    lm.collapseBranch now childOrder order parentPID = some (results,lm') →
    Collapsed lm lm' now parentPID results := by
  intro h
  let r := Registry.royalHousehold.setState 0 2 .dead
  have ha : Acyclic r.link := (Registry.royalHousehold_ordered.setState 0 2 .dead).graded.acyclic
  have ho : r.Enumerates [1,2,3,4,5] := by decide
  obtain ⟨results,lm',hrun,hlive⟩ : ∃ results lm',
      LifecycleManager.collapseBranch ⟨r,.empty⟩ 7 [1,2,3,4,5] (fun _ _ => [1,2,3,4,5]) 1 =
        some (results,lm') ∧ ¬IsDead lm'.registry 3 := ⟨_,_,rfl,by decide⟩
  have hbelow : TransGen r.ChildOf 3 1 :=
    .head ⟨_,rfl,rfl,by decide⟩ (.single ⟨_,rfl,rfl,by decide⟩)
  exact hlive ((h ⟨r,.empty⟩ lm' _ _ 7 1 results ha ho (fun _ _ => ho) hrun).dead 3 hbelow)

end LifecycleManager
end HiveKernel
