import HiveKernel.Process.TreeInvariant

/-! Moving parts of the process tree: `reparent` and `orphanAdoption` check that the new parent
exists and not that it lies outside the subtrees they move. They keep a tree exactly if it does. -/
namespace HiveKernel
open Lib Relation
namespace Registry

/-- The chain of parents of `k` passes through PID 1 and leaves the table there. -/
def EndsAtRoot (r : Registry) (k : ℕ) : Prop :=
  Reaches r.link k 1 ∧ ∀ z, r.link 1 = some z → r.link z = none

/-- The parent relation is acyclic and all its chains end at PID 1. -/
def IsTree (r : Registry) : Prop := Acyclic r.link ∧ ∀ k, (r.get k).isSome → r.EndsAtRoot k

/-- `r'` is as good a tree as `r`: it has no cycle, no process has lost its chain to PID 1, and
the walks still end. -/
structure KeepsTree (r r' : Registry) : Prop where
  acyclic : Acyclic r'.link
  endsAtRoot : ∀ k, (r.get k).isSome → r.EndsAtRoot k → r'.EndsAtRoot k
  walks : r'.WalksTerminate

/-- PID 1 is there, and the parent of every other process is. -/
structure Attached (r : Registry) : Prop where
  root : (r.get 1).isSome
  parent : ∀ k p, r.get k = some p → k ≠ 1 → (r.get p.ppid).isSome

variable {r r' : Registry}

lemma IsTree.rooted (h : r.IsTree) : Rooted r.link 1 :=
  h.1.rooted (fun k hk => (h.2 k (by simpa using hk)).1)

lemma keepsTree_iff (ht : r.IsTree) (hsame : ∀ k, (r'.get k).isSome = (r.get k).isSome) :
    KeepsTree r r' ↔ Rooted r'.link 1 := by
  constructor
  · intro h
    apply h.acyclic.rooted
    intro k hk
    have hk : (r.get k).isSome := by rw [← hsame]; simpa using hk
    exact (h.endsAtRoot k hk (ht.2 k hk)).1
  · intro h
    obtain ⟨rank,hrank⟩ := h.exists_graded
    refine ⟨h.acyclic,fun k hk _ => ⟨h.reaches k ?_,h.top⟩,walksTerminate_of_graded hrank⟩
    rw [link_isSome,hsame]
    exact hk

/-- Where parents have smaller PIDs, an attached table is a tree. -/
lemma Ordered.reaches_root (ho : r.Ordered) (ha : r.Attached) {k : ℕ} (hk : (r.get k).isSome) :
    Reaches r.link k 1 := by
  induction k using Nat.strong_induction_on with
  | _ k ih =>
    by_cases h1 : k = 1
    · rw [h1]; exact .refl
    · obtain ⟨p,hp⟩ := Option.isSome_iff_exists.mp hk
      have hlink : Link r.link k p.ppid := link_eq_some.mpr ⟨p,hp,rfl⟩
      exact .head hlink (ih p.ppid (ho.lower k p hp h1).2 (ha.parent k p hp h1))

lemma Ordered.isTree (ho : r.Ordered) (ha : r.Attached) : r.IsTree := by
  refine ⟨ho.graded.acyclic,fun k hk => ⟨ho.reaches_root ha hk,fun z hz => ?_⟩⟩
  obtain ⟨p,hp,rfl⟩ := link_eq_some.mp hz
  simp [link,ho.root p hp,get_zero]

lemma link_reparent {now : ℤ} {pid new : ℕ} (h : r.reparent now pid new = .ok r') :
    r'.link = redirect r.link (· = pid) new := by
  obtain ⟨-,hp,-,hget⟩ := reparent_ok h
  obtain ⟨p,hp⟩ := Option.isSome_iff_exists.mp hp
  funext k
  rw [link,hget,redirect]
  split_ifs with hk
  · subst hk
    rw [hp]
    rfl
  · rfl

lemma isSome_get_reparent {now : ℤ} {pid new : ℕ} (h : r.reparent now pid new = .ok r') (k : ℕ) :
    (r'.get k).isSome = (r.get k).isSome := by
  rw [(reparent_ok h).2.2.2]
  split_ifs <;> simp

/-- `orphanAdoption` moves this process. -/
def Adoptable (r : Registry) (adopter k : ℕ) : Prop :=
  k ≠ adopter ∧ ∃ p, r.get k = some p ∧ r.IsOrphan p

instance (r : Registry) (adopter : ℕ) : DecidablePred (r.Adoptable adopter) := fun k =>
  match h : r.get k with
  | none => isFalse (by simp [Adoptable,h])
  | some p => decidable_of_iff (k ≠ adopter ∧ r.IsOrphan p) (by simp [Adoptable,h])

lemma get_adopt (now : ℤ) {adopter : ℕ} (ha : (r.get adopter).isSome) (acc : List ℕ) (j k : ℕ) :
    (adopt now adopter (acc,r) j).2.get k =
      if k = j ∧ r.Adoptable adopter k then (r.get k).map (moved now adopter) else r.get k := by
  unfold adopt
  cases hj : r.get j with
  | none =>
    rw [if_neg]
    rintro ⟨rfl,-,p,hp,-⟩
    simp [hj] at hp
  | some p =>
    have hpid := get_pid hj
    by_cases hm : p.pid ≠ adopter ∧ r.IsOrphan p
    · obtain ⟨r',hr'⟩ := reparent_isOk now ha (show (r.get p.pid).isSome by simp [hpid,hj])
      have had : r.Adoptable adopter j := ⟨hpid ▸ hm.1,p,hj,hm.2⟩
      simp only [if_pos hm,hr']
      rw [(reparent_ok hr').2.2.2,hpid]
      by_cases hk : k = j
      · subst hk
        simp [had]
      · simp [hk]
    · simp only [if_neg hm]
      rw [if_neg]
      rintro ⟨rfl,hne,q,hq,ho⟩
      obtain rfl : p = q := Option.some.inj (hj.symm.trans hq)
      exact hm ⟨hpid.symm ▸ hne,ho⟩

/-- Whether a process is an orphan depends on which processes are there and which are dead. -/
lemma isOrphan_congr {p : Process} (h : ∀ k, (r'.get k).map Process.state = (r.get k).map Process.state) :
    r'.IsOrphan p ↔ r.IsOrphan p := by
  have hp := h p.ppid
  unfold IsOrphan
  cases h1 : r.get p.ppid <;> cases h2 : r'.get p.ppid <;> simp_all

lemma state_get_adopt (now : ℤ) {adopter : ℕ} (ha : (r.get adopter).isSome) (acc : List ℕ) (j k : ℕ) :
    ((adopt now adopter (acc,r) j).2.get k).map Process.state = (r.get k).map Process.state := by
  rw [get_adopt now ha]
  split_ifs
  · rw [Option.map_map]; rfl
  · rfl

/-- The sweep moves exactly the processes that are orphans when it starts. -/
lemma get_orphanAdoption {now : ℤ} {adopter : ℕ} (ha : (r.get adopter).isSome) (order : List ℕ) (k : ℕ) :
    (r.orphanAdoption now order adopter).2.get k =
      if k ∈ order ∧ r.Adoptable adopter k then (r.get k).map (moved now adopter) else r.get k := by
  unfold orphanAdoption
  generalize ([] : List ℕ) = acc
  induction order generalizing r acc with
  | nil => simp
  | cons j order ih =>
    have hget := get_adopt now ha acc j
    have hstate := state_get_adopt now ha acc j
    rw [List.foldl_cons]
    generalize hs : adopt now adopter (acc,r) j = s at hget hstate ⊢
    have hadopter : (s.2.get adopter).isSome := by
      simpa [ha] using congrArg Option.isSome (hstate adopter)
    rw [show s = (s.1,s.2) from rfl,ih hadopter,hget]
    by_cases hj : k = j ∧ r.Adoptable adopter k
    · have hk : k ∈ j::order ∧ r.Adoptable adopter k := ⟨by simp [hj.1],hj.2⟩
      rw [if_pos hj,if_pos hk]
      split_ifs
      · rw [Option.map_map]; rfl
      · rfl
    · rw [if_neg hj]
      have hadopt : s.2.Adoptable adopter k ↔ r.Adoptable adopter k := by
        unfold Adoptable
        simp only [isOrphan_congr hstate]
        rw [hget,if_neg hj]
      simp only [hadopt]
      by_cases hk : k = j
      · have hnot : ¬r.Adoptable adopter k := fun h => hj ⟨hk,h⟩
        simp [hnot]
      · simp [hk]

lemma link_orphanAdoption {now : ℤ} {adopter : ℕ} {order : List ℕ} (ha : (r.get adopter).isSome)
    (ho : r.Enumerates order) :
    (r.orphanAdoption now order adopter).2.link = redirect r.link (r.Adoptable adopter) adopter := by
  funext k
  rw [link,get_orphanAdoption ha,redirect]
  by_cases hk : r.Adoptable adopter k
  · obtain ⟨-,p,hp,-⟩ := id hk
    have hmem : k ∈ order := (ho.mem_iff k).mpr (by simp [hp])
    rw [if_pos ⟨hmem,hk⟩,if_pos hk,hp]
    rfl
  · rw [if_neg (fun h => hk h.2),if_neg hk]
    rfl

lemma isSome_get_orphanAdoption {now : ℤ} {adopter : ℕ} {order : List ℕ}
    (ha : (r.get adopter).isSome) (k : ℕ) :
    ((r.orphanAdoption now order adopter).2.get k).isSome = (r.get k).isSome := by
  rw [get_orphanAdoption ha]
  split_ifs <;> simp

/-- Both operations keep a tree exactly if nothing they move lies on the parent chain of its new
parent, the new parent itself included. -/
theorem keepsTree_iff_not_reaches (ht : r.IsTree) :
    (∀ now pid newParentPID, (r.get pid).isSome → (r.get newParentPID).isSome →
      ∃ r', r.reparent now pid newParentPID = .ok r' ∧
        (KeepsTree r r' ↔ ¬Reaches r.link newParentPID pid)) ∧
    (∀ now adopter order, (r.get adopter).isSome → r.Enumerates order →
      (KeepsTree r (r.orphanAdoption now order adopter).2 ↔
        ∀ k, r.Adoptable adopter k → ¬Reaches r.link adopter k)) := by
  constructor
  · intro now pid new hp hn
    obtain ⟨r',hr'⟩ := reparent_isOk now hn hp
    refine ⟨r',hr',?_⟩
    rw [keepsTree_iff ht (isSome_get_reparent hr'),link_reparent hr',
      ht.rooted.redirect_iff (by simpa using hn) (by rintro a rfl; simpa using hp)]
    simp
  · intro now adopter order ha ho
    rw [keepsTree_iff ht (isSome_get_orphanAdoption ha),link_orphanAdoption ha ho]
    apply ht.rooted.redirect_iff (by simpa using ha)
    rintro k ⟨-,p,hp,-⟩
    simp [hp]

/-- A lead under the kernel with a worker under it. -/
def leadAndWorker : Registry :=
  ((exec treeStep (reapedParent.take 2) (boot 0 "king" "root" "vps1"))).getD new

lemma leadAndWorker_isTree : leadAndWorker.IsTree := by
  have hrun := Run.of_exec
    (show exec treeStep (reapedParent.take 2) (boot 0 "king" "root" "vps1") = some leadAndWorker from rfl)
  have ho : leadAndWorker.Ordered := (hrun.invariant (fun _ _ _ hs hstep => hs.treeStep hstep)
    (boot_ordered _ _ _ _)).2
  refine ho.isTree ⟨rfl,fun k p hp hk => ?_⟩
  have hb := get_bound hp
  have h4 : leadAndWorker.nextPID = 4 := rfl
  obtain rfl | rfl : k = 2 ∨ k = 3 := by omega
  · cases hp; rfl
  · cases hp; rfl

theorem keepsTree_iff_not_reaches_worker :
    leadAndWorker.IsTree ∧ leadAndWorker.get 3 ≠ none ∧
    (∃ r', leadAndWorker.reparent 0 3 1 = .ok r' ∧
      (KeepsTree leadAndWorker r' ↔ ¬Reaches leadAndWorker.link 1 3)) ∧
    (KeepsTree leadAndWorker (leadAndWorker.orphanAdoption 0 [1,2,3] 1).2 ↔
      ∀ k, leadAndWorker.Adoptable 1 k → ¬Reaches leadAndWorker.link 1 k) := by
  have h := keepsTree_iff_not_reaches leadAndWorker_isTree
  exact ⟨leadAndWorker_isTree,by decide,h.1 0 3 1 rfl rfl,h.2 0 1 [1,2,3] rfl (by decide)⟩

/-- The lead can be moved under its own worker, which closes a cycle. -/
theorem reparent_closes_cycle :
    ¬ ∀ (r : Registry) (now : ℤ) (pid newParentPID : ℕ) (r' : Registry), r.IsTree →
      (r.get pid).isSome → (r.get newParentPID).isSome →
      r.reparent now pid newParentPID = .ok r' → KeepsTree r r' := by
  intro h
  obtain ⟨r',hr',h2,h3⟩ : ∃ r', leadAndWorker.reparent 0 2 3 = .ok r' ∧ r'.link 2 = some 3 ∧
      r'.link 3 = some 2 := ⟨_,rfl,rfl,rfl⟩
  have hkeeps := h leadAndWorker 0 2 3 r' leadAndWorker_isTree rfl rfl hr'
  exact hkeeps.acyclic 2 (.head h2 (.single h3))

end Registry
end HiveKernel
