import HiveKernel.Ipc.Routing

/-! The nearest common ancestor of two processes: the first process on the way up from one of them that
lies on the way up from the other. -/
namespace HiveKernel
open Lib Relation
namespace Registry
variable {r : Registry} {a b c : ℕ}

/-- `c` is registered, and `a` or one of its ancestors. -/
def AncestorOrSelf (r : Registry) (c a : ℕ) : Prop := (r.get c).isSome ∧ Reaches r.link a c

/-- `c` is an ancestor of both processes (or one of them) and lies below all such. -/
structure NearestCommon (r : Registry) (a b c : ℕ) : Prop where
  left : r.AncestorOrSelf c a
  right : r.AncestorOrSelf c b
  lowest : ∀ d, r.AncestorOrSelf d a → r.AncestorOrSelf d b → r.AncestorOrSelf d c

lemma link_of_parentOf {k n : ℕ} (h : Link r.parentOf k n) : Link r.link k n :=
  link_eq_some.mpr (parentOf_eq_some h)

lemma reaches_link_of_parentOf (h : Reaches r.parentOf a c) : Reaches r.link a c :=
  ReflTransGen.mono (fun _ _ hl => link_of_parentOf hl) _ _ h

lemma acyclic_parentOf (ho : r.Ordered) : Acyclic r.parentOf :=
  fun _ h => ho.graded.acyclic _ (TransGen.mono (fun _ _ hl => link_of_parentOf hl) _ _ h)

/-- The loops go up to registered processes only. -/
lemma isSome_of_reaches (ho : r.Ordered) (ha : r.Attached) (hfa : (r.get a).isSome)
    (h : Reaches r.parentOf a c) : (r.get c).isSome := by
  induction h with
  | refl => exact hfa
  | tail _ hl ih =>
    rcases parentOf_cases ho ha ih with ⟨-,hn⟩ | ⟨n,hn,hsome⟩
    · cases hn.symm.trans hl
    · obtain rfl := Link.unique hn hl
      exact hsome

/-- A link to a process that leads on to a registered one is taken by the loops. -/
lemma parentOf_of_link (ho : r.Ordered) {k n : ℕ} (hl : Link r.link k n) (hreach : Reaches r.link n c)
    (hc : (r.get c).isSome) : Link r.parentOf k n := by
  obtain ⟨p,hp,rfl⟩ := link_eq_some.mp hl
  have hself : p.ppid ≠ k := (ho.ppid_lt hp).ne
  have hzero : p.ppid ≠ 0 := by
    intro h0
    rw [h0] at hreach
    have hnone : r.link 0 = none := by simp [link,get_zero]
    rw [← hreach.eq_of_none hnone,get_zero] at hc
    cases hc
  simp [Link,parentOf,hp,hself,hzero]

lemma ancestorOrSelf_iff (ho : r.Ordered) (ha : r.Attached) (hfa : (r.get a).isSome) :
    r.AncestorOrSelf c a ↔ Reaches r.parentOf a c := by
  constructor
  · rintro ⟨hc,h⟩
    clear hfa
    induction h using ReflTransGen.head_induction_on with
    | refl => exact .refl
    | head hl hreach ih => exact .head (parentOf_of_link ho hl hreach hc) ih
  · intro h
    exact ⟨isSome_of_reaches ho ha hfa h,reaches_link_of_parentOf h⟩

lemma nearestCommon_iff (ho : r.Ordered) (ha : r.Attached) (hfa : (r.get a).isSome)
    (hfb : (r.get b).isSome) : r.NearestCommon a b c ↔ Meet r.parentOf a b c := by
  constructor
  · rintro ⟨hl,hr,hlow⟩
    have hla := (ancestorOrSelf_iff ho ha hfa).mp hl
    have hfc := isSome_of_reaches ho ha hfa hla
    refine ⟨hla,(ancestorOrSelf_iff ho ha hfb).mp hr,fun d hda hdb => ?_⟩
    apply (ancestorOrSelf_iff ho ha hfc).mp
    exact hlow d ((ancestorOrSelf_iff ho ha hfa).mpr hda) ((ancestorOrSelf_iff ho ha hfb).mpr hdb)
  · rintro ⟨hl,hr,hfirst⟩
    have hfc := isSome_of_reaches ho ha hfa hl
    refine ⟨(ancestorOrSelf_iff ho ha hfa).mpr hl,(ancestorOrSelf_iff ho ha hfb).mpr hr,fun d hda hdb => ?_⟩
    apply (ancestorOrSelf_iff ho ha hfc).mpr
    exact hfirst d ((ancestorOrSelf_iff ho ha hfa).mp hda) ((ancestorOrSelf_iff ho ha hfb).mp hdb)

/-- The first loop collects the way up from `a`: what is not collected yet lies above where it is. -/
lemma mem_ancestors_iff {fuel : ℕ} {ancestors : List ℕ}
    (h : loop r.ancestorsBody fuel ([],a) = some ancestors) (x : ℕ) :
    x ∈ ancestors ↔ Reaches r.parentOf a x := by
  let inv : List ℕ × ℕ → Prop := fun s => Reaches r.parentOf a s.2 ∧
    (∀ x ∈ s.1, Reaches r.parentOf a x) ∧ ∀ x, Reaches r.parentOf a x → x ∈ s.1 ∨ Reaches r.parentOf s.2 x
  have hstep : ∀ s t, inv s → r.ancestorsBody s = .inl t → inv t := by
    rintro ⟨acc,cur⟩ t ⟨hcur,hacc,hall⟩ hst
    cases hn : r.parentOf cur with
    | none => simp [ancestorsBody,hn] at hst
    | some n =>
      simp only [ancestorsBody,hn,Sum.inl.injEq] at hst
      subst hst
      refine ⟨hcur.tail hn,fun x hx => ?_,fun x hx => ?_⟩
      · rcases List.mem_cons.mp hx with rfl | hx
        · exact hcur
        · exact hacc x hx
      · rcases hall x hx with hin | habove
        · exact .inl (List.mem_cons_of_mem _ hin)
        · by_cases heq : cur = x
          · exact .inl (by simp [heq])
          · exact .inr (habove.of_link heq hn)
  have hstart : inv ([],a) := ⟨.refl,by simp,fun x hx => .inr hx⟩
  obtain ⟨⟨acc,cur⟩,⟨hcur,hacc,hall⟩,hexit⟩ := loop_post r.ancestorsBody inv hstep hstart h
  cases hn : r.parentOf cur with
  | some n => simp [ancestorsBody,hn] at hexit
  | none =>
    simp only [ancestorsBody,hn,Sum.inr.injEq] at hexit
    subst hexit
    constructor
    · intro hx
      rcases List.mem_cons.mp hx with rfl | hx
      · exact hcur
      · exact hacc x hx
    · intro hx
      rcases hall x hx with hin | habove
      · exact List.mem_cons_of_mem _ hin
      · obtain rfl := habove.eq_of_none hn
        exact List.mem_cons_self

/-- The second loop passes no common ancestor. -/
lemma meet_of_nearestCommonAncestor {fuel : ℕ} (h : r.nearestCommonAncestor fuel a b = some (some c)) :
    Meet r.parentOf a b c := by
  obtain ⟨ancestors,hanc,hmeet⟩ := Option.bind_eq_some_iff.mp h
  have hmem := mem_ancestors_iff hanc
  let inv : ℕ → Prop := fun cur => Reaches r.parentOf b cur ∧
    ∀ d, Reaches r.parentOf a d → Reaches r.parentOf b d → Reaches r.parentOf cur d
  have hstep : ∀ s t, inv s → r.meetBody ancestors s = .inl t → inv t := by
    rintro cur t ⟨hcur,hall⟩ hst
    unfold meetBody at hst
    split_ifs at hst with hin
    cases hn : r.parentOf cur with
    | none => simp [hn] at hst
    | some n =>
      simp only [hn,Sum.inl.injEq] at hst
      subst hst
      refine ⟨hcur.tail hn,fun d had hbd => (hall d had hbd).of_link ?_ hn⟩
      rintro rfl
      exact hin ((hmem cur).mpr had)
  have hstart : inv b := ⟨.refl,fun d _ hbd => hbd⟩
  obtain ⟨cur,⟨hcur,hall⟩,hexit⟩ := loop_post (r.meetBody ancestors) inv hstep hstart hmeet
  unfold meetBody at hexit
  split_ifs at hexit with hin
  · simp only [Sum.inr.injEq,Option.some.injEq] at hexit
    subst hexit
    exact ⟨(hmem cur).mp hin,hcur,hall⟩
  · cases hn : r.parentOf cur with
    | none => simp [hn] at hexit
    | some n => simp [hn] at hexit

/-- Any two processes of a tree have exactly one nearest common ancestor, and it is found from either
side. -/
theorem nearestCommonAncestor_correct (ho : r.Ordered) (ha : r.Attached) (hfa : (r.get a).isSome)
    (hfb : (r.get b).isSome) :
    ∃ c, r.nearestCommonAncestor r.nextPID a b = some (some c) ∧ r.NearestCommon a b c ∧
      (∀ d, r.NearestCommon a b d → d = c) ∧ r.nearestCommonAncestor r.nextPID b a = some (some c) ∧
      (r.AncestorOrSelf a b → c = a) := by
  obtain ⟨c,hc⟩ := exists_nearestCommonAncestor ho ha hfa hfb le_rfl
  obtain ⟨d,hd⟩ := exists_nearestCommonAncestor ho ha hfb hfa le_rfl
  have hmeet := meet_of_nearestCommonAncestor hc
  have hacyclic := acyclic_parentOf ho
  obtain rfl : c = d := hmeet.unique hacyclic (meet_of_nearestCommonAncestor hd).symm
  refine ⟨c,hc,(nearestCommon_iff ho ha hfa hfb).mpr hmeet,fun d hd => ?_,hd,fun hab => ?_⟩
  · exact ((nearestCommon_iff ho ha hfa hfb).mp hd).unique hacyclic hmeet
  · exact hmeet.unique hacyclic (.of_reaches ((ancestorOrSelf_iff ho ha hfb).mp hab))

/-- Two branches of two processes each below PID 1. -/
def twoBranches : Registry :=
  let agent := fun parent name => child (agentRequest parent name .worker) none
  ((((boot 0 "root" "root" "vps1").register 0 (agent 1 "a")).register 0 (agent 1 "b")).register 0
    (agent 2 "aa")).register 0 (agent 3 "bb")

lemma twoBranches_ordered : twoBranches.Ordered :=
  ((((boot_ordered _ _ _ _).register _ _ (by decide)).register _ _ (by decide)).register _ _
    (by decide)).register _ _ (by decide)

lemma twoBranches_attached : twoBranches.Attached := by
  refine ⟨rfl,fun k p hp hk => ?_⟩
  have hb := get_bound hp
  have h6 : twoBranches.nextPID = 6 := rfl
  obtain rfl | rfl | rfl | rfl : k = 2 ∨ k = 3 ∨ k = 4 ∨ k = 5 := by omega
  · cases hp; rfl
  · cases hp; rfl
  · cases hp; rfl
  · cases hp; rfl

/-- Two processes of different branches meet in PID 1, a process and its child in the process. -/
theorem nearestCommonAncestor_correct_branches :
    twoBranches.NearestCommon 4 5 1 ∧ twoBranches.nearestCommonAncestor 6 2 4 = some (some 2) := by
  obtain ⟨c,hc,hnearest,-⟩ :=
    nearestCommonAncestor_correct twoBranches_ordered twoBranches_attached (a := 4) (b := 5) rfl rfl
  obtain ⟨d,hd,-,-,-,hself⟩ :=
    nearestCommonAncestor_correct twoBranches_ordered twoBranches_attached (a := 2) (b := 4) rfl rfl
  obtain rfl : c = 1 := Option.some.inj (Option.some.inj (hc.symm.trans rfl))
  obtain rfl : d = 2 := hself ⟨rfl,.single rfl⟩
  exact ⟨hnearest,hd⟩

end Registry
end HiveKernel
