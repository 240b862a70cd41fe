import HiveKernel.Process.TreeSurgery

/-! The route of a message between two processes, and why it exists in a tree. -/
namespace HiveKernel
open Lib

inductive RouteType
  | direct | sibling | ancestor
  deriving DecidableEq, Repr

namespace Registry

/-- Parent and child talk directly, siblings too, everyone else through the nearest common
ancestor. There is no answer if the search for it does not end. -/
def findRoute (r : Registry) (fuel fromPID toPID : ℕ) : Option (Except String RouteType) :=
  match r.get fromPID with
  | none => some (.error (notFound fromPID))
  | some sender => match r.get toPID with
    | none => some (.error (notFound toPID))
    | some receiver =>
      if receiver.ppid = fromPID ∨ sender.ppid = toPID then some (.ok .direct)
      else if sender.ppid = receiver.ppid ∧ sender.ppid ≠ 0 then some (.ok .sibling)
      else match r.nearestCommonAncestor fuel fromPID toPID with
        | none => none
        | some (some _) => some (.ok .ancestor)
        | some none => some (.error s!"no route from PID {fromPID} to PID {toPID}")

variable {r : Registry}

/-- There are routes between registered processes only, and siblings have one parent, which is not the
receiver. -/
lemma findRoute_ok {fuel fromPID toPID : ℕ} {route : RouteType}
    (h : r.findRoute fuel fromPID toPID = some (.ok route)) :
    ∃ sender receiver, r.get fromPID = some sender ∧ r.get toPID = some receiver ∧
      (route = .sibling → sender.ppid = receiver.ppid ∧ toPID ≠ sender.ppid) := by
  unfold findRoute at h
  cases hs : r.get fromPID with
  | none => simp [hs] at h
  | some sender =>
    cases hr : r.get toPID with
    | none => simp [hs,hr] at h
    | some receiver =>
      refine ⟨sender,receiver,rfl,rfl,?_⟩
      rintro rfl
      simp only [hs,hr] at h
      split_ifs at h with hdirect hsibling
      · cases h
      · exact ⟨hsibling.1,fun he => hdirect (.inr he.symm)⟩
      · split at h <;> cases h

/-- In an attached table the way up ends at PID 1 and nowhere else. -/
lemma parentOf_cases (ho : r.Ordered) (ha : r.Attached) {k : ℕ} (hk : (r.get k).isSome) :
    (k = 1 ∧ r.parentOf k = none) ∨ ∃ b, r.parentOf k = some b ∧ (r.get b).isSome := by
  obtain ⟨p,hp⟩ := Option.isSome_iff_exists.mp hk
  by_cases h1 : k = 1
  · subst h1
    exact .inl ⟨rfl,by simp [parentOf,hp,ho.root p hp]⟩
  · have hlow := ho.lower k p hp h1
    have hne : ¬(p.ppid = k ∨ p.ppid = 0) := by omega
    exact .inr ⟨p.ppid,by simp [parentOf,hp,hne],ha.parent k p hp h1⟩

/-- Any two processes of an attached table have a nearest common ancestor. -/
theorem exists_nearestCommonAncestor (ho : r.Ordered) (ha : r.Attached) {a b fuel : ℕ}
    (hfa : (r.get a).isSome) (hfb : (r.get b).isSome) (hf : r.nextPID ≤ fuel) :
    ∃ c, r.nearestCommonAncestor fuel a b = some (some c) := by
  obtain ⟨answer,hanswer⟩ := Option.isSome_iff_exists.mp ((ho.walksReturn hf).nearestCommonAncestor a b)
  rw [hanswer]
  obtain ⟨ancestors,hanc,hmeet⟩ := Option.bind_eq_some_iff.mp hanswer
  have hone : 1 ∈ ancestors := by
    obtain ⟨t,ht,hbody⟩ := loop_post r.ancestorsBody (fun s => (r.get s.2).isSome)
      (fun s t hs hst => by
        rcases parentOf_cases ho ha hs with ⟨-,hn⟩ | ⟨n,hn,hsome⟩
        · simp [ancestorsBody,hn] at hst
        · simp only [ancestorsBody,hn,Sum.inl.injEq] at hst
          subst hst
          exact hsome) hfa hanc
    rcases parentOf_cases ho ha ht with ⟨h1,hn⟩ | ⟨n,hn,-⟩
    · simp only [ancestorsBody,hn,Sum.inr.injEq] at hbody
      rw [← hbody,h1]
      exact List.mem_cons_self
    · simp [ancestorsBody,hn] at hbody
  obtain ⟨t,ht,hbody⟩ := loop_post (r.meetBody ancestors) (fun k => (r.get k).isSome)
    (fun s t hs hst => by
      unfold meetBody at hst
      split_ifs at hst
      rcases parentOf_cases ho ha hs with ⟨-,hn⟩ | ⟨n,hn,hsome⟩
      · simp [hn] at hst
      · simp only [hn,Sum.inl.injEq] at hst
        exact hst ▸ hsome) hfb hmeet
  unfold meetBody at hbody
  split_ifs at hbody with hmem
  · exact ⟨t,congrArg some (Sum.inr.inj hbody).symm⟩
  · rcases parentOf_cases ho ha ht with ⟨rfl,-⟩ | ⟨n,hn,-⟩
    · exact absurd hone hmem
    · simp [hn] at hbody

theorem exists_route (ho : r.Ordered) (ha : r.Attached) {a b fuel : ℕ} (hfa : (r.get a).isSome)
    (hfb : (r.get b).isSome) (hf : r.nextPID ≤ fuel) :
    ∃ route, r.findRoute fuel a b = some (.ok route) := by
  obtain ⟨c,hc⟩ := exists_nearestCommonAncestor ho ha hfa hfb hf
  obtain ⟨p,hp⟩ := Option.isSome_iff_exists.mp hfa
  obtain ⟨q,hq⟩ := Option.isSome_iff_exists.mp hfb
  simp only [findRoute,hp,hq,hc]
  split_ifs
  · exact ⟨_,rfl⟩
  · exact ⟨_,rfl⟩
  · exact ⟨_,rfl⟩

/-- Reaping keeps a table attached if it moves all children, that is, if none of them is dead. -/
lemma Attached.reap (ha : r.Attached) (ho : r.Ordered) {now : ℤ} {childOrder : List ℕ} {k : ℕ}
    {p : Process} (hp : r.get k = some p) (h1 : k ≠ 1)
    (halive : ∀ j c, r.get j = some c → c.ppid = k → c.state ≠ .dead)
    (hall : ∀ j, (r.get j).isSome → j ∈ childOrder) : (r.reap now childOrder p).Attached := by
  obtain rfl := get_pid hp
  have hlow := ho.lower p.pid p hp h1
  have hpp := ha.parent p.pid p hp h1
  have hstay : ∀ j, j ≠ p.pid → (r.get j).isSome → ((r.reap now childOrder p).get j).isSome := by
    intro j hj hsome
    rw [get_reap hall,if_neg hj]
    simpa using hsome
  refine ⟨hstay 1 h1.symm ha.root,fun j c' hc' hj => ?_⟩
  rw [get_reap hall] at hc'
  split_ifs at hc'
  obtain ⟨c,hc,rfl⟩ := Option.map_eq_some_iff.mp hc'
  by_cases hchild : c.ppid = p.pid
  · rw [adoptedBy,if_pos ⟨hchild,halive j c hc hchild,hpp⟩]
    exact hstay p.ppid (by omega) hpp
  · rw [adoptedBy,if_neg (fun h => hchild h.1)]
    exact hstay c.ppid hchild (ha.parent j c hc hj)

/-- No process that a scan at this time would reap has a dead child. -/
def SparesDead (r : Registry) (config : SupervisorConfig) (now : ℤ) : Prop :=
  ∀ j c p, r.get j = some c → c.state = .dead → r.get c.ppid = some p → ¬TimedOut config now p

/-- A whole scan. Reaping one process moves no dead process and makes no process time out. -/
lemma Attached.reapZombies (ha : r.Attached) (ho : r.Ordered) {config : SupervisorConfig} {now : ℤ}
    {order : List ℕ} {childOrder : ℕ → List ℕ} (hc : ∀ k ∈ order, r.Enumerates (childOrder k))
    (htimeout : 0 ≤ config.zombieTimeout) (hroot : ∀ p, r.get 1 = some p → p.state ≠ .zombie)
    (hspares : r.SparesDead config now) : (r.reapZombies config now order childOrder).Attached := by
  refine (reapZombies_induction hc (fun r => r.Attached ∧ r.Ordered ∧ r.SparesDead config now ∧
    ∀ p, r.get 1 = some p → p.state ≠ .zombie) ⟨ha,ho,hspares,hroot⟩ ?_).1
  rintro r k p ⟨ha,ho,hspares,hroot⟩ hp ht hall
  obtain rfl := get_pid hp
  have h1 : p.pid ≠ 1 := fun h => hroot p (h ▸ hp) ht.1
  have halive : ∀ j c, r.get j = some c → c.ppid = p.pid → c.state ≠ .dead :=
    fun j c hc hcp hd => hspares j c p hc hd (hcp.symm ▸ hp) ht
  refine ⟨ha.reap ho hp h1 halive hall,ho.reap hp hall,fun j c' q' hc' hd hq' => ?_,fun q hq => ?_⟩
  · rw [get_reap hall] at hc' hq'
    split_ifs at hc' hq'
    obtain ⟨c,hc,rfl⟩ := Option.map_eq_some_iff.mp hc'
    obtain ⟨q,hq,rfl⟩ := Option.map_eq_some_iff.mp hq'
    rw [adoptedBy_state] at hd
    have hnot : r.adoptedBy now p c = c := by
      rw [adoptedBy,if_neg (fun h => h.2.1 hd)]
    rw [hnot] at hq
    exact r.not_timedOut_adoptedBy p htimeout (hspares j c q hc hd hq)
  · rw [get_reap hall,if_neg h1.symm] at hq
    obtain ⟨c,hc,rfl⟩ := Option.map_eq_some_iff.mp hq
    rw [adoptedBy_state]
    exact hroot c hc

end Registry
end HiveKernel
