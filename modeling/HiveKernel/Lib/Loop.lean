import Mathlib.Order.Basic
import Mathlib.Tactic.Cases

/-! Loops with an explicit bound on the number of iterations.
A loop that is still running when the bound is reached has no result, so a loop terminates
exactly if some bound gives one. -/
namespace HiveKernel.Lib
variable {σ β : Type}

/-- Run the body at most `fuel` times: `inl` continues with a new state, `inr` leaves the loop. -/
def loop (body : σ → σ ⊕ β) : ℕ → σ → Option β
  | 0,_ => none
  | fuel+1,s => match body s with
    | .inl t => loop body fuel t
    | .inr b => some b

/-- A measure that every iteration lowers bounds the number of iterations. -/
theorem loop_isSome_of_measure (body : σ → σ ⊕ β) (measure : σ → ℕ)
    (hm : ∀ s t, body s = .inl t → measure t < measure s) (fuel : ℕ) (s : σ)
    (hs : measure s < fuel) : (loop body fuel s).isSome := by
  induction fuel generalizing s with
  | zero => omega
  | succ fuel ih =>
    unfold loop
    split
    next t ht =>
      have hlt := hm s t ht
      exact ih t (by omega)
    next b hb => rfl

/-- A loop that has returned makes no use of more iterations. -/
theorem loop_of_le {body : σ → σ ⊕ β} {fuel fuel' : ℕ} {s : σ} {b : β} (h : loop body fuel s = some b)
    (hf : fuel ≤ fuel') : loop body fuel' s = some b := by
  induction fuel generalizing fuel' s with
  | zero => cases h
  | succ fuel ih =>
    obtain ⟨fuel',rfl⟩ : ∃ n, fuel' = n+1 := ⟨fuel'-1,by omega⟩
    unfold loop at h ⊢
    split at h
    next t ht => exact ih h (by omega)
    next c hc => exact h

/-- What the body preserves holds in the state in which the loop is left. -/
theorem loop_post (body : σ → σ ⊕ β) (inv : σ → Prop)
    (hinv : ∀ s t, inv s → body s = .inl t → inv t) {fuel : ℕ} {s : σ} {b : β}
    (hs : inv s) (h : loop body fuel s = some b) : ∃ t, inv t ∧ body t = .inr b := by
  induction fuel generalizing s with
  | zero => cases h
  | succ fuel ih =>
    unfold loop at h
    split at h
    next t ht => exact ih (hinv s t hs ht) h
    next b' hb => exact ⟨s,hs,hb.trans (congrArg Sum.inr (Option.some.inj h))⟩

section MapM
variable {α γ : Type}

/-- A fallible pass over a list succeeds if it succeeds on every element. -/
theorem mapM_isSome (f : α → Option γ) (l : List α) (h : ∀ a ∈ l, (f a).isSome) :
    (l.mapM f).isSome := by
  induction l with
  | nil => rfl
  | cons a l ih =>
    obtain ⟨b,hb⟩ := Option.isSome_iff_exists.mp (h a (by simp))
    obtain ⟨bs,hbs⟩ := Option.isSome_iff_exists.mp (ih (fun x hx => h x (by simp [hx])))
    simp [List.mapM_cons,hb,hbs]

/-- A pass that succeeds has succeeded on every element, and returns the results. -/
theorem eq_filterMap_of_mapM (f : α → Option γ) {l : List α} {bs : List γ} (h : l.mapM f = some bs) :
    (∀ a ∈ l, (f a).isSome) ∧ bs = l.filterMap f := by
  induction l generalizing bs with
  | nil => cases h; simp
  | cons a l ih =>
    rw [List.mapM_cons] at h
    cases ha : f a with
    | none => simp [ha] at h
    | some c =>
      cases hl : l.mapM f with
      | none => simp [ha,hl] at h
      | some cs =>
        simp only [ha,hl,Option.bind_eq_bind,Option.bind_some,Option.pure_def,Option.some.injEq] at h
        subst h
        obtain ⟨hsome,rfl⟩ := ih hl
        refine ⟨fun x hx => ?_,?_⟩
        · rcases List.mem_cons.mp hx with rfl | hx
          · simp [ha]
          · exact hsome x hx
        · rw [List.filterMap_cons,ha]

theorem mapM_isSome_iff (f : α → Option γ) (l : List α) :
    (l.mapM f).isSome ↔ ∀ a ∈ l, (f a).isSome := by
  refine ⟨fun h => ?_,mapM_isSome f l⟩
  obtain ⟨bs,hbs⟩ := Option.isSome_iff_exists.mp h
  exact (eq_filterMap_of_mapM f hbs).1

/-- What such a pass returns is made of results of the elements. -/
theorem exists_of_mem_mapM (f : α → Option γ) {l : List α} {bs : List γ} (h : l.mapM f = some bs)
    {b : γ} (hb : b ∈ bs) : ∃ a ∈ l, f a = some b := by
  rw [(eq_filterMap_of_mapM f h).2] at hb
  exact List.mem_filterMap.mp hb

/-- A fallible pass that collects lists, put together. -/
theorem flatten_of_mapM (f : α → Option (List γ)) {l : List α} {bs : List (List γ)}
    (h : l.mapM f = some bs) :
    (∀ a ∈ l, (f a).isSome) ∧ bs.flatten = l.flatMap (fun a => (f a).getD []) := by
  obtain ⟨hsome,rfl⟩ := eq_filterMap_of_mapM f h
  refine ⟨hsome,?_⟩
  clear h
  induction l with
  | nil => rfl
  | cons a l ih =>
    obtain ⟨c,hc⟩ := Option.isSome_iff_exists.mp (hsome a (by simp))
    rw [List.filterMap_cons,hc,List.flatten_cons,List.flatMap_cons,hc,
      ih (fun x hx => hsome x (by simp [hx]))]
    rfl

end MapM
end HiveKernel.Lib
