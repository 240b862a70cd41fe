import Mathlib.Data.List.Pairwise
import Mathlib.Data.List.Perm.Basic
import Mathlib.Order.Lattice

/-! Sorting by exchanges: two nested loops over positions `i < j` that swap the two elements where the
one at `i` has a smaller key than the one at `j`. The result is ordered by falling keys. -/
namespace HiveKernel.Lib
variable {α κ : Type} [LinearOrder κ] (key : α → κ)

/-- The inner loop: one position is compared with all behind it. Whoever has the larger key takes it,
the other one the place behind. -/
def exchanges : α → List α → α × List α
  | x,[] => (x,[])
  | x,y::ys =>
    if key x < key y then ((exchanges y ys).1,x::(exchanges y ys).2)
    else ((exchanges x ys).1,y::(exchanges x ys).2)

/-- The outer loop, for so many positions. -/
def exchangePasses : ℕ → List α → List α
  | 0,xs => xs
  | _+1,[] => []
  | n+1,x::xs => (exchanges key x xs).1::exchangePasses n (exchanges key x xs).2

def exchangeSort (xs : List α) : List α := exchangePasses key xs.length xs

lemma exchanges_perm (x : α) (xs : List α) :
    ((exchanges key x xs).1::(exchanges key x xs).2).Perm (x::xs) := by
  induction xs generalizing x with
  | nil => exact .refl _
  | cons y ys ih =>
    rw [exchanges]
    split_ifs
    · exact (List.Perm.swap x _ _).trans ((ih y).cons x)
    · exact ((List.Perm.swap y _ _).trans ((ih x).cons y)).trans (List.Perm.swap x y ys)

/-- The inner loop leaves a largest key in front. -/
lemma key_le_exchanges (x : α) (xs : List α) :
    key x ≤ key (exchanges key x xs).1 ∧ ∀ y ∈ (exchanges key x xs).2, key y ≤ key (exchanges key x xs).1 := by
  induction xs generalizing x with
  | nil => simp [exchanges]
  | cons y ys ih =>
    rw [exchanges]
    by_cases hlt : key x < key y
    · rw [if_pos hlt]
      obtain ⟨hy,hrest⟩ := ih y
      have hx := hlt.le.trans hy
      refine ⟨hx,fun z hz => ?_⟩
      rcases List.mem_cons.mp hz with rfl | hz
      · exact hx
      · exact hrest z hz
    · rw [if_neg hlt]
      obtain ⟨hx,hrest⟩ := ih x
      refine ⟨hx,fun z hz => ?_⟩
      rcases List.mem_cons.mp hz with rfl | hz
      · exact (not_lt.mp hlt).trans hx
      · exact hrest z hz

lemma length_exchanges (x : α) (xs : List α) : (exchanges key x xs).2.length = xs.length := by
  have h := (exchanges_perm key x xs).length_eq
  simpa using h

lemma exchangePasses_perm (n : ℕ) (xs : List α) : (exchangePasses key n xs).Perm xs := by
  induction n generalizing xs with
  | zero => exact .refl _
  | succ n ih =>
    cases xs with
    | nil => exact .refl _
    | cons x xs => exact ((ih _).cons _).trans (exchanges_perm key x xs)

theorem exchangeSort_perm (xs : List α) : (exchangeSort key xs).Perm xs := exchangePasses_perm key _ xs

lemma pairwise_exchangePasses (n : ℕ) (xs : List α) (hn : xs.length = n) :
    (exchangePasses key n xs).Pairwise (fun x y => key y ≤ key x) := by
  induction n generalizing xs with
  | zero =>
    rw [List.length_eq_zero_iff.mp hn]
    exact .nil
  | succ n ih =>
    cases xs with
    | nil => exact .nil
    | cons x xs =>
      rw [exchangePasses,List.pairwise_cons]
      constructor
      · intro y hy
        exact (key_le_exchanges key x xs).2 y ((exchangePasses_perm key n _).mem_iff.mp hy)
      · apply ih
        rw [length_exchanges]
        simpa using hn

theorem pairwise_exchangeSort (xs : List α) :
    (exchangeSort key xs).Pairwise (fun x y => key y ≤ key x) :=
  pairwise_exchangePasses key xs.length xs rfl

end HiveKernel.Lib
