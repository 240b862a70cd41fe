import Mathlib.Data.List.Basic

/-! Logs whose entries overwrite what is there, so that an entry has no effect of its own if it comes again
later. Such a log may be replayed from an older position than the one a state has been taken at. -/
namespace HiveKernel.Lib
variable {σ ε : Type}

/-- Applying an entry is lost when it is applied again later, whatever comes in between. -/
def Overwrites (apply : σ → ε → σ) : Prop :=
  ∀ (s : σ) (e : ε) (between : List ε), apply (between.foldl apply (apply s e)) e = apply (between.foldl apply s) e

/-- So is the effect of a whole block. -/
theorem Overwrites.block {apply : σ → ε → σ} (h : Overwrites apply) (s : σ) (block between : List ε) :
    block.foldl apply (between.foldl apply (block.foldl apply s)) = block.foldl apply (between.foldl apply s) := by
  induction block generalizing s between with
  | nil => rfl
  | cons e block ih =>
    simp only [List.foldl_cons]
    calc block.foldl apply (apply (between.foldl apply (block.foldl apply (apply s e))) e)
        = block.foldl apply (apply ((block++between).foldl apply (apply s e)) e) := by rw [List.foldl_append]
      _ = block.foldl apply (apply ((block++between).foldl apply s) e) := by rw [h]
      _ = block.foldl apply ((between++[e]).foldl apply (block.foldl apply s)) := by simp only [List.foldl_append,
            List.foldl_cons,List.foldl_nil]
      _ = block.foldl apply ((between++[e]).foldl apply s) := ih s (between++[e])
      _ = block.foldl apply (apply (between.foldl apply s) e) := by simp only [List.foldl_append,
            List.foldl_cons,List.foldl_nil]

/-- A state taken at position `p` catches up with the log by a replay from any position before. -/
theorem Overwrites.catchUp {apply : σ → ε → σ} (h : Overwrites apply) (s : σ) (log : List ε) {l p : ℕ} (hlp : l ≤ p) :
    (log.drop l).foldl apply ((log.take p).foldl apply s) = log.foldl apply s := by
  obtain ⟨d,rfl⟩ := Nat.exists_eq_add_of_le hlp
  obtain ⟨a,ha⟩ : ∃ a, log.take l = a := ⟨_,rfl⟩
  obtain ⟨b,c,hrest,hb⟩ : ∃ b c, log.drop l = b++c ∧ (log.drop l).take d = b :=
    ⟨_,_,(List.take_append_drop d _).symm,rfl⟩
  have hagain := h.block (a.foldl apply s) b []
  simp only [List.foldl_nil] at hagain
  calc (log.drop l).foldl apply ((log.take (l+d)).foldl apply s)
      = c.foldl apply (b.foldl apply (b.foldl apply (a.foldl apply s))) := by
        rw [List.take_add,ha,hb,hrest,List.foldl_append,List.foldl_append]
    _ = c.foldl apply (b.foldl apply (a.foldl apply s)) := by rw [hagain]
    _ = (a++(b++c)).foldl apply s := by rw [List.foldl_append,List.foldl_append]
    _ = log.foldl apply s := by rw [← ha,← hrest,List.take_append_drop]

end HiveKernel.Lib
