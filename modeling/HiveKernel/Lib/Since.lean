import Mathlib.Data.List.Basic
import Mathlib.Data.List.Induction

/-! Conditions on the past of a run, read off its list of events: what has held since some moment, and how often
something happened in a row. Each is determined by one event at a time. -/
namespace HiveKernel.Lib
variable {ι : Type}

/-- At some moment of the past `start` held of the events so far, and no later event is one that `stops`. -/
def Since (start : List ι → Prop) (stops : ι → Prop) (past : List ι) : Prop :=
  ∃ before after, past = before++after ∧ start before ∧ ∀ c ∈ after, ¬stops c

theorem since_of_start {start : List ι → Prop} {stops : ι → Prop} {past : List ι} (h : start past) :
    Since start stops past := ⟨past,[],by simp,h,by simp⟩

theorem since_nil {start : List ι → Prop} {stops : ι → Prop} : Since start stops [] ↔ start [] := by
  constructor
  · rintro ⟨before,after,he,hstart,-⟩
    obtain ⟨rfl,rfl⟩ := List.append_eq_nil_iff.mp he.symm
    exact hstart
  · exact since_of_start

theorem since_snoc {start : List ι → Prop} {stops : ι → Prop} (past : List ι) (c : ι) :
    Since start stops (past++[c]) ↔ start (past++[c]) ∨ (¬stops c ∧ Since start stops past) := by
  constructor
  · rintro ⟨before,after,he,hstart,hafter⟩
    rcases List.eq_nil_or_concat' after with rfl | ⟨after,d,rfl⟩
    · rw [List.append_nil] at he
      exact .inl (he ▸ hstart)
    · rw [← List.append_assoc] at he
      obtain ⟨rfl,hd⟩ := List.append_inj' he rfl
      obtain rfl : c = d := by simpa using hd
      refine .inr ⟨hafter c (by simp),before,after,rfl,hstart,fun e he => ?_⟩
      exact hafter e (by simp [he])
  · rintro (hstart | ⟨hc,before,after,rfl,hstart,hafter⟩)
    · exact since_of_start hstart
    · refine ⟨before,after++[c],by simp,hstart,fun d hd => ?_⟩
      rcases List.mem_append.mp hd with hd | hd
      · exact hafter d hd
      · obtain rfl := List.mem_singleton.mp hd
        exact hc

/-- How many events count since the last one that resets. -/
def streak (counts resets : ι → Bool) (past : List ι) : ℕ :=
  (past.reverse.takeWhile (fun c => !resets c)).countP counts

@[simp] theorem streak_nil (counts resets : ι → Bool) : streak counts resets [] = 0 := rfl

theorem streak_snoc (counts resets : ι → Bool) (past : List ι) (c : ι) :
    streak counts resets (past++[c]) =
      if resets c then 0 else streak counts resets past+(if counts c then 1 else 0) := by
  unfold streak
  rw [List.reverse_append,List.reverse_singleton,List.singleton_append,List.takeWhile_cons]
  cases resets c with
  | true => rfl
  | false => exact List.countP_cons

end HiveKernel.Lib
