import Mathlib.Data.List.Basic
import Mathlib.Data.List.Perm.Basic
import Mathlib.Data.List.Infix

/-! Lists that are joined to fewer lists: each one goes as a whole to exactly one place. -/
namespace HiveKernel.Lib
variable {α : Type}

/-- Every merged list is the concatenation of some of the lists, and each of them is used once. -/
def Regroups (lists merged : List (List α)) : Prop :=
  ∃ parts : List (List (List α)), parts.flatten.Perm lists ∧ merged = parts.map List.flatten

variable {lists merged : List (List α)}

lemma Regroups.refl (lists : List (List α)) : Regroups lists lists := by
  refine ⟨lists.map (fun l => [l]),?_,?_⟩
  · rw [← List.flatMap_def,List.flatMap_singleton']
  · rw [List.map_map]
    exact (List.map_id'' (fun l => by simp) lists).symm

/-- Nothing is lost and nothing is doubled. -/
lemma Regroups.flatten_perm (h : Regroups lists merged) : merged.flatten.Perm lists.flatten := by
  obtain ⟨parts,hparts,rfl⟩ := h
  rw [← List.flatten_flatten]
  exact hparts.flatten

/-- The elements of one list stay next to each other, in their order. -/
lemma Regroups.exists_infix (h : Regroups lists merged) {l : List α} (hl : l ∈ lists) :
    ∃ m ∈ merged, l <:+: m := by
  obtain ⟨parts,hparts,rfl⟩ := h
  obtain ⟨part,hpart,hmem⟩ := List.mem_flatten.mp (hparts.mem_iff.mpr hl)
  obtain ⟨before,after,rfl⟩ := List.append_of_mem hmem
  exact ⟨_,List.mem_map_of_mem hpart,before.flatten,after.flatten,by simp⟩

lemma modify_length_append (before after : List α) (x : α) (f : α → α) :
    (before++x::after).modify before.length f = before++f x::after := by
  induction before with
  | nil => rfl
  | cons y before ih => simp [ih]

/-- One more list is put at the end of one of the merged ones. -/
lemma Regroups.modify (h : Regroups lists merged) {j : ℕ} (hj : j < merged.length) (l : List α) :
    Regroups (lists++[l]) (merged.modify j (·++l)) := by
  obtain ⟨parts,hparts,rfl⟩ := h
  rw [List.length_map] at hj
  obtain ⟨before,part,after,rfl,rfl,-⟩ := List.exists_of_modify (fun part => part++[l]) hj
  refine ⟨before++(part++[l])::after,?_,?_⟩
  · have hmove : (before++(part++[l])::after).flatten.Perm ((before++part::after).flatten++[l]) := by
      simp only [List.flatten_append,List.flatten_cons,List.append_assoc]
      refine List.Perm.append_left _ (List.Perm.append_left _ ?_)
      exact List.perm_append_comm
    exact hmove.trans (hparts.append_right [l])
  · rw [List.map_append,List.map_append,List.map_cons,List.map_cons,← List.length_map List.flatten,
      modify_length_append]
    simp

end HiveKernel.Lib
