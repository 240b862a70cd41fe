import Mathlib.Data.List.Basic

/-! Paths as texts with a separator. A path names one directory after the other; below a directory is what
names it and then goes on. -/
namespace HiveKernel.Lib.Path
variable {α : Type} [DecidableEq α] {sep : α}

/-- The names in a path; an empty name stands for nothing. -/
def components (sep : α) (path : List α) : List (List α) := (path.splitOn sep).filter (· ≠ [])

/-- The absolute path with these names. -/
def render (sep : α) (names : List (List α)) : List α := sep::[sep].intercalate names

/-- The names can stand in a path. -/
def Plain (sep : α) (names : List (List α)) : Prop := ∀ name ∈ names, name ≠ [] ∧ sep ∉ name

lemma components_append (sep : α) (path rest : List α) :
    components sep (path++sep::rest) = components sep path++components sep rest := by
  rw [components,List.splitOn_append_cons_self,List.filter_append]
  rfl

omit [DecidableEq α] in
lemma filter_names {names : List (List α)} (h : Plain sep names) : names.filter (· ≠ []) = names := by
  rw [List.filter_eq_self]
  intro name hname
  simpa using (h name hname).1

/-- The names of a path can be read off it. -/
theorem components_render {names : List (List α)} (h : Plain sep names) :
    components sep (render sep names) = names := by
  have hfirst := components_append sep [] ([sep].intercalate names)
  rw [List.nil_append] at hfirst
  rw [render,hfirst]
  by_cases hnil : names = []
  · subst hnil
    simp [components]
  · rw [components,components,List.splitOn_intercalate sep (fun name hname => (h name hname).2) hnil,filter_names h]
    simp

lemma render_injective {names names' : List (List α)} (h : Plain sep names) (h' : Plain sep names')
    (heq : render sep names = render sep names') : names = names' := by
  rw [← components_render h,heq,components_render h']

omit [DecidableEq α] in
lemma render_append {dir : List (List α)} (hdir : dir ≠ []) {rest : List (List α)} (hrest : rest ≠ []) :
    render sep (dir++rest) = render sep dir++sep::[sep].intercalate rest := by
  simp only [render,List.cons_append,List.cons.injEq,true_and]
  induction dir with
  | nil => exact absurd rfl hdir
  | cons name dir ih =>
    cases dir with
    | nil => cases rest with
      | nil => exact absurd rfl hrest
      | cons next rest => simp [List.intercalate]
    | cons second dir =>
      have hnext := ih (List.cons_ne_nil _ _)
      simp only [List.cons_append] at hnext ⊢
      rw [List.intercalate_cons_cons,hnext,List.intercalate_cons_cons]
      simp

/-- A path lies in a directory other than the root exactly if it is the path of the directory, or starts with
that and a separator. -/
theorem isPrefixOf_or_eq_iff {dir names : List (List α)} (hdir : Plain sep dir) (hnames : Plain sep names)
    (hroot : dir ≠ []) : ((render sep dir++[sep]).isPrefixOf (render sep names) ∨ render sep names = render sep dir) ↔
      dir <+: names := by
  constructor
  · rintro (hstarts | hsame)
    · obtain ⟨rest,hrest⟩ := List.isPrefixOf_iff_prefix.mp hstarts
      rw [List.append_assoc] at hrest
      refine ⟨components sep rest,?_⟩
      rw [← components_render hnames,← hrest,List.singleton_append,components_append,components_render hdir]
    · exact (render_injective hnames hdir hsame) ▸ List.prefix_rfl
  · rintro ⟨rest,rfl⟩
    by_cases hrest : rest = []
    · subst hrest
      exact .inr (by rw [List.append_nil])
    · refine .inl (List.isPrefixOf_iff_prefix.mpr ⟨[sep].intercalate rest,?_⟩)
      rw [render_append hroot hrest,List.append_assoc,List.singleton_append]

end HiveKernel.Lib.Path
