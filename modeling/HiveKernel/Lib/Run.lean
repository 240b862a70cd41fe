import Mathlib.Data.List.Basic
import Mathlib.Data.List.Induction

/-! Finite runs of a labelled transition system, with every transition recorded. A label carries
all choices that the environment makes, so a step is a partial function. -/
namespace HiveKernel.Lib
variable {σ ι : Type}

/-- One transition of a run. -/
structure Transition (σ ι : Type) where
  source : σ
  label : ι
  target : σ

/-- A run from `s` to `t`, with its transitions in order. -/
inductive Run (step : σ → ι → Option σ) : σ → List (Transition σ ι) → σ → Prop
  | nil (s : σ) : Run step s [] s
  | cons {s t u : σ} {l : ι} {trace : List (Transition σ ι)} (first : step s l = some t)
      (rest : Run step t trace u) : Run step s (⟨s,l,t⟩::trace) u

/-- Take the labels one after the other. -/
def exec (step : σ → ι → Option σ) : List ι → σ → Option σ
  | [],s => some s
  | l::ls,s => (step s l).bind (exec step ls)

theorem exec_cons {step : σ → ι → Option σ} {s t : σ} {l : ι} {ls : List ι} (h : step s l = some t) :
    exec step (l::ls) s = exec step ls t := by
  rw [exec,h,Option.bind_some]

theorem exec_append {step : σ → ι → Option σ} {s t : σ} {ls ls' : List ι} (h : exec step ls s = some t) :
    exec step (ls++ls') s = exec step ls' t := by
  induction ls generalizing s with
  | nil => cases h; rfl
  | cons l ls ih =>
    obtain ⟨u,hu,ht⟩ := Option.bind_eq_some_iff.mp h
    rw [List.cons_append,exec_cons hu]
    exact ih ht

/-- The transitions of that run, as far as it goes. -/
def transitions (step : σ → ι → Option σ) : List ι → σ → List (Transition σ ι)
  | [],_ => []
  | l::ls,s => match step s l with
    | none => []
    | some t => ⟨s,l,t⟩::transitions step ls t

theorem label_mem_of_mem_transitions {step : σ → ι → Option σ} {labels : List ι} {s : σ}
    {e : Transition σ ι} (h : e ∈ transitions step labels s) : e.label ∈ labels := by
  induction labels generalizing s with
  | nil => simp [transitions] at h
  | cons l labels ih =>
    rw [transitions] at h
    split at h
    · simp at h
    · rcases List.mem_cons.mp h with rfl | h
      · simp
      · exact List.mem_cons_of_mem l (ih h)

namespace Run
variable {step : σ → ι → Option σ} {s t : σ} {trace : List (Transition σ ι)}

theorem of_exec {labels : List ι} (h : exec step labels s = some t) :
    Run step s (transitions step labels s) t := by
  induction labels generalizing s with
  | nil => cases h; exact .nil _
  | cons l labels ih =>
    obtain ⟨u,hu,ht⟩ := Option.bind_eq_some_iff.mp h
    rw [transitions,hu]
    exact .cons hu (ih ht)

theorem snoc {u : σ} {l : ι} (run : Run step s trace t) (last : step t l = some u) :
    Run step s (trace++[⟨t,l,u⟩]) u := by
  induction run with
  | nil => exact .cons last (.nil _)
  | cons first _ ih => exact .cons first (ih last)

theorem append {u : σ} {trace' : List (Transition σ ι)} (run : Run step s trace t)
    (rest : Run step t trace' u) : Run step s (trace++trace') u := by
  induction run with
  | nil => exact rest
  | cons first _ ih => exact .cons first (ih rest)

/-- A run can be cut at each of its transitions. -/
theorem split {u : σ} {before later : List (Transition σ ι)} {e : Transition σ ι}
    (run : Run step s (before++e::later) u) :
    Run step s before e.source ∧ step e.source e.label = some e.target ∧ Run step e.target later u := by
  induction before generalizing s with
  | nil =>
    cases run with
    | cons first rest => exact ⟨.nil _,first,rest⟩
  | cons d before ih =>
    cases run with
    | cons first rest =>
      obtain ⟨hbefore,hstep,hlater⟩ := ih rest
      exact ⟨.cons first hbefore,hstep,hlater⟩

/-- A run can be cut at each of its states. -/
theorem cut {m : σ} (run : Run step s trace t) (hm : m = s ∨ ∃ e ∈ trace, m = e.target) :
    ∃ before later, trace = before++later ∧ Run step s before m ∧ Run step m later t := by
  rcases hm with rfl | ⟨e,he,rfl⟩
  · exact ⟨[],trace,rfl,.nil _,run⟩
  · obtain ⟨before,later,rfl⟩ := List.append_of_mem he
    obtain ⟨hbefore,hstep,hlater⟩ := run.split
    exact ⟨before++[e],later,by simp,hbefore.snoc hstep,hlater⟩

/-- What holds of the empty run, and of a run with its last step if it holds of the run before it, holds of
every run. -/
theorem snoc_induction {P : List (Transition σ ι) → σ → Prop} (run : Run step s trace t) (hnil : P [] s)
    (hsnoc : ∀ trace t l u, Run step s trace t → P trace t → step t l = some u → P (trace++[⟨t,l,u⟩]) u) :
    P trace t := by
  induction trace using List.reverseRecOn generalizing t with
  | nil =>
    cases run
    exact hnil
  | append_singleton trace e ih =>
    obtain ⟨hbefore,hlast,hrest⟩ := run.split
    cases hrest
    exact hsnoc trace e.source e.label e.target hbefore (ih hbefore) hlast

/-- Every state of a run is its first state or the target of a transition. -/
theorem source_of_target {P : σ → Prop} (run : Run step s trace t) (hs : P s)
    (ht : ∀ e ∈ trace, P e.target) : ∀ e ∈ trace, P e.source := by
  induction run with
  | nil => simp
  | @cons s t u l trace first _ ih =>
    intro e he
    rcases List.mem_cons.mp he with rfl | he
    · exact hs
    · exact ih (ht ⟨s,l,t⟩ (by simp)) (fun e he => ht e (by simp [he])) e he

/-- Along a run of allowed steps, what every allowed step keeps holds in the source of each
transition and at the end. -/
theorem invariant_of_allowed {inv : σ → Prop} {allowed : σ → ι → Prop}
    (hstep : ∀ s l t, inv s → allowed s l → step s l = some t → inv t)
    (run : Run step s trace t) (hs : inv s) (hall : ∀ e ∈ trace, allowed e.source e.label) :
    (∀ e ∈ trace, inv e.source ∧ step e.source e.label = some e.target) ∧ inv t := by
  induction run with
  | nil => exact ⟨by simp,hs⟩
  | @cons s t u l trace first rest ih =>
    have ht := hstep s l t hs (hall ⟨s,l,t⟩ (by simp)) first
    obtain ⟨hrest,hu⟩ := ih ht (fun e he => hall e (by simp [he]))
    refine ⟨fun e he => ?_,hu⟩
    rcases List.mem_cons.mp he with rfl | he
    · exact ⟨hs,first⟩
    · exact hrest e he

/-- An invariant of the steps holds in every state that a run reaches. -/
theorem invariant {inv : σ → Prop} (hstep : ∀ s l t, inv s → step s l = some t → inv t)
    (run : Run step s trace t) (hs : inv s) :
    (∀ e ∈ trace, inv e.source ∧ step e.source e.label = some e.target) ∧ inv t :=
  run.invariant_of_allowed (fun s l t h (_ : True) => hstep s l t h) hs (fun _ _ => trivial)

/-- If an invariant makes the legal transitions good exactly if they are allowed, and the allowed ones keep it,
then a run of legal steps is good exactly if all its steps are allowed. -/
theorem good_iff_allowed_of_legal (inv : σ → Prop) (good : Transition σ ι → Prop) (legal allowed : σ → ι → Prop)
    (hstep : ∀ s l t, inv s → legal s l → step s l = some t →
      (good ⟨s,l,t⟩ ↔ allowed s l) ∧ (allowed s l → inv t))
    (run : Run step s trace t) (hs : inv s) (hlegal : ∀ e ∈ trace, legal e.source e.label) :
    (∀ e ∈ trace, good e) ↔ ∀ e ∈ trace, allowed e.source e.label := by
  induction run with
  | nil => simp
  | @cons s t u l trace first rest ih =>
    rw [List.forall_mem_cons] at hlegal
    obtain ⟨hgood,hinv⟩ := hstep s l t hs hlegal.1 first
    rw [List.forall_mem_cons,List.forall_mem_cons]
    constructor
    · rintro ⟨hfirst,hrest⟩
      have hallowed := hgood.mp hfirst
      exact ⟨hallowed,(ih (hinv hallowed) hlegal.2).mp hrest⟩
    · rintro ⟨hfirst,hrest⟩
      exact ⟨hgood.mpr hfirst,(ih (hinv hfirst) hlegal.2).mpr hrest⟩

/-- The same where every step is legal and the targets are what is good. -/
theorem good_iff_allowed (inv good : σ → Prop) (allowed : σ → ι → Prop)
    (hstep : ∀ s l t, inv s → step s l = some t → (good t ↔ allowed s l) ∧ (allowed s l → inv t))
    (run : Run step s trace t) (hs : inv s) :
    (∀ e ∈ trace, good e.target) ↔ ∀ e ∈ trace, allowed e.source e.label :=
  run.good_iff_allowed_of_legal inv (fun e => good e.target) (fun _ _ => True) allowed
    (fun s l t h _ => hstep s l t h) hs (fun _ _ => trivial)

/-- Every transition of a run is a step. -/
theorem steps (run : Run step s trace t) : ∀ e ∈ trace, step e.source e.label = some e.target := by
  induction run with
  | nil => simp
  | cons first _ ih =>
    intro e he
    rcases List.mem_cons.mp he with rfl | he
    · exact first
    · exact ih e he

/-- Where every allowed step makes a measure smaller, a run of allowed steps is no longer than the measure. -/
theorem length_add_le (m : σ → ℕ) {allowed : ι → Prop}
    (hstep : ∀ s l t, allowed l → step s l = some t → m t < m s) (run : Run step s trace t)
    (hall : ∀ e ∈ trace, allowed e.label) : trace.length + m t ≤ m s := by
  induction run with
  | nil => simp
  | @cons s t u l trace first _ ih =>
    rw [List.forall_mem_cons] at hall
    have hfirst := hstep s l t hall.1 first
    have hrest := ih hall.2
    rw [List.length_cons]
    omega

end Run
end HiveKernel.Lib
