import Mathlib.Data.List.Forall2
import Mathlib.Logic.Basic
import Mathlib.Tactic.SplitIfs

/-! Sequences of checks that stop at the first one that fails, with its message. -/
namespace HiveKernel.Lib
variable {α β : Type}

/-- Pass if `ok` holds, fail with the message otherwise. -/
def require (ok : Prop) [Decidable ok] (message : String) : Except String Unit :=
  if ok then .ok () else .error message

/-- Prepend a context to the message of a failure, as Go's `%w` does. -/
def withContext (context : String) (x : Except String α) : Except String α :=
  x.mapError (context ++ ·)

theorem require_eq_ok {ok : Prop} [Decidable ok] {message : String} :
    require ok message = .ok () ↔ ok := by
  unfold require
  split_ifs with h <;> simp [h]

theorem require_bind_eq_ok {ok : Prop} [Decidable ok] {message : String}
    {f : Unit → Except String β} {b : β} :
    (require ok message >>= f) = .ok b ↔ ok ∧ f () = .ok b := by
  unfold require
  split_ifs with h
  · simp [h]; rfl
  · simp only [h,false_and,iff_false]; intro he; cases he

theorem bind_eq_ok {x : Except String α} {f : α → Except String β} {b : β} :
    (x >>= f) = .ok b ↔ ∃ a, x = .ok a ∧ f a = .ok b := by
  cases x with
  | error e =>
    constructor
    · intro h; cases h
    · rintro ⟨a,h,-⟩; cases h
  | ok a =>
    constructor
    · intro h; exact ⟨a,rfl,h⟩
    · rintro ⟨a',h,hf⟩; cases h; exact hf

theorem withContext_eq_ok {context : String} {x : Except String α} {a : α} :
    withContext context x = .ok a ↔ x = .ok a := by
  cases x <;> simp [withContext,Except.mapError]

/-- A pass over a list succeeds if it succeeds on every element, and returns the results in order. -/
theorem mapM_eq_ok_iff {f : α → Except String β} {l : List α} {bs : List β} :
    l.mapM f = .ok bs ↔ List.Forall₂ (fun a b => f a = .ok b) l bs := by
  induction l generalizing bs with
  | nil =>
    rw [List.mapM_nil,List.forall₂_nil_left_iff]
    constructor
    · intro h
      cases h
      rfl
    · rintro rfl
      rfl
  | cons a l ih =>
    rw [List.mapM_cons,bind_eq_ok]
    constructor
    · rintro ⟨b,hb,hrest⟩
      obtain ⟨rest,hl,hbs⟩ := bind_eq_ok.mp hrest
      cases hbs
      exact .cons hb (ih.mp hl)
    · rintro (_ | ⟨hb,hl⟩)
      exact ⟨_,hb,bind_eq_ok.mpr ⟨_,ih.mpr hl,rfl⟩⟩

section Partners
variable {γ δ : Type} {R : γ → δ → Prop} {l : List γ} {l' : List δ}

/-- Every element has its partner. -/
theorem exists_right_of_mem (h : List.Forall₂ R l l') {a : γ} (ha : a ∈ l) : ∃ b ∈ l', R a b := by
  induction h with
  | nil => cases ha
  | @cons c b l l' hcb _ ih =>
    rcases List.mem_cons.mp ha with rfl | ha
    · exact ⟨b,List.mem_cons_self ..,hcb⟩
    · obtain ⟨d,hd,had⟩ := ih ha
      exact ⟨d,List.mem_cons_of_mem b hd,had⟩

theorem exists_left_of_mem (h : List.Forall₂ R l l') {b : δ} (hb : b ∈ l') : ∃ a ∈ l, R a b :=
  exists_right_of_mem h.flip hb

/-- Partners can be found for a whole list exactly if every element has one. -/
theorem exists_forall₂_iff : (∃ l', List.Forall₂ R l l') ↔ ∀ a ∈ l, ∃ b, R a b := by
  induction l with
  | nil => exact iff_of_true ⟨[],.nil⟩ (by simp)
  | cons a l ih =>
    rw [List.forall_mem_cons,← ih]
    constructor
    · rintro ⟨_,_ | ⟨hb,hl⟩⟩
      exact ⟨⟨_,hb⟩,_,hl⟩
    · rintro ⟨⟨b,hb⟩,bs,hl⟩
      exact ⟨b::bs,.cons hb hl⟩

end Partners

end HiveKernel.Lib
