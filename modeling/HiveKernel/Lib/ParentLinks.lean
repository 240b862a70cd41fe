import Mathlib.Data.Finset.Card
import Mathlib.Logic.Relation
import Mathlib.Order.Basic
import Mathlib.Tactic.Cases

/-! Parent links as a partial function: chains, acyclicity, and what redirecting some of the
links to one new parent does to a tree. -/
namespace HiveKernel.Lib
open Relation
variable {α : Type}

/-- `b` is the parent of `a`. -/
def Link (parent : α → Option α) (a b : α) : Prop := parent a = some b

/-- `b` lies on the chain of parents that starts in `a`. -/
def Reaches (parent : α → Option α) : α → α → Prop := ReflTransGen (Link parent)

/-- No chain of parents returns to where it started. -/
def Acyclic (parent : α → Option α) : Prop := ∀ a, ¬ TransGen (Link parent) a a

/-- Going to the parent lowers the rank. -/
def Graded (parent : α → Option α) (rank : α → ℕ) : Prop := ∀ a b, Link parent a b → rank b < rank a

/-- Every chain passes through `root`, and the parent of `root` starts no chain. -/
structure Rooted (parent : α → Option α) (root : α) : Prop where
  reaches : ∀ a, (parent a).isSome → Reaches parent a root
  top : ∀ z, parent root = some z → parent z = none

variable {parent : α → Option α} {root : α}

lemma Link.unique {a b c : α} (hb : Link parent a b) (hc : Link parent a c) : b = c :=
  Option.some.inj (hb.symm.trans hc)

lemma Graded.lt {rank : α → ℕ} (h : Graded parent rank) {a b : α} (hab : TransGen (Link parent) a b) :
    rank b < rank a := by
  induction hab with
  | single hl => exact h _ _ hl
  | tail _ hl ih => exact Nat.lt_trans (h _ _ hl) ih

theorem Graded.acyclic {rank : α → ℕ} (h : Graded parent rank) : Acyclic parent :=
  fun _ ha => Nat.lt_irrefl _ (h.lt ha)

/-- Where finitely many nodes have a parent, the number of those on the chain is a rank. -/
theorem Acyclic.exists_graded (h : Acyclic parent) (s : Finset α) (hs : ∀ a, (parent a).isSome → a ∈ s) :
    ∃ rank, Graded parent rank ∧ ∀ a, rank a ≤ s.card := by
  classical
  refine ⟨fun a => (s.filter (Reaches parent a)).card,fun a b hab => ?_,
    fun a => Finset.card_le_card (Finset.filter_subset _ _)⟩
  apply Finset.card_lt_card
  rw [Finset.ssubset_iff_of_subset]
  · refine ⟨a,Finset.mem_filter.mpr ⟨hs a (by simp [show parent a = some b from hab]),.refl⟩,?_⟩
    intro hmem
    exact h a (TransGen.head' hab (Finset.mem_filter.mp hmem).2)
  · intro c hc
    obtain ⟨hcs,hbc⟩ := Finset.mem_filter.mp hc
    exact Finset.mem_filter.mpr ⟨hcs,.head hab hbc⟩

/-- The chains of a rooted structure are finite. -/
theorem Rooted.wellFounded (h : Rooted parent root) : WellFounded (fun b a => Link parent a b) := by
  have hnone : ∀ a, parent a = none → Acc (fun b a => Link parent a b) a := by
    intro a ha
    refine ⟨_,fun b hb => ?_⟩
    simp [Link,ha] at hb
  have hstep : ∀ {a b}, Link parent a b → Acc (fun b a => Link parent a b) b →
      Acc (fun b a => Link parent a b) a := by
    intro a b hab hb
    exact ⟨_,fun c hc => hab.unique hc ▸ hb⟩
  have hroot : Acc (fun b a => Link parent a b) root := by
    cases hz : parent root with
    | none => exact hnone root hz
    | some z => exact hstep hz (hnone z (h.top z hz))
  refine ⟨fun a => ?_⟩
  cases ha : parent a with
  | none => exact hnone a ha
  | some b =>
    have hr : Reaches parent a root := h.reaches a (by simp [ha])
    induction hr using ReflTransGen.head_induction_on generalizing b with
    | refl => exact hroot
    | @head a c hac _ ih =>
      apply hstep hac
      cases hc : parent c with
      | none => exact hnone c hc
      | some d => exact ih d hc

/-- The length of the chain is a rank. -/
theorem Rooted.exists_graded (h : Rooted parent root) : ∃ rank, Graded parent rank := by
  let height : α → ℕ := h.wellFounded.fix
    (fun a ih => match ha : parent a with | none => 0 | some b => ih b ha+1)
  refine ⟨height,fun a b hab => ?_⟩
  have he : height a = height b+1 := by
    rw [show height a = _ from h.wellFounded.fix_eq _ a]
    split
    next ha => simp [Link,ha] at hab
    next c ha => rw [hab.unique ha]
  omega

theorem Rooted.acyclic (h : Rooted parent root) : Acyclic parent := by
  obtain ⟨rank,hr⟩ := h.exists_graded
  exact hr.acyclic

/-- An acyclic structure whose chains all pass through the root is rooted. -/
theorem Acyclic.rooted (h : Acyclic parent) (hr : ∀ a, (parent a).isSome → Reaches parent a root) :
    Rooted parent root := by
  refine ⟨hr,fun z hz => ?_⟩
  by_contra hne
  exact h root (TransGen.head' hz (hr z (Option.isSome_iff_ne_none.mpr hne)))

section Redirect
variable (parent) (moved : α → Prop) [DecidablePred moved] (new : α)

/-- Give every moved node the same new parent. -/
def redirect (a : α) : Option α := if moved a then some new else parent a

variable {parent moved new}

lemma link_redirect_of_not {a b : α} (ha : ¬moved a) (h : Link parent a b) :
    Link (redirect parent moved new) a b := by
  rw [Link,redirect,if_neg ha]; exact h

lemma link_redirect_of_moved {a : α} (ha : moved a) : Link (redirect parent moved new) a new := by
  rw [Link,redirect,if_pos ha]

/-- A chain survives up to the first moved node on it. -/
lemma Reaches.redirect_first {a c : α} (h : Reaches parent a c) (hc : moved c) :
    ∃ m, moved m ∧ Reaches (redirect parent moved new) a m := by
  induction h using ReflTransGen.head_induction_on with
  | refl => exact ⟨c,hc,.refl⟩
  | @head a b hab _ ih =>
    by_cases ha : moved a
    · exact ⟨a,ha,.refl⟩
    · obtain ⟨m,hm,hbm⟩ := ih
      exact ⟨m,hm,.head (link_redirect_of_not ha hab) hbm⟩

lemma Reaches.redirect_of_avoids {a c : α} (h : Reaches parent a c)
    (ha : ∀ m, moved m → ¬Reaches parent a m) : Reaches (redirect parent moved new) a c := by
  induction h using ReflTransGen.head_induction_on with
  | refl => exact .refl
  | @head a b hab _ ih =>
    refine .head (link_redirect_of_not (fun hm => ha a hm .refl) hab) (ih ?_)
    exact fun m hm hbm => ha m hm (.head hab hbm)

/-- Once the new parent still reaches the root, so does everything else. -/
lemma Reaches.redirect_to_root {a : α} (h : Reaches parent a root)
    (hn : Reaches (redirect parent moved new) new root) :
    Reaches (redirect parent moved new) a root := by
  induction h using ReflTransGen.head_induction_on with
  | refl => exact .refl
  | @head a b hab _ ih =>
    by_cases ha : moved a
    · exact .head (link_redirect_of_moved ha) hn
    · exact .head (link_redirect_of_not ha hab) ih

/-- Moving nodes under one new parent keeps a tree exactly if none of them lies on the chain
of the new parent, the new parent itself included. -/
theorem Rooted.redirect_iff (h : Rooted parent root) (hnew : (parent new).isSome)
    (hmoved : ∀ a, moved a → (parent a).isSome) :
    Rooted (redirect parent moved new) root ↔ ∀ a, moved a → ¬Reaches parent new a := by
  constructor
  · intro h' a ha hna
    obtain ⟨m,hm,hnm⟩ := hna.redirect_first ha
    exact h'.acyclic m (TransGen.head' (link_redirect_of_moved hm) hnm)
  · intro havoid
    have hn : Reaches (redirect parent moved new) new root :=
      (h.reaches new hnew).redirect_of_avoids havoid
    have hroot : ¬moved root := fun hm => havoid root hm (h.reaches new hnew)
    refine ⟨fun a ha => ?_,fun z hz => ?_⟩
    · have hpa : (parent a).isSome := by
        by_cases hm : moved a
        · exact hmoved a hm
        · rwa [redirect,if_neg hm] at ha
      exact (h.reaches a hpa).redirect_to_root hn
    · rw [redirect,if_neg hroot] at hz
      have hzn := h.top z hz
      have hmz : ¬moved z := fun hm => by simpa [hzn] using hmoved z hm
      rw [redirect,if_neg hmz,hzn]

end Redirect

/-- `c` lies on the chains of `a` and `b`, and every other such node lies on the chain of `c`. -/
structure Meet (parent : α → Option α) (a b c : α) : Prop where
  left : Reaches parent a c
  right : Reaches parent b c
  first : ∀ d, Reaches parent a d → Reaches parent b d → Reaches parent c d

lemma Reaches.antisymm (h : Acyclic parent) {a b : α} (hab : Reaches parent a b) (hba : Reaches parent b a) :
    a = b := by
  rcases ReflTransGen.cases_head hab with he | ⟨c,hac,hcb⟩
  · exact he
  · exact absurd (TransGen.head' hac (hcb.trans hba)) (h a)

/-- A chain that goes on goes on to the parent. -/
lemma Reaches.of_link {a b d : α} (h : Reaches parent a d) (hne : a ≠ d) (hl : Link parent a b) :
    Reaches parent b d := by
  rcases ReflTransGen.cases_head h with he | ⟨c,hac,hcd⟩
  · exact absurd he hne
  · rwa [hl.unique hac]

lemma Reaches.eq_of_none {a d : α} (h : Reaches parent a d) (ha : parent a = none) : a = d := by
  rcases ReflTransGen.cases_head h with he | ⟨c,hac,-⟩
  · exact he
  · cases ha.symm.trans hac

namespace Meet
variable {a b c d : α}

lemma unique (hacyclic : Acyclic parent) (h : Meet parent a b c) (h' : Meet parent a b d) : c = d :=
  (h.first d h'.left h'.right).antisymm hacyclic (h'.first c h.left h.right)

lemma symm (h : Meet parent a b c) : Meet parent b a c :=
  ⟨h.right,h.left,fun d hb ha => h.first d ha hb⟩

/-- A node meets those whose chains pass through it in itself. -/
lemma of_reaches (h : Reaches parent b a) : Meet parent a b a :=
  ⟨.refl,h,fun _ ha _ => ha⟩

end Meet

/-- `b` is the first proper ancestor of `a` that satisfies `S`. -/
inductive Nearest (parent : α → Option α) (S : α → Prop) : α → α → Prop
  | here {a b : α} (link : Link parent a b) (hit : S b) : Nearest parent S a b
  | above {a b c : α} (link : Link parent a b) (miss : ¬S b) (rest : Nearest parent S b c) :
      Nearest parent S a c

namespace Nearest
variable {S S' : α → Prop} {a b c : α}

lemma hit (h : Nearest parent S a b) : S b := by
  induction h with
  | here _ hit => exact hit
  | above _ _ _ ih => exact ih

/-- Links that go down wherever the search goes on lead below where it began. -/
lemma rank_lt (h : Nearest parent S a b) (rank : α → ℕ) (ha : ∀ x, Link parent a x → rank x < rank a)
    (hmiss : ∀ x, ¬S x → ∀ y, Link parent x y → rank y < rank x) : rank b < rank a := by
  induction h with
  | here link _ => exact ha _ link
  | above link miss _ ih => exact Nat.lt_trans (ih (hmiss _ miss)) (ha _ link)

/-- Another node drops out of the search. -/
lemma of_ne (h : Nearest parent S a c) (hS : ∀ x, S' x ↔ S x ∧ x ≠ b) (hc : c ≠ b) :
    Nearest parent S' a c := by
  induction h with
  | here link hit => exact .here link ((hS _).mpr ⟨hit,hc⟩)
  | above link miss _ ih => exact .above link (fun h => miss ((hS _).mp h).1) (ih hc)

/-- The node found drops out: the search goes on with what it finds itself. -/
lemma trans_of_removed (hab : Nearest parent S a b) (hbc : Nearest parent S b c)
    (hS : ∀ x, S' x ↔ S x ∧ x ≠ b) (hc : c ≠ b) : Nearest parent S' a c := by
  induction hab with
  | here link _ => exact .above link (fun h => ((hS _).mp h).2 rfl) (hbc.of_ne hS hc)
  | above link miss _ ih => exact .above link (fun h => miss ((hS _).mp h).1) (ih hbc hS hc)

end Nearest
end HiveKernel.Lib
