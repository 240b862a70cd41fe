import HiveKernel.Lib.Table

/-! Lists that stand for a finite map: no key comes twice, and a search by key finds the value. Appending, dropping
and changing in place keep a list in step with the map. -/
namespace HiveKernel.Lib
variable {α β κ : Type} [DecidableEq κ]

/-- The first entry with this key. -/
def findKey (key : α → κ) (k : κ) (l : List α) : Option α := l.find? (fun a => key a = k)

theorem findKey_cons (key : α → κ) (k : κ) (a : α) (l : List α) :
    findKey key k (a::l) = if key a = k then some a else findKey key k l := by
  unfold findKey
  split_ifs with h
  · exact List.find?_cons_of_pos (decide_eq_true h)
  · exact List.find?_cons_of_neg (fun hkey => h (of_decide_eq_true hkey))

/-- Change the first entry with this key. -/
def changeFirst (key : α → κ) (k : κ) (g : α → α) : List α → List α
  | [] => []
  | a::l => if key a = k then g a::l else a::changeFirst key k g l

/-- The list holds the map `m`, as far as `f` shows it. -/
structure Represents (key : α → κ) (f : α → β) (l : List α) (m : κ → Option β) : Prop where
  nodup : (l.map key).Nodup
  get : ∀ k, (findKey key k l).map f = m k

namespace Represents
variable {key : α → κ} {f : α → β} {l : List α} {m : κ → Option β} {k : κ}

/-- A key that is not in the map is not in the list. -/
theorem ne_of_none (h : Represents key f l m) (hk : m k = none) : ∀ a ∈ l, key a ≠ k := by
  intro a ha hkey
  have hfind := h.get k
  rw [hk,Option.map_eq_none_iff,findKey,List.find?_eq_none] at hfind
  exact hfind a ha (decide_eq_true hkey)

theorem push (h : Represents key f l m) {a : α} (hnew : m (key a) = none) :
    Represents key f (l++[a]) (Function.update m (key a) (some (f a))) := by
  have hne := h.ne_of_none hnew
  refine ⟨?_,fun k => ?_⟩
  · rw [List.map_append,List.nodup_append]
    refine ⟨h.nodup,List.nodup_singleton _,fun k hk k' hk' => ?_⟩
    obtain ⟨b,hb,rfl⟩ := List.mem_map.mp hk
    rw [List.map_singleton,List.mem_singleton] at hk'
    rw [hk']
    exact hne b hb
  · have happend : findKey key k (l++[a]) = (findKey key k l).or (findKey key k [a]) := List.find?_append
    rw [happend,Function.update_apply]
    split_ifs with hk
    · have hnone : findKey key k l = none := by
        rw [← Option.map_eq_none_iff,h.get k,hk]
        exact hnew
      rw [hnone,Option.none_or,findKey_cons,if_pos hk.symm]
      rfl
    · rw [findKey_cons,if_neg (Ne.symm hk)]
      change ((findKey key k l).or none).map f = m k
      rw [Option.or_none]
      exact h.get k

theorem remove (h : Represents key f l m) (k : κ) :
    Represents key f (l.filter (fun a => key a ≠ k)) (Function.update m k none) := by
  refine ⟨h.nodup.sublist (List.Sublist.map key List.filter_sublist),fun j => ?_⟩
  rw [Function.update_apply,← h.get j]
  clear h
  induction l with
  | nil => exact (ite_self _).symm
  | cons a l ih =>
    rw [List.filter_cons,findKey_cons]
    by_cases ha : key a = k
    · rw [if_neg (by simp [ha]),ih]
      by_cases hj : j = k
      · rw [if_pos hj,if_pos hj]
      · rw [if_neg hj,if_neg hj,if_neg (fun h => hj (h.symm.trans ha))]
    · rw [if_pos (decide_eq_true ha),findKey_cons]
      by_cases haj : key a = j
      · rw [if_pos haj,if_pos haj,if_neg (fun h => ha (haj.trans h))]
      · rw [if_neg haj,if_neg haj]
        exact ih

theorem map_changeFirst {g : α → α} (hkey : ∀ a, key (g a) = key a) (l : List α) :
    (changeFirst key k g l).map key = l.map key := by
  induction l with
  | nil => rfl
  | cons a l ih =>
    unfold changeFirst
    split_ifs
    · rw [List.map_cons,List.map_cons,hkey]
    · rw [List.map_cons,List.map_cons,ih]

theorem change (h : Represents key f l m) (k : κ) {g : α → α} {g' : β → β} (hkey : ∀ a, key (g a) = key a)
    (hf : ∀ a, f (g a) = g' (f a)) :
    Represents key f (changeFirst key k g l) (Function.update m k ((m k).map g')) := by
  refine ⟨by rw [map_changeFirst hkey]; exact h.nodup,fun j => ?_⟩
  rw [Function.update_apply,← h.get k,← h.get j]
  clear h
  induction l with
  | nil =>
    split_ifs
    · rfl
    · rfl
  | cons a l ih =>
    unfold changeFirst
    rw [findKey_cons,findKey_cons]
    by_cases ha : key a = k
    · rw [if_pos ha,findKey_cons,hkey,if_pos ha]
      by_cases hj : j = k
      · rw [if_pos hj,if_pos (ha.trans hj.symm)]
        exact congrArg some (hf a)
      · rw [if_neg hj,if_neg (fun h => hj (h.symm.trans ha)),if_neg (fun h => hj (h.symm.trans ha))]
    · rw [if_neg ha,if_neg ha,findKey_cons]
      by_cases haj : key a = j
      · rw [if_pos haj,if_pos haj,if_neg (fun h => ha (haj.trans h))]
      · rw [if_neg haj,if_neg haj]
        exact ih

/-- The entries of a table, in any order. -/
theorem of_enumerates {t : Table κ α} (hkeys : ∀ k a, t.get k = some a → key a = k) {order : List κ}
    (horder : t.Enumerates order) : Represents key f (order.filterMap t.get) (fun k => (t.get k).map f) := by
  have hnodup : order.Nodup := horder.nodup_iff.mpr t.toAList.nodupKeys
  have hmem : ∀ a, a ∈ order.filterMap t.get ↔ t.get (key a) = some a := by
    intro a
    rw [List.mem_filterMap]
    constructor
    · rintro ⟨k,-,hk⟩
      rw [hkeys k a hk]
      exact hk
    · intro hk
      exact ⟨key a,(horder.mem_iff (key a)).mpr (by rw [hk]; rfl),hk⟩
  refine ⟨?_,fun k => congrArg (Option.map f) ?_⟩
  · clear horder hmem
    induction order with
    | nil => exact List.nodup_nil
    | cons k order ih =>
      obtain ⟨hk,hrest⟩ := List.nodup_cons.mp hnodup
      rw [List.filterMap_cons]
      cases ht : t.get k with
      | none => exact ih hrest
      | some a =>
        dsimp only
        rw [List.map_cons,List.nodup_cons]
        refine ⟨fun hin => ?_,ih hrest⟩
        obtain ⟨b,hb,hkey⟩ := List.mem_map.mp hin
        obtain ⟨j,hj,htj⟩ := List.mem_filterMap.mp hb
        rw [hkeys j b htj,hkeys k a ht] at hkey
        exact hk (hkey ▸ hj)
  · cases hfind : findKey key k (order.filterMap t.get) with
    | none =>
      cases ht : t.get k with
      | none => rfl
      | some a =>
        have hin : a ∈ order.filterMap t.get := by
          rw [hmem,hkeys k a ht]
          exact ht
        exact absurd (decide_eq_true (hkeys k a ht)) (List.find?_eq_none.mp hfind a hin)
    | some a =>
      have hkey : key a = k := of_decide_eq_true (List.find?_some (p := fun a => decide (key a = k)) hfind)
      have hin := (hmem a).mp (List.mem_of_find?_eq_some hfind)
      rw [← hkey]
      exact hin.symm

end Represents
end HiveKernel.Lib
