import Mathlib.Data.List.AList
import Mathlib.Algebra.BigOperators.Group.List.Basic
import Mathlib.Tactic.Abel

/-! Finite maps over Mathlib's association lists, with sums over their entries.
The order of the entries carries no meaning: a loop over a table takes the order in which
it visits the keys as an argument. -/
namespace HiveKernel.Lib

/-- A finite map from `κ` to `α`. -/
structure Table (κ α : Type) where
  toAList : AList (fun _ : κ => α)

namespace Table
variable {κ α : Type}

def empty : Table κ α := ⟨∅⟩
def keys (m : Table κ α) : List κ := m.toAList.keys

/-- `order` visits every key of the table once, as one pass of a loop over the table does. -/
def Enumerates (m : Table κ α) (order : List κ) : Prop := order.Perm m.keys

section Lookup
variable [DecidableEq κ]

def get (m : Table κ α) (k : κ) : Option α := m.toAList.lookup k
def set (m : Table κ α) (k : κ) (v : α) : Table κ α := ⟨m.toAList.insert k v⟩
def erase (m : Table κ α) (k : κ) : Table κ α := ⟨m.toAList.erase k⟩

instance (m : Table κ α) (order : List κ) : Decidable (m.Enumerates order) :=
  inferInstanceAs (Decidable (order.Perm m.keys))

@[simp] theorem get_empty (k : κ) : (empty : Table κ α).get k = none := rfl

theorem get_set (m : Table κ α) (k j : κ) (v : α) :
    (m.set k v).get j = if j = k then some v else m.get j := by
  split_ifs with h
  · subst h; exact AList.lookup_insert m.toAList
  · exact AList.lookup_insert_ne h

@[simp] theorem get_set_self (m : Table κ α) (k : κ) (v : α) : (m.set k v).get k = some v := by
  simp [get_set]

theorem get_set_of_ne {m : Table κ α} {k j : κ} {v : α} (h : j ≠ k) : (m.set k v).get j = m.get j := by
  rw [get_set,if_neg h]

/-- An update takes nothing away. -/
theorem isSome_get_set {m : Table κ α} {j : κ} (k : κ) (v : α) (h : (m.get j).isSome) :
    ((m.set k v).get j).isSome := by
  rw [get_set]
  split_ifs
  · rfl
  · exact h

/-- What is found after an update is the new entry or an old one. -/
theorem get_set_some {m : Table κ α} {k j : κ} {v w : α} (h : (m.set k v).get j = some w) :
    (j = k ∧ w = v) ∨ (j ≠ k ∧ m.get j = some w) := by
  rw [get_set] at h
  split_ifs at h with hj
  · exact .inl ⟨hj,(Option.some.inj h).symm⟩
  · exact .inr ⟨hj,h⟩

theorem get_erase (m : Table κ α) (k j : κ) :
    (m.erase k).get j = if j = k then none else m.get j := by
  split_ifs with h
  · subst h; exact AList.lookup_erase j m.toAList
  · exact AList.lookup_erase_ne h

theorem get_erase_of_ne {m : Table κ α} {k j : κ} (h : j ≠ k) : (m.erase k).get j = m.get j := by
  rw [get_erase,if_neg h]

theorem get_erase_none {m : Table κ α} (k : κ) {j : κ} (h : m.get j = none) : (m.erase k).get j = none := by
  rw [get_erase]
  split_ifs
  · rfl
  · exact h

theorem get_erase_some {m : Table κ α} {k j : κ} {v : α} (h : (m.erase k).get j = some v) :
    j ≠ k ∧ m.get j = some v := by
  rw [get_erase] at h
  split_ifs at h with hj
  exact ⟨hj,h⟩

/-- A second update of a key is the only one that counts. -/
theorem set_set (m : Table κ α) (k : κ) (v w : α) : (m.set k v).set k w = m.set k w :=
  congrArg Table.mk (AList.insert_insert m.toAList)

theorem erase_set (m : Table κ α) (k : κ) (v : α) : (m.set k v).erase k = m.erase k := by
  refine congrArg Table.mk (AList.ext ?_)
  exact List.kerase_cons_eq rfl

/-- A loop that erases keys. -/
theorem get_foldl_erase (m : Table κ α) (ks : List κ) (j : κ) :
    (ks.foldl erase m).get j = if j ∈ ks then none else m.get j := by
  induction ks generalizing m with
  | nil => simp
  | cons k ks ih =>
    rw [List.foldl_cons,ih,get_erase]
    by_cases hj : j = k
    · simp [hj]
    · simp [hj]

theorem mem_keys {m : Table κ α} {k : κ} : k ∈ m.keys ↔ (m.get k).isSome :=
  AList.lookup_isSome.symm

/-- A statement about all entries can be checked entry by entry. -/
instance decidableForallGet (m : Table κ α) (P : κ → α → Prop) [∀ k v, Decidable (P k v)] :
    Decidable (∀ k v, m.get k = some v → P k v) :=
  decidable_of_iff (∀ k ∈ m.keys, ∀ v ∈ m.get k, P k v)
    ⟨fun h k v hv => h k (mem_keys.mpr (by simp [hv])) v hv,fun h k _ v hv => h k v hv⟩

theorem mem_keys_of_get {m : Table κ α} {k : κ} {v : α} (h : m.get k = some v) : k ∈ m.keys :=
  mem_keys.mpr (by simp [h])

theorem mem_entries {m : Table κ α} {k : κ} {v : α} :
    (⟨k,v⟩ : Sigma fun _ : κ => α) ∈ m.toAList.entries ↔ m.get k = some v :=
  AList.mem_lookup_iff.symm

theorem Enumerates.mem_iff {m : Table κ α} {order : List κ} (h : m.Enumerates order) (k : κ) :
    k ∈ order ↔ (m.get k).isSome := (List.Perm.mem_iff h).trans mem_keys

end Lookup

section Sum
variable {M : Type} [AddCommMonoid M]

/-- The sum of a weight over all entries. -/
def sum (m : Table κ α) (f : κ → α → M) : M :=
  (m.toAList.entries.map (fun e => f e.1 e.2)).sum

@[simp] theorem sum_empty (f : κ → α → M) : (empty : Table κ α).sum f = 0 := rfl

variable [DecidableEq κ]

theorem sum_set (m : Table κ α) (k : κ) (v : α) (f : κ → α → M) :
    (m.set k v).sum f = f k v + (m.erase k).sum f := by
  simp only [sum,set,erase,AList.entries_insert,List.map_cons,List.sum_cons]
  rfl

theorem erase_of_get_none {m : Table κ α} {k : κ} (h : m.get k = none) : m.erase k = m := by
  have hk : k ∉ m.toAList.entries.keys := AList.lookup_eq_none.mp h
  exact congrArg Table.mk (AList.ext (List.kerase_of_notMem_keys hk))

theorem sum_erase (m : Table κ α) {k : κ} {v : α} (h : m.get k = some v) (f : κ → α → M) :
    m.sum f = f k v + (m.erase k).sum f := by
  obtain ⟨b,l₁,l₂,-,hl,he⟩ := List.exists_of_kerase (mem_keys_of_get h)
  have hb : m.get k = some b := mem_entries.mp (by rw [hl]; simp)
  obtain rfl : v = b := Option.some.inj (h.symm.trans hb)
  change (m.toAList.entries.map _).sum = _ + ((List.kerase k m.toAList.entries).map _).sum
  rw [he,hl]
  simp only [List.map_append,List.map_cons,List.sum_append,List.sum_cons]
  rw [add_left_comm]

/-- Overwriting an entry replaces its weight. -/
theorem sum_set_of_some (m : Table κ α) {k : κ} {v : α} (h : m.get k = some v) (w : α)
    (f : κ → α → M) : (m.set k w).sum f + f k v = m.sum f + f k w := by
  rw [sum_set,sum_erase m h f]
  abel

theorem sum_set_of_none (m : Table κ α) {k : κ} (h : m.get k = none) (w : α) (f : κ → α → M) :
    (m.set k w).sum f = f k w + m.sum f := by
  rw [sum_set,erase_of_get_none h]

theorem sum_congr (m : Table κ α) {f g : κ → α → M} (h : ∀ k v, m.get k = some v → f k v = g k v) :
    m.sum f = m.sum g := by
  unfold sum
  congr 1
  apply List.map_congr_left
  rintro ⟨k,v⟩ he
  exact h k v (mem_entries.mp he)

/-- A loop over the table adds up the same. -/
theorem sum_eq_of_enumerates (m : Table κ α) {order : List κ} (h : m.Enumerates order) (f : κ → α → M) :
    m.sum f = (order.map (fun k => ((m.get k).map (f k)).getD 0)).sum := by
  rw [(h.map _).sum_eq]
  change _ = ((m.toAList.entries.map Sigma.fst).map _).sum
  rw [List.map_map,sum]
  congr 1
  refine List.map_congr_left (fun e he => ?_)
  have hget : m.get e.1 = some e.2 := mem_entries.mp he
  simp [hget]

end Sum
end Table
end HiveKernel.Lib
