import HiveKernel.Lib.Table

/-! Slices of Go over shared arrays. An append writes into the array if there is room and goes on with
a copy otherwise; the removal of an element shifts the rest of the array in place, also under the eyes of
those who hold an older slice of it. A loop may keep part of a slice in its own array while it reads it. -/
namespace HiveKernel.Lib

/-- An array, with the cells that were ever written. -/
structure Backing (α : Type) where
  cells : List α
  capacity : ℕ

structure Slice where
  array : ℕ
  len : ℕ
  deriving DecidableEq

/-- The arrays that were made, numbered one after the other. -/
structure Arrays (α : Type) where
  table : Table ℕ (Backing α)
  next : ℕ
  bound : ∀ {k b}, table.get k = some b → k < next

namespace Arrays
variable {α : Type} {m : Arrays α} {sl other : Slice}

def empty : Arrays α := ⟨.empty,0,fun h => by cases h⟩

def cells (m : Arrays α) (array : ℕ) : List α := ((m.table.get array).map Backing.cells).getD []

/-- What is seen through a slice. -/
def read (m : Arrays α) (sl : Slice) : List α := (m.cells sl.array).take sl.len

def write (m : Arrays α) (array : ℕ) (b : Backing α) (h : array < m.next) : Arrays α where
  table := m.table.set array b
  next := m.next
  bound := by
    intro k c hk
    rcases Table.get_set_some hk with ⟨rfl,-⟩ | ⟨-,hk⟩
    · exact h
    · exact m.bound hk

def alloc (m : Arrays α) (b : Backing α) : Arrays α where
  table := m.table.set m.next b
  next := m.next+1
  bound := by
    intro k c hk
    rcases Table.get_set_some hk with ⟨rfl,-⟩ | ⟨-,hk⟩
    · exact Nat.lt_succ_self _
    · exact Nat.lt_succ_of_lt (m.bound hk)

/-- Append one element. The runtime chooses the capacity of a new array. -/
def append (m : Arrays α) (sl : Slice) (a : α) (capacity : ℕ) : Arrays α × Slice :=
  match h : m.table.get sl.array with
  | some b =>
    if sl.len < b.capacity then
      (m.write sl.array { b with cells := b.cells.take sl.len++a::b.cells.drop (sl.len+1) } (m.bound h),
        ⟨sl.array,sl.len+1⟩)
    else (m.alloc ⟨m.read sl++[a],max capacity (sl.len+1)⟩,⟨m.next,sl.len+1⟩)
  | none => (m.alloc ⟨m.read sl++[a],max capacity (sl.len+1)⟩,⟨m.next,sl.len+1⟩)

/-- Move the elements behind the index forward by one. The last cell keeps what it has. -/
def removeAt (m : Arrays α) (sl : Slice) (i : ℕ) : Arrays α × Slice :=
  match h : m.table.get sl.array with
  | some b =>
    (m.write sl.array { b with cells := (b.cells.take sl.len).eraseIdx i++b.cells.drop (sl.len-1) } (m.bound h),
      ⟨sl.array,sl.len-1⟩)
  | none => (m,sl)

/-- The slice lies within its array. -/
def Valid (m : Arrays α) (sl : Slice) : Prop := sl.len ≤ (m.cells sl.array).length

lemma length_read (h : m.Valid sl) : (m.read sl).length = sl.len := by
  rw [read,List.length_take,Nat.min_eq_left h]

lemma cells_write (m : Arrays α) {array : ℕ} (b : Backing α) (h : array < m.next) (k : ℕ) :
    (m.write array b h).cells k = if k = array then b.cells else m.cells k := by
  unfold cells write
  rw [Table.get_set]
  split_ifs <;> rfl

lemma cells_alloc (m : Arrays α) (b : Backing α) (k : ℕ) :
    (m.alloc b).cells k = if k = m.next then b.cells else m.cells k := by
  unfold cells alloc
  rw [Table.get_set]
  split_ifs <;> rfl

lemma cells_of_le {k : ℕ} (h : m.next ≤ k) : m.cells k = [] := by
  unfold cells
  cases hk : m.table.get k with
  | none => rfl
  | some b => exact absurd (m.bound hk) (by omega)

/-- Every way an append can go. -/
lemma append_cases (m : Arrays α) (sl : Slice) (a : α) (capacity : ℕ) :
    (∃ b h, (m.append sl a capacity) = (m.write sl.array b h,⟨sl.array,sl.len+1⟩) ∧
      b.cells = (m.cells sl.array).take sl.len++a::(m.cells sl.array).drop (sl.len+1)) ∨
    ∃ c, (m.append sl a capacity) = (m.alloc ⟨m.read sl++[a],c⟩,⟨m.next,sl.len+1⟩) := by
  unfold append
  split
  next b h =>
    split_ifs with hroom
    · refine .inl ⟨_,m.bound h,rfl,?_⟩
      simp [cells,h]
    · exact .inr ⟨_,rfl⟩
  next => exact .inr ⟨_,rfl⟩

theorem read_append (h : m.Valid sl) (a : α) (capacity : ℕ) :
    (m.append sl a capacity).1.read (m.append sl a capacity).2 = m.read sl++[a] := by
  have hlen := length_read h
  rcases append_cases m sl a capacity with ⟨b,hb,he,hcells⟩ | ⟨c,he⟩
  · rw [he,read,cells_write,if_pos rfl,hcells]
    change List.take (sl.len+1) (m.read sl++_) = _
    rw [← hlen,List.take_append,List.take_of_length_le (Nat.le_succ _)]
    simp
  · rw [he,read,cells_alloc,if_pos rfl]
    change List.take (sl.len+1) (m.read sl++[a]) = _
    rw [List.take_of_length_le]
    simp [hlen]

/-- An older slice sees what it saw before. -/
theorem read_append_other (a : α) (capacity : ℕ) (hle : other.array = sl.array → other.len ≤ sl.len)
    (hvalid : m.Valid sl) (hother : m.Valid other) :
    (m.append sl a capacity).1.read other = m.read other := by
  have hlen := length_read hvalid
  rcases append_cases m sl a capacity with ⟨b,hb,he,hcells⟩ | ⟨c,he⟩
  · rw [he,read,cells_write]
    split_ifs with harray
    · have hshort := hle harray
      rw [hcells]
      change List.take other.len (m.read sl++_) = _
      rw [List.take_append_of_le_length (by omega),read,read,harray,List.take_take,Nat.min_eq_left hshort]
    · rfl
  · rw [he,read,cells_alloc]
    split_ifs with harray
    · unfold Valid at hother
      rw [harray,cells_of_le le_rfl] at hother
      have hzero : other.len = 0 := by simpa using hother
      rw [hzero,List.take_zero,read,hzero,List.take_zero]
    · rfl

/-- No array gets shorter. -/
theorem Valid.append (hother : m.Valid other) (hvalid : m.Valid sl) (a : α) (capacity : ℕ) :
    (m.append sl a capacity).1.Valid other := by
  unfold Valid at hother hvalid ⊢
  rcases append_cases m sl a capacity with ⟨b,hb,he,hcells⟩ | ⟨c,he⟩
  · rw [he,cells_write]
    split_ifs with harray
    · rw [harray] at hother
      rw [hcells,List.length_append,List.length_cons,List.length_take,List.length_drop]
      omega
    · exact hother
  · rw [he,cells_alloc]
    split_ifs with harray
    · rw [harray,cells_of_le le_rfl] at hother
      exact hother.trans (Nat.zero_le _)
    · exact hother

theorem valid_append (h : m.Valid sl) (a : α) (capacity : ℕ) :
    (m.append sl a capacity).1.Valid (m.append sl a capacity).2 := by
  have hlen := length_read h
  unfold Valid at h ⊢
  rcases append_cases m sl a capacity with ⟨b,hb,he,hcells⟩ | ⟨c,he⟩
  · rw [he,cells_write,if_pos rfl,hcells,List.length_append,List.length_cons,List.length_take]
    change sl.len+1 ≤ _
    omega
  · rw [he,cells_alloc,if_pos rfl,List.length_append,hlen]
    rfl

/-- A slice that is not empty has an array. -/
lemma removeAt_eq {i : ℕ} (h : m.Valid sl) (hi : i < sl.len) : ∃ b hb,
    m.removeAt sl i = (m.write sl.array b hb,⟨sl.array,sl.len-1⟩) ∧
      b.cells = (m.read sl).eraseIdx i++(m.cells sl.array).drop (sl.len-1) := by
  unfold removeAt
  split
  next b hb =>
    refine ⟨_,m.bound hb,rfl,?_⟩
    simp [read,cells,hb]
  next hnone =>
    have hempty : m.cells sl.array = [] := by simp [cells,hnone]
    rw [Valid,hempty] at h
    exact absurd (hi.trans_le h) (Nat.not_lt_zero i)

theorem read_removeAt {i : ℕ} (h : m.Valid sl) (hi : i < sl.len) :
    (m.removeAt sl i).1.read (m.removeAt sl i).2 = (m.read sl).eraseIdx i := by
  have hlen := length_read h
  obtain ⟨b,hb,he,hcells⟩ := removeAt_eq h hi
  have hshort : ((m.read sl).eraseIdx i).length = sl.len-1 := by
    rw [List.length_eraseIdx_of_lt (by omega),hlen]
  rw [he,read,cells_write,if_pos rfl,hcells]
  change List.take (sl.len-1) _ = _
  rw [← hshort,List.take_append_of_le_length le_rfl,List.take_length]

/-- A slice of another array, or one that ends before the index, sees what it saw before. -/
theorem read_removeAt_other {i : ℕ} (h : m.Valid sl) (hi : i < sl.len)
    (hother : other.array = sl.array → other.len ≤ i) : (m.removeAt sl i).1.read other = m.read other := by
  have hlen := length_read h
  obtain ⟨b,hb,he,hcells⟩ := removeAt_eq h hi
  rw [he,read,cells_write]
  split_ifs with harray
  · have hle := hother harray
    have hshort : ((m.read sl).eraseIdx i).length = sl.len-1 := by
      rw [List.length_eraseIdx_of_lt (by omega),hlen]
    rw [hcells,List.take_append_of_le_length (by omega),List.take_eraseIdx_eq_take_of_le _ _ _ hle,read,read,harray,
      List.take_take,Nat.min_eq_left (by omega)]
  · rfl

theorem Valid.removeAt {i : ℕ} (hother : m.Valid other) (h : m.Valid sl) (hi : i < sl.len) :
    (m.removeAt sl i).1.Valid other := by
  have hlen := length_read h
  obtain ⟨b,hb,he,hcells⟩ := removeAt_eq h hi
  unfold Valid at hother h ⊢
  rw [he,cells_write]
  split_ifs with harray
  · rw [harray] at hother
    rw [hcells,List.length_append,List.length_eraseIdx_of_lt (by omega),List.length_drop]
    omega
  · exact hother

/-- Go over a slice from an index on, for so many elements, and append what is kept to another slice. Every
element is read when its turn comes. -/
def retainFrom (p : α → Bool) (sl : Slice) (m : Arrays α) (kept : Slice) (i : ℕ) : ℕ → Arrays α × Slice
  | 0 => (m,kept)
  | n+1 => match (m.cells sl.array)[i]? with
    | none => (m,kept)
    | some a =>
      if p a then retainFrom p sl (m.append kept a 0).1 (m.append kept a 0).2 (i+1) n
      else retainFrom p sl m kept (i+1) n

/-- Keep only some elements of a slice, in its own array. -/
def retain (m : Arrays α) (sl : Slice) (p : α → Bool) : Arrays α × Slice :=
  retainFrom p sl m ⟨sl.array,0⟩ 0 sl.len

/-- Neither array is touched from the place on where the loop stands, and other arrays are not touched at all. -/
structure Retained (p : α → Bool) (sl : Slice) (m m' : Arrays α) (kept : Slice) (i : ℕ) : Prop where
  valid : m'.Valid kept
  read : m'.read kept = ((m.cells sl.array).take i).filter p
  behind : kept.array = sl.array → kept.len ≤ i
  rest : (m'.cells sl.array).drop i = (m.cells sl.array).drop i
  place : kept.array = sl.array ∨ m.next ≤ kept.array
  inside : kept.array < m'.next
  next : m.next ≤ m'.next
  frame : ∀ k, k ≠ sl.array → k < m.next → m'.cells k = m.cells k

lemma next_append (m : Arrays α) (sl : Slice) (a : α) (capacity : ℕ) :
    m.next ≤ (m.append sl a capacity).1.next ∧
      (((m.append sl a capacity).2.array = sl.array ∧ (m.append sl a capacity).2.len = sl.len+1) ∨
        (m.append sl a capacity).2.array = m.next) := by
  rcases append_cases m sl a capacity with ⟨b,hb,he,-⟩ | ⟨c,he⟩
  · rw [he]
    exact ⟨le_rfl,.inl ⟨rfl,rfl⟩⟩
  · rw [he]
    exact ⟨Nat.le_succ _,.inr rfl⟩

lemma inside_append (h : sl.array < m.next) (a : α) (capacity : ℕ) :
    (m.append sl a capacity).2.array < (m.append sl a capacity).1.next := by
  rcases append_cases m sl a capacity with ⟨b,hb,he,-⟩ | ⟨c,he⟩
  · rw [he]
    exact h
  · rw [he]
    exact Nat.lt_succ_self _

lemma cells_append_of_ne (m : Arrays α) (sl : Slice) (a : α) (capacity : ℕ) {k : ℕ} (hne : k ≠ sl.array)
    (hk : k < m.next) : (m.append sl a capacity).1.cells k = m.cells k := by
  rcases append_cases m sl a capacity with ⟨b,hb,he,-⟩ | ⟨c,he⟩
  · rw [he,cells_write,if_neg hne]
  · rw [he,cells_alloc,if_neg hk.ne]

lemma drop_cells_append (h : m.Valid sl) (a : α) (capacity : ℕ) {k : ℕ} (hk : k < m.next) {i : ℕ}
    (hi : k = sl.array → sl.len < i) : ((m.append sl a capacity).1.cells k).drop i = (m.cells k).drop i := by
  by_cases hne : k = sl.array
  · subst hne
    have hlt := hi rfl
    rcases append_cases m sl a capacity with ⟨b,hb,he,hcells⟩ | ⟨c,he⟩
    · have hlen : ((m.cells sl.array).take sl.len).length = sl.len := length_read h
      rw [he,cells_write,if_pos rfl,hcells,List.drop_append,List.drop_of_length_le (by omega),hlen,List.nil_append]
      obtain ⟨j,rfl⟩ : ∃ j, i = sl.len+1+j := ⟨i-(sl.len+1),by omega⟩
      have hj : sl.len+1+j-sl.len = j+1 := by omega
      rw [hj,List.drop_succ_cons,List.drop_drop]
    · rw [he,cells_alloc,if_neg hk.ne]
  · rw [cells_append_of_ne m sl a capacity hne hk]

lemma Retained.keep {p : α → Bool} {m' : Arrays α} {kept : Slice} {i : ℕ} {a : α}
    (h : Retained p sl m m' kept i) (hsl : sl.array < m.next) (ha : (m'.cells sl.array)[i]? = some a)
    (hp : p a = true) : Retained p sl m (m'.append kept a 0).1 (m'.append kept a 0).2 (i+1) := by
  have ha' : (m.cells sl.array)[i]? = some a := by
    have hrest := congrArg (fun l => l[0]?) h.rest
    simpa [ha] using hrest.symm
  have hnext := next_append m' kept a 0
  refine ⟨valid_append h.valid a 0,?_,?_,?_,?_,inside_append h.inside a 0,h.next.trans hnext.1,?_⟩
  · rw [read_append h.valid,h.read,List.take_add_one,ha',List.filter_append]
    simp [hp]
  · intro harray
    rcases hnext.2 with ⟨hsame,hlen⟩ | hnew
    · rw [hlen]
      exact Nat.succ_le_succ (h.behind (hsame.symm.trans harray))
    · have hlt := h.next
      omega
  · rw [drop_cells_append h.valid a 0 (hsl.trans_le h.next) (fun harray => Nat.lt_succ_of_le (h.behind harray.symm)),
      ← List.tail_drop,← List.tail_drop,h.rest]
  · rcases hnext.2 with ⟨hsame,-⟩ | hnew
    · rw [hsame]
      exact h.place
    · exact .inr (hnew ▸ h.next)
  · intro k hne hk
    have hkept : k ≠ kept.array := by
      rcases h.place with harray | harray
      · rwa [harray]
      · omega
    rw [cells_append_of_ne m' kept a 0 hkept (hk.trans_le h.next),h.frame k hne hk]

lemma Retained.skip {p : α → Bool} {m' : Arrays α} {kept : Slice} {i : ℕ} {a : α}
    (h : Retained p sl m m' kept i) (ha : (m'.cells sl.array)[i]? = some a) (hp : p a = false) :
    Retained p sl m m' kept (i+1) := by
  have ha' : (m.cells sl.array)[i]? = some a := by
    have hrest := congrArg (fun l => l[0]?) h.rest
    simpa [ha] using hrest.symm
  refine { h with read := ?_, behind := fun harray => (h.behind harray).trans (Nat.le_succ i), rest := ?_ }
  · rw [h.read,List.take_add_one,ha',List.filter_append]
    simp [hp]
  · rw [← List.tail_drop,← List.tail_drop,h.rest]

lemma Retained.retainFrom {p : α → Bool} {m' : Arrays α} {kept : Slice} {i n : ℕ}
    (h : Retained p sl m m' kept i) (hsl : sl.array < m.next) (hn : i+n ≤ (m.cells sl.array).length) :
    Retained p sl m (retainFrom p sl m' kept i n).1 (retainFrom p sl m' kept i n).2 (i+n) := by
  induction n generalizing m' kept i with
  | zero => exact h
  | succ n ih =>
    obtain ⟨a,ha⟩ : ∃ a, (m'.cells sl.array)[i]? = some a := by
      have hrest := congrArg (fun l => l[0]?) h.rest
      simp only [List.getElem?_drop,Nat.add_zero] at hrest
      rw [hrest]
      exact ⟨_,List.getElem?_eq_getElem (by omega)⟩
    have hshift : i+(n+1) = i+1+n := by omega
    rw [Arrays.retainFrom,ha,hshift]
    cases hp : p a with
    | true =>
      simp only [hp,if_true]
      exact ih (h.keep hsl ha hp) (by omega)
    | false =>
      simp only [hp,Bool.false_eq_true,if_false]
      exact ih (h.skip ha hp) (by omega)

/-- What is left is what the filter keeps, and only the array of the slice has changed. -/
theorem retained_retain (h : m.Valid sl) (hsl : sl.array < m.next) (p : α → Bool) :
    Retained p sl m (m.retain sl p).1 (m.retain sl p).2 sl.len := by
  have hstart : Retained p sl m m ⟨sl.array,0⟩ 0 :=
    ⟨Nat.zero_le _,by simp [read],fun _ => le_rfl,rfl,.inl rfl,hsl,le_rfl,fun _ _ _ => rfl⟩
  have hend := hstart.retainFrom hsl (n := sl.len) (by rw [Nat.zero_add]; exact h)
  rwa [Nat.zero_add] at hend

end Arrays
end HiveKernel.Lib
