import Mathlib.Data.List.Basic
import Mathlib.Order.Lattice
import Mathlib.Tactic.Cases

/-! Binary heaps in a list, as the heap package of Go keeps them: the children of position `i` are at
`2*i+1` and `2*i+2`. The order is a comparison of which nothing is known but that it is a strict weak
order, so that several items may be first. -/
namespace HiveKernel.Lib
variable {α : Type} {less : α → α → Bool}

/-- Neither of two items that are not comparable with a third comes before the other. -/
structure StrictWeakOrder (less : α → α → Bool) : Prop where
  asymm : ∀ x y, less x y = true → less y x = false
  trans : ∀ x y z, less x y = false → less y z = false → less x z = false

lemma StrictWeakOrder.irrefl (h : StrictWeakOrder less) (x : α) : less x x = false := by
  cases hx : less x x with
  | false => rfl
  | true => exact hx.symm.trans (h.asymm x x hx)

/-- Items compared by a key. -/
lemma strictWeakOrder_key {β : Type} [LinearOrder β] (key : α → β) :
    StrictWeakOrder (fun x y => decide (key x < key y)) where
  asymm x y hxy := by
    simp only [decide_eq_true_eq] at hxy
    simp only [decide_eq_false_iff_not,not_lt]
    exact hxy.le
  trans x y z hxy hyz := by
    simp only [decide_eq_false_iff_not,not_lt] at hxy hyz ⊢
    exact hyz.trans hxy

namespace Heap

/-- The comparison of positions. Nothing comes after everything. -/
def before (less : α → α → Bool) : Option α → Option α → Bool
  | some x,some y => less x y
  | some _,none => true
  | none,_ => false

lemma strictWeakOrder_before (h : StrictWeakOrder less) : StrictWeakOrder (before less) where
  asymm
    | some x,some y,hxy => h.asymm x y hxy
    | some _,none,_ => rfl
  trans
    | some x,some y,some z,hxy,hyz => h.trans x y z hxy hyz
    | none,_,_,_,_ => rfl

variable (less)

def lessAt (items : List α) (i j : ℕ) : Bool := before less items[i]? items[j]?

def swap (items : List α) (i j : ℕ) : List α :=
  match items[i]?,items[j]? with
  | some x,some y => (items.set i y).set j x
  | _,_ => items

/-- Move an item up while it comes before its parent. -/
def up : ℕ → List α → ℕ → List α
  | 0,items,_ => items
  | fuel+1,items,j =>
    let i := (j-1)/2
    if i = j ∨ lessAt less items j i = false then items
    else up fuel (swap items i j) i

/-- The child that comes first, of those below `n`. -/
def firstChild (items : List α) (i n : ℕ) : ℕ :=
  if 2*i+2 < n ∧ lessAt less items (2*i+2) (2*i+1) = true then 2*i+2 else 2*i+1

/-- Move an item down while one of its children below `n` comes before it. -/
def down : ℕ → List α → ℕ → ℕ → List α
  | 0,items,_,_ => items
  | fuel+1,items,i,n =>
    if n ≤ 2*i+1 then items
    else
      let j := firstChild less items i n
      if lessAt less items j i = false then items
      else down fuel (swap items i j) j n

def init (items : List α) : List α :=
  let n := items.length
  (List.range (n/2)).reverse.foldl (fun items i => down less n items i n) items

def push (items : List α) (x : α) : List α :=
  up less (items.length+1) (items++[x]) items.length

def pop (items : List α) : Option (α × List α) :=
  let n := items.length-1
  let items := down less n (swap items 0 n) 0 n
  items.getLast?.map (fun x => (x,items.dropLast))

variable {less}

lemma getElem?_swap {items : List α} {i j : ℕ} (hi : i < items.length) (hj : j < items.length) (k : ℕ) :
    (swap items i j)[k]? = if k = j then items[i]? else if k = i then items[j]? else items[k]? := by
  simp only [swap,List.getElem?_eq_getElem hi,List.getElem?_eq_getElem hj,List.getElem?_set]
  split_ifs <;> grind

lemma swap_perm (items : List α) (i j : ℕ) : (swap items i j).Perm items := by
  unfold swap
  split
  next x y hx hy =>
    obtain ⟨hi,rfl⟩ := List.getElem?_eq_some_iff.mp hx
    obtain ⟨hj,rfl⟩ := List.getElem?_eq_some_iff.mp hy
    exact List.set_set_perm hi hj
  next => exact List.Perm.refl _

lemma up_perm (fuel : ℕ) (items : List α) (j : ℕ) : (up less fuel items j).Perm items := by
  induction fuel generalizing items j with
  | zero => exact List.Perm.refl _
  | succ fuel ih =>
    simp only [up]
    split_ifs
    · exact List.Perm.refl _
    · exact (ih _ _).trans (swap_perm _ _ _)

lemma down_perm (fuel : ℕ) (items : List α) (i n : ℕ) : (down less fuel items i n).Perm items := by
  induction fuel generalizing items i with
  | zero => exact List.Perm.refl _
  | succ fuel ih =>
    simp only [down]
    split_ifs
    · exact List.Perm.refl _
    · exact List.Perm.refl _
    · exact (ih _ _).trans (swap_perm _ _ _)

theorem push_perm (items : List α) (x : α) : (push less items x).Perm (x::items) :=
  (up_perm _ _ _).trans (List.perm_append_singleton x items)

lemma init_perm (items : List α) : (init less items).Perm items := by
  have hfold : ∀ (steps : List ℕ) (n : ℕ) (items : List α),
      (steps.foldl (fun items i => down less n items i n) items).Perm items := by
    intro steps n
    induction steps with
    | nil => exact fun items => List.Perm.refl _
    | cons i steps ih => exact fun items => (ih _).trans (down_perm _ _ _ _)
  exact hfold _ _ _

def IsChild (c p : ℕ) : Prop := c = 2*p+1 ∨ c = 2*p+2

/-- From position `k` on, no child below `n` comes before its parent. -/
def Ordered (less : α → α → Bool) (items : List α) (k n : ℕ) : Prop :=
  ∀ p c, IsChild c p → c < n → k ≤ p → lessAt less items c p = false

/-- The item at `i` may come after its children, but these do not come before its parent. -/
structure Sifting (less : α → α → Bool) (items : List α) (i k n : ℕ) : Prop where
  except : ∀ p c, IsChild c p → c < n → k ≤ p → p ≠ i → lessAt less items c p = false
  grand : ∀ p c, IsChild i p → k ≤ p → IsChild c i → c < n → lessAt less items c p = false

lemma firstChild_isChild (items : List α) (i n : ℕ) : IsChild (firstChild less items i n) i := by
  unfold firstChild
  split_ifs
  · exact .inr rfl
  · exact .inl rfl

lemma firstChild_lt {items : List α} {i n : ℕ} (h : ¬n ≤ 2*i+1) : firstChild less items i n < n := by
  unfold firstChild
  split_ifs with hright
  · exact hright.1
  · omega

/-- No child comes before the one that is chosen. -/
lemma firstChild_first (h : StrictWeakOrder less) (items : List α) {i n c : ℕ} (hc : IsChild c i)
    (hn : c < n) : lessAt less items c (firstChild less items i n) = false := by
  have hb := strictWeakOrder_before h
  unfold firstChild
  split_ifs with hright
  · rcases hc with rfl | rfl
    · exact hb.asymm _ _ hright.2
    · exact hb.irrefl _
  · rcases hc with rfl | rfl
    · exact hb.irrefl _
    · cases hl : lessAt less items (2*i+2) (2*i+1) with
      | false => rfl
      | true => exact absurd ⟨hn,hl⟩ hright

/-- An item that comes before none of its children is in its place. -/
lemma Sifting.finish (h : StrictWeakOrder less) {items : List α} {i k n j : ℕ}
    (hs : Sifting less items i k n) (hj : ∀ c, IsChild c i → c < n → lessAt less items c j = false)
    (hstop : lessAt less items j i = false) : Ordered less items k n := by
  intro p c hc hn hk
  by_cases hp : p = i
  · subst hp
    exact (strictWeakOrder_before h).trans _ _ _ (hj c hc hn) hstop
  · exact hs.except p c hc hn hk hp

/-- Swap an item with its first child. -/
lemma Sifting.move (h : StrictWeakOrder less) {items : List α} {i k n j : ℕ}
    (hs : Sifting less items i k n) (hlen : n ≤ items.length) (hchild : IsChild j i) (hjn : j < n)
    (hj : ∀ c, IsChild c i → c < n → lessAt less items c j = false)
    (hless : lessAt less items j i = true) : Sifting less (swap items i j) j k n := by
  have hij : i < j := by
    unfold IsChild at hchild
    omega
  have hget := getElem?_swap (show i < items.length by omega) (show j < items.length by omega)
  have hi : (swap items i j)[i]? = items[j]? := by
    rw [hget,if_neg (by omega),if_pos rfl]
  have hsame : ∀ c, c ≠ i → c ≠ j → (swap items i j)[c]? = items[c]? := by
    intro c hci hcj
    rw [hget,if_neg hcj,if_neg hci]
  constructor
  · intro p c hc hn hk hp
    unfold lessAt
    by_cases hpi : p = i
    · subst hpi
      rw [hi]
      by_cases hcj : c = j
      · subst hcj
        rw [hget,if_pos rfl]
        exact (strictWeakOrder_before h).asymm _ _ hless
      · have hci : c ≠ p := by
          unfold IsChild at hc
          omega
        rw [hsame c hci hcj]
        exact hj c hc hn
    · rw [hsame p hpi hp]
      have hcj : c ≠ j := by
        unfold IsChild at hc hchild
        omega
      by_cases hci : c = i
      · subst hci
        rw [hi]
        exact hs.grand p j hc hk hchild hjn
      · rw [hsame c hci hcj]
        exact hs.except p c hc hn hk hpi
  · intro p c hp hk hc hn
    obtain rfl : p = i := by
      unfold IsChild at hp hchild
      omega
    have hcp : c ≠ p ∧ c ≠ j := by
      unfold IsChild at hc
      omega
    unfold lessAt
    rw [hi,hsame c hcp.1 hcp.2]
    exact hs.except j c hc hn (by omega) (by omega)

lemma down_ordered (h : StrictWeakOrder less) (fuel : ℕ) (items : List α) (i k n : ℕ)
    (hs : Sifting less items i k n) (hlen : n ≤ items.length) (hfuel : n ≤ fuel+i) :
    Ordered less (down less fuel items i n) k n := by
  induction fuel generalizing items i with
  | zero =>
    intro p c hc hn hk
    apply hs.except p c hc hn hk
    unfold IsChild at hc
    omega
  | succ fuel ih =>
    simp only [down]
    split_ifs with hleaf hstop
    · intro p c hc hn hk
      apply hs.except p c hc hn hk
      unfold IsChild at hc
      omega
    · exact hs.finish h (fun c hc hn => firstChild_first h items hc hn) hstop
    · have hchild : IsChild (firstChild less items i n) i := firstChild_isChild items i n
      have hless : lessAt less items (firstChild less items i n) i = true := by
        simpa using hstop
      apply ih
      · exact hs.move h hlen hchild (firstChild_lt hleaf) (fun c hc hn => firstChild_first h items hc hn) hless
      · rw [(swap_perm _ _ _).length_eq]
        exact hlen
      · unfold IsChild at hchild
        omega

/-- Positions from `n` on are not touched. -/
lemma getElem?_down (fuel : ℕ) (items : List α) (i n k : ℕ) (hi : i < n) (hlen : n ≤ items.length)
    (hk : n ≤ k) : (down less fuel items i n)[k]? = items[k]? := by
  induction fuel generalizing items i with
  | zero => rfl
  | succ fuel ih =>
    simp only [down]
    split_ifs with hleaf
    · rfl
    · rfl
    · have hj : firstChild less items i n < n := firstChild_lt hleaf
      rw [ih _ _ hj (by rw [(swap_perm _ _ _).length_eq]; exact hlen),
        getElem?_swap (by omega) (by omega),if_neg (by omega),if_neg (by omega)]

lemma init_ordered (h : StrictWeakOrder less) (items : List α) :
    Ordered less (init less items) 0 items.length := by
  have hfold : ∀ (m n : ℕ) (items : List α), n ≤ items.length → Ordered less items m n →
      Ordered less ((List.range m).reverse.foldl (fun items i => down less n items i n) items) 0 n := by
    intro m n
    induction m with
    | zero => exact fun items _ ho => ho
    | succ m ih =>
      intro items hlen ho
      rw [List.range_succ,List.reverse_append]
      apply ih
      · rw [(down_perm _ _ _ _).length_eq]
        exact hlen
      · refine down_ordered h n items m m n ⟨?_,?_⟩ hlen (by omega)
        · intro p c hc hn hk hp
          exact ho p c hc hn (by omega)
        · intro p c hp hk
          unfold IsChild at hp
          omega
  apply hfold _ _ items (Nat.le_refl _)
  intro p c hc hn hk
  unfold IsChild at hc
  omega

/-- Nothing comes before the top of a heap. -/
lemma top_first (h : StrictWeakOrder less) {items : List α} {n : ℕ} (ho : Ordered less items 0 n) (c : ℕ)
    (hc : c < n) : lessAt less items c 0 = false := by
  have hb := strictWeakOrder_before h
  induction c using Nat.strongRecOn with
  | ind c ih =>
    by_cases hzero : c = 0
    · subst hzero
      exact hb.irrefl _
    · have hchild : IsChild c ((c-1)/2) := by
        unfold IsChild
        omega
      exact hb.trans _ _ _ (ho _ c hchild hc (Nat.zero_le _)) (ih ((c-1)/2) (by omega) (by omega))

theorem pop_init_none (items : List α) : pop less (init less items) = none ↔ items = [] := by
  have hperm : (down less ((init less items).length-1) (swap (init less items) 0
      ((init less items).length-1)) 0 ((init less items).length-1)).Perm items :=
    (down_perm _ _ _ _).trans ((swap_perm _ _ _).trans (init_perm _))
  simp only [pop,Option.map_eq_none_iff,List.getLast?_eq_none_iff]
  constructor
  · intro hnil
    rw [hnil] at hperm
    exact hperm.nil_eq.symm
  · rintro rfl
    exact hperm.eq_nil

/-- The item that is taken out was on top, and what is left is in order again. -/
theorem pop_ordered (h : StrictWeakOrder less) {items rest : List α} {x : α}
    (ho : Ordered less items 0 items.length) (hp : pop less items = some (x,rest)) :
    items.Perm (x::rest) ∧ items[0]? = some x ∧ Ordered less rest 0 rest.length := by
  simp only [pop] at hp
  obtain ⟨y,hlast,he⟩ := Option.map_eq_some_iff.mp hp
  cases he
  have hperm : (down less (items.length-1) (swap items 0 (items.length-1)) 0 (items.length-1)).Perm items :=
    (down_perm _ _ _ _).trans (swap_perm items 0 (items.length-1))
  have hlen := hperm.length_eq
  have hpos : 0 < items.length := by
    rw [← hlen]
    exact List.length_pos_of_mem (List.mem_of_getLast? hlast)
  have hget := getElem?_swap hpos (show items.length-1 < items.length by omega)
  have hsifting : Sifting less (swap items 0 (items.length-1)) 0 0 (items.length-1) := by
    constructor
    · intro p c hc hn hk hp
      have hcp : p < c ∧ c ≠ 0 := by
        unfold IsChild at hc
        omega
      unfold lessAt
      rw [hget,hget,if_neg (by omega),if_neg hcp.2,if_neg (by omega),if_neg hp]
      exact ho p c hc (by omega) hk
    · intro p c hp
      unfold IsChild at hp
      omega
  have hordered := down_ordered h (items.length-1) (swap items 0 (items.length-1)) 0 0 (items.length-1) hsifting
    (by rw [(swap_perm _ _ _).length_eq]; omega) (by omega)
  have htop : (down less (items.length-1) (swap items 0 (items.length-1)) 0 (items.length-1))[items.length-1]? =
      items[0]? := by
    rcases Nat.eq_or_lt_of_le hpos with hone | hmore
    · have hz : items.length-1 = 0 := by omega
      rw [hz]
      simp only [down]
      rw [getElem?_swap hpos hpos,if_pos rfl]
    · rw [getElem?_down _ _ _ _ _ (by omega) (by rw [(swap_perm _ _ _).length_eq]; omega) (Nat.le_refl _),
        hget,if_pos rfl]
  generalize down less (items.length-1) (swap items 0 (items.length-1)) 0 (items.length-1) = sifted at *
  refine ⟨?_,?_,fun p c hc hn hk => ?_⟩
  · have hsplit := List.dropLast_append_getLast? x hlast
    refine hperm.symm.trans ?_
    nth_rewrite 1 [← hsplit]
    exact List.perm_append_singleton _ _
  · rw [← htop,← hlen,← List.getLast?_eq_getElem?]
    exact hlast
  · rw [List.length_dropLast,hlen] at hn
    have hpc : p < c := by
      unfold IsChild at hc
      omega
    unfold lessAt
    rw [List.getElem?_dropLast,List.getElem?_dropLast,if_pos (by omega),if_pos (by omega)]
    exact hordered p c hc hn hk

/-- After a fresh `init` the item that is taken out is one that no other comes before. -/
theorem pop_init (h : StrictWeakOrder less) {items rest : List α} {x : α}
    (hp : pop less (init less items) = some (x,rest)) :
    items.Perm (x::rest) ∧ ∀ y ∈ items, less y x = false := by
  have ho := init_ordered h items
  have hinit : (init less items).Perm items := init_perm items
  rw [← hinit.length_eq] at ho
  obtain ⟨hperm,htop,-⟩ := pop_ordered h ho hp
  refine ⟨hinit.symm.trans hperm,fun y hy => ?_⟩
  obtain ⟨c,hc,rfl⟩ := List.mem_iff_getElem.mp (hinit.symm.mem_iff.mp hy)
  have hfirst := top_first h ho c hc
  unfold lessAt at hfirst
  rw [htop,List.getElem?_eq_getElem hc] at hfirst
  exact hfirst

/-- What is in order stays as it is. -/
lemma init_of_ordered {items : List α} (ho : Ordered less items 0 items.length) : init less items = items := by
  have hdown : ∀ fuel i, down less fuel items i items.length = items := by
    intro fuel i
    cases fuel with
    | zero => rfl
    | succ fuel =>
      simp only [down]
      split_ifs with hleaf hstop
      · rfl
      · rfl
      · exact absurd (ho i _ (firstChild_isChild items i _) (firstChild_lt hleaf) (Nat.zero_le _)) hstop
  have hfold : ∀ steps : List ℕ,
      steps.foldl (fun heap i => down less items.length heap i items.length) items = items := by
    intro steps
    induction steps with
    | nil => rfl
    | cons i steps ih => rw [List.foldl_cons,hdown,ih]
  exact hfold _

/-- The item at `j` may come before its parent, but its children do not. -/
structure Rising (less : α → α → Bool) (items : List α) (j n : ℕ) : Prop where
  except : ∀ p c, IsChild c p → c < n → c ≠ j → lessAt less items c p = false
  grand : ∀ p c, IsChild j p → IsChild c j → c < n → lessAt less items c p = false

/-- Swap an item with its parent. -/
lemma Rising.move (h : StrictWeakOrder less) {items : List α} {i j n : ℕ} (hr : Rising less items j n)
    (hjn : j < n) (hlen : n ≤ items.length) (hchild : IsChild j i) (hless : lessAt less items j i = true) :
    Rising less (swap items i j) i n := by
  have hb := strictWeakOrder_before h
  have hij : i < j := by
    unfold IsChild at hchild
    omega
  have hget := getElem?_swap (show i < items.length by omega) (show j < items.length by omega)
  have hi : (swap items i j)[i]? = items[j]? := by
    rw [hget,if_neg (by omega),if_pos rfl]
  have hj : (swap items i j)[j]? = items[i]? := by
    rw [hget,if_pos rfl]
  have hsame : ∀ c, c ≠ i → c ≠ j → (swap items i j)[c]? = items[c]? := by
    intro c hci hcj
    rw [hget,if_neg hcj,if_neg hci]
  have hback : before less items[i]? items[j]? = false := hb.asymm _ _ hless
  constructor
  · intro p c hc hn hci
    unfold lessAt
    by_cases hpj : p = j
    · subst hpj
      have hcp : c ≠ p := by
        unfold IsChild at hc
        omega
      rw [hj,hsame c hci hcp]
      exact hr.grand i c hchild hc hn
    · by_cases hpi : p = i
      · subst hpi
        rw [hi]
        by_cases hcj : c = j
        · subst hcj
          rw [hj]
          exact hback
        · rw [hsame c hci hcj]
          exact hb.trans _ _ _ (hr.except p c hc hn hcj) hback
      · have hcj : c ≠ j := by
          unfold IsChild at hc hchild
          omega
        rw [hsame p hpi hpj,hsame c hci hcj]
        exact hr.except p c hc hn hcj
  · intro p c hp hc hn
    have hpi : p < i := by
      unfold IsChild at hp
      omega
    have hparent : lessAt less items i p = false := hr.except p i hp (by omega) (by omega)
    unfold lessAt
    rw [hsame p (by omega) (by omega)]
    by_cases hcj : c = j
    · subst hcj
      rw [hj]
      exact hparent
    · have hci : c ≠ i := by
        unfold IsChild at hc
        omega
      rw [hsame c hci hcj]
      exact hb.trans _ _ _ (hr.except i c hc hn hcj) hparent

lemma up_ordered (h : StrictWeakOrder less) (fuel : ℕ) (items : List α) (j n : ℕ) (hr : Rising less items j n)
    (hjn : j < n) (hlen : n ≤ items.length) (hfuel : j < fuel) : Ordered less (up less fuel items j) 0 n := by
  induction fuel generalizing items j with
  | zero => omega
  | succ fuel ih =>
    simp only [up]
    split_ifs with hstop
    · intro p c hc hn hk
      by_cases hcj : c = j
      · subst hcj
        have hp : p = (c-1)/2 ∧ p ≠ c := by
          unfold IsChild at hc
          omega
        rw [hp.1]
        exact hstop.resolve_left (hp.1 ▸ hp.2)
      · exact hr.except p c hc hn hcj
    · simp only [not_or,Bool.not_eq_false] at hstop
      have hchild : IsChild j ((j-1)/2) := by
        unfold IsChild
        omega
      refine ih _ _ (hr.move h hjn hlen hchild hstop.2) (by omega) ?_ (by omega)
      rw [(swap_perm _ _ _).length_eq]
      exact hlen

theorem push_ordered (h : StrictWeakOrder less) {items : List α} (ho : Ordered less items 0 items.length) (x : α) :
    Ordered less (push less items x) 0 (push less items x).length := by
  have hlen : (push less items x).length = items.length+1 := (push_perm items x).length_eq
  rw [hlen]
  refine up_ordered h _ _ _ _ ⟨?_,?_⟩ (Nat.lt_succ_self _) (by simp) (Nat.lt_succ_self _)
  · intro p c hc hn hcj
    have hpc : p < c := by
      unfold IsChild at hc
      omega
    unfold lessAt
    rw [List.getElem?_append_left (by omega),List.getElem?_append_left (by omega)]
    exact ho p c hc (by omega) (Nat.zero_le _)
  · intro p c hp hc hn
    unfold IsChild at hc
    omega

/-- An item that does not come before the top does not get there. -/
lemma push_top {items : List α} {x top : α} (htop : items[0]? = some top) (hx : less x top = false) :
    (push less items x)[0]? = some top := by
  have hup : ∀ fuel (heap : List α) j, j ≠ 0 → heap[j]? = some x → heap[0]? = some top →
      (up less fuel heap j)[0]? = some top := by
    intro fuel
    induction fuel with
    | zero => exact fun heap j _ _ ht => ht
    | succ fuel ih =>
      intro heap j hj hjx ht
      simp only [up]
      split_ifs with hstop
      · exact ht
      · simp only [not_or,Bool.not_eq_false] at hstop
        have hjlen := (List.getElem?_eq_some_iff.mp hjx).1
        have hget := getElem?_swap (show (j-1)/2 < heap.length by omega) hjlen
        have hi : (j-1)/2 ≠ 0 := by
          intro hzero
          have hless := hstop.2
          rw [hzero,lessAt,hjx,ht] at hless
          exact absurd hless (by simp [before,hx])
        refine ih _ _ hi ?_ ?_
        · rw [hget,if_neg hstop.1,if_pos rfl]
          exact hjx
        · rw [hget,if_neg (Ne.symm hj),if_neg (Ne.symm hi)]
          exact ht
  have hpos := (List.getElem?_eq_some_iff.mp htop).1
  refine hup _ _ _ (by omega) ?_ ?_
  · rw [List.getElem?_append_right (Nat.le_refl _),Nat.sub_self]
    rfl
  · rw [List.getElem?_append_left hpos]
    exact htop

end Heap
end HiveKernel.Lib
