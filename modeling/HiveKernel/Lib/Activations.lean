import HiveKernel.Lib.Run
import HiveKernel.Lib.Table
import Mathlib.Logic.Relation

/-! Activations that call each other and wait for what they have called. One activation calls one other at a time;
a rank that rises with every call keeps them from waiting in a circle. -/
namespace HiveKernel.Lib

/-- An activation, the one that waits for it, and the one it waits for. -/
structure Activation (α : Type) where
  body : α
  outer : Option ℕ := none
  inner : Option ℕ := none

namespace Activation
variable {α : Type} {rank : α → ℕ} {m m' : Table ℕ (Activation α)} {i j : ℕ} {body : α}

/-- An activation that nobody in the table waits for. -/
def enter (m : Table ℕ (Activation α)) (i : ℕ) (body : α) : Option (Table ℕ (Activation α)) :=
  match m.get i with
  | some _ => none
  | none => some (m.set i { body := body })

/-- `i` calls a new activation and waits for it. -/
def call (m : Table ℕ (Activation α)) (i j : ℕ) (body : α) : Option (Table ℕ (Activation α)) :=
  match m.get i,m.get j with
  | some a,none =>
    if a.inner = none then some ((m.set i { a with inner := some j }).set j { body := body, outer := some i }) else none
  | _,_ => none

/-- The activation that waited goes on. -/
def resume (m : Table ℕ (Activation α)) : Option ℕ → Table ℕ (Activation α)
  | none => m
  | some o => match m.get o with
    | none => m
    | some a => m.set o { a with inner := none }

/-- An activation that waits for nobody returns. -/
def leave (m : Table ℕ (Activation α)) (i : ℕ) : Option (Table ℕ (Activation α)) :=
  match m.get i with
  | none => none
  | some a => if a.inner = none then some (resume (m.erase i) a.outer) else none

/-- `i` waits for `j`. -/
def Waits (m : Table ℕ (Activation α)) (i j : ℕ) : Prop := ∃ a, m.get i = some a ∧ a.inner = some j

/-- Calls and returns fit together, and the rank rises with each call. -/
structure Linked (rank : α → ℕ) (m : Table ℕ (Activation α)) : Prop where
  inner : ∀ i a j, m.get i = some a → a.inner = some j →
    ∃ b, m.get j = some b ∧ b.outer = some i ∧ rank a.body < rank b.body
  outer : ∀ j b i, m.get j = some b → b.outer = some i → ∃ a, m.get i = some a ∧ a.inner = some j

theorem linked_empty : Linked rank (.empty : Table ℕ (Activation α)) :=
  ⟨(fun i a j h => by cases h),(fun j b i h => by cases h)⟩

theorem enter_eq_some (hm : enter m i body = some m') : m.get i = none ∧ m' = m.set i { body := body } := by
  unfold enter at hm
  split at hm
  · cases hm
  next hi =>
    cases hm
    exact ⟨hi,rfl⟩

theorem call_eq_some (hm : call m i j body = some m') : ∃ a, m.get i = some a ∧ a.inner = none ∧ m.get j = none ∧
    m' = (m.set i { a with inner := some j }).set j { body := body, outer := some i } := by
  unfold call at hm
  split at hm
  next a hi hj =>
    split_ifs at hm with hin
    cases hm
    exact ⟨a,hi,hin,hj,rfl⟩
  next => cases hm

theorem leave_eq_some (hm : leave m i = some m') : ∃ a, m.get i = some a ∧ a.inner = none ∧
    m' = resume (m.erase i) a.outer := by
  unfold leave at hm
  split at hm
  · cases hm
  next a hi =>
    split_ifs at hm with hin
    cases hm
    exact ⟨a,hi,hin,rfl⟩

theorem get_resume (m : Table ℕ (Activation α)) (o : Option ℕ) (k : ℕ) :
    (resume m o).get k = if o = some k then (m.get k).map (fun a => { a with inner := none }) else m.get k := by
  unfold resume
  cases o with
  | none => rfl
  | some o =>
    dsimp only
    cases ho : m.get o with
    | none =>
      split_ifs with hk
      · obtain rfl := Option.some.inj hk
        rw [ho]
        rfl
      · rfl
    | some a =>
      dsimp only
      rw [Table.get_set]
      split_ifs with hk ho' ho'
      · rw [hk,ho]
        rfl
      · exact absurd (congrArg some hk).symm ho'
      · exact absurd (Option.some.inj ho').symm hk
      · rfl

theorem Linked.enter (h : Linked rank m) (hm : Activation.enter m i body = some m') : Linked rank m' := by
  obtain ⟨hi,rfl⟩ := enter_eq_some hm
  have hne : ∀ {k b}, m.get k = some b → k ≠ i := by
    intro k b hk he
    rw [he,hi] at hk
    cases hk
  constructor
  · intro k a j hk hj
    rcases Table.get_set_some hk with ⟨-,rfl⟩ | ⟨-,hk⟩
    · cases hj
    · obtain ⟨b,hb,hout,hlt⟩ := h.inner k a j hk hj
      exact ⟨b,by rwa [Table.get_set_of_ne (hne hb)],hout,hlt⟩
  · intro j b k hj hout
    rcases Table.get_set_some hj with ⟨-,rfl⟩ | ⟨-,hj⟩
    · cases hout
    · obtain ⟨a,ha,hin⟩ := h.outer j b k hj hout
      exact ⟨a,by rwa [Table.get_set_of_ne (hne ha)],hin⟩

theorem Linked.call (h : Linked rank m) (hm : Activation.call m i j body = some m')
    (hrank : ∀ a, m.get i = some a → rank a.body < rank body) : Linked rank m' := by
  obtain ⟨a,hi,hin,hj,rfl⟩ := call_eq_some hm
  have hne : ∀ {k b}, m.get k = some b → k ≠ j := by
    intro k b hk he
    rw [he,hj] at hk
    cases hk
  have hget : ∀ {k b}, m.get k = some b → ∃ b', ((m.set i { a with inner := some j }).set j
      { body := body, outer := some i }).get k = some b' ∧ b'.body = b.body ∧ b'.outer = b.outer ∧
      (k ≠ i → b' = b) := by
    intro k b hk
    rw [Table.get_set_of_ne (hne hk),Table.get_set]
    split_ifs with hki
    · rw [hki,hi] at hk
      obtain rfl := Option.some.inj hk
      exact ⟨_,rfl,rfl,rfl,fun h => absurd hki h⟩
    · exact ⟨b,hk,rfl,rfl,fun _ => rfl⟩
  constructor
  · intro k b l hk hl
    rcases Table.get_set_some hk with ⟨-,rfl⟩ | ⟨-,hk⟩
    · cases hl
    · rcases Table.get_set_some hk with ⟨rfl,rfl⟩ | ⟨-,hk⟩
      · obtain rfl : j = l := Option.some.inj hl
        exact ⟨_,Table.get_set_self _ _ _,rfl,hrank a hi⟩
      · obtain ⟨c,hc,hout,hlt⟩ := h.inner k b l hk hl
        obtain ⟨c',hc',hbody,houter,-⟩ := hget hc
        exact ⟨c',hc',houter.trans hout,by rwa [hbody]⟩
  · intro l b k hl hout
    rcases Table.get_set_some hl with ⟨rfl,rfl⟩ | ⟨-,hl⟩
    · obtain rfl : i = k := Option.some.inj hout
      exact ⟨_,by rw [Table.get_set_of_ne (hne hi),Table.get_set_self],rfl⟩
    · have hold : ∃ b', m.get l = some b' ∧ b'.outer = some k := by
        rcases Table.get_set_some hl with ⟨rfl,rfl⟩ | ⟨-,hl⟩
        · exact ⟨a,hi,hout⟩
        · exact ⟨b,hl,hout⟩
      obtain ⟨b',hb',hout'⟩ := hold
      obtain ⟨c,hc,hwaits⟩ := h.outer l b' k hb' hout'
      have hki : k ≠ i := by
        rintro rfl
        rw [hi] at hc
        obtain rfl := Option.some.inj hc
        rw [hin] at hwaits
        cases hwaits
      obtain ⟨c',hc',-,-,hsame⟩ := hget hc
      rw [hsame hki] at hc'
      exact ⟨c,hc',hwaits⟩

theorem Linked.leave (h : Linked rank m) (hm : Activation.leave m i = some m') : Linked rank m' := by
  obtain ⟨a,hi,hin,rfl⟩ := leave_eq_some hm
  have hget : ∀ k, (resume (m.erase i) a.outer).get k = if a.outer = some k then
      ((m.erase i).get k).map (fun a => { a with inner := none }) else (m.erase i).get k := get_resume _ _
  constructor
  · intro k b j hk hj
    rw [hget] at hk
    split_ifs at hk with hout
    · obtain ⟨c,-,rfl⟩ := Option.map_eq_some_iff.mp hk
      cases hj
    · obtain ⟨hki,hk⟩ := Table.get_erase_some hk
      obtain ⟨c,hc,houter,hlt⟩ := h.inner k b j hk hj
      have hji : j ≠ i := by
        rintro rfl
        rw [hi] at hc
        obtain rfl := Option.some.inj hc
        exact hout houter
      rw [hget,Table.get_erase_of_ne hji,hc]
      split_ifs
      · exact ⟨_,rfl,houter,hlt⟩
      · exact ⟨c,rfl,houter,hlt⟩
  · intro j b k hj hout
    have hold : j ≠ i ∧ ∃ c, m.get j = some c ∧ c.outer = some k := by
      rw [hget] at hj
      split_ifs at hj
      · obtain ⟨c,hc,rfl⟩ := Option.map_eq_some_iff.mp hj
        obtain ⟨hji,hc⟩ := Table.get_erase_some hc
        exact ⟨hji,c,hc,hout⟩
      · obtain ⟨hji,hj⟩ := Table.get_erase_some hj
        exact ⟨hji,b,hj,hout⟩
    obtain ⟨hji,c,hc,houter⟩ := hold
    obtain ⟨d,hd,hwaits⟩ := h.outer j c k hc houter
    have hki : k ≠ i := by
      rintro rfl
      rw [hi] at hd
      obtain rfl := Option.some.inj hd
      rw [hin] at hwaits
      cases hwaits
    have hnot : a.outer ≠ some k := by
      intro he
      obtain ⟨e,hek,hinner⟩ := h.outer i a k hi he
      obtain rfl := Option.some.inj (hd.symm.trans hek)
      exact hji (Option.some.inj (hwaits.symm.trans hinner))
    exact ⟨d,by rw [hget,if_neg hnot,Table.get_erase_of_ne hki,hd],hwaits⟩

theorem Linked.waits_unique (h : Linked rank m) {k : ℕ} (hi : Waits m i k) (hj : Waits m j k) : i = j := by
  obtain ⟨a,ha,hin⟩ := hi
  obtain ⟨a',ha',hin'⟩ := hj
  obtain ⟨b,hb,hout,-⟩ := h.inner i a k ha hin
  obtain ⟨b',hb',hout',-⟩ := h.inner j a' k ha' hin'
  obtain rfl := Option.some.inj (hb.symm.trans hb')
  exact Option.some.inj (hout.symm.trans hout')

/-- Along a chain of activations that wait for each other the rank rises. -/
theorem Linked.rank_lt (h : Linked rank m) (hij : Relation.TransGen (Waits m) i j) :
    ∃ a b, m.get i = some a ∧ m.get j = some b ∧ rank a.body < rank b.body := by
  have hone : ∀ {i j}, Waits m i j → ∃ a b, m.get i = some a ∧ m.get j = some b ∧ rank a.body < rank b.body := by
    rintro i j ⟨a,ha,hin⟩
    obtain ⟨b,hb,-,hlt⟩ := h.inner i a j ha hin
    exact ⟨a,b,ha,hb,hlt⟩
  induction hij with
  | single hij => exact hone hij
  | tail _ hjk ih =>
    obtain ⟨a,b,ha,hb,hlt⟩ := ih
    obtain ⟨b',c,hb',hc,hlt'⟩ := hone hjk
    obtain rfl := Option.some.inj (hb.symm.trans hb')
    exact ⟨a,c,ha,hc,Nat.lt_trans hlt hlt'⟩

theorem Linked.not_circle (h : Linked rank m) : ¬Relation.TransGen (Waits m) i i := by
  intro hi
  obtain ⟨a,b,ha,hb,hlt⟩ := h.rank_lt hi
  obtain rfl := Option.some.inj (ha.symm.trans hb)
  exact Nat.lt_irrefl _ hlt

/-- So a chain is no longer than the ranks that are called have room for. -/
theorem Linked.length_lt (h : Linked rank m) {bound : ℕ}
    (hbound : ∀ k b, m.get k = some b → b.outer.isSome → rank b.body < bound) {path : List ℕ} {a : Activation α}
    (hpath : (i::path).IsChain (Waits m)) (hi : m.get i = some a) (hne : path ≠ []) :
    rank a.body+path.length < bound := by
  induction path generalizing i a with
  | nil => exact absurd rfl hne
  | cons j path ih =>
    obtain ⟨hwaits,hrest⟩ := List.isChain_cons_cons.mp hpath
    obtain ⟨a',ha',hin⟩ := hwaits
    obtain rfl := Option.some.inj (hi.symm.trans ha')
    obtain ⟨b,hb,hout,hlt⟩ := h.inner i a j hi hin
    have hcalled := hbound j b hb (by rw [hout]; rfl)
    rw [List.length_cons]
    by_cases hend : path = []
    · rw [hend,List.length_nil]
      omega
    · have := ih hrest hb hend
      omega

theorem exists_rank_le (rank : α → ℕ) (m : Table ℕ (Activation α)) :
    ∃ bound, ∀ i a, m.get i = some a → rank a.body ≤ bound := by
  have hlist : ∀ keys : List ℕ, ∃ bound, ∀ i ∈ keys, ∀ a, m.get i = some a → rank a.body ≤ bound := by
    intro keys
    induction keys with
    | nil => exact ⟨0,fun i hi => absurd hi List.not_mem_nil⟩
    | cons k keys ih =>
      obtain ⟨bound,hbound⟩ := ih
      refine ⟨max bound (((m.get k).map (fun a => rank a.body)).getD 0),fun i hi a ha => ?_⟩
      rcases List.mem_cons.mp hi with rfl | hi
      · rw [ha]
        exact Nat.le_max_right _ _
      · exact Nat.le_trans (hbound i hi a ha) (Nat.le_max_left _ _)
  obtain ⟨bound,hbound⟩ := hlist m.keys
  exact ⟨bound,fun i a ha => hbound i (Table.mem_keys_of_get ha) a ha⟩

/-- Whoever waits, waits in the end for one that does not wait. -/
theorem Linked.exists_idle (h : Linked rank m) {a : Activation α} (hi : m.get i = some a) :
    ∃ j b, Relation.ReflTransGen (Waits m) i j ∧ m.get j = some b ∧ b.inner = none := by
  obtain ⟨bound,hbound⟩ := exists_rank_le rank m
  obtain ⟨n,hn⟩ : ∃ n, bound-rank a.body = n := ⟨_,rfl⟩
  induction n using Nat.strong_induction_on generalizing i a with
  | _ n ih =>
    cases hin : a.inner with
    | none => exact ⟨i,a,.refl,hi,hin⟩
    | some j =>
      obtain ⟨b,hb,-,hlt⟩ := h.inner i a j hi hin
      have hle := hbound j b hb
      obtain ⟨k,c,hjk,hk,hidle⟩ := ih (bound-rank b.body) (by omega) hb rfl
      exact ⟨k,c,.head ⟨a,hi,hin⟩ hjk,hk,hidle⟩

def size (m : Table ℕ (Activation α)) : ℕ := m.sum (fun _ _ => 1)

theorem size_resume (m : Table ℕ (Activation α)) (o : Option ℕ) : size (resume m o) = size m := by
  unfold resume
  split
  · rfl
  next o =>
    split
    · rfl
    next a ho => exact Nat.add_right_cancel (Table.sum_set_of_some m ho { a with inner := none } (fun _ _ => 1))

theorem size_leave (hm : leave m i = some m') : size m = 1+size m' := by
  obtain ⟨a,hi,-,rfl⟩ := leave_eq_some hm
  rw [size_resume]
  exact Table.sum_erase m hi (fun _ _ => 1)

/-- All activations can return, one after the other. -/
theorem Linked.drain (h : Linked rank m) :
    ∃ order m', exec Activation.leave order m = some m' ∧ ∀ k, m'.get k = none := by
  obtain ⟨n,hn⟩ : ∃ n, size m = n := ⟨_,rfl⟩
  induction n generalizing m with
  | zero =>
    refine ⟨[],m,rfl,fun k => ?_⟩
    by_contra hk
    obtain ⟨a,ha⟩ := Option.ne_none_iff_exists'.mp hk
    have hsum := Table.sum_erase m ha (fun _ _ => 1)
    unfold size at hn
    omega
  | succ n ih =>
    have hsome : ∃ i a, m.get i = some a := by
      by_contra hnone
      have hzero : size m = 0 := by
        refine (Table.sum_congr m (g := fun _ _ => 0) (fun i a ha => ?_)).trans ?_
        · exact absurd ⟨i,a,ha⟩ hnone
        · simp [Table.sum]
      omega
    obtain ⟨i,a,hi⟩ := hsome
    obtain ⟨j,b,-,hj,hidle⟩ := h.exists_idle hi
    have hleave : Activation.leave m j = some (resume (m.erase j) b.outer) := by
      simp only [Activation.leave,hj,hidle,if_true]
    have hsize := size_leave hleave
    obtain ⟨order,m',hexec,hempty⟩ := ih (h.leave hleave) (by omega)
    exact ⟨j::order,m',by rw [exec_cons hleave,hexec],hempty⟩

end Activation
end HiveKernel.Lib
