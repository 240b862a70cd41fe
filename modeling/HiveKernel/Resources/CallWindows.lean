import HiveKernel.Lib.Slice
import HiveKernel.Resources.Limits

/-! The windows of the rate limiter as they lie in memory: each is a slice that is pruned in its own array.
A process is allowed so many calls in any minute, whatever other processes do. -/
namespace HiveKernel
open Lib

namespace RateWindow

/-- A call of the process to which the window belongs. -/
def allow (w : RateWindow) (now : ℤ) : Bool × RateWindow :=
  let fresh := w.calls.filter (fun t => now-minute < t)
  if w.maxPerMin ≤ UInt32.ofNat fresh.length then (false,⟨fresh,w.maxPerMin⟩)
  else (true,⟨fresh++[now],w.maxPerMin⟩)

/-- The answers to a series of calls, each with its time. -/
def allowAll (w : RateWindow) : List ℤ → List (ℤ × Bool)
  | [] => []
  | now::times => (now,(w.allow now).1)::allowAll (w.allow now).2 times

def after (w : RateWindow) (times : List ℤ) : RateWindow := times.foldl (fun w now => (w.allow now).2) w

/-- The times of the calls that were allowed. -/
def allowedTimes (answers : List (ℤ × Bool)) : List ℤ := (answers.filter Prod.snd).map Prod.fst

variable {w : RateWindow}

lemma allowAll_append (w : RateWindow) (times times' : List ℤ) :
    w.allowAll (times++times') = w.allowAll times++(w.after times).allowAll times' := by
  induction times generalizing w with
  | nil => rfl
  | cons now times ih => exact congrArg (_::·) (ih (w.allow now).2)

lemma after_append (w : RateWindow) (times times' : List ℤ) :
    w.after (times++times') = (w.after times).after times' := List.foldl_append

lemma allowAll_snoc (w : RateWindow) (times : List ℤ) (now : ℤ) :
    w.allowAll (times++[now]) = w.allowAll times++[(now,((w.after times).allow now).1)] :=
  allowAll_append w times [now]

lemma after_snoc (w : RateWindow) (times : List ℤ) (now : ℤ) :
    w.after (times++[now]) = ((w.after times).allow now).2 := after_append w times [now]

lemma allowedTimes_snoc (answers : List (ℤ × Bool)) (now : ℤ) (allowed : Bool) :
    allowedTimes (answers++[(now,allowed)]) = allowedTimes answers++if allowed then [now] else [] := by
  cases allowed <;> simp [allowedTimes]

lemma map_fst_allowAll (w : RateWindow) (times : List ℤ) : (w.allowAll times).map Prod.fst = times := by
  induction times generalizing w with
  | nil => rfl
  | cons now times ih => exact congrArg (now::·) (ih (w.allow now).2)

/-- Each answer is that of the window as the calls before have left it. -/
lemma allowAll_split {times : List ℤ} {earlier later : List (ℤ × Bool)} {now : ℤ} {allowed : Bool}
    (h : w.allowAll times = earlier++(now,allowed)::later) : ∃ before rest, times = before++now::rest ∧
      w.allowAll before = earlier ∧ allowed = ((w.after before).allow now).1 := by
  induction earlier generalizing w times with
  | nil => cases times with
    | nil => cases h
    | cons first times =>
      simp only [allowAll,List.nil_append,List.cons.injEq,Prod.mk.injEq] at h
      obtain ⟨⟨rfl,rfl⟩,-⟩ := h
      exact ⟨[],times,rfl,rfl,rfl⟩
  | cons answer earlier ih => cases times with
    | nil => cases h
    | cons first times =>
      simp only [allowAll,List.cons_append,List.cons.injEq] at h
      obtain ⟨rfl,hrest⟩ := h
      obtain ⟨before,rest,rfl,hbefore,hallowed⟩ := ih hrest
      exact ⟨first::before,rest,rfl,by rw [allowAll,hbefore],hallowed⟩

/-- The calls of the last minute. -/
def recent (w : RateWindow) (now : ℤ) : List ℤ := w.calls.filter (fun t => now-minute < t)

lemma allow_cases (w : RateWindow) (now : ℤ) :
    w.allow now = (false,⟨w.recent now,w.maxPerMin⟩) ∧ w.maxPerMin ≤ UInt32.ofNat (w.recent now).length ∨
    w.allow now = (true,⟨w.recent now++[now],w.maxPerMin⟩) ∧
      ¬w.maxPerMin ≤ UInt32.ofNat (w.recent now).length := by
  by_cases hfull : w.maxPerMin ≤ UInt32.ofNat (w.recent now).length
  · exact .inl ⟨if_pos hfull,hfull⟩
  · exact .inr ⟨if_neg hfull,hfull⟩

lemma maxPerMin_allow (w : RateWindow) (now : ℤ) : (w.allow now).2.maxPerMin = w.maxPerMin := by
  rcases w.allow_cases now with ⟨h,-⟩ | ⟨h,-⟩ <;> rw [h]

/-- The count does not wrap. -/
lemma full_iff (hle : w.calls.length ≤ w.maxPerMin.toNat) (now : ℤ) :
    w.maxPerMin ≤ UInt32.ofNat (w.recent now).length ↔ w.maxPerMin.toNat ≤ (w.recent now).length := by
  have hshort : (w.recent now).length ≤ w.maxPerMin.toNat := (List.length_filter_le _ _).trans hle
  have hsize : w.maxPerMin.toNat < 2^32 := w.maxPerMin.toNat_lt
  rw [UInt32.le_iff_toNat_le,UInt32.toNat_ofNat_of_lt' (hshort.trans_lt hsize)]

lemma allow_eq_true_iff (hle : w.calls.length ≤ w.maxPerMin.toNat) (now : ℤ) :
    (w.allow now).1 = true ↔ (w.recent now).length < w.maxPerMin.toNat := by
  rcases w.allow_cases now with ⟨h,hfull⟩ | ⟨h,hfull⟩
  · have hlimit := (full_iff hle now).mp hfull
    simp [h,hlimit]
  · rw [full_iff hle now] at hfull
    simp [h,not_le.mp hfull]

/-- A window never holds more calls than are allowed. -/
lemma length_calls_allow (hle : w.calls.length ≤ w.maxPerMin.toNat) (now : ℤ) :
    (w.allow now).2.calls.length ≤ w.maxPerMin.toNat := by
  rcases w.allow_cases now with ⟨h,-⟩ | ⟨h,hfull⟩
  · rw [h]
    exact (List.length_filter_le _ _).trans hle
  · rw [full_iff hle now] at hfull
    rw [h,List.length_append,List.length_singleton]
    omega

/-- What a window still holds of the calls that it has allowed. -/
structure Faithful (w : RateWindow) (max : UInt32) (times allowed : List ℤ) : Prop where
  short : w.calls.length ≤ max.toNat
  limit : w.maxPerMin = max
  recent : ∀ now, (∀ t ∈ times, t ≤ now) → w.recent now = allowed.filter (fun t => now-minute < t)
  mem : ∀ t ∈ allowed, t ∈ times

lemma filter_recent (w : RateWindow) {now later : ℤ} (h : now ≤ later) :
    (w.recent now).filter (fun t => later-minute < t) = w.recent later := by
  rw [recent,List.filter_filter]
  refine List.filter_congr (fun t _ => ?_)
  rw [Bool.and_eq_left_iff_imp]
  simp only [decide_eq_true_eq]
  omega

lemma Faithful.allow {max : UInt32} {times allowed : List ℤ} (h : Faithful w max times allowed) (now : ℤ) :
    Faithful (w.allow now).2 max (times++[now]) (allowed++if (w.allow now).1 then [now] else []) := by
  have hle : w.calls.length ≤ w.maxPerMin.toNat := by
    rw [h.limit]
    exact h.short
  refine ⟨?_,(maxPerMin_allow w now).trans h.limit,?_,?_⟩
  · rw [← h.limit]
    exact length_calls_allow hle now
  · intro later hlater
    have hnext : now ≤ later := hlater now (List.mem_append_right _ (List.mem_singleton_self now))
    have hrecent := h.recent later (fun t ht => hlater t (List.mem_append_left _ ht))
    rw [List.filter_append,← hrecent]
    rcases w.allow_cases now with ⟨hw,-⟩ | ⟨hw,-⟩
    · simp only [hw,Bool.false_eq_true,if_false,List.filter_nil,List.append_nil]
      exact w.filter_recent hnext
    · simp only [hw,if_true]
      exact (List.filter_append _ _).trans (congrArg (·++_) (w.filter_recent hnext))
  · intro t ht
    rcases List.mem_append.mp ht with ht | ht
    · exact List.mem_append_left _ (h.mem t ht)
    · split_ifs at ht
      · exact List.mem_append_right _ ht
      · cases ht

/-- After any calls in the order of their times. -/
lemma faithful_after (max : UInt32) {times : List ℤ} (hsorted : times.Pairwise (· ≤ ·)) :
    Faithful ((⟨[],max⟩ : RateWindow).after times) max times
      (allowedTimes ((⟨[],max⟩ : RateWindow).allowAll times)) := by
  induction times using List.reverseRecOn with
  | nil => exact ⟨Nat.zero_le _,rfl,fun _ _ => rfl,fun t ht => ht⟩
  | append_singleton times now ih =>
    rw [after_snoc,allowAll_snoc,allowedTimes_snoc]
    exact (ih (List.pairwise_append.mp hsorted).1).allow now

/-- A call is allowed exactly if fewer calls than the limit were allowed in the minute before it. -/
lemma allow_after_iff (max : UInt32) {times : List ℤ} {now : ℤ} (hsorted : (times++[now]).Pairwise (· ≤ ·)) :
    (((⟨[],max⟩ : RateWindow).after times).allow now).1 = true ↔
      ((allowedTimes ((⟨[],max⟩ : RateWindow).allowAll times)).filter
        (fun t => now-minute < t ∧ t ≤ now)).length < max.toNat := by
  obtain ⟨hbefore,-,hnow⟩ := List.pairwise_append.mp hsorted
  have hold : ∀ t ∈ times, t ≤ now := fun t ht => hnow t ht now (List.mem_singleton_self now)
  have h := faithful_after max hbefore
  rw [allow_eq_true_iff (by rw [h.limit]; exact h.short),h.limit,h.recent now hold]
  have hsame : (allowedTimes ((⟨[],max⟩ : RateWindow).allowAll times)).filter (fun t => now-minute < t) =
      (allowedTimes ((⟨[],max⟩ : RateWindow).allowAll times)).filter (fun t => now-minute < t ∧ t ≤ now) := by
    refine List.filter_congr (fun t ht => ?_)
    simp [hold t (h.mem t ht)]
  rw [hsame]

/-- No minute has more allowed calls than the limit. -/
lemma length_allowed_le (max : UInt32) {times : List ℤ} (hsorted : times.Pairwise (· ≤ ·)) (start : ℤ) :
    ((allowedTimes ((⟨[],max⟩ : RateWindow).allowAll times)).filter
      (fun t => start < t ∧ t ≤ start+minute)).length ≤ max.toNat := by
  induction times using List.reverseRecOn with
  | nil => exact Nat.zero_le _
  | append_singleton times now ih =>
    obtain ⟨hbefore,-,hnow⟩ := List.pairwise_append.mp hsorted
    have hrest := ih hbefore
    rw [allowAll_snoc,allowedTimes_snoc,List.filter_append,List.length_append]
    cases hallowed : (((⟨[],max⟩ : RateWindow).after times).allow now).1 with
    | false => simpa using hrest
    | true =>
      by_cases hin : start < now ∧ now ≤ start+minute
      · have hlt := (allow_after_iff max hsorted).mp hallowed
        have hmono : ((allowedTimes ((⟨[],max⟩ : RateWindow).allowAll times)).filter
            (fun t => start < t ∧ t ≤ start+minute)).length ≤
            ((allowedTimes ((⟨[],max⟩ : RateWindow).allowAll times)).filter
              (fun t => now-minute < t ∧ t ≤ now)).length := by
          rw [← List.countP_eq_length_filter,← List.countP_eq_length_filter]
          refine List.countP_mono_left (fun t ht hbetween => ?_)
          have hold := hnow t ((faithful_after max hbefore).mem t ht) now (List.mem_singleton_self now)
          simp only [decide_eq_true_eq] at hbetween ⊢
          omega
        have hone : ([now].filter (fun t => start < t ∧ t ≤ start+minute)).length ≤ 1 :=
          List.length_filter_le _ _
        simp only [if_true]
        omega
      · have hnone : [now].filter (fun t => decide (start < t ∧ t ≤ start+minute)) = [] := by simp [hin]
        simp only [if_true,hnone,List.length_nil,Nat.add_zero]
        exact hrest

end RateWindow

/-- A window in memory; there is no array before the first call that is allowed. -/
structure CallWindow where
  calls : Option Slice
  maxPerMin : UInt32

/-- The windows by process, and the arrays in which they lie. -/
structure CallWindows where
  windows : Table ℕ CallWindow
  arrays : Arrays ℤ

/-- What is seen through a slice that may be `nil`. -/
def sliceRead (arrays : Arrays ℤ) (calls : Option Slice) : List ℤ := (calls.map arrays.read).getD []

def sliceLen (calls : Option Slice) : ℕ := (calls.map Slice.len).getD 0

namespace CallWindows

def new : CallWindows := ⟨.empty,.empty⟩

def setLimit (c : CallWindows) (pid : ℕ) (maxPerMin : UInt32) : CallWindows :=
  { c with windows := c.windows.set pid ⟨none,maxPerMin⟩ }

/-- Prune calls older than a minute. -/
def prune (arrays : Arrays ℤ) (calls : Option Slice) (cutoff : ℤ) : Arrays ℤ × Option Slice :=
  match calls with
  | none => (arrays,none)
  | some sl =>
    let fresh := arrays.retain sl (fun t => cutoff < t)
    (fresh.1,some fresh.2)

/-- Append a call. The runtime chooses the capacity of a new array. -/
def record (arrays : Arrays ℤ) (calls : Option Slice) (now : ℤ) (capacity : ℕ) : Arrays ℤ × Option Slice :=
  match calls with
  | none => (arrays.alloc ⟨[now],max capacity 1⟩,some ⟨arrays.next,1⟩)
  | some sl =>
    let recorded := arrays.append sl now capacity
    (recorded.1,some recorded.2)

def allowAt (c : CallWindows) (pid : ℕ) (now : ℤ) (capacity : ℕ) : Bool × CallWindows :=
  match c.windows.get pid with
  | none => (true,c)
  | some w =>
    let fresh := prune c.arrays w.calls (now-minute)
    if w.maxPerMin ≤ UInt32.ofNat (sliceLen fresh.2) then
      (false,⟨c.windows.set pid ⟨fresh.2,w.maxPerMin⟩,fresh.1⟩)
    else
      let recorded := record fresh.1 fresh.2 now capacity
      (true,⟨c.windows.set pid ⟨recorded.2,w.maxPerMin⟩,recorded.1⟩)

def remove (c : CallWindows) (pid : ℕ) : CallWindows := { c with windows := c.windows.erase pid }

/-- The window of a process, if it has a limit. -/
def window (c : CallWindows) (pid : ℕ) : Option RateWindow :=
  (c.windows.get pid).map (fun w => ⟨sliceRead c.arrays w.calls,w.maxPerMin⟩)

/-- The slices lie within their arrays, and no two windows share an array. -/
structure Sound (c : CallWindows) : Prop where
  valid : ∀ pid w sl, c.windows.get pid = some w → w.calls = some sl →
    c.arrays.Valid sl ∧ sl.array < c.arrays.next
  apart : ∀ pid pid' w w' sl sl', c.windows.get pid = some w → c.windows.get pid' = some w' →
    w.calls = some sl → w'.calls = some sl' → sl.array = sl'.array → pid = pid'

/-- The slice lies within its array, if there is one. -/
def Owned (arrays : Arrays ℤ) (calls : Option Slice) : Prop :=
  ∀ sl, calls = some sl → arrays.Valid sl ∧ sl.array < arrays.next

/-- A slice is replaced by another one, in its own array or in a new one; it lies within that array. -/
structure Moved (arrays arrays' : Arrays ℤ) (calls calls' : Option Slice) : Prop where
  owned : Owned arrays' calls'
  place : ∀ sl, calls' = some sl → (∃ old, calls = some old ∧ sl.array = old.array) ∨ arrays.next ≤ sl.array
  next : arrays.next ≤ arrays'.next
  frame : ∀ k < arrays.next, (∀ old, calls = some old → k ≠ old.array) → arrays'.cells k = arrays.cells k

variable {arrays arrays' arrays'' : Arrays ℤ} {calls calls' calls'' : Option Slice}

lemma Moved.trans (h : Moved arrays arrays' calls calls') (h' : Moved arrays' arrays'' calls' calls'') :
    Moved arrays arrays'' calls calls'' := by
  refine ⟨h'.owned,fun sl hsl => ?_,h.next.trans h'.next,fun k hk hne => ?_⟩
  · rcases h'.place sl hsl with ⟨old,hold,harray⟩ | hnew
    · rw [harray]
      exact h.place old hold
    · exact .inr (h.next.trans hnew)
  · rw [h'.frame k (hk.trans_le h.next) ?_,h.frame k hk hne]
    intro old hold
    rcases h.place old hold with ⟨older,holder,harray⟩ | hnew
    · rw [harray]
      exact hne older holder
    · omega

lemma length_sliceRead (h : Owned arrays calls) : (sliceRead arrays calls).length = sliceLen calls := by
  cases calls with
  | none => rfl
  | some sl => exact Arrays.length_read (h sl rfl).1

lemma prune_spec (h : Owned arrays calls) (cutoff : ℤ) :
    Moved arrays (prune arrays calls cutoff).1 calls (prune arrays calls cutoff).2 ∧
      sliceRead (prune arrays calls cutoff).1 (prune arrays calls cutoff).2 =
        (sliceRead arrays calls).filter (fun t => cutoff < t) := by
  cases calls with
  | none => exact ⟨⟨h,fun _ hsl => absurd hsl (by simp [prune]),le_rfl,fun _ _ _ => rfl⟩,rfl⟩
  | some sl =>
    obtain ⟨hvalid,hlt⟩ := h sl rfl
    have hretained := Arrays.retained_retain hvalid hlt (fun t => decide (cutoff < t))
    refine ⟨⟨?_,?_,hretained.next,?_⟩,hretained.read⟩
    · rintro _ ⟨⟩
      exact ⟨hretained.valid,hretained.inside⟩
    · rintro _ ⟨⟩
      exact hretained.place.imp (fun harray => ⟨sl,rfl,harray⟩) id
    · exact fun k hk hne => hretained.frame k (hne sl rfl) hk

lemma record_spec (h : Owned arrays calls) (now : ℤ) (capacity : ℕ) :
    Moved arrays (record arrays calls now capacity).1 calls (record arrays calls now capacity).2 ∧
      sliceRead (record arrays calls now capacity).1 (record arrays calls now capacity).2 =
        sliceRead arrays calls++[now] := by
  cases calls with
  | none =>
    refine ⟨⟨?_,?_,Nat.le_succ _,?_⟩,?_⟩
    · rintro _ ⟨⟩
      refine ⟨?_,Nat.lt_succ_self _⟩
      unfold Arrays.Valid record
      rw [Arrays.cells_alloc,if_pos rfl]
      exact le_rfl
    · rintro _ ⟨⟩
      exact .inr le_rfl
    · intro k hk _
      unfold record
      rw [Arrays.cells_alloc,if_neg hk.ne]
    · change List.take 1 ((arrays.alloc _).cells arrays.next) = _
      rw [Arrays.cells_alloc,if_pos rfl]
      rfl
  | some sl =>
    obtain ⟨hvalid,hlt⟩ := h sl rfl
    have hnext := Arrays.next_append arrays sl now capacity
    refine ⟨⟨?_,?_,hnext.1,?_⟩,Arrays.read_append hvalid now capacity⟩
    · rintro _ ⟨⟩
      exact ⟨Arrays.valid_append hvalid now capacity,Arrays.inside_append hlt now capacity⟩
    · rintro _ ⟨⟩
      rcases hnext.2 with ⟨harray,-⟩ | harray
      · exact .inl ⟨sl,rfl,harray⟩
      · exact .inr harray.ge
    · exact fun k hk hne => Arrays.cells_append_of_ne arrays sl now capacity (hne sl rfl) hk

variable {c : CallWindows} {pid j : ℕ} {w : CallWindow}

lemma Sound.owned (h : Sound c) (hw : c.windows.get pid = some w) : Owned c.arrays w.calls :=
  fun sl hsl => h.valid pid w sl hw hsl

/-- The window of one process moves; those of the others stay where they are and as they are. -/
lemma Sound.move (h : Sound c) (hw : c.windows.get pid = some w) (hmoved : Moved c.arrays arrays' w.calls calls') :
    Sound ⟨c.windows.set pid ⟨calls',w.maxPerMin⟩,arrays'⟩ ∧ ∀ j,
      (⟨c.windows.set pid ⟨calls',w.maxPerMin⟩,arrays'⟩ : CallWindows).window j =
        if j = pid then some ⟨sliceRead arrays' calls',w.maxPerMin⟩ else c.window j := by
  have hframe : ∀ j v sl, j ≠ pid → c.windows.get j = some v → v.calls = some sl →
      arrays'.cells sl.array = c.arrays.cells sl.array := by
    intro j v sl hne hv hsl
    refine hmoved.frame _ (h.valid j v sl hv hsl).2 (fun old hold harray => hne ?_)
    exact h.apart j pid v w sl old hv hw hsl hold harray
  have hapart : ∀ j v sl sl', j ≠ pid → c.windows.get j = some v → v.calls = some sl → calls' = some sl' →
      sl.array ≠ sl'.array := by
    intro j v sl sl' hne hv hsl hsl' harray
    rcases hmoved.place sl' hsl' with ⟨old,hold,hsame⟩ | hnew
    · exact hne (h.apart j pid v w sl old hv hw hsl hold (harray.trans hsame))
    · have hlt := (h.valid j v sl hv hsl).2
      omega
  refine ⟨⟨?_,?_⟩,fun j => ?_⟩
  · intro j v sl hv hsl
    rcases Table.get_set_some hv with ⟨rfl,rfl⟩ | ⟨hne,hv⟩
    · exact hmoved.owned sl hsl
    · obtain ⟨hvalid,hlt⟩ := h.valid j v sl hv hsl
      refine ⟨?_,hlt.trans_le hmoved.next⟩
      unfold Arrays.Valid at hvalid ⊢
      rwa [hframe j v sl hne hv hsl]
  · intro j k v v' sl sl' hv hv' hsl hsl' harray
    rcases Table.get_set_some hv with ⟨hj,rfl⟩ | ⟨hj,hold⟩
    · rcases Table.get_set_some hv' with ⟨hk,rfl⟩ | ⟨hk,hold'⟩
      · exact hj.trans hk.symm
      · exact absurd harray.symm (hapart k v' sl' sl hk hold' hsl' hsl)
    · rcases Table.get_set_some hv' with ⟨hk,rfl⟩ | ⟨hk,hold'⟩
      · exact absurd harray (hapart j v sl sl' hj hold hsl hsl')
      · exact h.apart j k v v' sl sl' hold hold' hsl hsl' harray
  · unfold window
    rw [Table.get_set]
    split_ifs with hj
    · rfl
    · cases hv : c.windows.get j with
      | none => rfl
      | some v =>
        refine congrArg some (congrArg (RateWindow.mk · v.maxPerMin) ?_)
        unfold sliceRead
        cases hsl : v.calls with
        | none => rfl
        | some sl => exact congrArg (List.take sl.len) (hframe j v sl hj hv hsl)

/-- What a call answers, and what becomes of the windows. -/
theorem allowAt_spec (h : Sound c) (pid : ℕ) (now : ℤ) (capacity : ℕ) :
    Sound (c.allowAt pid now capacity).2 ∧
      (c.allowAt pid now capacity).1 = ((c.window pid).map (fun w => (w.allow now).1)).getD true ∧
      ∀ j, (c.allowAt pid now capacity).2.window j =
        if j = pid then (c.window pid).map (fun w => (w.allow now).2) else c.window j := by
  cases hw : c.windows.get pid with
  | none =>
    have hwindow : c.window pid = none := by rw [window,hw]; rfl
    have hstep : c.allowAt pid now capacity = (true,c) := by simp only [allowAt,hw]
    rw [hstep,hwindow]
    refine ⟨h,rfl,fun j => ?_⟩
    split_ifs with hj
    · rw [hj,hwindow]
      rfl
    · rfl
  | some w =>
    have hwindow : c.window pid = some ⟨sliceRead c.arrays w.calls,w.maxPerMin⟩ := by rw [window,hw]; rfl
    obtain ⟨hpruned,hfresh⟩ := prune_spec (h.owned hw) (now-minute)
    have hlen := length_sliceRead hpruned.owned
    rw [hfresh] at hlen
    obtain ⟨hrecorded,hcalls⟩ := record_spec hpruned.owned now capacity
    rw [hfresh] at hcalls
    simp only [hwindow,Option.map_some,Option.getD_some]
    rcases RateWindow.allow_cases ⟨sliceRead c.arrays w.calls,w.maxPerMin⟩ now with ⟨hallow,hfull⟩ | ⟨hallow,hfull⟩
    · simp only [RateWindow.recent,hlen] at hfull
      have hstep : c.allowAt pid now capacity = (false,⟨c.windows.set pid
          ⟨(prune c.arrays w.calls (now-minute)).2,w.maxPerMin⟩,(prune c.arrays w.calls (now-minute)).1⟩) := by
        simp only [allowAt,hw,if_pos hfull]
      obtain ⟨hsound,hothers⟩ := h.move hw hpruned
      rw [hfresh] at hothers
      rw [hstep,hallow]
      exact ⟨hsound,rfl,hothers⟩
    · simp only [RateWindow.recent,hlen] at hfull
      obtain ⟨hsound,hothers⟩ := h.move hw (hpruned.trans hrecorded)
      rw [hcalls] at hothers
      rw [allowAt,hw]
      simp only [if_neg hfull]
      rw [hallow]
      exact ⟨hsound,rfl,hothers⟩

lemma sound_new : Sound new := ⟨fun _ _ _ h => (by cases h),fun _ _ _ _ _ _ h => (by cases h)⟩

lemma Sound.setLimit (h : Sound c) (pid : ℕ) (maxPerMin : UInt32) : Sound (c.setLimit pid maxPerMin) := by
  have hset : ∀ {j w sl}, (c.setLimit pid maxPerMin).windows.get j = some w → w.calls = some sl →
      c.windows.get j = some w := by
    intro j w sl hw hsl
    rcases Table.get_set_some hw with ⟨-,rfl⟩ | ⟨-,hold⟩
    · cases hsl
    · exact hold
  exact ⟨fun j w sl hw hsl => h.valid j w sl (hset hw hsl) hsl,
    fun j k w w' sl sl' hw hw' hsl hsl' => h.apart j k w w' sl sl' (hset hw hsl) (hset hw' hsl') hsl hsl'⟩

lemma Sound.remove (h : Sound c) (pid : ℕ) : Sound (c.remove pid) :=
  ⟨fun j w sl hw hsl => h.valid j w sl (Table.get_erase_some hw).2 hsl,
    fun j k w w' sl sl' hw hw' hsl hsl' =>
      h.apart j k w w' sl sl' (Table.get_erase_some hw).2 (Table.get_erase_some hw').2 hsl hsl'⟩

lemma window_setLimit (c : CallWindows) (pid : ℕ) (maxPerMin : UInt32) (j : ℕ) :
    (c.setLimit pid maxPerMin).window j = if j = pid then some ⟨[],maxPerMin⟩ else c.window j := by
  unfold window setLimit
  rw [Table.get_set]
  split_ifs <;> rfl

lemma window_remove (c : CallWindows) (pid j : ℕ) :
    (c.remove pid).window j = if j = pid then none else c.window j := by
  unfold window remove
  rw [Table.get_erase]
  split_ifs <;> rfl

end CallWindows

/-- A call of the rate limiter. The capacity is for an array that the call may have to make. -/
inductive LimiterCall
  | setLimit (pid : ℕ) (maxPerMin : UInt32)
  | allow (pid : ℕ) (now : ℤ) (capacity : ℕ)
  | remove (pid : ℕ)

/-- The call sets or removes the limit of the process. -/
def LimiterCall.resets (pid : ℕ) : LimiterCall → Bool
  | .setLimit j _ => j = pid
  | .allow .. => false
  | .remove j => j = pid

structure LimiterAnswer where
  pid : ℕ
  now : ℤ
  allowed : Bool

/-- The times at which a process asks. -/
def callTimes (pid : ℕ) : List LimiterCall → List ℤ
  | [] => []
  | .allow j now _::calls => if j = pid then now::callTimes pid calls else callTimes pid calls
  | _::calls => callTimes pid calls

/-- What a process is told, with the times. -/
def answersTo (pid : ℕ) (answers : List LimiterAnswer) : List (ℤ × Bool) :=
  (answers.filter (fun answer => answer.pid = pid)).map (fun answer => (answer.now,answer.allowed))

namespace CallWindows
variable {c : CallWindows} {pid : ℕ}

def perform (c : CallWindows) : LimiterCall → List LimiterAnswer × CallWindows
  | .setLimit pid maxPerMin => ([],c.setLimit pid maxPerMin)
  | .allow pid now capacity => ([⟨pid,now,(c.allowAt pid now capacity).1⟩],(c.allowAt pid now capacity).2)
  | .remove pid => ([],c.remove pid)

def performAll (c : CallWindows) : List LimiterCall → List LimiterAnswer × CallWindows
  | [] => ([],c)
  | call::calls =>
    ((c.perform call).1++((c.perform call).2.performAll calls).1,((c.perform call).2.performAll calls).2)

lemma Sound.performAll (h : Sound c) (calls : List LimiterCall) : Sound (c.performAll calls).2 := by
  induction calls generalizing c with
  | nil => exact h
  | cons call calls ih =>
    refine ih ?_
    cases call with
    | setLimit pid maxPerMin => exact h.setLimit pid maxPerMin
    | allow pid now capacity => exact (allowAt_spec h pid now capacity).1
    | remove pid => exact h.remove pid

/-- A process is answered by its own window alone. -/
lemma answersTo_performAll (h : Sound c) {w : RateWindow} (hw : c.window pid = some w)
    {calls : List LimiterCall} (honly : ∀ call ∈ calls, call.resets pid = false) :
    answersTo pid (c.performAll calls).1 = w.allowAll (callTimes pid calls) := by
  induction calls generalizing c w with
  | nil => rfl
  | cons call calls ih =>
    obtain ⟨hcall,hcalls⟩ := List.forall_mem_cons.mp honly
    have happend : answersTo pid (c.performAll (call::calls)).1 =
        answersTo pid (c.perform call).1++answersTo pid ((c.perform call).2.performAll calls).1 := by
      simp only [performAll,answersTo,List.filter_append,List.map_append]
    rw [happend]
    cases call with
    | setLimit j maxPerMin =>
      have hne : pid ≠ j := fun heq => by simp [LimiterCall.resets,heq] at hcall
      exact ih (h.setLimit j maxPerMin) (by rw [window_setLimit,if_neg hne]; exact hw) hcalls
    | remove j =>
      have hne : pid ≠ j := fun heq => by simp [LimiterCall.resets,heq] at hcall
      exact ih (h.remove j) (by rw [window_remove,if_neg hne]; exact hw) hcalls
    | allow j now capacity =>
      obtain ⟨hsound,hanswer,hwindows⟩ := allowAt_spec h j now capacity
      have hwindow := hwindows pid
      by_cases hj : j = pid
      · subst hj
        rw [if_pos rfl,hw] at hwindow
        rw [hw] at hanswer
        have hrest := ih hsound hwindow hcalls
        simp only [perform,callTimes,if_true,RateWindow.allowAll]
        rw [hrest,hanswer]
        simp [answersTo]
      · rw [if_neg (Ne.symm hj),hw] at hwindow
        have hrest := ih hsound hwindow hcalls
        simp only [perform,callTimes,if_neg hj]
        rw [hrest]
        simp [answersTo,hj]

/-- What happens after the limit of a process has been set, in any state that calls have reached. -/
def sinceLimit (before : List LimiterCall) (pid : ℕ) (maxPerMin : UInt32) (calls : List LimiterCall) :
    List (ℤ × Bool) :=
  answersTo pid (((new.performAll before).2.setLimit pid maxPerMin).performAll calls).1

lemma sinceLimit_eq (before : List LimiterCall) (pid : ℕ) (maxPerMin : UInt32) {calls : List LimiterCall}
    (honly : ∀ call ∈ calls, call.resets pid = false) :
    sinceLimit before pid maxPerMin calls = (⟨[],maxPerMin⟩ : RateWindow).allowAll (callTimes pid calls) :=
  answersTo_performAll ((sound_new.performAll before).setLimit pid maxPerMin)
    (by rw [window_setLimit,if_pos rfl]) honly

/-- A process with a limit is allowed a call exactly if fewer calls than the limit were allowed in the minute
before it. So no minute has more allowed calls than the limit, and what other processes do does not matter. -/
theorem allowed_iff_of_calls (before : List LimiterCall) (pid : ℕ) (maxPerMin : UInt32)
    {calls : List LimiterCall} (honly : ∀ call ∈ calls, call.resets pid = false)
    (hsorted : (callTimes pid calls).Pairwise (· ≤ ·)) :
    (∀ earlier now allowed later, sinceLimit before pid maxPerMin calls = earlier++(now,allowed)::later →
      (allowed = true ↔ ((RateWindow.allowedTimes earlier).filter
        (fun t => now-minute < t ∧ t ≤ now)).length < maxPerMin.toNat)) ∧
    (∀ start, ((RateWindow.allowedTimes (sinceLimit before pid maxPerMin calls)).filter
      (fun t => start < t ∧ t ≤ start+minute)).length ≤ maxPerMin.toNat) ∧
    (∀ start, ((RateWindow.allowedTimes (sinceLimit before pid maxPerMin calls)).filter
      (fun t => start ≤ t ∧ t < start+minute)).length ≤ maxPerMin.toNat) ∧
    (sinceLimit before pid maxPerMin calls).map Prod.fst = callTimes pid calls ∧
    ∀ before' calls', (∀ call ∈ calls', call.resets pid = false) → callTimes pid calls' = callTimes pid calls →
      sinceLimit before' pid maxPerMin calls' = sinceLimit before pid maxPerMin calls := by
  rw [sinceLimit_eq before pid maxPerMin honly]
  refine ⟨?_,RateWindow.length_allowed_le maxPerMin hsorted,fun start => ?_,RateWindow.map_fst_allowAll _ _,?_⟩
  · intro earlier now allowed later hanswers
    obtain ⟨times,rest,htimes,rfl,rfl⟩ := RateWindow.allowAll_split hanswers
    rw [htimes] at hsorted
    refine RateWindow.allow_after_iff maxPerMin (hsorted.sublist ?_)
    exact List.Sublist.append_left (List.cons_sublist_cons.mpr (List.nil_sublist rest)) times
  · have hshift : (fun t : ℤ => decide (start ≤ t ∧ t < start+minute)) =
        fun t => decide (start-1 < t ∧ t ≤ start-1+minute) := by
      funext t
      refine decide_eq_decide.mpr ?_
      omega
    rw [hshift]
    exact RateWindow.length_allowed_le maxPerMin hsorted (start-1)
  · intro before' calls' honly' htimes
    rw [sinceLimit_eq before' pid maxPerMin honly',htimes]

/-- Two calls a minute: the third call of the process is too early, the fourth is a minute after the first. -/
def fourCalls : List LimiterCall :=
  [.allow 1 0 4,.allow 2 1 4,.allow 1 1 4,.allow 1 2 4,.setLimit 2 0,.allow 2 3 4,.allow 1 minute 4]

theorem allowed_iff_of_calls_four :
    sinceLimit [] 1 2 fourCalls = [(0,true),(1,true),(2,false),(minute,true)] ∧
      (((RateWindow.allowedTimes [(0,true),(1,true),(2,false)]).filter
        (fun t => minute-minute < t ∧ t ≤ minute)).length < 2) ∧
      ((RateWindow.allowedTimes (sinceLimit [] 1 2 fourCalls)).filter
        (fun t => 0 ≤ t ∧ t < 0+minute)).length ≤ 2 := by
  obtain ⟨hiff,-,hwindow,-,-⟩ := @allowed_iff_of_calls [] 1 2 fourCalls (by decide) (by decide)
  have hanswers : sinceLimit [] 1 2 fourCalls = [(0,true),(1,true),(2,false),(minute,true)] := by decide
  exact ⟨hanswers,(hiff _ minute true [] hanswers).mp rfl,hwindow 0⟩

end CallWindows
end HiveKernel
