import HiveKernel.Ipc.Broker
import HiveKernel.Lib.Heap
import HiveKernel.Lib.Run
import Mathlib.Algebra.Order.Field.Basic
import Mathlib.Data.Rat.Cast.Order
import Mathlib.Tactic.Linarith
import Mathlib.Tactic.Ring

/-! The queue with its heap. Priorities, the aging factor and times are exact numbers here, and an
operation reads the clock once. The effective priorities of two messages fall at the same rate, so
that the order of the heap does not depend on the clock. -/
namespace HiveKernel
open Lib

/-- Nanoseconds as seconds. -/
def seconds (d : ℤ) : ℚ := d/1000000000

namespace Message

/-- The priority after some time in the queue. The zero time is the origin of the clock. -/
def effectivePriority (m : Message) (agingFactor : ℚ) (now : ℤ) : ℚ :=
  let age := seconds (now-m.enqueuedAt.getD 0)
  m.priority-age*agingFactor

/-- The part of it that does not change. -/
def rank (m : Message) (agingFactor : ℚ) : ℚ := m.priority+agingFactor*seconds (m.enqueuedAt.getD 0)

lemma effectivePriority_eq (m : Message) (agingFactor : ℚ) (now : ℤ) :
    m.effectivePriority agingFactor now = m.rank agingFactor-agingFactor*seconds now := by
  unfold effectivePriority rank seconds
  push_cast
  ring

/-- Which of two messages comes first does not depend on the time. -/
lemma effectivePriority_lt_iff (m m' : Message) (agingFactor : ℚ) (now : ℤ) :
    m.effectivePriority agingFactor now < m'.effectivePriority agingFactor now ↔
      m.rank agingFactor < m'.rank agingFactor := by
  rw [effectivePriority_eq,effectivePriority_eq]
  exact sub_lt_sub_iff_right _

end Message

structure AgingQueue extends PriorityQueue where
  agingFactor : ℚ

namespace AgingQueue
variable {q q' : AgingQueue} {a : ℚ} {now : ℤ}

def new (agingFactor : ℚ) : AgingQueue := ⟨.new,agingFactor⟩

def less (agingFactor : ℚ) (now : ℤ) (m m' : Message) : Bool :=
  decide (m.effectivePriority agingFactor now < m'.effectivePriority agingFactor now)

def push (q : AgingQueue) (now : ℤ) (msg : Message) : Message × AgingQueue :=
  let stamped := q.stamp now msg
  (stamped,
    { q with
      items := Heap.push (less q.agingFactor now) q.items stamped
      nextID := if msg.id = "" then q.nextID+1 else q.nextID })

/-- The loop of `Pop`: put the heap in order, take its top, and go on if that is expired. -/
def popLoop (agingFactor : ℚ) (now : ℤ) : ℕ → List Message → Option Message × List Message
  | 0,items => (none,items)
  | fuel+1,items => match Heap.pop (less agingFactor now) (Heap.init (less agingFactor now) items) with
    | none => (none,items)
    | some (msg,rest) => if msg.Expired now then popLoop agingFactor now fuel rest else (some msg,rest)

/-- Every iteration takes a message out, so that there are no more of them than messages. -/
def pop (q : AgingQueue) (now : ℤ) : Option Message × AgingQueue :=
  let (result,items) := popLoop q.agingFactor now q.items.length q.items
  (result,{ q with items := items })

lemma strictWeakOrder_less (a : ℚ) (now : ℤ) : StrictWeakOrder (less a now) :=
  strictWeakOrder_key (fun m : Message => m.effectivePriority a now)

lemma less_eq_false {m m' : Message} : less a now m m' = false ↔ m'.rank a ≤ m.rank a := by
  unfold less
  rw [decide_eq_false_iff_not,Message.effectivePriority_lt_iff,not_lt]

/-- What `Pop` is for: the first message that is not expired, if there is one, leaves the queue, and
with it nothing but expired ones. -/
structure TakesFirst (a : ℚ) (now : ℤ) (items : List Message) (result : Option Message)
    (rest : List Message) : Prop where
  first : ∀ msg, result = some msg → msg ∈ items ∧ ¬msg.Expired now ∧
    ∀ m ∈ items, ¬m.Expired now → msg.rank a ≤ m.rank a
  nil_iff : result = none ↔ ∀ m ∈ items, m.Expired now
  removes : ∃ dropped, items.Perm (result.toList++dropped++rest) ∧ ∀ m ∈ dropped, m.Expired now

/-- The top of the heap is expired and is dropped. -/
lemma TakesFirst.drop {items rest rest' : List Message} {msg : Message} {result : Option Message}
    (hperm : items.Perm (msg::rest)) (hexp : msg.Expired now) (h : TakesFirst a now rest result rest') :
    TakesFirst a now items result rest' := by
  have hmem : ∀ m, m ∈ items ↔ m = msg ∨ m ∈ rest := by
    intro m
    rw [hperm.mem_iff,List.mem_cons]
  constructor
  · intro m hm
    obtain ⟨hin,hlive,hmin⟩ := h.first m hm
    refine ⟨(hmem m).mpr (.inr hin),hlive,fun m' hm' hlive' => ?_⟩
    rcases (hmem m').mp hm' with rfl | hm'
    · exact absurd hexp hlive'
    · exact hmin m' hm' hlive'
  · rw [h.nil_iff]
    constructor
    · intro hall m hm
      rcases (hmem m).mp hm with rfl | hm
      · exact hexp
      · exact hall m hm
    · exact fun hall m hm => hall m ((hmem m).mpr (.inr hm))
  · obtain ⟨dropped,hd,hall⟩ := h.removes
    refine ⟨msg::dropped,?_,?_⟩
    · apply hperm.trans
      apply (hd.cons msg).trans
      simp only [List.append_assoc,List.cons_append]
      exact List.perm_middle.symm
    · intro m hm
      rcases List.mem_cons.mp hm with rfl | hm
      · exact hexp
      · exact hall m hm

theorem popLoop_spec (a : ℚ) (now : ℤ) (fuel : ℕ) (items : List Message) (hfuel : items.length ≤ fuel) :
    TakesFirst a now items (popLoop a now fuel items).1 (popLoop a now fuel items).2 := by
  have hempty : TakesFirst a now [] none [] :=
    ⟨fun msg hm => (by cases hm),⟨fun _ m hm => (by cases hm),fun _ => rfl⟩,[],List.Perm.refl _,
      fun m hm => (by cases hm)⟩
  induction fuel generalizing items with
  | zero =>
    obtain rfl : items = [] := List.length_eq_zero_iff.mp (Nat.le_zero.mp hfuel)
    exact hempty
  | succ fuel ih =>
    unfold popLoop
    cases hp : Heap.pop (less a now) (Heap.init (less a now) items) with
    | none =>
      obtain rfl := (Heap.pop_init_none items).mp hp
      exact hempty
    | some top =>
      obtain ⟨msg,rest⟩ := top
      obtain ⟨hperm,hfirst⟩ := Heap.pop_init (strictWeakOrder_less a now) hp
      by_cases hexp : msg.Expired now
      · simp only [if_pos hexp]
        have hlen := hperm.length_eq
        rw [List.length_cons] at hlen
        exact (ih rest (by omega)).drop hperm hexp
      · simp only [if_neg hexp]
        have hin : msg ∈ items := hperm.mem_iff.mpr List.mem_cons_self
        constructor
        · intro m hm
          cases hm
          exact ⟨hin,hexp,fun m' hm' _ => less_eq_false.mp (hfirst m' hm')⟩
        · constructor
          · intro hnone
            cases hnone
          · intro hall
            exact absurd (hall msg hin) hexp
        · exact ⟨[],hperm,fun m hm => (by cases hm)⟩

theorem pop_spec (q : AgingQueue) (now : ℤ) :
    TakesFirst q.agingFactor now q.items (q.pop now).1 (q.pop now).2.items :=
  popLoop_spec q.agingFactor now q.items.length q.items le_rfl

lemma push_items (q : AgingQueue) (now : ℤ) (msg : Message) :
    (q.push now msg).2.items.Perm (q.stamp now msg::q.items) := Heap.push_perm _ _

/-- The order of the heap is the same at all times. -/
lemma less_time (a : ℚ) (now now' : ℤ) : less a now = less a now' := by
  funext m m'
  unfold less
  rw [decide_eq_decide,Message.effectivePriority_lt_iff,Message.effectivePriority_lt_iff]

/-- Every message comes after the one above it in the heap. -/
def InOrder (a : ℚ) (items : List Message) : Prop := ∀ now, Heap.Ordered (less a now) items 0 items.length

lemma inOrder_iff (now : ℤ) {items : List Message} :
    InOrder a items ↔ Heap.Ordered (less a now) items 0 items.length := by
  constructor
  · exact fun h => h now
  · intro h now'
    rw [less_time a now' now]
    exact h

/-- A pop puts the heap in order, whatever it was before. -/
lemma popLoop_inOrder (fuel : ℕ) (items : List Message) (hfuel : items.length ≤ fuel) :
    InOrder a (popLoop a now fuel items).2 := by
  have hempty : InOrder a [] := fun _ _ _ _ hc => absurd hc (Nat.not_lt_zero _)
  induction fuel generalizing items with
  | zero =>
    obtain rfl : items = [] := List.length_eq_zero_iff.mp (Nat.le_zero.mp hfuel)
    exact hempty
  | succ fuel ih =>
    unfold popLoop
    cases hp : Heap.pop (less a now) (Heap.init (less a now) items) with
    | none =>
      obtain rfl := (Heap.pop_init_none items).mp hp
      exact hempty
    | some top =>
      obtain ⟨msg,rest⟩ := top
      have ho := Heap.init_ordered (strictWeakOrder_less a now) items
      rw [← (Heap.init_perm items).length_eq] at ho
      obtain ⟨hperm,-,hrest⟩ := Heap.pop_ordered (strictWeakOrder_less a now) ho hp
      by_cases hexp : msg.Expired now
      · simp only [if_pos hexp]
        have hlen := ((Heap.init_perm items).symm.trans hperm).length_eq
        rw [List.length_cons] at hlen
        exact ih rest (by omega)
      · simp only [if_neg hexp]
        exact (inOrder_iff now).mpr hrest

lemma pop_inOrder (q : AgingQueue) (now : ℤ) : InOrder q.agingFactor (q.pop now).2.items :=
  popLoop_inOrder q.items.length q.items le_rfl

lemma push_inOrder (h : InOrder q.agingFactor q.items) (now : ℤ) (msg : Message) :
    InOrder q.agingFactor (q.push now msg).2.items :=
  (inOrder_iff now).mpr (Heap.push_ordered (strictWeakOrder_less _ now) (h now) _)

/-- A pop that drops nothing takes the top of the heap. -/
lemma pop_top (h : InOrder q.agingFactor q.items) {msg : Message} (hpop : (q.pop now).1 = some msg)
    (hlen : (q.pop now).2.items.length+1 = q.items.length) : q.items[0]? = some msg := by
  have hinit := Heap.init_of_ordered (h now)
  obtain ⟨n,hn⟩ : ∃ n, q.items.length = n+1 := ⟨_,hlen.symm⟩
  change (popLoop q.agingFactor now q.items.length q.items).1 = some msg at hpop
  change (popLoop q.agingFactor now q.items.length q.items).2.length+1 = q.items.length at hlen
  rw [hn] at hpop hlen
  unfold popLoop at hpop hlen
  rw [hinit] at hpop hlen
  cases hp : Heap.pop (less q.agingFactor now) q.items with
  | none => simp [hp] at hpop
  | some top =>
    obtain ⟨first,rest⟩ := top
    obtain ⟨hperm,htop,-⟩ := Heap.pop_ordered (strictWeakOrder_less _ now) (h now) hp
    have hrest := hperm.length_eq
    rw [List.length_cons] at hrest
    simp only [hp] at hpop hlen
    by_cases hexp : first.Expired now
    · simp only [if_pos hexp] at hlen
      obtain ⟨dropped,hremoves,-⟩ := (popLoop_spec q.agingFactor now n rest (by omega)).removes
      have hle := hremoves.length_eq
      rw [if_pos hexp] at hpop
      rw [hpop] at hle
      simp only [Option.toList_some,List.length_append,List.length_cons,List.length_nil] at hle
      omega
    · rw [if_neg hexp] at hpop
      exact htop.trans hpop

/-- A message on top that has not expired is the next one. -/
lemma pop_of_top (h : InOrder q.agingFactor q.items) {msg : Message} (htop : q.items[0]? = some msg)
    (hlive : ¬msg.Expired now) : (q.pop now).1 = some msg := by
  obtain ⟨n,hn⟩ : ∃ n, q.items.length = n+1 :=
    Nat.exists_eq_succ_of_ne_zero (Nat.pos_iff_ne_zero.mp (List.getElem?_eq_some_iff.mp htop).1)
  change (popLoop q.agingFactor now q.items.length q.items).1 = some msg
  rw [hn]
  unfold popLoop
  rw [Heap.init_of_ordered (h now)]
  cases hp : Heap.pop (less q.agingFactor now) q.items with
  | none =>
    rw [← Heap.init_of_ordered (h now),Heap.pop_init_none] at hp
    rw [hp] at htop
    cases htop
  | some top =>
    obtain ⟨first,rest⟩ := top
    obtain ⟨-,htop',-⟩ := Heap.pop_ordered (strictWeakOrder_less _ now) (h now) hp
    obtain rfl : msg = first := Option.some.inj (htop.symm.trans htop')
    simp only [if_neg hlive]

/-- A message that does not come before the top is put below it. -/
lemma push_keeps_top {msg top : Message} (htop : q.items[0]? = some top)
    (hle : top.rank q.agingFactor ≤ (q.stamp now msg).rank q.agingFactor) :
    (q.push now msg).2.items[0]? = some top :=
  Heap.push_top htop (less_eq_false.mpr hle)

/-- No message comes before the top. -/
lemma top_rank_le (h : InOrder a q.items) {top : Message} (htop : q.items[0]? = some top) :
    ∀ m ∈ q.items, top.rank a ≤ m.rank a := by
  intro m hm
  obtain ⟨c,hc,rfl⟩ := List.mem_iff_getElem.mp hm
  have hfirst := Heap.top_first (strictWeakOrder_less a 0) (h 0) c hc
  unfold Heap.lessAt at hfirst
  rw [htop,List.getElem?_eq_getElem hc] at hfirst
  exact less_eq_false.mp hfirst

/-- What is left was there before. -/
lemma TakesFirst.mem_of_rest {items rest : List Message} {result : Option Message}
    (h : TakesFirst a now items result rest) {m : Message} (hm : m ∈ rest) : m ∈ items := by
  obtain ⟨dropped,hperm,-⟩ := h.removes
  rw [hperm.mem_iff]
  exact List.mem_append_right _ hm

/-- A message does not wait for one that came in so much later that its priority does not matter. -/
lemma TakesFirst.not_overtaken {items rest : List Message} {result : Option Message} (ha : 0 < a)
    (h : TakesFirst a now items result rest) {m m' : Message} {e e' : ℤ} (hm : m ∈ items)
    (hlive : ¬m.Expired now) (he : m.enqueuedAt = some e) (he' : m'.enqueuedAt = some e')
    (hlate : seconds e+((m.priority : ℚ)-m'.priority)/a < seconds e') : result ≠ some m' := by
  intro hresult
  have hle := (h.first m' hresult).2.2 m hm hlive
  have hlt : m.rank a < m'.rank a := by
    have hmul := mul_lt_mul_of_pos_left hlate ha
    rw [mul_add,mul_div_cancel₀ _ ha.ne'] at hmul
    simp only [Message.rank,he,he',Option.getD_some]
    linarith
  exact absurd hle (not_le.mpr hlt)

/-- `Pop` on a queue without an order: some messages are found expired and dropped, and the next one is
returned. -/
inductive Takes (now : ℤ) : PriorityQueue → Option Message → PriorityQueue → Prop
  | empty {bag : PriorityQueue} (h : bag.items = []) : Takes now bag none bag
  | first {bag bag' : PriorityQueue} {i : ℕ} {msg : Message} (hi : bag.popAt i = some (msg,bag'))
      (hlive : ¬msg.Expired now) : Takes now bag (some msg) bag'
  | expired {bag bag' bag'' : PriorityQueue} {i : ℕ} {msg : Message} {result : Option Message}
      (hi : bag.popAt i = some (msg,bag')) (hexp : msg.Expired now) (h : Takes now bag' result bag'') :
      Takes now bag result bag''

/-- The same messages, in whatever order, and the same counter. -/
def Holds (bag : PriorityQueue) (items : List Message) (nextID : ℕ) : Prop :=
  bag.items.Perm items ∧ bag.nextID = nextID

/-- A message of the bag can be taken from it. -/
lemma Holds.popAt {bag : PriorityQueue} {items rest : List Message} {nextID : ℕ} {msg : Message}
    (h : Holds bag items nextID) (hperm : items.Perm (msg::rest)) :
    ∃ i bag', bag.popAt i = some (msg,bag') ∧ Holds bag' rest nextID := by
  have hmem : msg ∈ bag.items := by
    rw [(h.1.trans hperm).mem_iff]
    exact List.mem_cons_self
  obtain ⟨i,hi,rfl⟩ := List.mem_iff_getElem.mp hmem
  refine ⟨i,{ bag with items := bag.items.eraseIdx i },?_,?_,h.2⟩
  · simp only [PriorityQueue.popAt,List.getElem?_eq_getElem hi,Option.map_some]
  · have herase := List.getElem_cons_eraseIdx_perm hi
    exact (herase.trans (h.1.trans hperm)).cons_inv

/-- What the heap does is one of the things that the bag may do. -/
lemma Holds.popLoop {bag : PriorityQueue} {items : List Message} {nextID : ℕ} (h : Holds bag items nextID)
    (a : ℚ) (now : ℤ) (fuel : ℕ) (hfuel : items.length ≤ fuel) :
    ∃ bag', Takes now bag (popLoop a now fuel items).1 bag' ∧
      Holds bag' (AgingQueue.popLoop a now fuel items).2 nextID := by
  induction fuel generalizing bag items with
  | zero =>
    obtain rfl : items = [] := List.length_eq_zero_iff.mp (Nat.le_zero.mp hfuel)
    exact ⟨bag,.empty h.1.eq_nil,h⟩
  | succ fuel ih =>
    unfold AgingQueue.popLoop
    cases hp : Heap.pop (less a now) (Heap.init (less a now) items) with
    | none =>
      obtain rfl := (Heap.pop_init_none items).mp hp
      exact ⟨bag,.empty h.1.eq_nil,h⟩
    | some top =>
      obtain ⟨msg,rest⟩ := top
      obtain ⟨hperm,-⟩ := Heap.pop_init (strictWeakOrder_less a now) hp
      obtain ⟨i,bag',hi,hrest⟩ := h.popAt hperm
      by_cases hexp : msg.Expired now
      · simp only [if_pos hexp]
        have hlen := hperm.length_eq
        rw [List.length_cons] at hlen
        obtain ⟨bag'',htakes,hholds⟩ := ih hrest (by omega)
        exact ⟨bag'',.expired hi hexp htakes,hholds⟩
      · simp only [if_neg hexp]
        exact ⟨bag',.first hi hexp,hrest⟩

/-- The queue with the heap refines the queue of the broker. -/
theorem refines {bag : PriorityQueue} (h : Holds bag q.items q.nextID) :
    (∀ now msg, (q.push now msg).1 = (bag.push now msg).1 ∧
      Holds (bag.push now msg).2 (q.push now msg).2.items (q.push now msg).2.nextID) ∧
    ∀ now, ∃ bag', Takes now bag (q.pop now).1 bag' ∧
      Holds bag' (q.pop now).2.items (q.pop now).2.nextID := by
  constructor
  · intro now msg
    have hstamp : q.stamp now msg = bag.stamp now msg := by
      simp only [PriorityQueue.stamp,h.2]
    refine ⟨hstamp,?_,?_⟩
    · refine List.Perm.trans ?_ (push_items q now msg).symm
      rw [hstamp]
      exact h.1.cons _
    · simp only [PriorityQueue.push,AgingQueue.push,h.2]
  · intro now
    exact h.popLoop q.agingFactor now q.items.length le_rfl

inductive QueueOp
  | push (now : ℤ) (msg : Message)
  | pop (now : ℤ)

def step (q : AgingQueue) : QueueOp → Option AgingQueue
  | .push now msg => some (q.push now msg).2
  | .pop now => some (q.pop now).2

/-- The factor stays as it is, and what is in the queue is stamped. -/
structure Stamped (a : ℚ) (q : AgingQueue) : Prop where
  factor : q.agingFactor = a
  stamped : ∀ m ∈ q.items, m.enqueuedAt.isSome

theorem stamped_step {op : QueueOp} (h : Stamped a q) (hs : q.step op = some q') : Stamped a q' := by
  cases op with
  | push now msg =>
    cases hs
    refine ⟨h.factor,fun m hm => ?_⟩
    rcases List.mem_cons.mp ((push_items q now msg).mem_iff.mp hm) with rfl | hm
    · rfl
    · exact h.stamped m hm
  | pop now =>
    cases hs
    exact ⟨h.factor,fun m hm => h.stamped m ((pop_spec q now).mem_of_rest hm)⟩

/-- In every sequence of operations, `Pop` takes the message of the lowest rank among those that are
not expired, and nothing else but expired ones; the order of two messages does not change with time;
and no message is overtaken by one that came in too late. -/
theorem takesFirst_of_run {trace : List (Transition AgingQueue QueueOp)} (run : Run step (new a) trace q) :
    (∀ e ∈ trace, ∀ now msg, e.label = .push now msg →
      e.target.items.Perm (e.source.stamp now msg::e.source.items)) ∧
    (∀ e ∈ trace, ∀ now, e.label = .pop now →
      TakesFirst a now e.source.items (e.source.pop now).1 e.target.items) ∧
    (∀ e ∈ trace, ∀ m ∈ e.source.items, m.enqueuedAt.isSome) ∧
    (∀ e ∈ trace, ∀ m ∈ e.source.items, ∀ m' ∈ e.source.items, ∀ t t',
      m.effectivePriority a t < m'.effectivePriority a t ↔
        m.effectivePriority a t' < m'.effectivePriority a t') ∧
    (0 < a → ∀ e ∈ trace, ∀ now, e.label = .pop now → ∀ m ∈ e.source.items, ¬m.Expired now →
      ∀ m' s s', m.enqueuedAt = some s → m'.enqueuedAt = some s' →
        seconds s+((m.priority : ℚ)-m'.priority)/a < seconds s' → (e.source.pop now).1 ≠ some m') := by
  have hnew : Stamped a (new a) := ⟨rfl,fun m hm => (by cases hm)⟩
  have hinv := (run.invariant (fun _ _ _ h hs => stamped_step h hs) hnew).1
  have hpop : ∀ e ∈ trace, ∀ now, e.label = .pop now →
      TakesFirst a now e.source.items (e.source.pop now).1 e.target.items := by
    intro e he now hlabel
    obtain ⟨hst,hs⟩ := hinv e he
    rw [hlabel] at hs
    have ht : (e.source.pop now).2 = e.target := Option.some.inj hs
    rw [← ht,← hst.factor]
    exact pop_spec e.source now
  refine ⟨?_,hpop,fun e he => (hinv e he).1.stamped,?_,?_⟩
  · intro e he now msg hlabel
    have hs := (hinv e he).2
    rw [hlabel] at hs
    have ht : (e.source.push now msg).2 = e.target := Option.some.inj hs
    rw [← ht]
    exact push_items e.source now msg
  · intro e he m _ m' _ t t'
    rw [Message.effectivePriority_lt_iff,Message.effectivePriority_lt_iff]
  · intro ha e he now hlabel m hm hlive m' s s' hs hs' hlate
    exact (hpop e he now hlabel).not_overtaken ha hm hlive hs hs' hlate

/-- Ten points a second: after a second the low message comes before the normal one. The one with a
time to live of half a second is dropped. -/
theorem takesFirst_of_run_agedMessage : ∃ trace q,
    Run step (new 10) trace q ∧ q.items.map Message.type = ["normal"] ∧
    ∀ e ∈ trace, ∀ now, e.label = .pop now →
      TakesFirst 10 now e.source.items (e.source.pop now).1 e.target.items := by
  let ops : List QueueOp := [.push 0 { fromPID := 1, type := "low", priority := priorityLow },
    .push 0 { fromPID := 1, type := "urgent", ttl := 500000000 },
    .push 1000000000 { fromPID := 1, type := "normal", priority := priorityNormal },
    .pop 1000000000]
  obtain ⟨q,hq,htypes⟩ : ∃ q, exec step ops (new 10) = some q ∧ q.items.map Message.type = ["normal"] :=
    ⟨_,rfl,by decide +kernel⟩
  exact ⟨_,q,Run.of_exec hq,htypes,(takesFirst_of_run (Run.of_exec hq)).2.1⟩

end AgingQueue
end HiveKernel
