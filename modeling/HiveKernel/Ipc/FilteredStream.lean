import HiveKernel.Ipc.Subscribers
import Mathlib.Tactic.NormNum

/-! The loop of a stream with a filter, alone on its queue. What the filter refuses goes back to where it
came from, with the rank it had, and is taken again: the stream gets no further than to the first message
of the queue. -/
namespace HiveKernel
open Lib
namespace FilteredStream
variable {typeFilter : String} {now : ℤ} {q : AgingQueue} {times : ℕ → ℤ}

/-- One iteration: the message that is sent, if one is, and the queue afterwards. Where nothing can be
taken the loop waits. -/
def iterate (typeFilter : String) (now : ℤ) (q : AgingQueue) : Option Message × AgingQueue :=
  match q.pop now with
  | (none,q) => (none,q)
  | (some msg,q) =>
    if typeFilter ≠ "" ∧ msg.type ≠ typeFilter then (none,(q.push now msg).2) else (some msg,q)

/-- The queue before the iteration of that number. -/
def queueAt (typeFilter : String) (times : ℕ → ℤ) (q : AgingQueue) : ℕ → AgingQueue
  | 0 => q
  | k+1 => (iterate typeFilter (times k) (queueAt typeFilter times q k)).2

/-- The message that the iteration sends. -/
def sentAt (typeFilter : String) (times : ℕ → ℤ) (q : AgingQueue) (k : ℕ) : Option Message :=
  (iterate typeFilter (times k) (queueAt typeFilter times q k)).1

/-- Every way an iteration can go: nothing to take, put back, or sent. -/
lemma iterate_cases (typeFilter : String) (now : ℤ) (q : AgingQueue) :
    ((q.pop now).1 = none ∧ iterate typeFilter now q = (none,(q.pop now).2)) ∨
    ∃ msg, (q.pop now).1 = some msg ∧
      ((typeFilter ≠ "" ∧ msg.type ≠ typeFilter ∧
          iterate typeFilter now q = (none,((q.pop now).2.push now msg).2)) ∨
        (¬(typeFilter ≠ "" ∧ msg.type ≠ typeFilter) ∧ iterate typeFilter now q = (some msg,(q.pop now).2))) := by
  unfold iterate
  cases hpop : q.pop now with
  | mk result rest =>
    cases result with
    | none => exact .inl ⟨rfl,rfl⟩
    | some msg =>
      refine .inr ⟨msg,rfl,?_⟩
      by_cases hrefused : typeFilter ≠ "" ∧ msg.type ≠ typeFilter
      · exact .inl ⟨hrefused.1,hrefused.2,if_pos hrefused⟩
      · exact .inr ⟨hrefused,if_neg hrefused⟩

/-- An iteration is what the stream does from one pop to the next. Where nothing can be taken it ends up
waiting. -/
theorem exec_iterate (s : Subscribers) {i : ℕ} {stream : Stream} (hi : s.streams.get i = some stream)
    (hstage : stream.stage = .popping) : ∃ ops t, exec Subscribers.step ops s = some t ∧
      t.queue = (iterate stream.typeFilter s.clock s.queue).2 ∧ t.clock = s.clock ∧
      t.sent = (iterate stream.typeFilter s.clock s.queue).1.toList++s.sent ∧
      ((s.queue.pop s.clock).1 ≠ none → t.streams.get i = some stream) := by
  have hpopped : s.step (.pop i) = some (s.pop i stream) := by
    simp only [Subscribers.step,hi]
    exact if_pos hstage
  have hagain : { stream with stage := Stage.popping } = stream := by
    rw [← hstage]
  rcases iterate_cases stream.typeFilter s.clock s.queue with
    ⟨hnone,he⟩ | ⟨msg,hsome,⟨hfilter,hother,he⟩ | ⟨hmatch,he⟩⟩
  · refine ⟨[.pop i],_,exec_cons hpopped,?_⟩
    rw [Subscribers.pop_of_none hnone,he]
    exact ⟨rfl,rfl,rfl,fun h => absurd hnone h⟩
  · rw [Subscribers.pop_of_some hsome] at hpopped
    have hrefused : ∀ stage, Stream.Refuses ⟨stream.typeFilter,stage⟩ msg := fun _ => ⟨hfilter,hother⟩
    have hback : ∀ u : Subscribers, (u.enter i stream (.holding msg)).step (.putBack i) =
        some ({ u.enter i stream (.holding msg) with queue := (u.queue.push u.clock msg).2 }.enter i stream
          .notifying) := by
      intro u
      simp [Subscribers.step,Subscribers.enter,hrefused]
    have hrenotified : ∀ u : Subscribers, (u.enter i stream .notifying).step (.renotify i) =
        some ({ u.enter i stream .notifying with notify := true }.enter i stream .popping) := by
      intro u
      simp [Subscribers.step,Subscribers.enter]
    refine ⟨[.pop i,.putBack i,.renotify i],_,
      (exec_cons hpopped).trans ((exec_cons (hback _)).trans (exec_cons (hrenotified _))),?_⟩
    rw [he]
    refine ⟨rfl,rfl,rfl,fun _ => ?_⟩
    rw [Subscribers.get_enter,if_pos rfl,hagain]
  · rw [Subscribers.pop_of_some hsome] at hpopped
    have hrefused : ∀ stage, ¬Stream.Refuses ⟨stream.typeFilter,stage⟩ msg := fun _ => hmatch
    have hsend : ∀ u : Subscribers, (u.enter i stream (.holding msg)).step (.send i true) =
        some ({ u.enter i stream (.holding msg) with sent := msg::u.sent }.enter i stream .popping) := by
      intro u
      simp [Subscribers.step,Subscribers.enter,hrefused]
    refine ⟨[.pop i,.send i true],_,(exec_cons hpopped).trans (exec_cons (hsend _)),?_⟩
    rw [he]
    refine ⟨rfl,rfl,rfl,fun _ => ?_⟩
    rw [Subscribers.get_enter,if_pos rfl,hagain]

/-- A message of the type comes before all messages of other types. -/
def Leads (agingFactor : ℚ) (typeFilter : String) (now : ℤ) (items : List Message) : Prop :=
  ∃ m ∈ items, m.type = typeFilter ∧ ¬m.Expired now ∧
    ∀ x ∈ items, x.type ≠ typeFilter → ¬x.Expired now → m.rank agingFactor < x.rank agingFactor

/-- No message comes before a message of the type. -/
def LeadsOrTies (agingFactor : ℚ) (typeFilter : String) (now : ℤ) (items : List Message) : Prop :=
  ∃ m ∈ items, m.type = typeFilter ∧ ¬m.Expired now ∧
    ∀ x ∈ items, ¬x.Expired now → m.rank agingFactor ≤ x.rank agingFactor

/-- A message of the type that does not expire has none before it, and at most one of another type is level
with it. -/
def TiesWithOne (agingFactor : ℚ) (typeFilter : String) (times : ℕ → ℤ) (k : ℕ) (items : List Message) : Prop :=
  ∃ m ∈ items, m.type = typeFilter ∧ (∀ j, ¬m.Expired (times j)) ∧
    (∀ x ∈ items, ¬x.Expired (times k) → m.rank agingFactor ≤ x.rank agingFactor) ∧
    items.countP (fun x => x.type ≠ typeFilter ∧ ¬x.Expired (times k) ∧
      x.rank agingFactor ≤ m.rank agingFactor) ≤ 1

/-- The conditions at one time only look at the messages that have not expired. -/
lemma Leads.congr {a : ℚ} {items items' : List Message} (h : Leads a typeFilter now items)
    (hsame : ∀ m, ¬m.Expired now → (m ∈ items' ↔ m ∈ items)) : Leads a typeFilter now items' := by
  obtain ⟨m,hm,htype,hlive,hfirst⟩ := h
  refine ⟨m,(hsame m hlive).mpr hm,htype,hlive,fun x hx hother hx' => ?_⟩
  exact hfirst x ((hsame x hx').mp hx) hother hx'

lemma LeadsOrTies.congr {a : ℚ} {items items' : List Message} (h : LeadsOrTies a typeFilter now items)
    (hsame : ∀ m, ¬m.Expired now → (m ∈ items' ↔ m ∈ items)) : LeadsOrTies a typeFilter now items' := by
  obtain ⟨m,hm,htype,hlive,hfirst⟩ := h
  refine ⟨m,(hsame m hlive).mpr hm,htype,hlive,fun x hx hx' => ?_⟩
  exact hfirst x ((hsame x hx').mp hx) hx'

/-- A message that is put back is the one that was taken. -/
lemma putBack_items (hq : ∀ m ∈ q.items, m.Stamped) {msg : Message} (hpop : (q.pop now).1 = some msg) :
    ((q.pop now).2.push now msg).2.items.Perm (msg::(q.pop now).2.items) := by
  have hback := AgingQueue.push_items (q.pop now).2 now msg
  have hstamped := hq msg ((AgingQueue.pop_spec q now).first msg hpop).1
  rwa [PriorityQueue.stamp_of_stamped _ _ hstamped] at hback

/-- What an iteration that sends nothing leaves in the queue. -/
lemma mem_iterate (hq : ∀ m ∈ q.items, m.Stamped) (hnone : (iterate typeFilter now q).1 = none) (m : Message)
    (hlive : ¬m.Expired now) : m ∈ (iterate typeFilter now q).2.items ↔ m ∈ q.items := by
  obtain ⟨dropped,hperm,hdropped⟩ := (AgingQueue.pop_spec q now).removes
  have hdrop : m ∉ dropped := fun hm => hlive (hdropped m hm)
  rcases iterate_cases typeFilter now q with ⟨hpop,he⟩ | ⟨msg,hpop,⟨-,-,he⟩ | ⟨-,he⟩⟩
  · rw [he,hperm.mem_iff,hpop]
    simp [hdrop]
  · rw [he,(putBack_items hq hpop).mem_iff,hperm.mem_iff,hpop]
    simp [hdrop]
  · rw [he] at hnone
    cases hnone

/-- An iteration that sends nothing brings no message in. -/
lemma iterate_subperm (hq : ∀ m ∈ q.items, m.Stamped) (hnone : (iterate typeFilter now q).1 = none) :
    (iterate typeFilter now q).2.items.Subperm q.items := by
  obtain ⟨dropped,hperm,-⟩ := (AgingQueue.pop_spec q now).removes
  rcases iterate_cases typeFilter now q with ⟨hpop,he⟩ | ⟨msg,hpop,⟨-,-,he⟩ | ⟨-,he⟩⟩
  · rw [he]
    rw [hpop] at hperm
    exact (List.sublist_append_right _ _).subperm.trans hperm.symm.subperm
  · rw [he]
    rw [hpop] at hperm
    have hsub : (msg::(q.pop now).2.items).Subperm ([msg]++dropped++(q.pop now).2.items) := by
      simp only [List.cons_append,List.nil_append]
      exact ((List.sublist_append_right dropped _).cons_cons msg).subperm
    exact (putBack_items hq hpop).subperm.trans (hsub.trans hperm.symm.subperm)
  · rw [he] at hnone
    cases hnone

lemma iterate_inOrder (typeFilter : String) (now : ℤ) (q : AgingQueue) :
    AgingQueue.InOrder q.agingFactor (iterate typeFilter now q).2.items := by
  rcases iterate_cases typeFilter now q with ⟨-,he⟩ | ⟨msg,-,⟨-,-,he⟩ | ⟨-,he⟩⟩
  · rw [he]
    exact AgingQueue.pop_inOrder q now
  · rw [he]
    exact AgingQueue.push_inOrder (AgingQueue.pop_inOrder q now) now msg
  · rw [he]
    exact AgingQueue.pop_inOrder q now

/-- If nothing is sent and no message is lost, the top of the heap has been put back. -/
lemma top_putBack (hq : ∀ m ∈ q.items, m.Stamped) (hheap : AgingQueue.InOrder q.agingFactor q.items)
    (hnone : (iterate typeFilter now q).1 = none)
    (hlen : (iterate typeFilter now q).2.items.length = q.items.length) {m : Message} (hm : m ∈ q.items)
    (hlive : ¬m.Expired now) : ∃ msg, q.items[0]? = some msg ∧ (q.pop now).1 = some msg ∧
      ¬msg.Expired now ∧ msg.type ≠ typeFilter ∧ q.items.Perm (msg::(q.pop now).2.items) ∧
      (iterate typeFilter now q).2 = ((q.pop now).2.push now msg).2 := by
  have hspec := AgingQueue.pop_spec q now
  rcases iterate_cases typeFilter now q with ⟨hpop,-⟩ | ⟨msg,hpop,⟨-,hother,he⟩ | ⟨-,he⟩⟩
  · exact absurd (hspec.nil_iff.mp hpop m hm) hlive
  · rw [he,(putBack_items hq hpop).length_eq,List.length_cons] at hlen
    refine ⟨msg,AgingQueue.pop_top hheap hpop hlen,hpop,(hspec.first msg hpop).2.1,hother,?_,by rw [he]⟩
    obtain ⟨dropped,hperm,-⟩ := hspec.removes
    have hsize := hperm.length_eq
    rw [hpop] at hperm hsize
    simp only [Option.toList_some,List.length_append,List.length_cons,List.length_nil] at hsize
    obtain rfl : dropped = [] := List.length_eq_zero_iff.mp (by omega)
    exact hperm
  · rw [he] at hnone
    cases hnone

/-- The queue keeps stamped messages and its factor. -/
lemma stamped_iterate (typeFilter : String) (now : ℤ) (hq : ∀ m ∈ q.items, m.Stamped) :
    (∀ m ∈ (iterate typeFilter now q).2.items, m.Stamped) ∧
      (iterate typeFilter now q).2.agingFactor = q.agingFactor := by
  have hspec := AgingQueue.pop_spec q now
  have hrest : ∀ m ∈ (q.pop now).2.items, m.Stamped := fun m hm => hq m (hspec.mem_of_rest hm)
  rcases iterate_cases typeFilter now q with ⟨-,he⟩ | ⟨msg,hpop,⟨-,-,he⟩ | ⟨-,he⟩⟩
  · rw [he]
    exact ⟨hrest,rfl⟩
  · rw [he]
    refine ⟨fun m hm => ?_,rfl⟩
    rcases List.mem_cons.mp ((putBack_items hq hpop).mem_iff.mp hm) with rfl | hm
    · exact hq m (hspec.first m hpop).1
    · exact hrest m hm
  · rw [he]
    exact ⟨hrest,rfl⟩

/-- A message that is sent is of the type, and none comes before it. -/
lemma leadsOrTies_of_iterate (hfilter : typeFilter ≠ "") (hsent : (iterate typeFilter now q).1 ≠ none) :
    LeadsOrTies q.agingFactor typeFilter now q.items := by
  rcases iterate_cases typeFilter now q with ⟨-,he⟩ | ⟨msg,hpop,⟨-,-,he⟩ | ⟨hmatch,he⟩⟩
  · rw [he] at hsent
    exact absurd rfl hsent
  · rw [he] at hsent
    exact absurd rfl hsent
  · obtain ⟨hmem,hlive,hfirst⟩ := (AgingQueue.pop_spec q now).first msg hpop
    refine ⟨msg,hmem,?_,hlive,hfirst⟩
    by_contra htype
    exact hmatch ⟨hfilter,htype⟩

/-- If a message of the type comes first, one is sent. -/
lemma iterate_of_leads (h : Leads q.agingFactor typeFilter now q.items) :
    (iterate typeFilter now q).1 ≠ none := by
  obtain ⟨m,hm,-,hlive,hfirst⟩ := h
  have hspec := AgingQueue.pop_spec q now
  rcases iterate_cases typeFilter now q with ⟨hpop,-⟩ | ⟨msg,hpop,⟨-,hother,-⟩ | ⟨-,he⟩⟩
  · exact absurd (hspec.nil_iff.mp hpop m hm) hlive
  · obtain ⟨hmem,hlive',hmin⟩ := hspec.first msg hpop
    exact absurd (hmin m hm hlive) (not_le.mpr (hfirst msg hmem hother hlive'))
  · rw [he]
    simp

/-- As long as nothing is sent, the messages that have not expired stay in the queue. -/
lemma unsent (hmono : ∀ j k, j ≤ k → times j ≤ times k) (hq : ∀ m ∈ q.items, m.Stamped) {k : ℕ}
    (h : ∀ j < k, sentAt typeFilter times q j = none) :
    (∀ m ∈ (queueAt typeFilter times q k).items, m.Stamped) ∧
      (queueAt typeFilter times q k).agingFactor = q.agingFactor ∧
      ∀ m, ¬m.Expired (times k) → (m ∈ (queueAt typeFilter times q k).items ↔ m ∈ q.items) := by
  induction k with
  | zero => exact ⟨hq,rfl,fun m _ => Iff.rfl⟩
  | succ k ih =>
    obtain ⟨hstamped,hfactor,hsame⟩ := ih (fun j hj => h j (Nat.lt_succ_of_lt hj))
    obtain ⟨hstamped',hfactor'⟩ := stamped_iterate typeFilter (times k) hstamped
    refine ⟨hstamped',hfactor'.trans hfactor,fun m hlive => ?_⟩
    have hlive' := Message.not_expired_of_le (hmono k (k+1) (Nat.le_succ k)) hlive
    exact (mem_iterate hstamped (h k (Nat.lt_succ_self k)) m hlive').trans (hsame m hlive')

/-- A message of the type that comes before all others is reached. -/
lemma sends_of_leads (hmono : ∀ j k, j ≤ k → times j ≤ times k) (hq : ∀ m ∈ q.items, m.Stamped) {k : ℕ}
    (hleads : Leads q.agingFactor typeFilter (times k) q.items) : ∃ k, sentAt typeFilter times q k ≠ none := by
  by_contra hno
  push Not at hno
  obtain ⟨-,hfactor,hsame⟩ := unsent hmono hq (fun j (_ : j < k) => hno j)
  refine iterate_of_leads ?_ (hno k)
  rw [hfactor]
  exact hleads.congr hsame

/-- A message that is put back does not come to the top if another one is level with it. -/
lemma putBack_below {msg m : Message} (hstamped : msg.Stamped) (hm : m ∈ (q.pop now).2.items)
    (hlevel : m.rank q.agingFactor ≤ msg.rank q.agingFactor) : ∃ top ∈ (q.pop now).2.items,
      top.rank q.agingFactor ≤ m.rank q.agingFactor ∧ ((q.pop now).2.push now msg).2.items[0]? = some top := by
  obtain ⟨top,htop⟩ : ∃ top, (q.pop now).2.items[0]? = some top :=
    ⟨_,List.getElem?_eq_getElem (List.length_pos_of_mem hm)⟩
  have htopRank := AgingQueue.top_rank_le (AgingQueue.pop_inOrder q now) htop m hm
  refine ⟨top,List.mem_of_getElem? htop,htopRank,AgingQueue.push_keeps_top htop ?_⟩
  rw [PriorityQueue.stamp_of_stamped _ _ hstamped]
  exact htopRank.trans hlevel

/-- From some iteration on the queue does not get shorter any more. -/
lemma exists_stable {f : ℕ → ℕ} (hf : ∀ k, f (k+1) ≤ f k) (k : ℕ) : ∃ n, k ≤ n ∧ ∀ j, n ≤ j → f j = f n := by
  have hanti : Antitone f := antitone_nat_of_succ_le hf
  obtain ⟨n,hn,hmin⟩ := WellFounded.has_min (measure f).wf {n | k ≤ n} ⟨k,Nat.le_refl k⟩
  refine ⟨n,hn,fun j hj => Nat.le_antisymm (hanti hj) ?_⟩
  exact Nat.le_of_not_lt (hmin j (Nat.le_trans hn hj))

/-- As long as nothing is sent, no message comes into the queue, and its heap is in order. -/
lemma unsent_subperm (hmono : ∀ j k, j ≤ k → times j ≤ times k) (hq : ∀ m ∈ q.items, m.Stamped)
    (hheap : AgingQueue.InOrder q.agingFactor q.items) (hno : ∀ j, sentAt typeFilter times q j = none) (k : ℕ) :
    AgingQueue.InOrder q.agingFactor (queueAt typeFilter times q k).items ∧
      (queueAt typeFilter times q k).items.Subperm q.items := by
  induction k with
  | zero => exact ⟨hheap,List.Subperm.refl _⟩
  | succ k ih =>
    obtain ⟨hstamped,hfactor,-⟩ := unsent hmono hq (fun j (_ : j < k) => hno j)
    refine ⟨?_,(iterate_subperm hstamped (hno k)).trans ih.2⟩
    have hnext := iterate_inOrder typeFilter (times k) (queueAt typeFilter times q k)
    rwa [hfactor] at hnext

/-- A message of the type is reached if only one other message is level with it: once that one has been put
back, it is not on top any more. -/
lemma sends_of_tie (hmono : ∀ j k, j ≤ k → times j ≤ times k) (hq : ∀ m ∈ q.items, m.Stamped)
    (hheap : AgingQueue.InOrder q.agingFactor q.items) {k : ℕ}
    (htie : TiesWithOne q.agingFactor typeFilter times k q.items) : ∃ k, sentAt typeFilter times q k ≠ none := by
  obtain ⟨m,hm,htype,hlive,hfirst,hone⟩ := htie
  by_contra hno
  push Not at hno
  have hkept : ∀ j, (∀ m ∈ (queueAt typeFilter times q j).items, m.Stamped) ∧
      (queueAt typeFilter times q j).agingFactor = q.agingFactor ∧
      m ∈ (queueAt typeFilter times q j).items := by
    intro j
    obtain ⟨hstamped,hfactor,hsame⟩ := unsent hmono hq (fun i (_ : i < j) => hno i)
    exact ⟨hstamped,hfactor,(hsame m (hlive j)).mpr hm⟩
  have hsub := unsent_subperm hmono hq hheap hno
  obtain ⟨n,hkn,hstable⟩ := exists_stable (f := fun j => (queueAt typeFilter times q j).items.length)
    (fun j => (iterate_subperm (hkept j).1 (hno j)).length_le) k
  have hround : ∀ j, n ≤ j → ∃ msg, (queueAt typeFilter times q j).items[0]? = some msg ∧
      ¬msg.Expired (times j) ∧ msg.type ≠ typeFilter ∧
      ((queueAt typeFilter times q j).pop (times j)).1 = some msg ∧
      (queueAt typeFilter times q j).items.Perm (msg::((queueAt typeFilter times q j).pop (times j)).2.items) ∧
      queueAt typeFilter times q (j+1) =
        (((queueAt typeFilter times q j).pop (times j)).2.push (times j) msg).2 := by
    intro j hj
    obtain ⟨hstamped,hfactor,hmem⟩ := hkept j
    obtain ⟨msg,htop,hpop,hmsg,hother,hperm,he⟩ := top_putBack hstamped (hfactor.symm ▸ (hsub j).1) (hno j)
      ((hstable (j+1) (Nat.le_succ_of_le hj)).trans (hstable j hj).symm) hmem (hlive j)
    exact ⟨msg,htop,hmsg,hother,hpop,hperm,he⟩
  obtain ⟨msg,-,hmsg,hother,hpop,hperm,hnext⟩ := hround n le_rfl
  obtain ⟨msg',htop',hmsg',hother',-,-,-⟩ := hround (n+1) (Nat.le_succ n)
  obtain ⟨hstamped,hfactor,hmem⟩ := hkept n
  have hspec := AgingQueue.pop_spec (queueAt typeFilter times q n) (times n)
  rw [hfactor] at hspec
  have hin : msg ∈ (queueAt typeFilter times q n).items := hperm.mem_iff.mpr List.mem_cons_self
  have hmsgRank := (hspec.first msg hpop).2.2 m hmem (hlive n)
  have hlevel := hfirst msg ((hsub n).2.subset hin) (Message.not_expired_of_le (hmono k n hkn) hmsg)
  have hbehind : m ∈ ((queueAt typeFilter times q n).pop (times n)).2.items :=
    (List.mem_cons.mp (hperm.mem_iff.mp hmem)).resolve_left (fun he => hother (he ▸ htype))
  obtain ⟨top,htop,htopRank,hkeeps⟩ := putBack_below (hstamped msg hin) hbehind (by rw [hfactor]; exact hlevel)
  rw [hfactor] at htopRank
  rw [hnext,hkeeps] at htop'
  obtain rfl : top = msg' := Option.some.inj htop'
  have hlate : ∀ {x : Message} {j : ℕ}, n ≤ j → ¬x.Expired (times j) → ¬x.Expired (times k) :=
    fun hj hx => Message.not_expired_of_le (hmono k _ (Nat.le_trans hkn hj)) hx
  have htwo : 2 ≤ (msg::((queueAt typeFilter times q n).pop (times n)).2.items).countP
      (fun x => x.type ≠ typeFilter ∧ ¬x.Expired (times k) ∧
        x.rank q.agingFactor ≤ m.rank q.agingFactor) := by
    rw [List.countP_cons_of_pos (by simp [hother,hlate le_rfl hmsg,hmsgRank])]
    refine Nat.succ_le_succ (List.countP_pos_iff.mpr ⟨top,htop,?_⟩)
    simp [hother',hlate (Nat.le_succ n) hmsg',htopRank]
  rw [← hperm.countP_eq] at htwo
  exact absurd (htwo.trans ((hsub n).2.countP_le _)) (Nat.not_le_of_lt (Nat.lt_succ_of_le hone))

/-- The first message that is sent has been first in the queue from the start. -/
lemma leadsOrTies_of_sends (hfilter : typeFilter ≠ "") (hmono : ∀ j k, j ≤ k → times j ≤ times k)
    (hq : ∀ m ∈ q.items, m.Stamped) (hsent : ∃ k, sentAt typeFilter times q k ≠ none) :
    ∃ k, LeadsOrTies q.agingFactor typeFilter (times k) q.items := by
  classical
  obtain ⟨-,hfactor,hsame⟩ := unsent hmono hq (fun j hj => not_not.mp (Nat.find_min hsent hj))
  refine ⟨Nat.find hsent,?_⟩
  have hties := leadsOrTies_of_iterate hfilter (Nat.find_spec hsent)
  rw [hfactor] at hties
  exact hties.congr (fun m hlive => (hsame m hlive).symm)

/-- Nothing else than the type is sent. -/
lemma type_of_sentAt (hfilter : typeFilter ≠ "") {k : ℕ} {msg : Message}
    (h : sentAt typeFilter times q k = some msg) : msg.type = typeFilter := by
  unfold sentAt at h
  rcases iterate_cases typeFilter (times k) (queueAt typeFilter times q k) with
    ⟨-,he⟩ | ⟨msg',-,⟨-,-,he⟩ | ⟨hmatch,he⟩⟩
  · rw [he] at h
    cases h
  · rw [he] at h
    cases h
  · rw [he] at h
    cases h
    by_contra htype
    exact hmatch ⟨hfilter,htype⟩

/-- After some iterations a message of the type is sent. -/
def Delivers (typeFilter : String) (times : ℕ → ℤ) (q : AgingQueue) : Prop :=
  ∃ k msg, sentAt typeFilter times q k = some msg ∧ msg.type = typeFilter

lemma delivers_iff (hfilter : typeFilter ≠ "") :
    Delivers typeFilter times q ↔ ∃ k, sentAt typeFilter times q k ≠ none := by
  constructor
  · rintro ⟨k,msg,hsent,-⟩
    exact ⟨k,by simp [hsent]⟩
  · rintro ⟨k,hsent⟩
    obtain ⟨msg,hmsg⟩ := Option.ne_none_iff_exists'.mp hsent
    exact ⟨k,msg,hmsg,type_of_sentAt hfilter hmsg⟩

/-- What is pushed is stamped, and the heap stays in order. -/
lemma stamped_step {a : ℚ} {q' : AgingQueue} {op : AgingQueue.QueueOp}
    (h : q.agingFactor = a ∧ (∀ m ∈ q.items, m.Stamped) ∧ AgingQueue.InOrder a q.items) (hs : q.step op = some q') :
    q'.agingFactor = a ∧ (∀ m ∈ q'.items, m.Stamped) ∧ AgingQueue.InOrder a q'.items := by
  obtain ⟨rfl,hq,hheap⟩ := h
  cases op with
  | push now msg =>
    cases hs
    refine ⟨rfl,fun m hm => ?_,AgingQueue.push_inOrder hheap now msg⟩
    rcases List.mem_cons.mp ((AgingQueue.push_items q now msg).mem_iff.mp hm) with rfl | hm
    · exact PriorityQueue.stamped_stamp _ _ _
    · exact hq m hm
  | pop now =>
    cases hs
    exact ⟨rfl,fun m hm => hq m ((AgingQueue.pop_spec q now).mem_of_rest hm),AgingQueue.pop_inOrder q now⟩

lemma stamped_of_run {a : ℚ} {trace : List (Transition AgingQueue AgingQueue.QueueOp)}
    (run : Run AgingQueue.step (.new a) trace q) :
    q.agingFactor = a ∧ (∀ m ∈ q.items, m.Stamped) ∧ AgingQueue.InOrder a q.items := by
  have hnew : (AgingQueue.new a).agingFactor = a ∧ (∀ m ∈ (AgingQueue.new a).items, m.Stamped) ∧
      AgingQueue.InOrder a (AgingQueue.new a).items :=
    ⟨rfl,fun m hm => (by cases hm),fun _ _ _ _ hc => absurd hc (Nat.not_lt_zero _)⟩
  exact (run.invariant (fun _ _ _ h hs => stamped_step h hs) hnew).2

/-- The first iteration takes what is on top of the heap, if that has not expired. -/
lemma sentAt_zero_iff (hfilter : typeFilter ≠ "") (hheap : AgingQueue.InOrder q.agingFactor q.items) {m : Message}
    (htop : q.items[0]? = some m) (hlive : ¬m.Expired (times 0)) :
    sentAt typeFilter times q 0 = some m ↔ m.type = typeFilter := by
  constructor
  · exact type_of_sentAt hfilter
  · intro htype
    have hpop := AgingQueue.pop_of_top hheap htop hlive
    unfold sentAt
    rcases iterate_cases typeFilter (times 0) (queueAt typeFilter times q 0) with
      ⟨hnone,-⟩ | ⟨msg,hmsg,⟨-,hother,-⟩ | ⟨-,he⟩⟩
    · exact absurd (hpop.symm.trans hnone) (by simp)
    · obtain rfl : m = msg := Option.some.inj (hpop.symm.trans hmsg)
      exact absurd htype hother
    · rw [he]
      exact hmsg.symm.trans hpop

/-- Whatever was pushed and popped before: the stream delivers if at some iteration a message of its type
comes before all messages of other types, or comes before all but one that is level with it, and only if at some
iteration no message comes before one of its type; and the first iteration sends what is on top of the heap
exactly if that is of its type. -/
theorem delivers_of_run {a : ℚ} {trace : List (Transition AgingQueue AgingQueue.QueueOp)}
    (run : Run AgingQueue.step (.new a) trace q) (hfilter : typeFilter ≠ "")
    (hmono : ∀ j k, j ≤ k → times j ≤ times k) :
    ((∃ k, Leads a typeFilter (times k) q.items) → Delivers typeFilter times q) ∧
      ((∃ k, TiesWithOne a typeFilter times k q.items) → Delivers typeFilter times q) ∧
      (∀ m, q.items[0]? = some m → ¬m.Expired (times 0) →
        (sentAt typeFilter times q 0 = some m ↔ m.type = typeFilter)) ∧
      (Delivers typeFilter times q → ∃ k, LeadsOrTies a typeFilter (times k) q.items) := by
  obtain ⟨rfl,hq,hheap⟩ := stamped_of_run run
  rw [delivers_iff hfilter]
  refine ⟨?_,?_,?_,?_⟩
  · rintro ⟨k,hleads⟩
    exact sends_of_leads hmono hq hleads
  · rintro ⟨k,htie⟩
    exact sends_of_tie hmono hq hheap htie
  · exact fun m htop hlive => sentAt_zero_iff hfilter hheap htop hlive
  · exact leadsOrTies_of_sends hfilter hmono hq

def alarm : Message := { fromPID := 1, type := "alarm", priority := priorityCritical }
def notice : Message := { fromPID := 1, type := "notice", priority := priorityNormal }
def report : Message := { fromPID := 1, type := "report", priority := priorityNormal }

/-- A message that was pushed at the start. -/
def pushed (id : String) (msg : Message) : Message := { msg with id := id, enqueuedAt := some 0 }

/-- A queue with two messages. -/
lemma exists_queue {first : Message} (hfirst : first = alarm ∨ first = notice) :
    ∃ trace q, Run AgingQueue.step (.new (1/10)) trace q ∧
      q.items = [pushed "msg-1" first,pushed "msg-2" report] := by
  have hend : ∀ first ∈ [alarm,notice],
      (exec AgingQueue.step [.push 0 first,.push 0 report] (.new (1/10))).map (fun q => q.items) =
        some [pushed "msg-1" first,pushed "msg-2" report] := by
    decide +kernel
  obtain ⟨q,hq,hitems⟩ := Option.map_eq_some_iff.mp (hend first (by simpa using hfirst))
  exact ⟨_,q,Run.of_exec hq,hitems⟩

/-- A message without a time to live stays. -/
lemma not_expired_of_none {m : Message} (h : m.expiresAt = none) : ¬m.Expired now := by
  rintro ⟨time,htime,-⟩
  rw [h] at htime
  cases htime

/-- A stream for the critical message gets it at once, and one for the later of two messages that are level gets
that one. -/
theorem delivers_of_run_alarm :
    (∃ trace q, Run AgingQueue.step (.new (1/10)) trace q ∧ (∃ m ∈ q.items, m.type = "report") ∧
      Delivers "alarm" (fun _ => 0) q ∧ sentAt "alarm" (fun _ => 0) q 0 = some (pushed "msg-1" alarm)) ∧
    ∃ trace q, Run AgingQueue.step (.new (1/10)) trace q ∧
      q.items = [pushed "msg-1" notice,pushed "msg-2" report] ∧ Delivers "report" (fun _ => 0) q := by
  constructor
  · obtain ⟨trace,q,run,hitems⟩ := exists_queue (.inl rfl)
    refine ⟨trace,q,run,⟨pushed "msg-2" report,by simp [hitems],rfl⟩,
      (delivers_of_run run (by decide) (fun _ _ _ => le_rfl)).1
        ⟨0,pushed "msg-1" alarm,by simp [hitems],rfl,not_expired_of_none rfl,fun x hx hother _ => ?_⟩,
      ((delivers_of_run run (by decide) (fun _ _ _ => le_rfl)).2.2.1 _ (by rw [hitems]; rfl)
        (not_expired_of_none rfl)).mpr rfl⟩
    rw [hitems] at hx
    simp only [List.mem_cons,List.not_mem_nil,or_false] at hx
    rcases hx with rfl | rfl
    · exact absurd rfl hother
    · norm_num [Message.rank,pushed,alarm,report,priorityCritical,priorityNormal]
  · obtain ⟨trace,q,run,hitems⟩ := exists_queue (.inr rfl)
    refine ⟨trace,q,run,hitems,(delivers_of_run run (by decide) (fun _ _ _ => le_rfl)).2.1
      ⟨0,pushed "msg-2" report,by simp [hitems],rfl,fun _ => not_expired_of_none rfl,fun x hx _ => ?_,?_⟩⟩
    · rw [hitems] at hx
      simp only [List.mem_cons,List.not_mem_nil,or_false] at hx
      rcases hx with rfl | rfl
      · exact le_of_eq rfl
      · exact le_rfl
    · rw [hitems]
      decide +kernel

/-- A stream for the other one takes the critical message out and puts it back, again and again. -/
theorem refused_message_taken_again : ¬∀ (a : ℚ) (trace : List (Transition AgingQueue AgingQueue.QueueOp))
    (q : AgingQueue) (typeFilter : String) (times : ℕ → ℤ), Run AgingQueue.step (.new a) trace q →
    typeFilter ≠ "" → (∀ j k, j ≤ k → times j ≤ times k) →
    (∃ m ∈ q.items, m.type = typeFilter ∧ ∀ k, ¬m.Expired (times k)) → Delivers typeFilter times q := by
  intro h
  obtain ⟨trace,q,run,hitems⟩ := exists_queue (.inl rfl)
  have hfilter : "report" ≠ "" := by decide
  have hmono : ∀ j k : ℕ, j ≤ k → (0 : ℤ) ≤ 0 := fun _ _ _ => le_rfl
  obtain ⟨hfactor,hq,-⟩ := stamped_of_run run
  have hdelivers := h (1/10) trace q "report" (fun _ => 0) run hfilter hmono
    ⟨pushed "msg-2" report,by simp [hitems],rfl,fun _ => not_expired_of_none rfl⟩
  obtain ⟨k,m,hm,htype,-,hfirst⟩ := leadsOrTies_of_sends hfilter hmono hq ((delivers_iff hfilter).mp hdelivers)
  have hle := hfirst (pushed "msg-1" alarm) (by simp [hitems]) (not_expired_of_none rfl)
  rw [hitems] at hm
  simp only [List.mem_cons,List.not_mem_nil,or_false] at hm
  rcases hm with rfl | rfl
  · revert htype
    decide
  · norm_num [Message.rank,pushed,alarm,report,priorityCritical,priorityNormal] at hle

end FilteredStream
end HiveKernel
