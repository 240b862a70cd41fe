import HiveKernel.Ipc.AgingQueue
import Mathlib.Algebra.Order.Group.Multiset

/-! Producers and subscribers on one queue. A push and its notification are two steps, the channel of the
notifications has one slot, and a subscriber that finds nothing waits on that channel. Two pushes may thus
wake one subscriber only, and a message leaves the queue before anybody has got it. -/
namespace HiveKernel
open Lib

/-- Where a subscriber is in its loop. -/
inductive Stage
  /-- inside `PopWait`, before the pop -/
  | popping
  /-- inside `PopWait`, waiting for a notification -/
  | blocked
  /-- `PopWait` has returned this message -/
  | holding (msg : Message)
  /-- the message was put back, and the notification of that push is to come -/
  | notifying
  deriving DecidableEq

structure Stream where
  typeFilter : String
  stage : Stage
  deriving DecidableEq

/-- The filter of the stream is set and does not match. -/
def Stream.Refuses (stream : Stream) (msg : Message) : Prop :=
  stream.typeFilter ≠ "" ∧ msg.type ≠ stream.typeFilter

instance Stream.decidableRefuses (stream : Stream) (msg : Message) : Decidable (stream.Refuses msg) :=
  inferInstanceAs (Decidable (_ ∧ _))

lemma Message.not_expired_of_le {m : Message} {now now' : ℤ} (hle : now ≤ now') (h : ¬m.Expired now') :
    ¬m.Expired now := by
  rintro ⟨time,htime,hlt⟩
  exact h ⟨time,htime,hlt.trans_le hle⟩

/-- The queue with everybody who works on it. What was pushed by the producers and what was sent is
recorded for the statements; no step looks at that. -/
structure Subscribers where
  queue : AgingQueue
  clock : ℤ
  notify : Bool
  producers : ℕ
  streams : Table ℕ Stream
  pushed : List Message
  sent : List Message

inductive SubscriberOp
  | tick (elapsed : ℕ)
  | push (msg : Message)
  | notify
  | subscribe (i : ℕ) (typeFilter : String)
  | pop (i : ℕ)
  | receive (i : ℕ)
  | cancel (i : ℕ)
  | putBack (i : ℕ)
  | renotify (i : ℕ)
  | send (i : ℕ) (ok : Bool)

namespace Subscribers

def start (agingFactor : ℚ) (clock : ℤ) : Subscribers := ⟨.new agingFactor,clock,false,0,.empty,[],[]⟩

/-- The stream goes on to another stage. -/
def enter (s : Subscribers) (i : ℕ) (stream : Stream) (stage : Stage) : Subscribers :=
  { s with streams := s.streams.set i { stream with stage := stage } }

/-- The stream ends. -/
def leave (s : Subscribers) (i : ℕ) : Subscribers := { s with streams := s.streams.erase i }

/-- The locked pop of a stream. -/
def pop (s : Subscribers) (i : ℕ) (stream : Stream) : Subscribers :=
  match s.queue.pop s.clock with
  | (none,queue) => { s with queue := queue }.enter i stream .blocked
  | (some msg,queue) => { s with queue := queue }.enter i stream (.holding msg)

def step (s : Subscribers) : SubscriberOp → Option Subscribers
  | .tick elapsed => some { s with clock := s.clock+elapsed }
  | .push msg =>
    let (stamped,queue) := s.queue.push s.clock msg
    some { s with queue := queue, producers := s.producers+1, pushed := stamped::s.pushed }
  | .notify =>
    if s.producers = 0 then none else some { s with producers := s.producers-1, notify := true }
  | .subscribe i typeFilter =>
    if (s.streams.get i).isSome then none
    else some { s with streams := s.streams.set i ⟨typeFilter,.popping⟩ }
  | .pop i => match s.streams.get i with
    | some stream => if stream.stage = .popping then some (s.pop i stream) else none
    | none => none
  | .receive i => match s.streams.get i with
    | some stream =>
      if stream.stage = .blocked ∧ s.notify = true then
        some ({ s with notify := false }.enter i stream .popping)
      else none
    | none => none
  | .cancel i => match s.streams.get i with
    | some stream => if stream.stage = .blocked then some (s.leave i) else none
    | none => none
  | .putBack i => match s.streams.get i with
    | some stream => match stream.stage with
      | .holding msg =>
        if stream.Refuses msg then
          some ({ s with queue := (s.queue.push s.clock msg).2 }.enter i stream .notifying)
        else none
      | _ => none
    | none => none
  | .renotify i => match s.streams.get i with
    | some stream =>
      if stream.stage = .notifying then some ({ s with notify := true }.enter i stream .popping) else none
    | none => none
  | .send i ok => match s.streams.get i with
    | some stream => match stream.stage with
      | .holding msg =>
        if stream.Refuses msg then none
        else if ok then some ({ s with sent := msg::s.sent }.enter i stream .popping)
        else some (s.leave i)
      | _ => none
    | none => none

variable {s t : Subscribers} {op : SubscriberOp}

lemma pop_of_none (h : (s.queue.pop s.clock).1 = none) (i : ℕ) (stream : Stream) :
    s.pop i stream = { s with queue := (s.queue.pop s.clock).2 }.enter i stream .blocked := by
  unfold pop
  split
  next queue hpop => rw [hpop]
  next msg queue hpop =>
    rw [hpop] at h
    cases h

lemma pop_of_some {msg : Message} (h : (s.queue.pop s.clock).1 = some msg) (i : ℕ)
    (stream : Stream) :
    s.pop i stream = { s with queue := (s.queue.pop s.clock).2 }.enter i stream (.holding msg) := by
  unfold pop
  split
  next queue hpop =>
    rw [hpop] at h
    cases h
  next msg' queue hpop =>
    rw [hpop] at h
    cases h
    rw [hpop]

/-- Every way a step can go. -/
lemma step_cases (hs : s.step op = some t) :
    (∃ elapsed : ℕ, op = .tick elapsed ∧ t = { s with clock := s.clock+elapsed }) ∨
    (∃ msg, op = .push msg ∧ t = { s with
      queue := (s.queue.push s.clock msg).2
      producers := s.producers+1
      pushed := s.queue.stamp s.clock msg::s.pushed }) ∨
    (op = .notify ∧ t = { s with producers := s.producers-1, notify := true }) ∨
    (∃ i typeFilter, op = .subscribe i typeFilter ∧ s.streams.get i = none ∧
      t = { s with streams := s.streams.set i ⟨typeFilter,.popping⟩ }) ∨
    ∃ i stream, s.streams.get i = some stream ∧
      ((op = .pop i ∧ stream.stage = .popping ∧ t = s.pop i stream) ∨
        (op = .receive i ∧ stream.stage = .blocked ∧
          t = { s with notify := false }.enter i stream .popping) ∨
        (op = .cancel i ∧ stream.stage = .blocked ∧ t = s.leave i) ∨
        (∃ msg, op = .putBack i ∧ stream.stage = .holding msg ∧
          t = { s with queue := (s.queue.push s.clock msg).2 }.enter i stream .notifying) ∨
        (op = .renotify i ∧ stream.stage = .notifying ∧
          t = { s with notify := true }.enter i stream .popping) ∨
        (∃ msg, op = .send i true ∧ stream.stage = .holding msg ∧
          t = { s with sent := msg::s.sent }.enter i stream .popping) ∨
        ∃ msg, op = .send i false ∧ stream.stage = .holding msg ∧ t = s.leave i) := by
  have hstream : ∀ {i : ℕ} {f : Stream → Option Subscribers},
      (match s.streams.get i with | some stream => f stream | none => none) = some t →
        ∃ stream, s.streams.get i = some stream ∧ f stream = some t := by
    intro i f h
    cases hi : s.streams.get i with
    | none =>
      rw [hi] at h
      cases h
    | some stream =>
      rw [hi] at h
      exact ⟨stream,rfl,h⟩
  cases op with
  | tick elapsed => exact .inl ⟨elapsed,rfl,(Option.some.inj hs).symm⟩
  | push msg => exact .inr (.inl ⟨msg,rfl,(Option.some.inj hs).symm⟩)
  | notify =>
    simp only [step] at hs
    split_ifs at hs
    exact .inr (.inr (.inl ⟨rfl,(Option.some.inj hs).symm⟩))
  | subscribe i typeFilter =>
    simp only [step] at hs
    split_ifs at hs with hi
    refine .inr (.inr (.inr (.inl ⟨i,typeFilter,rfl,?_,(Option.some.inj hs).symm⟩)))
    exact Option.not_isSome_iff_eq_none.mp hi
  | pop i =>
    obtain ⟨stream,hi,hs⟩ := hstream hs
    split_ifs at hs with hstage
    exact .inr (.inr (.inr (.inr ⟨i,stream,hi,.inl ⟨rfl,hstage,(Option.some.inj hs).symm⟩⟩)))
  | receive i =>
    obtain ⟨stream,hi,hs⟩ := hstream hs
    split_ifs at hs with hstage
    exact .inr (.inr (.inr (.inr ⟨i,stream,hi,.inr (.inl ⟨rfl,hstage.1,(Option.some.inj hs).symm⟩)⟩)))
  | cancel i =>
    obtain ⟨stream,hi,hs⟩ := hstream hs
    split_ifs at hs with hstage
    exact .inr (.inr (.inr (.inr ⟨i,stream,hi,
      .inr (.inr (.inl ⟨rfl,hstage,(Option.some.inj hs).symm⟩))⟩)))
  | putBack i =>
    obtain ⟨stream,hi,hs⟩ := hstream hs
    split at hs
    next msg hstage =>
      split_ifs at hs
      exact .inr (.inr (.inr (.inr ⟨i,stream,hi,
        .inr (.inr (.inr (.inl ⟨msg,rfl,hstage,(Option.some.inj hs).symm⟩)))⟩)))
    next => cases hs
  | renotify i =>
    obtain ⟨stream,hi,hs⟩ := hstream hs
    split_ifs at hs with hstage
    exact .inr (.inr (.inr (.inr ⟨i,stream,hi,
      .inr (.inr (.inr (.inr (.inl ⟨rfl,hstage,(Option.some.inj hs).symm⟩))))⟩)))
  | send i ok =>
    obtain ⟨stream,hi,hsend⟩ := hstream hs
    split at hsend
    next msg hstage =>
      refine .inr (.inr (.inr (.inr ⟨i,stream,hi,.inr (.inr (.inr (.inr (.inr ?_))))⟩)))
      split_ifs at hsend with hrefused hok
      · subst hok
        exact .inl ⟨msg,rfl,hstage,(Option.some.inj hsend).symm⟩
      · rw [Bool.not_eq_true] at hok
        subst hok
        exact .inr ⟨msg,rfl,hstage,(Option.some.inj hsend).symm⟩
    next => cases hsend

/-- A message could be taken, and everybody who could take it sleeps for good: nobody is going to notify
them. -/
structure Stuck (s : Subscribers) : Prop where
  waiting : ∃ m ∈ s.queue.items, ¬m.Expired s.clock
  silent : s.notify = false ∧ s.producers = 0
  asleep : ∃ i stream, s.streams.get i = some stream
  blocked : ∀ i stream, s.streams.get i = some stream → stream.stage = .blocked

/-- A stream ends after it has got a message, while all others sleep, with another message in the queue
and no notification on the way. -/
def Abandons (s : Subscribers) : SubscriberOp → Prop
  | .send i ok => ok = false ∧ (∃ m ∈ s.queue.items, ¬m.Expired s.clock) ∧
      s.notify = false ∧ s.producers = 0 ∧ (∃ j stream, j ≠ i ∧ s.streams.get j = some stream) ∧
      ∀ j stream, j ≠ i → s.streams.get j = some stream → stream.stage = .blocked
  | _ => False

lemma get_enter (s : Subscribers) (i : ℕ) (stream : Stream) (stage : Stage) (j : ℕ) :
    (s.enter i stream stage).streams.get j =
      if j = i then some { stream with stage := stage } else s.streams.get j := Table.get_set _ _ _ _

/-- A stream that has just entered another stage than that is not asleep. -/
lemma not_stuck_enter {i : ℕ} {stream : Stream} {stage : Stage} (h : stage ≠ .blocked) :
    ¬(s.enter i stream stage).Stuck := by
  intro hstuck
  apply h
  exact hstuck.blocked i { stream with stage := stage } ((get_enter s i stream stage i).trans (if_pos rfl))

/-- A stream falls asleep only if it has found nothing to take. -/
lemma not_stuck_pop {i : ℕ} {stream : Stream} : ¬(s.pop i stream).Stuck := by
  intro hstuck
  have hspec := AgingQueue.pop_spec s.queue s.clock
  cases hresult : (s.queue.pop s.clock).1 with
  | some msg =>
    rw [pop_of_some hresult] at hstuck
    exact not_stuck_enter (by simp) hstuck
  | none =>
    rw [pop_of_none hresult] at hstuck
    obtain ⟨m,hm,hlive⟩ := hstuck.waiting
    exact hlive (hspec.nil_iff.mp hresult m (hspec.mem_of_rest hm))

/-- There is one way into that state. -/
lemma stuck_step (hs : s.step op = some t) (h : t.Stuck) : s.Stuck ∨ s.Abandons op := by
  rcases step_cases hs with ⟨elapsed,rfl,rfl⟩ | ⟨msg,rfl,rfl⟩ | ⟨rfl,rfl⟩ | ⟨i,typeFilter,rfl,hi,rfl⟩ |
    ⟨i,stream,hi,⟨rfl,-,rfl⟩ | ⟨rfl,-,rfl⟩ | ⟨rfl,hstage,rfl⟩ | ⟨msg,rfl,-,rfl⟩ | ⟨rfl,-,rfl⟩ |
      ⟨msg,rfl,-,rfl⟩ | ⟨msg,rfl,-,rfl⟩⟩
  · obtain ⟨m,hm,hlive⟩ := h.waiting
    refine .inl ⟨⟨m,hm,?_⟩,h.silent,h.asleep,h.blocked⟩
    exact Message.not_expired_of_le (Int.le_add_of_nonneg_right (Int.natCast_nonneg elapsed)) hlive
  · cases h.silent.2
  · cases h.silent.1
  · have hnew := h.blocked i ⟨typeFilter,.popping⟩ (Table.get_set_self _ _ _)
    cases hnew
  · exact absurd h not_stuck_pop
  · exact absurd h (not_stuck_enter (by simp))
  · refine .inl ⟨h.waiting,h.silent,⟨i,stream,hi⟩,fun j other hj => ?_⟩
    by_cases hji : j = i
    · subst hji
      cases hi.symm.trans hj
      exact hstage
    · exact h.blocked j other ((Table.get_erase_of_ne hji).trans hj)
  · exact absurd h (not_stuck_enter (by simp))
  · exact absurd h (not_stuck_enter (by simp))
  · exact absurd h (not_stuck_enter (by simp))
  · obtain ⟨j,other,hj⟩ := h.asleep
    obtain ⟨hji,hj⟩ := Table.get_erase_some hj
    refine .inr ⟨rfl,h.waiting,h.silent.1,h.silent.2,⟨j,other,hji,hj⟩,fun k stream' hki hk => ?_⟩
    exact h.blocked k stream' ((Table.get_erase_of_ne hki).trans hk)

/-- What a failed send says about the stream. -/
lemma step_send_false {i : ℕ} (hs : s.step (.send i false) = some t) :
    ∃ stream msg, s.streams.get i = some stream ∧ stream.stage = .holding msg ∧ t = s.leave i := by
  simp only [step] at hs
  split at hs
  next stream hi =>
    split at hs
    next msg hstage =>
      split_ifs at hs with hrefused hok
      · cases hok
      · exact ⟨stream,msg,hi,hstage,(Option.some.inj hs).symm⟩
    next => cases hs
  next => cases hs

lemma stuck_of_abandons (hs : s.step op = some t) (h : s.Abandons op) : t.Stuck := by
  cases op with
  | send i ok =>
    obtain ⟨rfl,hwaiting,hnotify,hproducers,⟨j,other,hji,hj⟩,hblocked⟩ := h
    obtain ⟨stream,msg,-,-,rfl⟩ := step_send_false hs
    refine ⟨hwaiting,⟨hnotify,hproducers⟩,⟨j,other,(Table.get_erase_of_ne hji).trans hj⟩,fun k stream' hk => ?_⟩
    obtain ⟨hki,hk⟩ := Table.get_erase_some hk
    exact hblocked k stream' hki hk
  | _ => exact h.elim

/-- In every run nobody sleeps next to a message for good exactly if no stream that ends after a message
is the last one awake, with another message in the queue and no notification on the way. -/
theorem not_stuck_iff_of_run {agingFactor : ℚ} {clock : ℤ}
    {trace : List (Transition Subscribers SubscriberOp)} (run : Run step (start agingFactor clock) trace s) :
    (∀ e ∈ trace, ¬e.target.Stuck) ↔ ∀ e ∈ trace, ¬e.source.Abandons e.label := by
  apply run.good_iff_allowed (fun s => ¬s.Stuck) (fun s => ¬s.Stuck) (fun s op => ¬s.Abandons op)
  · intro s op t h hs
    have hkept : ¬s.Abandons op → ¬t.Stuck := fun hstay ht => (stuck_step hs ht).elim h hstay
    exact ⟨⟨fun hawake habandons => hawake (stuck_of_abandons hs habandons),hkept⟩,hkept⟩
  · intro hstuck
    obtain ⟨m,hm,-⟩ := hstuck.waiting
    cases hm

def ping : Message := { fromPID := 1, type := "ping" }

/-- Two streams fall asleep; two messages and two notifications later the first one has woken up and
holds a message. -/
def twoPings : List SubscriberOp :=
  [.subscribe 1 "",.subscribe 2 "",.pop 1,.pop 2,.push ping,.push ping,.notify,.notify,.receive 1,.pop 1]

/-- The first stream sends its message and takes the other one. -/
theorem not_stuck_iff_of_run_bothSent : ∃ trace s, Run step (start 0 0) trace s ∧ s.sent.length = 2 ∧
    ∀ e ∈ trace, ¬e.target.Stuck := by
  let ops : List SubscriberOp := twoPings++[.send 1 true,.pop 1,.send 1 true]
  have hsent : (exec step ops (start 0 0)).map (fun s => s.sent.length) = some 2 := by decide +kernel
  obtain ⟨s,hs,hlen⟩ := Option.map_eq_some_iff.mp hsent
  have hstay : ∀ op ∈ ops, ∀ s : Subscribers, ¬s.Abandons op := by
    simp [ops,twoPings,Abandons]
  have hrun := Run.of_exec hs
  exact ⟨_,s,hrun,hlen,(not_stuck_iff_of_run hrun).mpr
    (fun e he => hstay _ (label_mem_of_mem_transitions he) _)⟩

/-- The client of the first stream has gone. The second stream sleeps next to the other message. -/
theorem coalesced_notification_lost : ¬∀ (agingFactor : ℚ) (clock : ℤ)
    (trace : List (Transition Subscribers SubscriberOp)) (s : Subscribers),
    Run step (start agingFactor clock) trace s → ¬s.Stuck := by
  intro h
  have hend : (exec step (twoPings++[.send 1 false]) (start 0 0)).map (fun s =>
      (s.queue.items.map Message.expiresAt,s.notify,s.producers,s.streams.keys,s.streams.get 2)) =
      some ([none],false,0,[2],some ⟨"",.blocked⟩) := by
    decide +kernel
  obtain ⟨s,hs,he⟩ := Option.map_eq_some_iff.mp hend
  simp only [Prod.mk.injEq] at he
  obtain ⟨hitems,hnotify,hproducers,hkeys,h2⟩ := he
  obtain ⟨m,hm⟩ := List.length_eq_one_iff.mp (by simpa using congrArg List.length hitems)
  rw [hm,List.map_singleton,List.singleton_inj] at hitems
  refine h 0 0 _ s (Run.of_exec hs) ⟨⟨m,by simp [hm],?_⟩,⟨hnotify,hproducers⟩,⟨2,_,h2⟩,fun i stream hi => ?_⟩
  · rintro ⟨time,htime,-⟩
    rw [hitems] at htime
    cases htime
  · have hi2 : i ∈ s.streams.keys := Table.mem_keys.mpr (by simp [hi])
    rw [hkeys,List.mem_singleton] at hi2
    subst hi2
    cases h2.symm.trans hi
    rfl

end Subscribers

/-- The message that a stream has in hand. -/
def Stage.carried : Stage → Multiset Message
  | .holding msg => {msg}
  | _ => 0

namespace Subscribers
variable {s t : Subscribers} {op : SubscriberOp}

/-- What the streams have in hand. -/
def held (s : Subscribers) : Multiset Message := s.streams.sum (fun _ stream => stream.stage.carried)

/-- How often a message is in the queue, in the hands of a stream, or sent. -/
def known (s : Subscribers) (m : Message) : ℕ :=
  s.queue.items.count m+s.held.count m+s.sent.count m

/-- No message that was pushed and has not expired is lost. -/
def Accounted (s : Subscribers) : Prop := ∀ m, ¬m.Expired s.clock → s.pushed.count m ≤ s.known m

/-- A send fails, and its message has not expired. -/
def Loses (s : Subscribers) : SubscriberOp → Prop
  | .send i ok => ok = false ∧ ∃ stream msg, s.streams.get i = some stream ∧ stream.stage = .holding msg ∧
      ¬msg.Expired s.clock
  | _ => False

/-- As long as no message is lost, every one is in one place. -/
structure Balanced (s : Subscribers) : Prop where
  total : ∀ m, ¬m.Expired s.clock → s.pushed.count m = s.known m
  items : ∀ m ∈ s.queue.items, m.Stamped
  held : ∀ i stream msg, s.streams.get i = some stream → stream.stage = .holding msg → msg.Stamped

lemma balanced_start (agingFactor : ℚ) (clock : ℤ) : (start agingFactor clock).Balanced := by
  refine ⟨fun m _ => rfl,fun m hm => ?_,fun i stream msg hi => ?_⟩
  · cases hm
  · cases hi

lemma Balanced.accounted (h : s.Balanced) : s.Accounted := fun m hlive => (h.total m hlive).le

lemma held_enter {i : ℕ} {stream : Stream} (hi : s.streams.get i = some stream) (stage : Stage) :
    (s.enter i stream stage).held+stream.stage.carried = s.held+stage.carried :=
  Table.sum_set_of_some s.streams hi { stream with stage := stage } (fun _ stream => stream.stage.carried)

lemma held_leave {i : ℕ} {stream : Stream} (hi : s.streams.get i = some stream) :
    s.held = stream.stage.carried+(s.leave i).held := Table.sum_erase s.streams hi _

/-- The messages in hand stay stamped when a stream enters a stage with one that is, or with none. -/
lemma stamped_enter {i : ℕ} {stream : Stream} {stage : Stage}
    (h : ∀ i stream msg, s.streams.get i = some stream → stream.stage = .holding msg → msg.Stamped)
    (hstage : ∀ msg, stage = .holding msg → msg.Stamped) (j : ℕ) (other : Stream) (msg : Message)
    (hj : (s.enter i stream stage).streams.get j = some other) (hother : other.stage = .holding msg) :
    msg.Stamped := by
  rw [get_enter] at hj
  split_ifs at hj
  · cases hj
    exact hstage msg hother
  · exact h j other msg hj hother

lemma stamped_leave {i : ℕ}
    (h : ∀ i stream msg, s.streams.get i = some stream → stream.stage = .holding msg → msg.Stamped)
    (j : ℕ) (other : Stream) (msg : Message) (hj : (s.leave i).streams.get j = some other)
    (hother : other.stage = .holding msg) : msg.Stamped :=
  h j other msg (Table.get_erase_some hj).2 hother

/-- A stream that has no message in hand goes on to another stage without one. -/
lemma count_held_enter {i : ℕ} {stream : Stream} {stage : Stage} (hi : s.streams.get i = some stream)
    (hold : stream.stage.carried = 0) (hnew : stage.carried = 0) :
    (s.enter i stream stage).held = s.held := by
  have hheld := held_enter hi stage
  rw [hold,hnew,add_zero,add_zero] at hheld
  exact hheld

/-- A stream hands its message on. -/
lemma count_held_handed {i : ℕ} {stream : Stream} {msg : Message} (hi : s.streams.get i = some stream)
    (hold : stream.stage = .holding msg) (stage : Stage) (hnew : stage.carried = 0) (m : Message) :
    s.held.count m = (s.enter i stream stage).held.count m+[msg].count m := by
  have hheld := congrArg (Multiset.count m) (held_enter hi stage)
  rw [hold,hnew,add_zero,Multiset.count_add] at hheld
  rw [← hheld]
  exact congrArg _ (Multiset.coe_count m [msg])

lemma count_cons_eq (m msg : Message) (items : List Message) :
    (msg::items).count m = [msg].count m+items.count m := by
  rw [← List.singleton_append,List.count_append]

/-- The pop of a stream moves one message into its hands and drops expired ones. -/
lemma Balanced.pop (h : s.Balanced) {i : ℕ} {stream : Stream} (hi : s.streams.get i = some stream)
    (hstage : stream.stage = .popping) : (s.pop i stream).Balanced := by
  have hspec := AgingQueue.pop_spec s.queue s.clock
  obtain ⟨dropped,hperm,hdropped⟩ := hspec.removes
  have hempty : stream.stage.carried = 0 := by
    rw [hstage]
    rfl
  have hcount : ∀ m, ¬m.Expired s.clock → s.queue.items.count m =
      (s.queue.pop s.clock).1.toList.count m+(s.queue.pop s.clock).2.items.count m := by
    intro m hlive
    have hno : dropped.count m = 0 := List.count_eq_zero.mpr (fun hm => hlive (hdropped m hm))
    rw [hperm.count_eq,List.count_append,List.count_append,hno,add_zero]
  have hrest : ∀ m ∈ (s.queue.pop s.clock).2.items, m.Stamped :=
    fun m hm => h.items m (hspec.mem_of_rest hm)
  cases hresult : (s.queue.pop s.clock).1 with
  | none =>
    rw [pop_of_none hresult]
    refine ⟨fun m hlive => ?_,hrest,stamped_enter h.held (by simp)⟩
    have hheld : ({ s with queue := (s.queue.pop s.clock).2 }.enter i stream .blocked).held = s.held :=
      count_held_enter hi hempty rfl
    have htotal := h.total m hlive
    have hitems := hcount m hlive
    simp only [known,hresult,Option.toList_none,List.count_nil] at htotal hitems ⊢
    rw [hheld]
    change s.pushed.count m = (s.queue.pop s.clock).2.items.count m+s.held.count m+s.sent.count m
    omega
  | some msg =>
    rw [pop_of_some hresult]
    have hmsg : msg ∈ s.queue.items := (hspec.first msg hresult).1
    refine ⟨fun m hlive => ?_,hrest,stamped_enter h.held (fun m hm => ?_)⟩
    · have hheld : ({ s with queue := (s.queue.pop s.clock).2 }.enter i stream (.holding msg)).held =
          s.held+{msg} := by
        have henter := held_enter (s := { s with queue := (s.queue.pop s.clock).2 }) hi (.holding msg)
        rw [hempty,add_zero] at henter
        exact henter
      have htotal := h.total m hlive
      have hitems := hcount m hlive
      have hone : ({msg} : Multiset Message).count m = [msg].count m := Multiset.coe_count m [msg]
      simp only [known,hresult,Option.toList_some] at htotal hitems ⊢
      rw [hheld,Multiset.count_add,hone]
      change s.pushed.count m = (s.queue.pop s.clock).2.items.count m+_+s.sent.count m
      omega
    · cases hm
      exact h.items msg hmsg

/-- A step that neither takes nor loses a message. -/
lemma Balanced.of_known (h : s.Balanced) (hpushed : t.pushed = s.pushed) (hclock : t.clock = s.clock)
    (hknown : ∀ m, t.known m = s.known m) (hitems : ∀ m ∈ t.queue.items, m.Stamped)
    (hheld : ∀ i stream msg, t.streams.get i = some stream → stream.stage = .holding msg → msg.Stamped) :
    t.Balanced := by
  refine ⟨fun m hlive => ?_,hitems,hheld⟩
  rw [hclock] at hlive
  rw [hpushed,hknown]
  exact h.total m hlive

/-- A message is pushed by a producer. -/
lemma Balanced.push (h : s.Balanced) (msg : Message) : Balanced { s with
    queue := (s.queue.push s.clock msg).2
    producers := s.producers+1
    pushed := s.queue.stamp s.clock msg::s.pushed } := by
  have hperm := AgingQueue.push_items s.queue s.clock msg
  refine ⟨fun m hlive => ?_,fun m hm => ?_,h.held⟩
  · have htotal := h.total m hlive
    rw [known] at htotal ⊢
    rw [hperm.count_eq,count_cons_eq m _ s.pushed,count_cons_eq m _ s.queue.items,htotal]
    change _ = _+_+s.held.count m+s.sent.count m
    omega
  · rcases List.mem_cons.mp (hperm.mem_iff.mp hm) with rfl | hm
    · exact PriorityQueue.stamped_stamp _ _ _
    · exact h.items m hm

/-- A stream puts its message back. -/
lemma Balanced.putBack (h : s.Balanced) {i : ℕ} {stream : Stream} {msg : Message}
    (hi : s.streams.get i = some stream) (hstage : stream.stage = .holding msg) :
    ({ s with queue := (s.queue.push s.clock msg).2 }.enter i stream .notifying).Balanced := by
  have hstamped := h.held i stream msg hi hstage
  have hperm : (s.queue.push s.clock msg).2.items.Perm (msg::s.queue.items) := by
    have hpush := AgingQueue.push_items s.queue s.clock msg
    rwa [PriorityQueue.stamp_of_stamped _ _ hstamped] at hpush
  refine h.of_known rfl rfl (fun m => ?_) (fun m hm => ?_) (stamped_enter h.held (by simp))
  · have hhanded := count_held_handed (s := { s with queue := (s.queue.push s.clock msg).2 })
      hi hstage .notifying rfl m
    change s.held.count m = _ at hhanded
    simp only [known,hhanded]
    change (s.queue.push s.clock msg).2.items.count m+_+s.sent.count m = _
    rw [hperm.count_eq,count_cons_eq]
    omega
  · rcases List.mem_cons.mp (hperm.mem_iff.mp hm) with rfl | hm
    · exact hstamped
    · exact h.items m hm

/-- A send succeeds. -/
lemma Balanced.sent (h : s.Balanced) {i : ℕ} {stream : Stream} {msg : Message}
    (hi : s.streams.get i = some stream) (hstage : stream.stage = .holding msg) :
    ({ s with sent := msg::s.sent }.enter i stream .popping).Balanced := by
  refine h.of_known rfl rfl (fun m => ?_) h.items (stamped_enter h.held (by simp))
  have hhanded := count_held_handed (s := { s with sent := msg::s.sent }) hi hstage .popping rfl m
  change s.held.count m = _ at hhanded
  simp only [known,hhanded]
  change s.queue.items.count m+_+(msg::s.sent).count m = _
  rw [count_cons_eq]
  omega

/-- After a failed send every message but that one is where it was. -/
lemma known_of_failed {i : ℕ} {stream : Stream} {msg : Message} (hi : s.streams.get i = some stream)
    (hstage : stream.stage = .holding msg) (m : Message) : s.known m = (s.leave i).known m+[msg].count m := by
  have hheld := congrArg (Multiset.count m) (held_leave hi)
  rw [hstage,Multiset.count_add,show (Stage.holding msg).carried.count m = [msg].count m from
    Multiset.coe_count m [msg]] at hheld
  simp only [known,hheld]
  change _ = s.queue.items.count m+(s.leave i).held.count m+s.sent.count m+_
  omega

/-- One step: nothing is lost afterwards exactly if no message has just been lost. -/
theorem Balanced.step (h : s.Balanced) (hs : s.step op = some t) :
    (t.Accounted ↔ ¬s.Loses op) ∧ (¬s.Loses op → t.Balanced) := by
  have hkept : t.Balanced → ¬s.Loses op → (t.Accounted ↔ ¬s.Loses op) ∧ (¬s.Loses op → t.Balanced) :=
    fun ht hno => ⟨iff_of_true ht.accounted hno,fun _ => ht⟩
  rcases step_cases hs with ⟨elapsed,rfl,rfl⟩ | ⟨msg,rfl,rfl⟩ | ⟨rfl,rfl⟩ | ⟨i,typeFilter,rfl,hi,rfl⟩ |
    ⟨i,stream,hi,⟨rfl,hstage,rfl⟩ | ⟨rfl,hstage,rfl⟩ | ⟨rfl,hstage,rfl⟩ | ⟨msg,rfl,hstage,rfl⟩ |
      ⟨rfl,hstage,rfl⟩ | ⟨msg,rfl,hstage,rfl⟩ | ⟨msg,rfl,hstage,rfl⟩⟩
  · refine hkept ⟨fun m hlive => ?_,h.items,h.held⟩ id
    have hle : s.clock ≤ s.clock+elapsed := Int.le_add_of_nonneg_right (Int.natCast_nonneg elapsed)
    exact h.total m (Message.not_expired_of_le hle hlive)
  · exact hkept (h.push msg) id
  · exact hkept ⟨h.total,h.items,h.held⟩ id
  · have hheld : Subscribers.held { s with streams := s.streams.set i ⟨typeFilter,.popping⟩ } = s.held :=
      (Table.sum_set_of_none s.streams hi ⟨typeFilter,.popping⟩
        (fun _ stream => stream.stage.carried)).trans (zero_add _)
    refine hkept (h.of_known rfl rfl (fun m => ?_) h.items (fun j stream msg hj hstage => ?_)) id
    · simp only [known,hheld]
    · rcases Table.get_set_some hj with ⟨-,rfl⟩ | ⟨-,hj⟩
      · cases hstage
      · exact h.held j stream msg hj hstage
  · exact hkept (h.pop hi hstage) id
  · have hheld : ({ s with notify := false }.enter i stream .popping).held = s.held :=
      count_held_enter hi (by rw [hstage]; rfl) rfl
    refine hkept (h.of_known rfl rfl (fun m => ?_) h.items (stamped_enter h.held (by simp))) id
    simp only [known,hheld]
    rfl
  · have hheld : (s.leave i).held = s.held := by
      rw [held_leave hi,hstage,show Stage.blocked.carried = 0 from rfl,zero_add]
    refine hkept (h.of_known rfl rfl (fun m => ?_) h.items (stamped_leave h.held)) id
    simp only [known,hheld]
    rfl
  · exact hkept (h.putBack hi hstage) id
  · have hheld : ({ s with notify := true }.enter i stream .popping).held = s.held :=
      count_held_enter hi (by rw [hstage]; rfl) rfl
    refine hkept (h.of_known rfl rfl (fun m => ?_) h.items (stamped_enter h.held (by simp))) id
    simp only [known,hheld]
    rfl
  · exact hkept (h.sent hi hstage) (fun hlost => Bool.noConfusion hlost.1)
  · have hknown := known_of_failed hi hstage
    by_cases hexp : msg.Expired s.clock
    · refine hkept ⟨fun m hlive => ?_,h.items,stamped_leave h.held⟩ ?_
      · have hother : [msg].count m = 0 := by
          rw [List.count_eq_zero,List.mem_singleton]
          rintro rfl
          exact hlive hexp
        rw [show (s.leave i).pushed = s.pushed from rfl,h.total m hlive,hknown,hother,add_zero]
      · rintro ⟨-,stream',msg',hi',hstage',hlive⟩
        cases hi.symm.trans hi'
        cases hstage.symm.trans hstage'
        exact hlive hexp
    · have hlost : s.Loses (.send i false) := ⟨rfl,stream,msg,hi,hstage,hexp⟩
      refine ⟨iff_of_false (fun haccounted => ?_) (not_not.mpr hlost),fun hno => absurd hlost hno⟩
      have hle := haccounted msg hexp
      rw [show (s.leave i).pushed = s.pushed from rfl,h.total msg hexp,hknown,List.count_singleton_self] at hle
      omega

/-- In every run all messages that have not expired are accounted for exactly if no send of such a message
fails. -/
theorem accounted_iff_of_run {agingFactor : ℚ} {clock : ℤ}
    {trace : List (Transition Subscribers SubscriberOp)} (run : Run step (start agingFactor clock) trace s) :
    (∀ e ∈ trace, e.target.Accounted) ↔ ∀ e ∈ trace, ¬e.source.Loses e.label := by
  apply run.good_iff_allowed Balanced Accounted (fun s op => ¬s.Loses op)
  · exact fun s op t h hs => h.step hs
  · exact balanced_start agingFactor clock

/-- A stream with a filter puts a message back, another stream sends it. -/
theorem accounted_iff_of_run_putBack : ∃ trace s, Run step (start 0 0) trace s ∧ s.sent.length = 1 ∧
    ∀ e ∈ trace, e.target.Accounted := by
  let ops : List SubscriberOp := [.push ping,.notify,.subscribe 1 "pong",.subscribe 2 "",.pop 1,.putBack 1,
    .renotify 1,.pop 2,.send 2 true]
  have hsent : (exec step ops (start 0 0)).map (fun s => s.sent.length) = some 1 := by decide +kernel
  obtain ⟨s,hs,hlen⟩ := Option.map_eq_some_iff.mp hsent
  have hkeep : ∀ op ∈ ops, ∀ s : Subscribers, ¬s.Loses op := by
    simp [ops,Loses]
  have hrun := Run.of_exec hs
  exact ⟨_,s,hrun,hlen,(accounted_iff_of_run hrun).mpr
    (fun e he => hkeep _ (label_mem_of_mem_transitions he) _)⟩

/-- The client goes while its message is on the way; nobody gets the message any more. -/
theorem failed_send_loses_ping : ¬∀ (agingFactor : ℚ) (clock : ℤ)
    (trace : List (Transition Subscribers SubscriberOp)) (s : Subscribers),
    Run step (start agingFactor clock) trace s → s.Accounted := by
  intro h
  have hend : (exec step [.push ping,.notify,.subscribe 1 "",.pop 1,.send 1 false] (start 0 0)).map (fun s =>
      (s.pushed.map Message.expiresAt,s.queue.items.length,Multiset.card s.held,s.sent.length)) =
      some ([none],0,0,0) := by
    decide +kernel
  obtain ⟨s,hs,he⟩ := Option.map_eq_some_iff.mp hend
  simp only [Prod.mk.injEq,List.length_eq_zero_iff,Multiset.card_eq_zero] at he
  obtain ⟨hpushed,hitems,hheld,hsent⟩ := he
  obtain ⟨m,hm⟩ := List.length_eq_one_iff.mp (by simpa using congrArg List.length hpushed)
  rw [hm,List.map_singleton,List.singleton_inj] at hpushed
  have hlive : ¬m.Expired s.clock := by
    rintro ⟨time,htime,-⟩
    rw [hpushed] at htime
    cases htime
  have hle := h 0 0 _ s (Run.of_exec hs) m hlive
  rw [known,hm,hitems,hheld,hsent,List.count_singleton_self] at hle
  cases hle

end Subscribers
end HiveKernel
