import HiveKernel.Ipc.Broker
import HiveKernel.Lib.Run
import Mathlib.Algebra.Order.Group.Multiset

/-! The three ways out of an inbox: the push that routing a message starts, the flush, and the
streams of subscribers. A push does not take its message from the inbox, while a flush and a stream
do so before they know whether anybody will get it. -/
namespace HiveKernel
open Lib

inductive PushOrigin
  | route | flush
  deriving DecidableEq

/-- A call of `OnMessage` in its own goroutine: it looks for the client of the runtime, then calls the
agent. -/
structure Push where
  msg : Message
  origin : PushOrigin
  calling : Bool
  deriving DecidableEq

/-- A subscriber of the inbox, with the message it has taken and not handed on yet. -/
structure Subscription where
  typeFilter : String
  held : Option Message
  deriving DecidableEq

/-- A subscriber does not want this message. -/
def Subscription.Refuses (sub : Subscription) (msg : Message) : Prop :=
  sub.typeFilter ≠ "" ∧ msg.type ≠ sub.typeFilter

instance (sub : Subscription) (msg : Message) : Decidable (sub.Refuses msg) :=
  inferInstanceAs (Decidable (_ ∧ _))

/-- The inbox of one receiver with everybody who works on it. What was accepted and what was
delivered is recorded for the statements; no step looks at that. -/
structure Mailbox where
  broker : Broker
  client : Bool
  pushes : Table ℕ Push
  flushes : ℕ
  streams : Table ℕ Subscription
  accepted : List Message
  delivered : List Message

inductive MailboxOp
  /-- A direct message for the receiver. No caller gives messages a time to live. -/
  | route (i : ℕ) (registry : Registry) (now : ℤ) (msg : Message)
  | setClient (available : Bool)
  | getClient (i : ℕ)
  | deliverMessage (i : ℕ) (ok : Bool)
  | flushInbox
  | flushPop (i : ℕ) (now : ℤ) (index : ℕ)
  | flushEnd
  | subscribe (i : ℕ) (typeFilter : String)
  | streamPop (i : ℕ) (now : ℤ) (index : ℕ)
  | streamPutBack (i : ℕ) (now : ℤ)
  | streamSend (i : ℕ) (ok : Bool)
  | streamCancel (i : ℕ)

namespace Mailbox

def start : Mailbox := ⟨.new,false,.empty,0,.empty,[],[]⟩

variable (receiver : ℕ)

def inbox (s : Mailbox) : PriorityQueue := s.broker.getInbox receiver

def setInbox (s : Mailbox) (q : PriorityQueue) : Mailbox :=
  { s with broker := { s.broker with inboxes := s.broker.inboxes.set receiver q } }

/-- A push looks for the client, and gives up if there is none. -/
def getClient (s : Mailbox) (i : ℕ) (p : Push) : Mailbox :=
  if s.client then { s with pushes := s.pushes.set i { p with calling := true } }
  else { s with pushes := s.pushes.erase i }

/-- Hand a message to the receiver. -/
def deliver (s : Mailbox) (msg : Message) : Mailbox := { s with delivered := msg::s.delivered }

/-- The call of the agent returns. -/
def deliverMessage (s : Mailbox) (i : ℕ) (p : Push) (ok : Bool) : Mailbox :=
  let s := if ok then s.deliver p.msg else s
  { s with pushes := s.pushes.erase i }

def step (s : Mailbox) : MailboxOp → Option Mailbox
  | .route i registry now msg =>
    if msg.toPID ≠ receiver ∨ msg.toQueue ≠ "" ∨ msg.ttl ≠ 0 ∨ msg.expiresAt ≠ none ∨ (s.pushes.get i).isSome
    then none
    else match s.broker.route registry now msg with
      | none => none
      | some (.error _,broker) => some { s with broker := broker }
      | some (.ok stamped,broker) => some { s with
          broker := broker
          pushes := s.pushes.set i ⟨stamped,.route,false⟩
          accepted := stamped::s.accepted }
  | .setClient available => some { s with client := available }
  | .getClient i => match s.pushes.get i with
    | some p => if p.calling then none else some (s.getClient i p)
    | none => none
  | .deliverMessage i ok => match s.pushes.get i with
    | some p => if p.calling then some (s.deliverMessage i p ok) else none
    | none => none
  | .flushInbox => some { s with flushes := s.flushes+1 }
  | .flushPop i now index =>
    if s.flushes = 0 ∨ (s.pushes.get i).isSome then none
    else match (s.inbox receiver).popAt index with
      | none => none
      | some (msg,q) =>
        let s := s.setInbox receiver q
        if msg.Expired now then some s
        else some { s with pushes := s.pushes.set i ⟨msg,.flush,false⟩ }
  | .flushEnd =>
    if s.flushes = 0 ∨ (s.inbox receiver).items ≠ [] then none
    else some { s with flushes := s.flushes-1 }
  | .subscribe i typeFilter =>
    if (s.streams.get i).isSome then none
    else some { s with streams := s.streams.set i ⟨typeFilter,none⟩ }
  | .streamPop i now index => match s.streams.get i with
    | some ⟨typeFilter,none⟩ => match (s.inbox receiver).popAt index with
      | none => none
      | some (msg,q) =>
        let s := s.setInbox receiver q
        if msg.Expired now then some s
        else some { s with streams := s.streams.set i ⟨typeFilter,some msg⟩ }
    | _ => none
  | .streamPutBack i now => match s.streams.get i with
    | some ⟨typeFilter,some msg⟩ =>
      if Subscription.Refuses ⟨typeFilter,some msg⟩ msg then
        let s := s.setInbox receiver ((s.inbox receiver).push now msg).2
        some { s with streams := s.streams.set i ⟨typeFilter,none⟩ }
      else none
    | _ => none
  | .streamSend i ok => match s.streams.get i with
    | some ⟨typeFilter,some msg⟩ =>
      if Subscription.Refuses ⟨typeFilter,some msg⟩ msg then none
      else if ok then some { s.deliver msg with streams := s.streams.set i ⟨typeFilter,none⟩ }
      else some { s with streams := s.streams.erase i }
    | _ => none
  | .streamCancel i => match s.streams.get i with
    | some ⟨_,none⟩ => some { s with streams := s.streams.erase i }
    | _ => none

/-- A push that routing has started delivers nothing, since its message stays in the inbox. What a
flush or a stream has taken out reaches the receiver. -/
def Orderly (s : Mailbox) : MailboxOp → Prop
  | .getClient i => ∀ p ∈ s.pushes.get i, p.origin = .flush → s.client = true
  | .deliverMessage i ok => ∀ p ∈ s.pushes.get i, (p.origin = .flush ↔ ok = true)
  | .streamSend _ ok => ok = true
  | _ => True

instance (s : Mailbox) (op : MailboxOp) : Decidable (s.Orderly op) :=
  match op with
  | .getClient i => inferInstanceAs (Decidable (∀ p ∈ s.pushes.get i, p.origin = .flush → s.client = true))
  | .deliverMessage i ok =>
    inferInstanceAs (Decidable (∀ p ∈ s.pushes.get i, (p.origin = .flush ↔ ok = true)))
  | .streamSend _ ok => inferInstanceAs (Decidable (ok = true))
  | .route .. | .setClient _ | .flushInbox | .flushPop .. | .flushEnd | .subscribe .. | .streamPop ..
  | .streamPutBack .. | .streamCancel _ => .isTrue trivial

/-- Nobody is on the way with a message. -/
def Quiescent (s : Mailbox) : Prop :=
  (∀ i p, s.pushes.get i = some p → False) ∧ ∀ i sub, s.streams.get i = some sub → sub.held = none

instance (s : Mailbox) : Decidable s.Quiescent := inferInstanceAs (Decidable (_ ∧ _))

end Mailbox

/-- A message that has been in a queue and that never expires. -/
structure Message.Settled (m : Message) : Prop where
  enqueued : m.enqueuedAt.isSome
  ttl : m.ttl = 0
  expiresAt : m.expiresAt = none
  named : m.id ≠ ""

namespace PriorityQueue

lemma stamp_of_settled (q : PriorityQueue) (now : ℤ) {m : Message} (h : m.Settled) : q.stamp now m = m := by
  refine stamp_of_stamped q now ⟨h.enqueued,fun httl => ?_,h.named⟩
  rw [h.ttl] at httl
  exact absurd httl (lt_irrefl 0)

lemma settled_stamp (q : PriorityQueue) (now : ℤ) {m : Message} (httl : m.ttl = 0)
    (hexp : m.expiresAt = none) : (q.stamp now m).Settled where
  enqueued := rfl
  ttl := httl
  expiresAt := by simp [stamp,httl,hexp]
  named := (stamped_stamp q now m).named

/-- What is taken out of a queue was in it, and the rest is what is left. -/
lemma popAt_eq_some {q q' : PriorityQueue} {i : ℕ} {m : Message} (h : q.popAt i = some (m,q')) :
    (q.items : Multiset Message) = {m} + (q'.items : Multiset Message) := by
  obtain ⟨m',hm,heq⟩ := Option.map_eq_some_iff.mp h
  cases heq
  obtain ⟨hi,rfl⟩ := List.getElem?_eq_some_iff.mp hm
  rw [Multiset.singleton_add,Multiset.cons_coe]
  exact (Multiset.coe_eq_coe.mpr (List.getElem_cons_eraseIdx_perm hi)).symm

end PriorityQueue

/-- The message that a push has taken out of the inbox. -/
def Push.carried (p : Push) : Multiset Message := if p.origin = .flush then {p.msg} else 0

def Subscription.carried (sub : Subscription) : Multiset Message := sub.held.elim 0 (fun m => {m})

namespace Mailbox
variable (receiver : ℕ)

/-- Everything taken out of the inbox and not handed on yet. -/
def underway (s : Mailbox) : Multiset Message :=
  s.pushes.sum (fun _ p => p.carried) + s.streams.sum (fun _ sub => sub.carried)

/-- Every accepted message is in one place. -/
structure Balanced (s : Mailbox) : Prop where
  total : (s.accepted : Multiset Message) =
    (s.delivered : Multiset Message) + ((s.inbox receiver).items : Multiset Message) + s.underway
  settled : ∀ m ∈ (s.inbox receiver).items, m.Settled
  held : ∀ i sub m, s.streams.get i = some sub → sub.held = some m → m.Settled

variable {receiver} {s t : Mailbox} {op : MailboxOp}

@[simp] lemma inbox_setInbox (s : Mailbox) (q : PriorityQueue) :
    (s.setInbox receiver q).inbox receiver = q := by
  rw [inbox,setInbox,Broker.getInbox_set,if_pos rfl]

lemma balanced_start : start.Balanced receiver where
  total := by simp [start,inbox,Broker.getInbox,Broker.new,PriorityQueue.new,underway]
  settled := by simp [start,inbox,Broker.getInbox,Broker.new,PriorityQueue.new]
  held := by
    intro i sub m hi
    cases hi

/-- A step that moves no message. -/
lemma Balanced.of_same (h : s.Balanced receiver) (hinbox : t.inbox receiver = s.inbox receiver)
    (haccepted : t.accepted = s.accepted) (hdelivered : t.delivered = s.delivered)
    (hunderway : t.underway = s.underway)
    (hheld : ∀ i sub m, t.streams.get i = some sub → sub.held = some m →
      ∃ j sub', s.streams.get j = some sub' ∧ sub'.held = some m) : t.Balanced receiver := by
  refine ⟨?_,?_,fun i sub m hi hm => ?_⟩
  · rw [haccepted,hdelivered,hinbox,hunderway]
    exact h.total
  · rw [hinbox]
    exact h.settled
  · obtain ⟨j,sub',hj,hsub'⟩ := hheld i sub m hi hm
    exact h.held j sub' m hj hsub'

lemma balanced_route {i : ℕ} {registry : Registry} {now : ℤ} {msg : Message} (h : s.Balanced receiver)
    (hs : s.step receiver (.route i registry now msg) = some t) : t.Balanced receiver := by
  simp only [step] at hs
  split_ifs at hs with hno
  simp only [not_or,not_not,Bool.not_eq_true,Option.isSome_eq_false_iff,Option.isNone_iff_eq_none] at hno
  obtain ⟨hto,hqueue,httl,hexp,hi⟩ := hno
  cases hr : s.broker.route registry now msg with
  | none => simp [hr] at hs
  | some outcome =>
    obtain ⟨result,broker⟩ := outcome
    cases result with
    | error e =>
      simp only [hr,Option.some.injEq] at hs
      subst hs
      obtain rfl := Broker.broker_of_route_error hr
      exact h.of_same rfl rfl rfl rfl (fun j sub m hj hm => ⟨j,sub,hj,hm⟩)
    | ok stamped =>
      simp only [hr,Option.some.injEq] at hs
      subst hs
      obtain ⟨priority,hstamped,hitems⟩ := Broker.inbox_of_route hqueue hr
      rw [hto] at hstamped hitems
      have hsettled : stamped.Settled := hstamped ▸ PriorityQueue.settled_stamp _ now httl hexp
      refine ⟨?_,?_,h.held⟩
      · have htotal := h.total
        simp only [inbox,underway] at htotal
        simp only [inbox,underway,hitems,Table.sum_set_of_none _ hi,Push.carried,reduceCtorEq,if_false,
          zero_add,← Multiset.cons_coe,← Multiset.singleton_add,htotal]
        abel
      · intro m hm
        simp only [inbox,hitems,List.mem_cons] at hm
        rcases hm with rfl | hm
        · exact hsettled
        · exact h.settled m hm

/-- A message leaves the inbox with somebody who carries it. -/
lemma Balanced.popped {i : ℕ} {m : Message} {q : PriorityQueue} (h : s.Balanced receiver)
    (hpop : (s.inbox receiver).popAt i = some (m,q)) (hinbox : t.inbox receiver = q)
    (haccepted : t.accepted = s.accepted) (hdelivered : t.delivered = s.delivered)
    (hunderway : t.underway = {m} + s.underway)
    (hheld : ∀ i sub m', t.streams.get i = some sub → sub.held = some m' →
      m' = m ∨ ∃ j sub', s.streams.get j = some sub' ∧ sub'.held = some m') : t.Balanced receiver := by
  have hitems := PriorityQueue.popAt_eq_some hpop
  have hmem : ∀ m' ∈ ({m} + (q.items : Multiset Message)), m'.Settled := by
    intro m' hm'
    rw [← hitems] at hm'
    exact h.settled m' hm'
  refine ⟨?_,fun m' hm' => ?_,fun i sub m' hi hm' => ?_⟩
  · rw [haccepted,h.total,hitems,hdelivered,hinbox,hunderway]
    abel
  · rw [hinbox] at hm'
    exact hmem m' (by simp [hm'])
  · rcases hheld i sub m' hi hm' with rfl | ⟨j,sub',hj,hsub'⟩
    · exact hmem m' (by simp)
    · exact h.held j sub' m' hj hsub'

/-- A message that is carried reaches the receiver. -/
lemma Balanced.handed {m : Message} (h : s.Balanced receiver) (hinbox : t.inbox receiver = s.inbox receiver)
    (haccepted : t.accepted = s.accepted) (hdelivered : t.delivered = m::s.delivered)
    (hunderway : s.underway = {m} + t.underway)
    (hheld : ∀ i sub m', t.streams.get i = some sub → sub.held = some m' →
      ∃ j sub', s.streams.get j = some sub' ∧ sub'.held = some m') : t.Balanced receiver := by
  refine ⟨?_,fun m' hm' => ?_,fun i sub m' hi hm' => ?_⟩
  · rw [haccepted,h.total,hunderway,hdelivered,hinbox,← Multiset.cons_coe,← Multiset.singleton_add]
    abel
  · rw [hinbox] at hm'
    exact h.settled m' hm'
  · obtain ⟨j,sub',hj,hsub'⟩ := hheld i sub m' hi hm'
    exact h.held j sub' m' hj hsub'

lemma Balanced.not_expired {i : ℕ} {m : Message} {q : PriorityQueue} (h : s.Balanced receiver)
    (hpop : (s.inbox receiver).popAt i = some (m,q)) (now : ℤ) : ¬m.Expired now := by
  have hm : m ∈ ((s.inbox receiver).items : Multiset Message) := by simp [PriorityQueue.popAt_eq_some hpop]
  simp [Message.Expired,(h.settled m hm).expiresAt]

/-- The messages of the pushes, when one of them changes or ends. -/
lemma underway_set {i : ℕ} {p p' : Push} (hi : s.pushes.get i = some p) (hp : p'.carried = p.carried) :
    ({ s with pushes := s.pushes.set i p' } : Mailbox).underway = s.underway := by
  have hsum := Table.sum_set_of_some s.pushes hi p' (fun _ p => p.carried)
  simp only [hp] at hsum
  simp only [underway,add_right_cancel hsum]

lemma underway_erase {i : ℕ} {p : Push} (hi : s.pushes.get i = some p) :
    s.underway = p.carried + ({ s with pushes := s.pushes.erase i } : Mailbox).underway := by
  simp only [underway,Table.sum_erase s.pushes hi,add_assoc]

lemma underway_setStream {i : ℕ} {sub : Subscription} (sub' : Subscription) (hi : s.streams.get i = some sub) :
    ({ s with streams := s.streams.set i sub' } : Mailbox).underway + sub.carried =
      s.underway + sub'.carried := by
  simp only [underway,add_assoc,Table.sum_set_of_some s.streams hi sub' (fun _ sub => sub.carried)]

lemma balanced_getClient {i : ℕ} {p : Push} (h : s.Balanced receiver) (hi : s.pushes.get i = some p)
    (hop : p.origin = .flush → s.client = true) : (s.getClient i p).Balanced receiver := by
  unfold getClient
  split_ifs with hclient
  · exact h.of_same rfl rfl rfl (underway_set hi rfl) (fun j sub m hj hm => ⟨j,sub,hj,hm⟩)
  · have hp : p.carried = 0 := if_neg (fun hf => hclient (hop hf))
    have hsame := underway_erase hi
    rw [hp,zero_add] at hsame
    exact h.of_same rfl rfl rfl hsame.symm (fun j sub m hj hm => ⟨j,sub,hj,hm⟩)

lemma balanced_deliverMessage {i : ℕ} {ok : Bool} {p : Push} (h : s.Balanced receiver)
    (hi : s.pushes.get i = some p) (hop : p.origin = .flush ↔ ok = true) :
    (s.deliverMessage i p ok).Balanced receiver := by
  have hsame := underway_erase hi
  cases ok with
  | true =>
    have hp : p.carried = {p.msg} := if_pos (hop.mpr rfl)
    rw [hp] at hsame
    exact h.handed rfl rfl rfl hsame (fun j sub m hj hm => ⟨j,sub,hj,hm⟩)
  | false =>
    have hp : p.carried = 0 := if_neg (fun hf => Bool.false_ne_true (hop.mp hf))
    rw [hp,zero_add] at hsame
    exact h.of_same rfl rfl rfl hsame.symm (fun j sub m hj hm => ⟨j,sub,hj,hm⟩)

lemma balanced_flushPop {i : ℕ} {now : ℤ} {index : ℕ} (h : s.Balanced receiver)
    (hs : s.step receiver (.flushPop i now index) = some t) : t.Balanced receiver := by
  simp only [step] at hs
  split_ifs at hs with hno
  simp only [not_or,Bool.not_eq_true,Option.isSome_eq_false_iff,Option.isNone_iff_eq_none] at hno
  cases hpop : (s.inbox receiver).popAt index with
  | none => simp [hpop] at hs
  | some out =>
    obtain ⟨msg,q⟩ := out
    simp only [hpop,if_neg (h.not_expired hpop now),Option.some.injEq] at hs
    subst hs
    refine h.popped hpop (inbox_setInbox s q) rfl rfl ?_ (fun j sub m hj hm => .inr ⟨j,sub,hj,hm⟩)
    change (s.pushes.set i ⟨msg,.flush,false⟩).sum _ + s.streams.sum _ = _
    rw [Table.sum_set_of_none _ hno.2]
    simp only [Push.carried,if_true,underway,add_assoc]

/-- The messages that subscribers hold, when one of them changes. -/
lemma held_set {i : ℕ} {sub' : Subscription} {j : ℕ} {sub : Subscription} {m : Message}
    (hj : (s.streams.set i sub').get j = some sub) (hm : sub.held = some m) :
    sub'.held = some m ∨ ∃ j sub, s.streams.get j = some sub ∧ sub.held = some m := by
  rcases Table.get_set_some hj with ⟨-,rfl⟩ | ⟨-,hj⟩
  · exact .inl hm
  · exact .inr ⟨j,sub,hj,hm⟩

lemma balanced_streamPop {i : ℕ} {now : ℤ} {index : ℕ} (h : s.Balanced receiver)
    (hs : s.step receiver (.streamPop i now index) = some t) : t.Balanced receiver := by
  simp only [step] at hs
  split at hs
  · rename_i typeFilter hi
    cases hpop : (s.inbox receiver).popAt index with
    | none => simp [hpop] at hs
    | some out =>
      obtain ⟨msg,q⟩ := out
      simp only [hpop,if_neg (h.not_expired hpop now),Option.some.injEq] at hs
      subst hs
      refine h.popped hpop (inbox_setInbox s q) rfl rfl ?_ (fun j sub m hj hm => ?_)
      · have hsum := underway_setStream ⟨typeFilter,some msg⟩ hi
        simp only [Subscription.carried,Option.elim_none,Option.elim_some,add_zero] at hsum
        rw [add_comm,← hsum]
        rfl
      · exact (held_set hj hm).imp_left (fun he => (Option.some.inj he).symm)
  · cases hs

lemma balanced_streamPutBack {i : ℕ} {now : ℤ} (h : s.Balanced receiver)
    (hs : s.step receiver (.streamPutBack i now) = some t) : t.Balanced receiver := by
  simp only [step] at hs
  split at hs
  · rename_i typeFilter msg hi
    split_ifs at hs
    cases hs
    have hsettled := h.held i _ msg hi rfl
    have hitems : ((s.inbox receiver).push now msg).2.items = msg::(s.inbox receiver).items := by
      simp only [PriorityQueue.push,PriorityQueue.stamp_of_settled _ now hsettled]
    have hsum := underway_setStream ⟨typeFilter,none⟩ hi
    simp only [Subscription.carried,Option.elim_none,Option.elim_some,add_zero] at hsum
    refine ⟨?_,fun m hm => ?_,fun j sub m hj hm => ?_⟩
    · change (s.accepted : Multiset Message) = s.delivered +
        ((s.setInbox receiver ((s.inbox receiver).push now msg).2).inbox receiver).items + _
      rw [inbox_setInbox,hitems,← Multiset.cons_coe,← Multiset.singleton_add,h.total,← hsum]
      change _ = _ + _ + ({ s with streams := s.streams.set i ⟨typeFilter,none⟩ } : Mailbox).underway
      abel
    · change m ∈ ((s.setInbox receiver ((s.inbox receiver).push now msg).2).inbox receiver).items at hm
      rw [inbox_setInbox,hitems,List.mem_cons] at hm
      rcases hm with rfl | hm
      · exact hsettled
      · exact h.settled m hm
    · rcases held_set hj hm with he | ⟨j,sub,hj,hm⟩
      · cases he
      · exact h.held j sub m hj hm
  · cases hs

lemma balanced_streamSend {i : ℕ} (h : s.Balanced receiver)
    (hs : s.step receiver (.streamSend i true) = some t) : t.Balanced receiver := by
  simp only [step] at hs
  split at hs
  · rename_i typeFilter msg hi
    split_ifs at hs
    cases hs
    have hsum := underway_setStream ⟨typeFilter,none⟩ hi
    simp only [Subscription.carried,Option.elim_none,Option.elim_some,add_zero] at hsum
    refine h.handed rfl rfl rfl (m := msg) ?_ (fun j sub m hj hm => ?_)
    · rw [← hsum,add_comm]
      rfl
    · exact (held_set hj hm).resolve_left (by simp)
  · cases hs

/-- An orderly step keeps every accepted message in one place. -/
theorem balanced_step (h : s.Balanced receiver) (hop : s.Orderly op) (hs : s.step receiver op = some t) :
    t.Balanced receiver := by
  have hheld : ∀ i sub m, s.streams.get i = some sub → sub.held = some m →
      ∃ j sub', s.streams.get j = some sub' ∧ sub'.held = some m := fun j sub m hj hm => ⟨j,sub,hj,hm⟩
  cases op with
  | route i registry now msg => exact balanced_route h hs
  | setClient available =>
    cases hs
    exact h.of_same rfl rfl rfl rfl hheld
  | getClient i =>
    cases hi : s.pushes.get i with
    | none => simp [step,hi] at hs
    | some p =>
      simp only [step,hi] at hs
      split_ifs at hs
      cases hs
      exact balanced_getClient h hi (hop p hi)
  | deliverMessage i ok =>
    cases hi : s.pushes.get i with
    | none => simp [step,hi] at hs
    | some p =>
      simp only [step,hi] at hs
      split_ifs at hs
      cases hs
      exact balanced_deliverMessage h hi (hop p hi)
  | flushInbox =>
    cases hs
    exact h.of_same rfl rfl rfl rfl hheld
  | flushPop i now index => exact balanced_flushPop h hs
  | flushEnd =>
    simp only [step] at hs
    split_ifs at hs
    cases hs
    exact h.of_same rfl rfl rfl rfl hheld
  | subscribe i typeFilter =>
    simp only [step] at hs
    split_ifs at hs with hi
    cases hs
    refine h.of_same rfl rfl rfl ?_ (fun j sub m hj hm => (held_set hj hm).resolve_left (by simp))
    simp [underway,Table.sum_set_of_none s.streams (by simpa using hi),Subscription.carried]
  | streamPop i now index => exact balanced_streamPop h hs
  | streamPutBack i now => exact balanced_streamPutBack h hs
  | streamSend i ok =>
    obtain rfl : ok = true := hop
    exact balanced_streamSend h hs
  | streamCancel i =>
    simp only [step] at hs
    split at hs
    · rename_i typeFilter hi
      cases hs
      refine h.of_same rfl rfl rfl ?_ (fun j sub m hj hm => ⟨j,sub,(Table.get_erase_some hj).2,hm⟩)
      simp [underway,Table.sum_erase s.streams hi,Subscription.carried]
    · cases hs

lemma Quiescent.underway_eq_zero (h : s.Quiescent) : s.underway = 0 := by
  have hpushes : s.pushes.sum (fun _ p => p.carried) = s.pushes.sum (fun _ _ => 0) :=
    Table.sum_congr _ (fun i p hi => (h.1 i p hi).elim)
  have hstreams : s.streams.sum (fun _ sub => sub.carried) = s.streams.sum (fun _ _ => 0) :=
    Table.sum_congr _ (fun i sub hi => by rw [Subscription.carried,h.2 i sub hi]; rfl)
  rw [underway,hpushes,hstreams]
  simp [Table.sum]

lemma Balanced.of_quiescent (h : s.Balanced receiver) (hq : s.Quiescent) :
    (s.accepted : Multiset Message) = s.delivered + (s.inbox receiver).items := by
  rw [h.total,hq.underway_eq_zero,add_zero]

/-- One round of a flush with a client that answers: the first message of the inbox is delivered. -/
lemma flush_one {m : Message} {rest : List Message} (hclient : s.client = true) (hflush : s.flushes ≠ 0)
    (hq : s.Quiescent) (hitems : (s.inbox receiver).items = m::rest) (hm : m.Settled) :
    ∃ trace t, Run (step receiver) s trace t ∧ (∀ e ∈ trace, e.source.Orderly e.label) ∧ t.client = true ∧
      t.flushes ≠ 0 ∧ t.Quiescent ∧ (t.inbox receiver).items = rest ∧ t.accepted = s.accepted := by
  have hfree : s.pushes.get 0 = none := by
    cases hp : s.pushes.get 0 with
    | none => rfl
    | some p => exact (hq.1 0 p hp).elim
  let s₁ : Mailbox := { s.setInbox receiver { s.inbox receiver with items := rest } with
    pushes := s.pushes.set 0 ⟨m,.flush,false⟩ }
  let s₂ : Mailbox := { s₁ with pushes := s₁.pushes.set 0 ⟨m,.flush,true⟩ }
  have hexp : ¬m.Expired 0 := by simp [Message.Expired,hm.expiresAt]
  have h₁ : s.step receiver (.flushPop 0 0 0) = some s₁ := by
    simp [step,hflush,hfree,PriorityQueue.popAt,hitems,hexp,s₁,setInbox]
  have h₂ : s₁.step receiver (.getClient 0) = some s₂ := by
    simp [step,s₁,s₂,getClient,setInbox,hclient]
  have h₃ : s₂.step receiver (.deliverMessage 0 true) = some (s₂.deliverMessage 0 ⟨m,.flush,true⟩ true) := by
    simp [step,s₂]
  refine ⟨_,_,.cons h₁ (.cons h₂ (.cons h₃ (.nil _))),?_,hclient,hflush,⟨fun i p hi => ?_,hq.2⟩,?_,rfl⟩
  · intro e he
    simp only [List.mem_cons,List.not_mem_nil,or_false] at he
    rcases he with rfl | rfl | rfl
    · trivial
    · exact fun _ _ _ => hclient
    · intro p hp
      obtain rfl : p = ⟨m,.flush,true⟩ := Option.some.inj (hp.symm.trans (Table.get_set_self _ _ _))
      simp
  · obtain ⟨h0,hi⟩ := Table.get_erase_some hi
    rcases Table.get_set_some hi with ⟨rfl,-⟩ | ⟨-,hi⟩
    · exact h0 rfl
    · rcases Table.get_set_some hi with ⟨rfl,-⟩ | ⟨-,hi⟩
      · exact h0 rfl
      · exact hq.1 i p hi
  · change ((s.setInbox receiver { s.inbox receiver with items := rest }).inbox receiver).items = rest
    rw [inbox_setInbox]

/-- A flush with a client that answers empties the inbox. -/
lemma flush_all (items : List Message) (hsettled : ∀ m ∈ items, m.Settled) (hclient : s.client = true)
    (hflush : s.flushes ≠ 0) (hq : s.Quiescent) (hitems : (s.inbox receiver).items = items) :
    ∃ trace t, Run (step receiver) s trace t ∧ (∀ e ∈ trace, e.source.Orderly e.label) ∧ t.Quiescent ∧
      (t.inbox receiver).items = [] ∧ t.accepted = s.accepted := by
  induction items generalizing s with
  | nil => exact ⟨[],s,.nil s,by simp,hq,hitems,rfl⟩
  | cons m rest ih =>
    obtain ⟨first,u,hrun,hops,hu,hf,hqu,hrest,hacc⟩ :=
      flush_one hclient hflush hq hitems (hsettled m (by simp))
    obtain ⟨others,t,hrun',hops',hqt,hempty,hacc'⟩ := ih (fun m hm => hsettled m (by simp [hm])) hu hf hqu hrest
    refine ⟨first++others,t,hrun.append hrun',fun e he => ?_,hqt,hempty,hacc'.trans hacc⟩
    rcases List.mem_append.mp he with he | he
    · exact hops e he
    · exact hops' e he

/-- If nothing is delivered by the push of a routed message, and whatever is taken out of the inbox
reaches the receiver, then nothing is delivered twice, the inbox holds what has not been delivered,
and a flush delivers it. -/
theorem exactly_once_of_run {trace : List (Transition Mailbox MailboxOp)}
    (run : Run (step receiver) start trace s) (hops : ∀ e ∈ trace, e.source.Orderly e.label) :
    (s.delivered : Multiset Message) ≤ s.accepted ∧
    (s.Quiescent → (s.accepted : Multiset Message) = s.delivered + (s.inbox receiver).items) ∧
    (s.Quiescent → s.client = true → ∃ trace' t, Run (step receiver) s trace' t ∧
      (∀ e ∈ trace', e.source.Orderly e.label) ∧ t.accepted = s.accepted ∧
      (t.delivered : Multiset Message) = s.accepted) := by
  have hinv : ∀ (s : Mailbox) (op : MailboxOp) (t : Mailbox), s.Balanced receiver → s.Orderly op →
      s.step receiver op = some t → t.Balanced receiver := fun s op t h hop hs => balanced_step h hop hs
  have hs := (run.invariant_of_allowed hinv balanced_start hops).2
  refine ⟨?_,hs.of_quiescent,fun hq hclient => ?_⟩
  · rw [hs.total,add_assoc]
    exact Multiset.le_add_right _ _
  · have hbegin : s.step receiver .flushInbox = some { s with flushes := s.flushes+1 } := rfl
    obtain ⟨trace',t,hrun,hops',hqt,hempty,hacc⟩ :=
      flush_all (s := { s with flushes := s.flushes+1 }) (s.inbox receiver).items hs.settled hclient
        (Nat.succ_ne_zero _) hq rfl
    have hops'' : ∀ e ∈ (⟨s,.flushInbox,{ s with flushes := s.flushes+1 }⟩ : Transition Mailbox MailboxOp)::trace',
        e.source.Orderly e.label := by
      intro e he
      rcases List.mem_cons.mp he with rfl | he
      · trivial
      · exact hops' e he
    have ht := ((Run.cons hbegin hrun).invariant_of_allowed hinv hs hops'').2.of_quiescent hqt
    rw [hempty,Multiset.coe_nil,add_zero,hacc] at ht
    exact ⟨_,t,.cons hbegin hrun,hops'',hacc,ht.symm⟩

/-- The kernel and an agent below it, for examples. -/
def kernelAndAgent : Registry :=
  (Registry.new.spawnKernel 0 "king" "root" "vps1").2.register 0
    (Registry.child { parentPID := 1, name := "queen", role := .agent, cognitiveTier := .tactical } none)

def greeting : Message := { fromPID := 1, fromName := "king", toPID := 2, type := "cron_task" }

/-- The message comes before the agent is ready, and is flushed later. -/
def flushLater : List MailboxOp :=
  [.route 0 kernelAndAgent 0 greeting,.getClient 0,.setClient true,.flushInbox,.flushPop 0 1 0,.getClient 0,
    .deliverMessage 0 true,.flushEnd]

theorem exactly_once_of_run_flushLater :
    ∃ s, exec (step 2) flushLater start = some s ∧ s.accepted.length = 1 ∧ s.Quiescent ∧
      (s.accepted : Multiset Message) = s.delivered + (s.inbox 2).items := by
  obtain ⟨s,hs,hlength,hq⟩ : ∃ s, exec (step 2) flushLater start = some s ∧ s.accepted.length = 1 ∧
      s.Quiescent := ⟨_,rfl,rfl,by decide⟩
  exact ⟨s,hs,hlength,hq,(exactly_once_of_run (.of_exec hs) (by decide)).2.1 hq⟩

/-- The agent is ready and gets the message at once, and the message stays in the inbox. -/
theorem delivered_stays_in_inbox : ¬ ∀ (receiver : ℕ) (trace : List (Transition Mailbox MailboxOp))
    (s : Mailbox), Run (step receiver) start trace s →
    (s.delivered : Multiset Message) ≤ s.accepted ∧
    (s.Quiescent → (s.accepted : Multiset Message) = s.delivered + (s.inbox receiver).items) := by
  intro h
  let ops : List MailboxOp := [.setClient true,.route 0 kernelAndAgent 0 greeting,.getClient 0,
    .deliverMessage 0 true]
  obtain ⟨s,hs,hq,haccepted,hdelivered,hitems⟩ : ∃ s, exec (step 2) ops start = some s ∧ s.Quiescent ∧
      s.accepted.length = 1 ∧ s.delivered.length = 1 ∧ (s.inbox 2).items.length = 1 :=
    ⟨_,rfl,by decide,rfl,rfl,rfl⟩
  have hcard := congrArg Multiset.card ((h 2 _ s (.of_exec hs)).2 hq)
  rw [Multiset.card_add,Multiset.coe_card,Multiset.coe_card,Multiset.coe_card,haccepted,hdelivered,
    hitems] at hcard
  omega

end Mailbox
end HiveKernel
