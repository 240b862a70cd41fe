import HiveKernel.Ipc.Routing

/-! Messages, their queues and the broker that routes them. A queue hands out the message with the
lowest effective priority, a floating point number that falls with age; here a queue is the list of
what is in it, and whoever takes from it says which message came first. -/
namespace HiveKernel
open Lib

def priorityCritical : ℤ := 0
def priorityHigh : ℤ := 1
def priorityNormal : ℤ := 2
def priorityLow : ℤ := 3

/-- A message. The zero time of the source is `none`. -/
structure Message where
  id : String := ""
  fromPID : ℕ
  fromName : String := ""
  toPID : ℕ := 0
  toQueue : String := ""
  type : String
  priority : ℤ := 0
  payload : List UInt8 := []
  requiresAck : Bool := false
  replyTo : String := ""
  ttl : ℤ := 0
  enqueuedAt : Option ℤ := none
  expiresAt : Option ℤ := none
  deriving DecidableEq, Repr

def Message.Expired (m : Message) (now : ℤ) : Prop := ∃ t ∈ m.expiresAt, t < now

instance (m : Message) (now : ℤ) : Decidable (m.Expired now) :=
  inferInstanceAs (Decidable (∃ t ∈ m.expiresAt, t < now))

/-- A message that has been in a queue; it stays as it is when it is put back. -/
structure Message.Stamped (m : Message) : Prop where
  enqueued : m.enqueuedAt.isSome
  expires : 0 < m.ttl → m.expiresAt.isSome
  named : m.id ≠ ""

structure PriorityQueue where
  items : List Message
  nextID : ℕ
  deriving DecidableEq

namespace PriorityQueue

def new : PriorityQueue := ⟨[],0⟩

/-- A message as it enters a queue: stamped, with an expiry if it has a time to live, and with a
number if it has no name. -/
def stamp (q : PriorityQueue) (now : ℤ) (msg : Message) : Message :=
  let enqueuedAt := msg.enqueuedAt.getD now
  { msg with
    enqueuedAt := some enqueuedAt
    expiresAt := if 0 < msg.ttl ∧ msg.expiresAt = none then some (enqueuedAt+msg.ttl) else msg.expiresAt
    id := if msg.id = "" then s!"msg-{q.nextID+1}" else msg.id }

lemma stamped_stamp (q : PriorityQueue) (now : ℤ) (m : Message) : (q.stamp now m).Stamped where
  enqueued := rfl
  expires := by
    intro httl
    simp only [stamp] at httl ⊢
    split_ifs with hexp
    · rfl
    · rw [Option.isSome_iff_ne_none]
      exact fun hnone => hexp ⟨httl,hnone⟩
  named := by
    simp only [stamp]
    split_ifs with h
    · intro he
      have hlen := congrArg String.length he
      simp at hlen
    · exact h

lemma stamp_of_stamped (q : PriorityQueue) (now : ℤ) {m : Message} (h : m.Stamped) : q.stamp now m = m := by
  obtain ⟨time,htime⟩ := Option.isSome_iff_exists.mp h.enqueued
  have hexp : ¬(0 < m.ttl ∧ m.expiresAt = none) := by
    rintro ⟨httl,hnone⟩
    have hsome := h.expires httl
    rw [hnone] at hsome
    cases hsome
  simp only [stamp,htime,Option.getD_some,if_neg hexp,if_neg h.named]
  rw [← htime]

/-- Add a message. The caller sees the stamped one afterwards. -/
def push (q : PriorityQueue) (now : ℤ) (msg : Message) : Message × PriorityQueue :=
  let stamped := q.stamp now msg
  (stamped,⟨stamped::q.items,if msg.id = "" then q.nextID+1 else q.nextID⟩)

/-- Take a message out. The loop of `Pop` goes on if it is expired. -/
def popAt (q : PriorityQueue) (i : ℕ) : Option (Message × PriorityQueue) :=
  q.items[i]?.map fun msg => (msg,{ q with items := q.items.eraseIdx i })

end PriorityQueue

/-- How the sender is related to the receiver. -/
inductive Relationship
  | system | parent | sibling | child | other
  deriving DecidableEq, Repr

def basePriorityForRelation : Relationship → ℤ
  | .system => priorityCritical
  | .parent => priorityHigh
  | .sibling => priorityNormal
  | .child => priorityLow
  | .other => priorityLow

def determineRelationship (r : Registry) (fromPID toPID : ℕ) : Relationship :=
  match r.get fromPID,r.get toPID with
  | some sender,some receiver =>
    if sender.role = .kernel then .system
    else if receiver.ppid = fromPID then .parent
    else if sender.ppid = toPID then .child
    else if sender.ppid = receiver.ppid ∧ sender.ppid ≠ 0 then .sibling
    else .other
  | _,_ => .other

/-- The more urgent of the two. -/
def computeEffectivePriority (explicitPriority : ℤ) (rel : Relationship) : ℤ :=
  let relPriority := basePriorityForRelation rel
  if relPriority < explicitPriority then relPriority else explicitPriority

structure Broker where
  inboxes : Table ℕ PriorityQueue
  queues : Table String PriorityQueue

namespace Broker

def new : Broker := ⟨.empty,.empty⟩

/-- The inbox of a process; there is one as soon as anybody asks. -/
def getInbox (b : Broker) (pid : ℕ) : PriorityQueue := (b.inboxes.get pid).getD .new

/-- `GetInbox` for a process that has none: the inbox is there afterwards. -/
def openInbox (b : Broker) (pid : ℕ) : Broker := { b with inboxes := b.inboxes.set pid (b.getInbox pid) }

/-- Clean up when a process dies. -/
def removeInbox (b : Broker) (pid : ℕ) : Broker := { b with inboxes := b.inboxes.erase pid }

def getNamedQueue (b : Broker) (name : String) : PriorityQueue := (b.queues.get name).getD .new

def pushInbox (b : Broker) (now : ℤ) (pid : ℕ) (msg : Message) : Message × Broker :=
  let (stamped,q) := (b.getInbox pid).push now msg
  (stamped,{ b with inboxes := b.inboxes.set pid q })

def pushNamedQueue (b : Broker) (now : ℤ) (name : String) (msg : Message) : Message × Broker :=
  let (stamped,q) := (b.getNamedQueue name).push now msg
  (stamped,{ b with queues := b.queues.set name q })

def validateRoute (r : Registry) (msg : Message) : Except String Unit :=
  if msg.toPID = 0 ∧ msg.toQueue = "" then .error "no target specified"
  else if msg.toQueue ≠ "" then .ok ()
  else match r.get msg.fromPID with
    | none => .error s!"sender PID {msg.fromPID} not found"
    | some sender => match r.get msg.toPID with
      | none => .error s!"receiver PID {msg.toPID} not found"
      | some _ =>
        if sender.role = .task ∧ sender.ppid ≠ msg.toPID then
          .error s!"task (PID {msg.fromPID}) can only send to its parent (PID {sender.ppid}), not PID {msg.toPID}"
        else .ok ()

/-- The parent of two siblings sees what they write to each other. -/
def deliverToParentCopy (b : Broker) (r : Registry) (now : ℤ) (msg : Message) : Broker :=
  match r.get msg.fromPID with
  | none => b
  | some sender => (b.pushInbox now sender.ppid
      { fromPID := msg.fromPID
        fromName := msg.fromName
        toPID := msg.toPID
        toQueue := msg.toQueue
        type := "sibling_traffic:" ++ msg.type
        priority := priorityLow
        payload := msg.payload
        requiresAck := false
        replyTo := msg.replyTo }).2

/-- The last part of a direct delivery, once the route is known. -/
def deliver (b : Broker) (r : Registry) (now : ℤ) (route : RouteType) (msg : Message) : Message × Broker :=
  let b := if route = .sibling then b.deliverToParentCopy r now msg else b
  b.pushInbox now msg.toPID msg

/-- Validate, compute the priority and deliver. Returns the message as its sender sees it
afterwards; there is no answer if the search for a common ancestor does not end. A direct delivery
also starts a push to the runtime of the receiver. -/
def route (b : Broker) (r : Registry) (now : ℤ) (msg : Message) : Option (Except String Message × Broker) :=
  match validateRoute r msg with
  | .error e => some (.error e,b)
  | .ok _ =>
    let rel := determineRelationship r msg.fromPID msg.toPID
    let msg := { msg with priority := computeEffectivePriority msg.priority rel }
    if msg.toQueue ≠ "" then
      let (stamped,b) := b.pushNamedQueue now msg.toQueue msg
      some (.ok stamped,b)
    else if msg.toPID ≠ 0 then
      (r.findRoute r.nextPID msg.fromPID msg.toPID).map fun
        | .error e => (.error e,b)
        | .ok route =>
          let (stamped,b) := b.deliver r now route msg
          (.ok stamped,b)
    else some (.error "message has no target (to_pid=0, to_queue empty)",b)

variable {b b' : Broker} {r : Registry} {now : ℤ} {msg stamped : Message}

/-- The message as it is delivered. -/
def prioritized (r : Registry) (msg : Message) : Message :=
  { msg with
    priority := computeEffectivePriority msg.priority (determineRelationship r msg.fromPID msg.toPID) }

/-- Every way a route can go: refused, into a named queue, or to a process. -/
theorem route_cases {result : Except String Message} (h : b.route r now msg = some (result,b')) :
    (∃ e, result = .error e ∧ b' = b) ∨
    (validateRoute r msg = .ok () ∧ msg.toQueue ≠ "" ∧
      result = .ok (b.pushNamedQueue now msg.toQueue (prioritized r msg)).1 ∧
      b' = (b.pushNamedQueue now msg.toQueue (prioritized r msg)).2) ∨
    ∃ kind, validateRoute r msg = .ok () ∧ msg.toQueue = "" ∧
      r.findRoute r.nextPID msg.fromPID msg.toPID = some (.ok kind) ∧
      result = .ok (b.deliver r now kind (prioritized r msg)).1 ∧
      b' = (b.deliver r now kind (prioritized r msg)).2 := by
  unfold route at h
  cases hv : validateRoute r msg with
  | error e =>
    simp only [hv] at h
    cases h
    exact .inl ⟨e,rfl,rfl⟩
  | ok u =>
    simp only [hv] at h
    by_cases hqueue : msg.toQueue ≠ ""
    · rw [if_pos hqueue] at h
      cases h
      exact .inr (.inl ⟨rfl,hqueue,rfl,rfl⟩)
    · rw [if_neg hqueue] at h
      split_ifs at h with hpid
      · obtain ⟨found,hfound,hres⟩ := Option.map_eq_some_iff.mp h
        cases found with
        | error e =>
          cases hres
          exact .inl ⟨e,rfl,rfl⟩
        | ok kind =>
          cases hres
          exact .inr (.inr ⟨kind,rfl,not_not.mp hqueue,hfound,rfl,rfl⟩)
      · cases h
        exact .inl ⟨_,rfl,rfl⟩

@[simp] lemma getInbox_set (b : Broker) (pid : ℕ) (q : PriorityQueue) (j : ℕ) :
    ({ b with inboxes := b.inboxes.set pid q } : Broker).getInbox j = if j = pid then q else b.getInbox j := by
  simp only [getInbox,Table.get_set]
  split_ifs <;> rfl

/-- What the parent of two siblings gets to see of a message. -/
def parentCopy (msg : Message) : Message where
  fromPID := msg.fromPID
  fromName := msg.fromName
  toPID := msg.toPID
  toQueue := msg.toQueue
  type := "sibling_traffic:" ++ msg.type
  priority := priorityLow
  payload := msg.payload
  requiresAck := false
  replyTo := msg.replyTo

lemma deliverToParentCopy_eq {sender : Process} (hs : r.get msg.fromPID = some sender) :
    b.deliverToParentCopy r now msg = (b.pushInbox now sender.ppid (parentCopy msg)).2 := by
  simp only [deliverToParentCopy,hs]
  rfl

lemma getInbox_deliverToParentCopy {sender : Process} {j : ℕ} (hs : r.get msg.fromPID = some sender)
    (hj : j ≠ sender.ppid) : (b.deliverToParentCopy r now msg).getInbox j = b.getInbox j := by
  rw [deliverToParentCopy_eq hs,pushInbox,getInbox_set,if_neg hj]

/-- A copy for the parent of two siblings does not go to the receiver. -/
lemma inbox_of_deliver (b : Broker) (now : ℤ) (msg : Message) {fuel : ℕ} {route : RouteType}
    (h : r.findRoute fuel msg.fromPID msg.toPID = some (.ok route)) :
    (b.deliver r now route msg).1 = (b.getInbox msg.toPID).stamp now msg ∧
      ((b.deliver r now route msg).2.getInbox msg.toPID).items =
        (b.getInbox msg.toPID).stamp now msg::(b.getInbox msg.toPID).items := by
  have hsame : (if route = .sibling then b.deliverToParentCopy r now msg else b).getInbox msg.toPID =
      b.getInbox msg.toPID := by
    split_ifs with hsib
    · obtain ⟨sender,receiver,hs,-,hne⟩ := Registry.findRoute_ok h
      exact getInbox_deliverToParentCopy hs (hne hsib).2
    · rfl
  simp only [deliver,pushInbox,getInbox_set,hsame]
  exact ⟨rfl,rfl⟩

/-- An accepted direct message is in the inbox of its receiver, and that is all that has changed
there. -/
theorem inbox_of_route (hdirect : msg.toQueue = "") (h : b.route r now msg = some (.ok stamped,b')) :
    ∃ priority, stamped = (b.getInbox msg.toPID).stamp now { msg with priority := priority } ∧
      (b'.getInbox msg.toPID).items = stamped::(b.getInbox msg.toPID).items := by
  rcases route_cases h with ⟨e,he,-⟩ | ⟨-,hqueue,-⟩ | ⟨kind,-,-,hfound,hres,rfl⟩
  · cases he
  · exact absurd hdirect hqueue
  · obtain ⟨hstamped,hitems⟩ := inbox_of_deliver b now (prioritized r msg) hfound
    cases hres
    refine ⟨_,hstamped,?_⟩
    rw [hstamped]
    exact hitems

/-- A refused message changes nothing. -/
theorem broker_of_route_error {e : String} (h : b.route r now msg = some (.error e,b')) : b' = b := by
  rcases route_cases h with ⟨-,-,hb⟩ | ⟨-,-,hres,-⟩ | ⟨kind,-,-,-,hres,-⟩
  · exact hb
  · cases hres
  · cases hres

lemma inbox_opened_by_deliver {kind : RouteType} {pid : ℕ} (hpid : b.inboxes.get pid = none)
    (hopen : ((b.deliver r now kind msg).2.inboxes.get pid).isSome) :
    pid = msg.toPID ∨ (kind = .sibling ∧ ∃ sender, r.get msg.fromPID = some sender ∧ pid = sender.ppid) := by
  have hclosed : (b.inboxes.get pid).isSome → False := by
    rw [hpid]
    exact Bool.noConfusion
  by_cases heq : pid = msg.toPID
  · exact .inl heq
  · simp only [deliver,pushInbox,Table.get_set,if_neg heq] at hopen
    by_cases hkind : kind = .sibling
    · refine .inr ⟨hkind,?_⟩
      rw [if_pos hkind] at hopen
      unfold deliverToParentCopy at hopen
      cases hs : r.get msg.fromPID with
      | none =>
        simp only [hs] at hopen
        exact (hclosed hopen).elim
      | some sender =>
        simp only [hs,pushInbox,Table.get_set] at hopen
        split_ifs at hopen with hparent
        · exact ⟨sender,rfl,hparent⟩
        · exact (hclosed hopen).elim
    · rw [if_neg hkind] at hopen
      exact (hclosed hopen).elim

/-- A routed message opens an inbox for its receiver, and for the parent of two siblings. -/
theorem inbox_opened_by_route {result : Except String Message} {pid : ℕ}
    (h : b.route r now msg = some (result,b')) (hpid : b.inboxes.get pid = none)
    (hopen : (b'.inboxes.get pid).isSome) :
    ∃ sender receiver, r.get msg.fromPID = some sender ∧ r.get msg.toPID = some receiver ∧
      (pid = msg.toPID ∨ (pid = sender.ppid ∧ sender.ppid = receiver.ppid)) := by
  rcases route_cases h with ⟨e,-,rfl⟩ | ⟨-,-,-,rfl⟩ | ⟨kind,-,-,hfound,-,rfl⟩
  · rw [hpid] at hopen
    cases hopen
  · rw [show ((b.pushNamedQueue now msg.toQueue _).2).inboxes = b.inboxes from rfl,hpid] at hopen
    cases hopen
  · obtain ⟨sender,receiver,hs,hr,hsib⟩ := Registry.findRoute_ok hfound
    refine ⟨sender,receiver,hs,hr,?_⟩
    rcases inbox_opened_by_deliver hpid hopen with heq | ⟨hkind,sender',hs',heq⟩
    · exact .inl heq
    · obtain rfl : sender = sender' := Option.some.inj (hs.symm.trans hs')
      exact .inr ⟨heq,(hsib hkind).1⟩

/-- An identifier as the queues make them. -/
def Generated (id : String) : Prop := ∃ n : ℕ, id = s!"msg-{n}"

lemma generated_stamp (q : PriorityQueue) (now : ℤ) (hid : msg.id = "" ∨ Generated msg.id) :
    Generated (q.stamp now msg).id := by
  simp only [PriorityQueue.stamp]
  split_ifs with hempty
  · exact ⟨q.nextID+1,rfl⟩
  · exact hid.resolve_left hempty

/-- A push adds the stamped message to one inbox. -/
lemma mem_of_pushInbox {pid j : ℕ} {m : Message} (hm : m ∈ ((b.pushInbox now j msg).2.getInbox pid).items) :
    m ∈ (b.getInbox pid).items ∨ m = (b.getInbox j).stamp now msg := by
  simp only [pushInbox,getInbox_set] at hm
  split_ifs at hm with heq
  · rcases List.mem_cons.mp hm with rfl | hm
    · exact .inr rfl
    · rw [heq]
      exact .inl hm
  · exact .inl hm

/-- Every message that a route puts into an inbox has an identifier made by a queue, unless it came with
another one. -/
theorem generated_of_route {result : Except String Message} {pid : ℕ} {m : Message}
    (hid : msg.id = "" ∨ Generated msg.id) (h : b.route r now msg = some (result,b'))
    (hm : m ∈ (b'.getInbox pid).items) : m ∈ (b.getInbox pid).items ∨ Generated m.id := by
  have hcopy : ∀ {m}, m ∈ ((b.deliverToParentCopy r now (prioritized r msg)).getInbox pid).items →
      m ∈ (b.getInbox pid).items ∨ Generated m.id := by
    intro m hm
    unfold deliverToParentCopy at hm
    split at hm
    · exact .inl hm
    · rcases mem_of_pushInbox hm with hm | rfl
      · exact .inl hm
      · exact .inr (generated_stamp _ now (.inl rfl))
  rcases route_cases h with ⟨e,-,rfl⟩ | ⟨-,-,-,rfl⟩ | ⟨kind,-,-,-,-,rfl⟩
  · exact .inl hm
  · exact .inl hm
  · rcases mem_of_pushInbox hm with hm | rfl
    · split_ifs at hm
      · exact hcopy hm
      · exact .inl hm
    · exact .inr (generated_stamp _ now hid)

@[simp] lemma getNamedQueue_set (b : Broker) (name : String) (q : PriorityQueue) (other : String) :
    ({ b with queues := b.queues.set name q } : Broker).getNamedQueue other =
      if other = name then q else b.getNamedQueue other := by
  simp only [getNamedQueue,Table.get_set]
  split_ifs <;> rfl

/-- An accepted message of a task that names no queue goes to its parent. -/
lemma toPID_of_validateRoute {sender : Process} (hs : r.get msg.fromPID = some sender)
    (hrole : sender.role = .task) (hdirect : msg.toQueue = "") (h : validateRoute r msg = .ok ()) :
    msg.toPID = sender.ppid := by
  unfold validateRoute at h
  by_contra hne
  have hconfined : sender.role = .task ∧ sender.ppid ≠ msg.toPID := ⟨hrole,Ne.symm hne⟩
  simp only [hdirect,hs,ne_eq,not_true_eq_false,if_false,and_true] at h
  split_ifs at h
  split at h
  · cases h
  · cases h

/-- What an accepted message of a task adds to: the inbox of its parent and nothing else, unless it names
a queue; then that queue and nothing else. -/
theorem grows_of_task_route {sender : Process} (hs : r.get msg.fromPID = some sender)
    (hrole : sender.role = .task) (h : b.route r now msg = some (.ok stamped,b')) :
    (msg.toQueue = "" →
      (b'.getInbox sender.ppid).items = stamped::(b.getInbox sender.ppid).items ∧
      (∀ pid, pid ≠ sender.ppid → b'.getInbox pid = b.getInbox pid) ∧
      ∀ name, b'.getNamedQueue name = b.getNamedQueue name) ∧
    (msg.toQueue ≠ "" →
      (b'.getNamedQueue msg.toQueue).items = stamped::(b.getNamedQueue msg.toQueue).items ∧
      (∀ name, name ≠ msg.toQueue → b'.getNamedQueue name = b.getNamedQueue name) ∧
      ∀ pid, b'.getInbox pid = b.getInbox pid) := by
  rcases route_cases h with ⟨e,he,-⟩ | ⟨-,hqueue,hres,rfl⟩ | ⟨kind,hv,hdirect,hfound,hres,rfl⟩
  · cases he
  · cases hres
    refine ⟨fun hdirect => absurd hdirect hqueue,fun _ => ⟨?_,fun name hne => ?_,fun pid => rfl⟩⟩
    · simp only [pushNamedQueue,getNamedQueue_set,if_true]
      rfl
    · simp only [pushNamedQueue,getNamedQueue_set,if_neg hne]
  · refine ⟨fun _ => ?_,fun hqueue => absurd hdirect hqueue⟩
    have hto := toPID_of_validateRoute hs hrole hdirect hv
    have hkind : kind ≠ .sibling := by
      intro hsib
      obtain ⟨sender',receiver,hs',-,hne⟩ := Registry.findRoute_ok hfound
      cases hs.symm.trans hs'
      exact (hne hsib).2 hto
    have hdeliver : b.deliver r now kind (prioritized r msg) =
        b.pushInbox now sender.ppid (prioritized r msg) := by
      simp only [deliver,if_neg hkind]
      rw [← hto]
      rfl
    rw [hdeliver] at hres ⊢
    cases hres
    refine ⟨?_,fun pid hne => ?_,fun name => rfl⟩
    · simp only [pushInbox,getInbox_set,if_true]
      rfl
    · simp only [pushInbox,getInbox_set,if_neg hne]

/-- A king and a task, PID 2. -/
def errand : Registry :=
  (Registry.treeStep (Registry.boot 0 "king" "root" "vps1")
    (.spawn 0 { Registry.agentRequest 1 "errand" .task with cognitiveTier := .operational })).getD .new

theorem grows_of_task_route_toParent : ∃ sender stamped b',
    errand.get 2 = some sender ∧ sender.role = .task ∧
    Broker.new.route errand 0 { fromPID := 2, toPID := 1, type := "done" } = some (.ok stamped,b') ∧
    (b'.getInbox sender.ppid).items = [stamped] ∧ (∀ pid, pid ≠ sender.ppid → b'.getInbox pid = .new) ∧
    ∀ name, b'.getNamedQueue name = .new := by
  obtain ⟨sender,stamped,b',hs,hrole,hroute⟩ : ∃ sender stamped b', errand.get 2 = some sender ∧
      sender.role = .task ∧
      Broker.new.route errand 0 { fromPID := 2, toPID := 1, type := "done" } = some (.ok stamped,b') :=
    ⟨_,_,_,rfl,rfl,rfl⟩
  obtain ⟨hparent,hothers,hnamed⟩ := (grows_of_task_route hs hrole hroute).1 rfl
  exact ⟨sender,stamped,b',hs,hrole,hroute,hparent,hothers,hnamed⟩

/-- A task writes to a named queue, which its parent does not own. -/
theorem task_reaches_named_queue : ¬∀ (r : Registry) (b b' : Broker) (now : ℤ) (msg stamped : Message)
    (sender : Process), r.get msg.fromPID = some sender → sender.role = .task →
      b.route r now msg = some (.ok stamped,b') →
        ∀ name, (b'.getNamedQueue name).items.length ≤ (b.getNamedQueue name).items.length := by
  intro h
  obtain ⟨sender,stamped,b',hs,hrole,hroute,hlen⟩ : ∃ sender stamped b', errand.get 2 = some sender ∧
      sender.role = .task ∧
      Broker.new.route errand 0 { fromPID := 2, toQueue := "results", type := "data" } =
        some (.ok stamped,b') ∧ (b'.getNamedQueue "results").items.length = 1 :=
    ⟨_,_,_,rfl,rfl,rfl,rfl⟩
  have hle := h errand .new b' 0 _ stamped sender hs hrole hroute "results"
  have hempty : (Broker.new.getNamedQueue "results").items.length = 0 := rfl
  omega

end Broker
end HiveKernel
