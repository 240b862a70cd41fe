import HiveKernel.Ipc.Broker
import HiveKernel.Lib.Run

/-! Requests and replies of the agents. A request carries an identifier of its caller's in `reply_to`,
while the kernel gives the message an identifier of its own. The reply helper answers with the second
one, and the caller waits for the first. -/
namespace HiveKernel
open Lib

def hexDigits : List Char := "0123456789abcdef".toList

/-- The characters that may stand at each place of a version 4 UUID as text. -/
def uuidShape : List (List Char) :=
  let hex := fun n => List.replicate n hexDigits
  hex 8++[['-']]++hex 4++[['-'],['4']]++hex 3++[['-'],"89ab".toList]++hex 3++[['-']]++hex 12

/-- What `str(uuid.uuid4())` returns. -/
def IsUUID (id : String) : Prop := List.Forall₂ (fun c allowed => c ∈ allowed) id.toList uuidShape

instance (id : String) : Decidable (IsUUID id) :=
  inferInstanceAs (Decidable (List.Forall₂ (fun c allowed => c ∈ allowed) id.toList uuidShape))

/-- The identifiers of the queues begin with a letter that is no digit. -/
lemma not_isUUID_of_generated {id : String} (h : Broker.Generated id) : ¬IsUUID id := by
  obtain ⟨n,rfl⟩ := h
  intro hid
  have hchars : (s!"msg-{n}" : String).toList = 'm'::("sg-".toList++(toString n).toList) := by
    change ("msg-"++toString n).toList = _
    rw [String.toList_append]
    rfl
  unfold IsUUID at hid
  rw [hchars] at hid
  cases hid with
  | cons hfirst _ => exact absurd hfirst (by decide)

/-- What an agent keeps about its requests: the futures by identifier, and the mailbox for answers that
nobody waits for. -/
structure AgentInbox where
  pendingRequests : Table String ℕ
  pendingResults : List Message

inductive Future
  | waiting
  | resolved (msg : Message)
  | cancelled
  deriving DecidableEq

structure WaitingCall where
  pid : ℕ
  requestID : String

/-- The agents and the broker. Which message a call has sent and which message a reply answers is
recorded for the statements; no step looks at that. -/
structure Exchange where
  broker : Broker
  agents : Table ℕ AgentInbox
  calls : Table ℕ WaitingCall
  futures : Table ℕ Future
  handled : List (ℕ × Message)
  requests : Table ℕ Message
  replies : List (Message × Message)

/-- A step: a call of `send_and_wait` or `send_and_wait_core` registers its future, then sends its
message; a message is answered with `reply_to`; any other message is sent, by a process that has its
number already if it comes from the inbox of the kernel; a message is delivered; a call times out; the
mailbox is emptied. -/
inductive AgentOp
  | sendAndWait (i pid : ℕ) (requestID : String)
  | send (i : ℕ) (registry : Registry) (now : ℤ) (toPID : ℕ) (type : String) (payload : List UInt8)
  | replyTo (pid : ℕ) (original : Message) (registry : Registry) (now : ℤ) (payload : List UInt8)
      (type : String)
  | sendMessage (registry : Registry) (now : ℤ) (number : Option ℕ) (msg : Message)
  | deliver (pid : ℕ) (msg : Message)
  | timeout (i : ℕ)
  | drainPendingResults (pid : ℕ)

namespace Exchange

def start : Exchange := ⟨.new,.empty,.empty,.empty,[],.empty,[]⟩

def getAgent (x : Exchange) (pid : ℕ) : AgentInbox := (x.agents.get pid).getD ⟨.empty,[]⟩

def setAgent (x : Exchange) (pid : ℕ) (agent : AgentInbox) : Exchange :=
  { x with agents := x.agents.set pid agent }

/-- Send a message of the agent; the kernel fills in its name. -/
def outgoing (registry : Registry) (pid toPID : ℕ) (type : String) (payload : List UInt8) (replyTo : String) :
    Message where
  fromPID := pid
  fromName := ((registry.get pid).map Process.name).getD ""
  toPID := toPID
  type := type
  priority := priorityNormal
  payload := payload
  replyTo := replyTo

/-- The handler of incoming messages. The payload of a cron task is rewritten before it is handled, which
nothing here depends on. -/
def onMessage (x : Exchange) (pid : ℕ) (msg : Message) : Exchange :=
  let agent := x.getAgent pid
  match (if msg.replyTo = "" then none else agent.pendingRequests.get msg.replyTo) with
  | some fut =>
    let x := x.setAgent pid { agent with pendingRequests := agent.pendingRequests.erase msg.replyTo }
    if x.futures.get fut = some .waiting then { x with futures := x.futures.set fut (.resolved msg) } else x
  | none =>
    if msg.type = "task_response" ∧ msg.replyTo ≠ "" then
      x.setAgent pid { agent with pendingResults := agent.pendingResults++[msg] }
    else { x with handled := (pid,msg)::x.handled }

def step (x : Exchange) : AgentOp → Option Exchange
  | .sendAndWait i pid requestID =>
    if (x.calls.get i).isSome ∨ ¬IsUUID requestID then none
    else
      let agent := x.getAgent pid
      let x := x.setAgent pid { agent with pendingRequests := agent.pendingRequests.set requestID i }
      some { x with calls := x.calls.set i ⟨pid,requestID⟩, futures := x.futures.set i .waiting }
  | .send i registry now toPID type payload => match x.calls.get i with
    | none => none
    | some call =>
      if (x.requests.get i).isSome then none
      else (x.broker.route registry now
          (outgoing registry call.pid toPID type payload call.requestID)).map fun
        | (.error _,broker) => { x with broker := broker }
        | (.ok stamped,broker) => { x with broker := broker, requests := x.requests.set i stamped }
  | .replyTo pid original registry now payload type =>
    if (pid,original) ∈ x.handled ∨ original ∈ (x.getAgent pid).pendingResults then
      (x.broker.route registry now
          (outgoing registry pid original.fromPID type payload original.id)).map fun
        | (.error _,broker) => { x with broker := broker }
        | (.ok stamped,broker) => { x with broker := broker, replies := (stamped,original)::x.replies }
    else none
  | .sendMessage registry now number msg =>
    (x.broker.route registry now { msg with id := number.elim "" (fun n => s!"msg-{n}") }).map
      (fun o => { x with broker := o.2 })
  | .deliver pid msg =>
    -- messages reach their agent in any order, and more than once if they are pushed and flushed
    if msg ∈ (x.broker.getInbox pid).items then some (x.onMessage pid msg) else none
  | .timeout i => match x.calls.get i with
    | none => none
    | some call =>
      if x.futures.get i = some .waiting then
        let agent := x.getAgent call.pid
        let x := x.setAgent call.pid
          { agent with pendingRequests := agent.pendingRequests.erase call.requestID }
        some { x with futures := x.futures.set i .cancelled }
      else none
  | .drainPendingResults pid =>
    let agent := x.getAgent pid
    let x := x.setAgent pid { agent with pendingResults := [] }
    some { x with handled := agent.pendingResults.map (pid,·)++x.handled }

variable {x x' : Exchange} {op : AgentOp}

/-- Agents wait for identifiers that they have made, messages have identifiers that the queues have made,
and replies name the message that they answer. -/
structure Named (x : Exchange) : Prop where
  inboxes : ∀ pid, ∀ m ∈ (x.broker.getInbox pid).items, Broker.Generated m.id
  pending : ∀ pid id fut, (x.getAgent pid).pendingRequests.get id = some fut → IsUUID id
  results : ∀ pid, ∀ m ∈ (x.getAgent pid).pendingResults, Broker.Generated m.id
  handled : ∀ pid m, (pid,m) ∈ x.handled → Broker.Generated m.id
  replies : ∀ reply original, (reply,original) ∈ x.replies → Broker.Generated reply.replyTo

lemma getAgent_setAgent (x : Exchange) (pid j : ℕ) (agent : AgentInbox) :
    (x.setAgent pid agent).getAgent j = if j = pid then agent else x.getAgent j := by
  simp only [setAgent,getAgent,Table.get_set]
  split_ifs <;> rfl

lemma Named.setAgent (h : x.Named) (pid : ℕ) (agent : AgentInbox)
    (hpending : ∀ id fut, agent.pendingRequests.get id = some fut → IsUUID id)
    (hresults : ∀ m ∈ agent.pendingResults, Broker.Generated m.id) : (x.setAgent pid agent).Named := by
  refine ⟨h.inboxes,fun j => ?_,fun j => ?_,h.handled,h.replies⟩
  · rw [getAgent_setAgent]
    split_ifs
    · exact hpending
    · exact h.pending j
  · rw [getAgent_setAgent]
    split_ifs
    · exact hresults
    · exact h.results j

/-- The broker after a message was sent. -/
lemma Named.route (h : x.Named) {registry : Registry} {now : ℤ} {msg : Message} {broker : Broker}
    {result : Except String Message} (hid : msg.id = "" ∨ Broker.Generated msg.id)
    (hr : x.broker.route registry now msg = some (result,broker)) :
    ({ x with broker := broker } : Exchange).Named := by
  refine ⟨fun pid m hm => ?_,h.pending,h.results,h.handled,h.replies⟩
  rcases Broker.generated_of_route hid hr hm with hm | hm
  · exact h.inboxes pid m hm
  · exact hm

lemma Named.onMessage (h : x.Named) (pid : ℕ) {msg : Message} (hid : Broker.Generated msg.id) :
    (x.onMessage pid msg).Named := by
  unfold Exchange.onMessage
  simp only
  split
  next fut _ =>
    have hset := h.setAgent pid { x.getAgent pid with
        pendingRequests := (x.getAgent pid).pendingRequests.erase msg.replyTo }
      (fun id fut hf => h.pending pid id fut (Table.get_erase_some hf).2) (h.results pid)
    split_ifs
    · exact ⟨hset.inboxes,hset.pending,hset.results,hset.handled,hset.replies⟩
    · exact hset
  next =>
    split_ifs
    · refine h.setAgent pid { x.getAgent pid with
        pendingResults := (x.getAgent pid).pendingResults++[msg] } (h.pending pid) (fun m hm => ?_)
      rcases List.mem_append.mp hm with hm | hm
      · exact h.results pid m hm
      · rw [List.mem_singleton.mp hm]
        exact hid
    · refine ⟨h.inboxes,h.pending,h.results,fun j m hm => ?_,h.replies⟩
      rcases List.mem_cons.mp hm with heq | hm
      · cases heq
        exact hid
      · exact h.handled j m hm

/-- What is accepted keeps the identifier that it answers. -/
lemma replyTo_of_route {b b' : Broker} {r : Registry} {now : ℤ} {msg stamped : Message}
    (hdirect : msg.toQueue = "") (h : b.route r now msg = some (.ok stamped,b')) :
    stamped.replyTo = msg.replyTo := by
  obtain ⟨priority,rfl,-⟩ := Broker.inbox_of_route hdirect h
  rfl

theorem named_step (h : x.Named) (hs : x.step op = some x') : x'.Named := by
  cases op with
  | sendAndWait i pid requestID =>
    simp only [step] at hs
    split_ifs at hs with hguard
    cases hs
    have hset := h.setAgent pid { x.getAgent pid with
        pendingRequests := (x.getAgent pid).pendingRequests.set requestID i } (fun id fut hf => by
      rcases Table.get_set_some hf with ⟨rfl,-⟩ | ⟨-,hf⟩
      · exact not_not.mp (fun hno => hguard (.inr hno))
      · exact h.pending pid id fut hf) (h.results pid)
    exact ⟨hset.inboxes,hset.pending,hset.results,hset.handled,hset.replies⟩
  | send i registry now toPID type payload =>
    simp only [step] at hs
    split at hs
    · cases hs
    · split_ifs at hs
      obtain ⟨⟨result,broker⟩,hroute,rfl⟩ := Option.map_eq_some_iff.mp hs
      have hnamed := h.route (.inl rfl) hroute
      cases result with
      | error e => exact hnamed
      | ok stamped => exact ⟨hnamed.inboxes,hnamed.pending,hnamed.results,hnamed.handled,hnamed.replies⟩
  | replyTo pid original registry now payload type =>
    simp only [step] at hs
    split_ifs at hs with hreceived
    obtain ⟨⟨result,broker⟩,hroute,rfl⟩ := Option.map_eq_some_iff.mp hs
    have hnamed := h.route (.inl rfl) hroute
    cases result with
    | error e => exact hnamed
    | ok stamped =>
      refine ⟨hnamed.inboxes,hnamed.pending,hnamed.results,hnamed.handled,fun reply o hm => ?_⟩
      rcases List.mem_cons.mp hm with heq | hm
      · cases heq
        rw [replyTo_of_route rfl hroute]
        exact hreceived.elim (h.handled pid original) (h.results pid original)
      · exact h.replies reply o hm
  | sendMessage registry now number msg =>
    obtain ⟨⟨result,broker⟩,hroute,rfl⟩ := Option.map_eq_some_iff.mp hs
    refine h.route ?_ hroute
    cases number with
    | none => exact .inl rfl
    | some n => exact .inr ⟨n,rfl⟩
  | deliver pid msg =>
    simp only [step] at hs
    split_ifs at hs with hin
    cases hs
    exact h.onMessage pid (h.inboxes pid msg hin)
  | timeout i =>
    simp only [step] at hs
    split at hs
    · cases hs
    next call _ =>
      split_ifs at hs
      cases hs
      have hset := h.setAgent call.pid { x.getAgent call.pid with
          pendingRequests := (x.getAgent call.pid).pendingRequests.erase call.requestID }
        (fun id fut hf => h.pending call.pid id fut (Table.get_erase_some hf).2) (h.results call.pid)
      exact ⟨hset.inboxes,hset.pending,hset.results,hset.handled,hset.replies⟩
  | drainPendingResults pid =>
    cases hs
    have hset := h.setAgent pid { x.getAgent pid with pendingResults := [] } (h.pending pid)
      (fun m hm => by cases hm)
    refine ⟨hset.inboxes,hset.pending,hset.results,fun j m hm => ?_,hset.replies⟩
    rcases List.mem_append.mp hm with hm | hm
    · obtain ⟨m',hm',heq⟩ := List.mem_map.mp hm
      cases heq
      exact h.results pid m hm'
    · exact h.handled j m hm

lemma named_start : start.Named := by
  constructor
  · intro pid m hm
    cases hm
  · intro pid id fut hf
    cases hf
  · intro pid m hm
    cases hm
  · intro pid m hm
    cases hm
  · intro reply original hm
    cases hm

/-- The reply to the message of a call is delivered to the caller, who still waits. -/
structure Answers (e : Transition Exchange AgentOp) (i : ℕ) (reply : Message) : Prop where
  waiting : e.source.futures.get i = some .waiting
  reply : ∃ call original, e.source.calls.get i = some call ∧ e.source.requests.get i = some original ∧
    (reply,original) ∈ e.source.replies ∧ e.label = .deliver call.pid reply

/-- The future of the call, and no other, is resolved with this message. -/
def ResolvesExactly (e : Transition Exchange AgentOp) (i : ℕ) (reply : Message) : Prop :=
  e.target.futures.get i = some (.resolved reply) ∧
    ∀ j, j ≠ i → e.target.futures.get j = e.source.futures.get j

/-- A message that answers none of the pending requests resolves nothing. -/
lemma futures_onMessage {pid : ℕ} {msg : Message}
    (h : (x.getAgent pid).pendingRequests.get msg.replyTo = none) :
    (x.onMessage pid msg).futures = x.futures := by
  have hnone : (if msg.replyTo = "" then none else (x.getAgent pid).pendingRequests.get msg.replyTo) = none := by
    split_ifs
    · rfl
    · exact h
  simp only [onMessage,hnone]
  split_ifs <;> rfl

/-- In no run does a reply made by the helper resolve the future of its call, or any other. -/
theorem never_resolves_of_run {trace : List (Transition Exchange AgentOp)} (run : Run step start trace x) :
    ∀ e ∈ trace, ∀ i reply, Answers e i reply →
      ¬ResolvesExactly e i reply ∧ e.target.futures = e.source.futures := by
  have hinv := (run.invariant (fun _ _ _ h hs => named_step h hs) named_start).1
  intro e he i reply hanswers
  obtain ⟨hnamed,hs⟩ := hinv e he
  obtain ⟨call,original,-,-,hreply,hlabel⟩ := hanswers.reply
  rw [hlabel] at hs
  simp only [step] at hs
  split_ifs at hs
  have htarget : e.source.onMessage call.pid reply = e.target := Option.some.inj hs
  have hnone : (e.source.getAgent call.pid).pendingRequests.get reply.replyTo = none := by
    by_contra hsome
    obtain ⟨fut,hfut⟩ := Option.ne_none_iff_exists'.mp hsome
    exact not_isUUID_of_generated (hnamed.replies reply original hreply)
      (hnamed.pending call.pid reply.replyTo fut hfut)
  have hsame : e.target.futures = e.source.futures := by
    rw [← htarget]
    exact futures_onMessage hnone
  refine ⟨fun hresolves => ?_,hsame⟩
  have hres := hresolves.1
  rw [hsame,hanswers.waiting] at hres
  cases hres

/-- The king, a queen below it and a worker below her. -/
def colony : Registry :=
  let queen := Registry.child (Registry.agentRequest 1 "queen" .daemon) none
  let worker := Registry.child (Registry.agentRequest 2 "worker" .worker) none
  ((Registry.boot 0 "king" "root" "vps1").register 0 queen).register 0 worker

/-- What the queen asks, as the worker receives it. -/
def question : Message where
  id := "msg-1"
  fromPID := 2
  fromName := "queen"
  toPID := 3
  type := "task_request"
  priority := priorityHigh
  replyTo := "123e4567-e89b-42d3-a456-426614174000"
  enqueuedAt := some 0

/-- What the worker replies, as the queen receives it. -/
def answer : Message where
  id := "msg-1"
  fromPID := 3
  fromName := "worker"
  toPID := 2
  type := "task_response"
  priority := priorityNormal
  replyTo := "msg-1"
  enqueuedAt := some 0

/-- The queen asks and waits, the worker replies with the helper. -/
def askAndReply : List AgentOp :=
  [.sendAndWait 0 2 question.replyTo,.send 0 colony 0 3 "task_request" [],.deliver 3 question,
    .replyTo 3 question colony 0 [] "task_response"]

lemma answers_askAndReply : ∃ x y, exec step askAndReply start = some x ∧
    step x (.deliver 2 answer) = some y ∧ Answers ⟨x,.deliver 2 answer,y⟩ 0 answer := by
  obtain ⟨x,y,hx,hy,hwaiting,hcall,hrequest,hreply⟩ : ∃ x y, exec step askAndReply start = some x ∧
      step x (.deliver 2 answer) = some y ∧ x.futures.get 0 = some .waiting ∧
      x.calls.get 0 = some ⟨2,question.replyTo⟩ ∧ x.requests.get 0 = some question ∧
      (answer,question) ∈ x.replies := ⟨_,_,rfl,rfl,rfl,rfl,rfl,by decide⟩
  exact ⟨x,y,hx,hy,hwaiting,_,question,hcall,hrequest,hreply,rfl⟩

/-- The queen still waits after the reply has reached her. -/
theorem never_resolves_of_run_deliveredReply : ∃ trace x, Run step start trace x ∧
    ∃ e ∈ trace, Answers e 0 answer ∧ e.target.futures.get 0 = some .waiting := by
  obtain ⟨x,y,hx,hy,hanswers⟩ := answers_askAndReply
  have hrun := (Run.of_exec hx).snoc hy
  have hlast : (⟨x,.deliver 2 answer,y⟩ : Transition Exchange AgentOp) ∈
      transitions step askAndReply start++[⟨x,.deliver 2 answer,y⟩] := by simp
  refine ⟨_,y,hrun,_,hlast,hanswers,?_⟩
  rw [(never_resolves_of_run hrun _ hlast 0 answer hanswers).2]
  exact hanswers.waiting

/-- A reply made by the helper does not resolve the future it is for. -/
theorem reply_misses_future :
    ¬ ∀ (trace : List (Transition Exchange AgentOp)) (x : Exchange), Run step start trace x →
      ∀ e ∈ trace, ∀ i reply, Answers e i reply → ResolvesExactly e i reply := by
  intro h
  obtain ⟨x,y,hx,hy,hanswers⟩ := answers_askAndReply
  have hresolves := (h _ y ((Run.of_exec hx).snoc hy) _ (by simp) 0 answer hanswers).1
  have hwaiting : y.futures.get 0 = some .waiting := by
    cases hx
    cases hy
    rfl
  cases hwaiting.symm.trans hresolves

end Exchange
end HiveKernel
