import HiveKernel.Dashboard.Replica
import HiveKernel.Sdk.Correlation

/-! The table of pending requests of one agent. A call of `send_and_wait` or `send_and_wait_core` enters its
request before it sends, and takes it out again only where it catches a `TimeoutError`; an answer takes it
out as well. A cron task is rewritten before it is handled, and what this raises beyond an unreadable payload is
caught nowhere. -/
namespace HiveKernel
open Lib Dashboard

/-- How the payload of a cron task fails to be read: by a `JSONDecodeError` or a `UnicodeDecodeError`, or by an
exception that is not caught, for a number with too many digits or too deep a nesting. -/
inductive UnreadablePayload
  | decodeError
  | other (text : String)
  deriving DecidableEq

/-- What the interpreter makes of payloads: `json.loads(payload.decode("utf-8"))`, and
`json.dumps(data, ensure_ascii=False).encode("utf-8")`, which raises for a lone surrogate. -/
structure PayloadPython (F : Type) where
  loads : List UInt8 → Except UnreadablePayload (Json F)
  dumps : Json F → Except String (List UInt8)

/-- An exception that `on_message` does not catch. -/
inductive PayloadFault
  | unreadable (text : String)
  | typeError
  | encodeError (text : String)
  deriving DecidableEq

/-- `key in data`. A number, a truth value and `None` raise a `TypeError`. -/
def isMember {F : Type} (key : String) : Json F → Except PayloadFault Bool
  | .object members => .ok (members.any (fun member => member.1 = key))
  | .array items => .ok (items.any (fun item => match item with
    | .string s => s = key
    | _ => false))
  | .string s => .ok (s.toList.tails.any (fun rest => key.toList.isPrefixOf rest))
  | _ => .error .typeError

/-- `data["task"] = data["description"]` for an object that has the second member and not the first. -/
def withTask {F : Type} (members : List (String × Json F)) : Json F :=
  .object (members++[("task",(members.lookup "description").getD .null)])

/-- The payload with that member. Assigning to a text or a list raises a `TypeError`. -/
def rewrite {F : Type} (py : PayloadPython F) : Json F → Except PayloadFault (List UInt8)
  | .object members => match py.dumps (withTask members) with
    | .ok payload => .ok payload
    | .error text => .error (.encodeError text)
  | _ => .error .typeError

/-- A cron task gets the member `task`. -/
def normalizeCron {F : Type} (py : PayloadPython F) (msg : Message) : Except PayloadFault Message :=
  if msg.type ≠ "cron_task" then .ok msg
  else match py.loads msg.payload with
  | .error .decodeError => .ok msg
  | .error (.other text) => .error (.unreadable text)
  | .ok data => do
    if (← isMember "description" data) && !(← isMember "task" data) then
      pure { msg with payload := ← rewrite py data }
    else pure msg

/-- The payload of a cron task raises nothing that is not caught: it is unreadable, or it need not be rewritten, or it
is an object that can be encoded again. -/
def rewritable {F : Type} (py : PayloadPython F) (payload : List UInt8) : Bool :=
  match py.loads payload with
  | .error e => e = .decodeError
  | .ok data => match isMember "description" data,isMember "task" data with
    | .ok true,.ok false => match data with
      | .object members => (py.dumps (withTask members)).isOk
      | _ => false
    | .ok _,.ok _ => true
    | _,_ => false

/-- How a call ends: it returns the answer or raises. -/
inductive CallOutcome
  | returned (msg : Message)
  | timeoutError (text : String)
  | sendError (text : String)
  | cancelledError
  deriving DecidableEq

/-- How the awaited send ends. -/
inductive SendEnding
  | sent
  | timeoutError
  | error (text : String)
  | cancelledError
  deriving DecidableEq

/-- Where a call stands. Between the end of its waiting time, or its cancellation, and the moment its
coroutine goes on, its future is cancelled already. -/
inductive CallStage
  | sending
  | waiting
  | expired
  | cancelled
  | ended (outcome : CallOutcome)
  deriving DecidableEq

structure RequestCall where
  toPID : ℕ
  timeout : String
  future : Future := .waiting
  stage : CallStage := .sending
  deriving DecidableEq

/-- Cancel a future unless it is done. -/
def Future.cancel : Future → Future
  | .waiting => .cancelled
  | fut => fut

/-- The calls of an agent by request, with their futures, its table, its mailbox, and what was left to
the handler of the application. -/
structure RequestDesk where
  calls : Table String RequestCall
  pendingRequests : List String
  pendingResults : List Message
  handled : List Message

/-- A step: a call begins, its send ends, its time is over, it is cancelled, or it goes on; a message
comes in; the mailbox is emptied. -/
inductive DeskOp
  | sendAndWait (id : String) (toPID : ℕ) (timeout : String)
  | sendAndWaitCore (connected : Bool) (id : String) (toPID : ℕ) (timeout : String)
  | sendEnds (id : String) (outcome : SendEnding)
  | expire (id : String)
  | cancel (id : String)
  | resume (id : String)
  | onMessage (msg : Message)
  | drainPendingResults
  deriving DecidableEq

namespace RequestDesk
variable {F : Type}

def start : RequestDesk := ⟨.empty,[],[],[]⟩

def setCall (d : RequestDesk) (id : String) (call : RequestCall) : RequestDesk :=
  { d with calls := d.calls.set id call }

/-- Take a request out of the table, if it is there. -/
def pop (d : RequestDesk) (id : String) : RequestDesk :=
  { d with pendingRequests := d.pendingRequests.filter (· ≠ id) }

def register (d : RequestDesk) (id : String) (toPID : ℕ) (timeout : String) : RequestDesk :=
  { d with
    calls := d.calls.set id { toPID := toPID, timeout := timeout }
    pendingRequests := d.pendingRequests++[id] }

def noReply (id : String) (call : RequestCall) : CallOutcome :=
  .timeoutError s!"No reply from PID {call.toPID} within {call.timeout}s (request_id={id})"

/-- The call raises a `TimeoutError` of its own. -/
def raiseTimeout (d : RequestDesk) (id : String) (call : RequestCall) : RequestDesk :=
  (d.pop id).setCall id { call with stage := .ended (noReply id call) }

/-- The handler of incoming messages. Where the rewriting of a cron task raises, the call of `on_message` does, and
nobody has the message. -/
def onMessage (py : PayloadPython F) (d : RequestDesk) (msg : Message) : RequestDesk :=
  if msg.replyTo ≠ "" ∧ msg.replyTo ∈ d.pendingRequests then
    match d.calls.get msg.replyTo with
    | none => d.pop msg.replyTo
    | some call =>
      if call.future = .waiting then
        (d.pop msg.replyTo).setCall msg.replyTo { call with future := .resolved msg }
      else d.pop msg.replyTo
  else if msg.type = "task_response" ∧ msg.replyTo ≠ "" then
    { d with pendingResults := d.pendingResults++[msg] }
  else match normalizeCron py msg with
    | .ok msg => { d with handled := d.handled++[msg] }
    | .error _ => d

/-- What happens to the call. -/
def sendEnds (d : RequestDesk) (id : String) (call : RequestCall) : SendEnding → RequestDesk
  | .sent => d.setCall id { call with stage := .waiting }
  | .timeoutError => d.raiseTimeout id call
  | .error text => d.setCall id { call with stage := .ended (.sendError text) }
  | .cancelledError => d.setCall id { call with stage := .ended .cancelledError }

def resume (d : RequestDesk) (id : String) (call : RequestCall) : Option RequestDesk :=
  match call.stage,call.future with
  | .waiting,.resolved msg => some (d.setCall id { call with stage := .ended (.returned msg) })
  | .expired,_ => some (d.raiseTimeout id call)
  | .cancelled,_ => some (d.setCall id { call with stage := .ended .cancelledError })
  | _,_ => none

/-- Identifiers are random and never come twice. -/
def step (py : PayloadPython F) (d : RequestDesk) : DeskOp → Option RequestDesk
  | .sendAndWait id toPID timeout =>
    if (d.calls.get id).isSome ∨ ¬IsUUID id then none else some (d.register id toPID timeout)
  | .sendAndWaitCore connected id toPID timeout =>
    if (d.calls.get id).isSome ∨ ¬IsUUID id then none
    -- without a client the call raises before it enters anything
    else if connected then some (d.register id toPID timeout) else some d
  | .sendEnds id outcome => match d.calls.get id with
    | none => none
    | some call => if call.stage = .sending then some (d.sendEnds id call outcome) else none
  | .expire id => match d.calls.get id with
    | none => none
    | some call =>
      if call.stage = .waiting then
        some (d.setCall id { call with future := call.future.cancel, stage := .expired })
      else none
  | .cancel id => match d.calls.get id with
    | none => none
    | some call =>
      if call.stage = .waiting ∨ call.stage = .expired then
        some (d.setCall id { call with future := call.future.cancel, stage := .cancelled })
      else none
  | .resume id => (d.calls.get id).bind (d.resume id)
  | .onMessage msg => some (d.onMessage py msg)
  | .drainPendingResults => some { d with pendingResults := [] }

variable {d d' : RequestDesk} {op : DeskOp}

/-- A message was consumed by the future of a pending request. -/
def ToFuture (d d' : RequestDesk) (msg : Message) : Prop :=
  ∃ call, d.calls.get msg.replyTo = some call ∧ call.future = .waiting ∧
    d'.calls.get msg.replyTo = some { call with future := .resolved msg }

def ToMailbox (d d' : RequestDesk) (msg : Message) : Prop := d'.pendingResults = d.pendingResults++[msg]

/-- The payload may have been rewritten. -/
def ToHandler (d d' : RequestDesk) (msg : Message) : Prop :=
  ∃ payload, d'.handled = d.handled++[{ msg with payload := payload }]

/-- Exactly one of the three consumed it. -/
def ConsumedOnce (d d' : RequestDesk) (msg : Message) : Prop :=
  (ToFuture d d' msg ∧ ¬ToMailbox d d' msg ∧ ¬ToHandler d d' msg) ∨
  (¬ToFuture d d' msg ∧ ToMailbox d d' msg ∧ ¬ToHandler d d' msg) ∨
  (¬ToFuture d d' msg ∧ ¬ToMailbox d d' msg ∧ ToHandler d d' msg)

/-- After the step no call that has ended is in the table, and a message was consumed once. -/
structure Hygienic (e : Transition RequestDesk DeskOp) : Prop where
  released : ∀ id call outcome, e.target.calls.get id = some call → call.stage = .ended outcome →
    id ∉ e.target.pendingRequests
  consumed : ∀ msg, e.label = .onMessage msg → ConsumedOnce e.source e.target msg

/-- A message that no pending request takes. -/
def Unclaimed (d : RequestDesk) (msg : Message) : Prop := msg.replyTo = "" ∨ msg.replyTo ∉ d.pendingRequests

instance (d : RequestDesk) (msg : Message) : Decidable (d.Unclaimed msg) := inferInstanceAs (Decidable (_ ∨ _))

/-- A call is left by an error of the send or by a cancellation only if its answer has come before, no
answer comes while a call that is cut off has not gone on, and a cron task can be rewritten. -/
def Careful (py : PayloadPython F) (d : RequestDesk) : DeskOp → Prop
  | .sendEnds id (.error _) | .sendEnds id .cancelledError =>
    ∀ call ∈ d.calls.get id, ∃ msg, call.future = .resolved msg
  | .resume id => ∀ call ∈ d.calls.get id, call.stage = .cancelled → ∃ msg, call.future = .resolved msg
  | .onMessage msg => (∀ call ∈ d.calls.get msg.replyTo, call.future = .cancelled →
      ∃ outcome, call.stage = .ended outcome) ∧
      (d.Unclaimed msg → msg.type = "cron_task" → rewritable py msg.payload = true)
  | _ => True

instance (fut : Future) : Decidable (∃ msg, fut = .resolved msg) :=
  match fut with
  | .resolved msg => .isTrue ⟨msg,rfl⟩
  | .waiting | .cancelled => .isFalse (by simp)

instance (stage : CallStage) : Decidable (∃ outcome, stage = .ended outcome) :=
  match stage with
  | .ended outcome => .isTrue ⟨outcome,rfl⟩
  | .sending | .waiting | .expired | .cancelled => .isFalse (by simp)

instance (py : PayloadPython F) (d : RequestDesk) (op : DeskOp) : Decidable (d.Careful py op) :=
  match op with
  | .sendEnds id (.error _) | .sendEnds id .cancelledError =>
    inferInstanceAs (Decidable (∀ call ∈ d.calls.get id, ∃ msg, call.future = .resolved msg))
  | .resume id => inferInstanceAs (Decidable (∀ call ∈ d.calls.get id, call.stage = .cancelled →
      ∃ msg, call.future = .resolved msg))
  | .onMessage msg => inferInstanceAs (Decidable ((∀ call ∈ d.calls.get msg.replyTo,
      call.future = .cancelled → ∃ outcome, call.stage = .ended outcome) ∧
      (d.Unclaimed msg → msg.type = "cron_task" → rewritable py msg.payload = true)))
  | .sendEnds _ .sent | .sendEnds _ .timeoutError | .sendAndWait .. | .sendAndWaitCore .. | .expire _
  | .cancel _ | .drainPendingResults => .isTrue trivial

end RequestDesk

/-- The call goes on, and no answer has come. -/
def RequestCall.Open (call : RequestCall) : Prop :=
  (∀ outcome, call.stage ≠ .ended outcome) ∧ ∀ msg, call.future ≠ .resolved msg

/-- A cancelled future belongs to a call that is cut off or over. -/
def RequestCall.CutOff (call : RequestCall) : Prop :=
  call.future = .cancelled → call.stage = .expired ∨ call.stage = .cancelled ∨
    ∃ outcome, call.stage = .ended outcome

namespace RequestDesk
variable {F : Type} {py : PayloadPython F} {d d' : RequestDesk} {op : DeskOp}

/-- The table holds the requests of the open calls. -/
structure Tidy (d : RequestDesk) : Prop where
  table : ∀ id, id ∈ d.pendingRequests ↔ ∃ call, d.calls.get id = some call ∧ call.Open
  cutOff : ∀ id call, d.calls.get id = some call → call.CutOff
  named : ∀ id call, d.calls.get id = some call → id ≠ ""

lemma tidy_start : start.Tidy := ⟨by simp [start],by simp [start],by simp [start]⟩

lemma Tidy.released (h : d.Tidy) {id : String} {call : RequestCall} {outcome : CallOutcome}
    (hcall : d.calls.get id = some call) (hended : call.stage = .ended outcome) : id ∉ d.pendingRequests := by
  intro hmem
  obtain ⟨call',hcall',hopen⟩ := (h.table id).mp hmem
  obtain rfl := Option.some.inj (hcall.symm.trans hcall')
  exact hopen.1 outcome hended

/-- What is put in for one call does not concern the others. -/
lemma Tidy.of_set (h : d.Tidy) {e : RequestDesk} {id : String} {call : RequestCall}
    (hcalls : e.calls = d.calls.set id call) (hcut : call.CutOff) (hid : id ≠ "")
    (htable : ∀ j, j ∈ e.pendingRequests ↔ if j = id then call.Open else j ∈ d.pendingRequests) : e.Tidy := by
  refine ⟨fun j => ?_,fun j c hc => ?_,fun j c hc => ?_⟩
  · rw [htable j,hcalls,Table.get_set]
    by_cases hj : j = id
    · simp [hj]
    · simp [hj,h.table j]
  · rw [hcalls] at hc
    rcases Table.get_set_some hc with ⟨-,rfl⟩ | ⟨-,hc⟩
    · exact hcut
    · exact h.cutOff j c hc
  · rw [hcalls] at hc
    rcases Table.get_set_some hc with ⟨rfl,-⟩ | ⟨-,hc⟩
    · exact hid
    · exact h.named j c hc

lemma Tidy.setCall (h : d.Tidy) {id : String} {call call' : RequestCall} (hcall : d.calls.get id = some call)
    (hopen : call'.Open ↔ call.Open) (hcut : call'.CutOff) : (d.setCall id call').Tidy := by
  refine h.of_set rfl hcut (h.named _ call hcall) (fun j => ?_)
  change j ∈ d.pendingRequests ↔ _
  by_cases hj : j = id
  · subst hj
    simp [h.table j,hcall,hopen]
  · simp [hj]

/-- The request of a call that is over, or answered, is taken out. -/
lemma Tidy.pop_setCall (h : d.Tidy) {id : String} {call call' : RequestCall}
    (hcall : d.calls.get id = some call) (hopen : ¬call'.Open) (hcut : call'.CutOff) :
    ((d.pop id).setCall id call').Tidy := by
  refine h.of_set rfl hcut (h.named _ call hcall) (fun j => ?_)
  simp only [RequestDesk.setCall,pop,List.mem_filter,decide_eq_true_eq]
  by_cases hj : j = id
  · simp [hj,hopen]
  · simp [hj]

lemma Tidy.register (h : d.Tidy) {id : String} (hid : id ≠ "") (toPID : ℕ) (timeout : String) :
    (d.register id toPID timeout).Tidy := by
  have hopen : ({ toPID := toPID, timeout := timeout } : RequestCall).Open := by simp [RequestCall.Open]
  refine h.of_set rfl (fun hcancelled => by cases hcancelled) hid (fun j => ?_)
  simp only [RequestDesk.register,List.mem_append,List.mem_singleton]
  by_cases hj : j = id
  · simp [hj,hopen]
  · simp [hj]

lemma ne_empty_of_isUUID {id : String} (h : IsUUID id) : id ≠ "" := by
  rintro rfl
  cases h

@[simp] lemma cancel_eq_resolved {fut : Future} {msg : Message} :
    fut.cancel = .resolved msg ↔ fut = .resolved msg := by
  cases fut <;> simp [Future.cancel]

/-- A call that has not ended is open unless its answer has come. -/
lemma exists_resolved_of_not_open {call : RequestCall} (hopen : ¬call.Open)
    (hstage : ∀ outcome, call.stage ≠ .ended outcome) : ∃ msg, call.future = .resolved msg := by
  by_contra hno
  exact hopen ⟨hstage,fun msg hmsg => hno ⟨msg,hmsg⟩⟩

/-- The call ends although it stays in the table, if it is there. -/
lemma Tidy.setEnded (h : d.Tidy) {id : String} {call : RequestCall} (hcall : d.calls.get id = some call)
    (hanswered : ∃ msg, call.future = .resolved msg) (outcome : CallOutcome) :
    (d.setCall id { call with stage := .ended outcome }).Tidy := by
  obtain ⟨msg,hmsg⟩ := hanswered
  refine h.setCall hcall ?_ (fun _ => .inr (.inr ⟨outcome,rfl⟩))
  exact iff_of_false (fun hopen => hopen.1 outcome rfl) (fun hopen => hopen.2 msg hmsg)

lemma Tidy.raiseTimeout (h : d.Tidy) {id : String} {call : RequestCall} (hcall : d.calls.get id = some call) :
    (d.raiseTimeout id call).Tidy :=
  h.pop_setCall hcall (fun hopen => hopen.1 _ rfl) (fun _ => .inr (.inr ⟨_,rfl⟩))

/-- A call whose time is over, or that is cancelled, stays in the table until it goes on. -/
lemma Tidy.cut (h : d.Tidy) {id : String} {call : RequestCall} (hcall : d.calls.get id = some call)
    (hstage : ∀ outcome, call.stage ≠ .ended outcome) {stage : CallStage}
    (hcut : stage = .expired ∨ stage = .cancelled) :
    (d.setCall id { call with future := call.future.cancel, stage := stage }).Tidy := by
  refine h.setCall hcall ?_ (fun _ => by tauto)
  have hne : ∀ outcome, stage ≠ .ended outcome := by
    rintro outcome rfl
    simp at hcut
  simp [RequestCall.Open,hne,hstage]

/-- Whether a value has members does not depend on the key. -/
lemma isMember_error {data : Json F} {key : String} {e : PayloadFault} (h : isMember key data = .error e)
    (key' : String) : isMember key' data = .error e := by
  cases data with
  | object members => cases h
  | array items => cases h
  | string text => cases h
  | _ => exact h

/-- What is rewritten is the same message with another payload, and nothing is raised for what is no cron task. -/
lemma normalizeCron_cases (py : PayloadPython F) (msg : Message) :
    ((∃ payload, normalizeCron py msg = .ok { msg with payload := payload }) ∧
      (msg.type = "cron_task" → rewritable py msg.payload = true)) ∨
    ((∃ fault, normalizeCron py msg = .error fault) ∧ msg.type = "cron_task" ∧ rewritable py msg.payload = false) := by
  unfold normalizeCron rewritable
  by_cases htype : msg.type = "cron_task"
  · rw [if_neg (not_not.mpr htype)]
    cases py.loads msg.payload with
    | error e => cases e with
      | decodeError => exact .inl ⟨⟨_,rfl⟩,fun _ => rfl⟩
      | other text => exact .inr ⟨⟨_,rfl⟩,htype,rfl⟩
    | ok data =>
      dsimp only
      cases hdescription : isMember "description" data with
      | error e =>
        rw [isMember_error hdescription "task"]
        exact .inr ⟨⟨e,rfl⟩,htype,rfl⟩
      | ok described => cases htask : isMember "task" data with
        | error e =>
          rw [isMember_error htask "description"] at hdescription
          cases hdescription
        | ok given => cases described with
          | false => exact .inl ⟨⟨_,rfl⟩,fun _ => rfl⟩
          | true => cases given with
            | true => exact .inl ⟨⟨_,rfl⟩,fun _ => rfl⟩
            | false => cases data with
              | object members => cases hdumps : py.dumps (withTask members) with
                | ok payload =>
                  have hrewrite : rewrite py (.object members) = .ok payload := by rw [rewrite,hdumps]
                  rw [hrewrite]
                  exact .inl ⟨⟨payload,rfl⟩,fun _ => congrArg Except.isOk hdumps⟩
                | error text =>
                  have hrewrite : rewrite py (.object members) = .error (.encodeError text) := by rw [rewrite,hdumps]
                  rw [hrewrite]
                  exact .inr ⟨⟨_,rfl⟩,htype,congrArg Except.isOk hdumps⟩
              | _ => exact .inr ⟨⟨_,rfl⟩,htype,rfl⟩
  · rw [if_pos htype]
    exact .inl ⟨⟨_,rfl⟩,fun h => absurd h htype⟩

/-- A message finds an open call, a request whose call is cut off, the mailbox, the application or nobody. -/
lemma onMessage_cases (py : PayloadPython F) (d : RequestDesk) (msg : Message) :
    (∃ call, d.calls.get msg.replyTo = some call ∧ call.future = .waiting ∧ ¬d.Unclaimed msg ∧
      d.onMessage py msg = (d.pop msg.replyTo).setCall msg.replyTo { call with future := .resolved msg }) ∨
    (¬d.Unclaimed msg ∧ (∀ call ∈ d.calls.get msg.replyTo, call.future ≠ .waiting) ∧
      d.onMessage py msg = d.pop msg.replyTo) ∨
    (d.Unclaimed msg ∧ (msg.type = "cron_task" → rewritable py msg.payload = true) ∧
      (d.onMessage py msg = { d with pendingResults := d.pendingResults++[msg] } ∨
        ∃ payload, d.onMessage py msg = { d with handled := d.handled++[{ msg with payload := payload }] })) ∨
    (d.Unclaimed msg ∧ msg.type = "cron_task" ∧ rewritable py msg.payload = false ∧ d.onMessage py msg = d) := by
  unfold onMessage
  by_cases hmem : msg.replyTo ≠ "" ∧ msg.replyTo ∈ d.pendingRequests
  · have hclaimed : ¬d.Unclaimed msg := by
      rintro (hempty | hnot)
      · exact hmem.1 hempty
      · exact hnot hmem.2
    rw [if_pos hmem]
    cases hcall : d.calls.get msg.replyTo with
    | none => exact .inr (.inl ⟨hclaimed,by simp,rfl⟩)
    | some call =>
      by_cases hwaiting : call.future = .waiting
      · exact .inl ⟨call,rfl,hwaiting,hclaimed,if_pos hwaiting⟩
      · exact .inr (.inl ⟨hclaimed,by simpa using hwaiting,if_neg hwaiting⟩)
  · have hunclaimed : d.Unclaimed msg := by
      rw [not_and_or,not_not] at hmem
      exact hmem
    rw [if_neg hmem]
    by_cases hbox : msg.type = "task_response" ∧ msg.replyTo ≠ ""
    · refine .inr (.inr (.inl ⟨hunclaimed,fun hcron => ?_,.inl (if_pos hbox)⟩))
      rw [hbox.1] at hcron
      exact absurd hcron (by decide)
    · rw [if_neg hbox]
      rcases normalizeCron_cases py msg with ⟨⟨payload,hok⟩,hcron⟩ | ⟨⟨fault,herror⟩,hcron,hnot⟩
      · rw [hok]
        exact .inr (.inr (.inl ⟨hunclaimed,hcron,.inr ⟨payload,rfl⟩⟩))
      · rw [herror]
        exact .inr (.inr (.inr ⟨hunclaimed,hcron,hnot,rfl⟩))

lemma not_toFuture {msg : Message} (hsame : d'.calls = d.calls) : ¬ToFuture d d' msg := by
  rintro ⟨call,hcall,hwaiting,hset⟩
  rw [hsame,hcall,Option.some.injEq] at hset
  rw [hset] at hwaiting
  cases hwaiting

lemma Tidy.onMessage (h : d.Tidy) {msg : Message} (hcareful : d.Careful py (.onMessage msg)) :
    (d.onMessage py msg).Tidy ∧ ConsumedOnce d (d.onMessage py msg) msg := by
  rcases onMessage_cases py d msg with ⟨call,hcall,hwaiting,-,heq⟩ | ⟨hclaimed,hno,-⟩ | ⟨-,-,heq⟩ | ⟨hun,hcron,hnot,-⟩
  · rw [heq]
    refine ⟨h.pop_setCall hcall (fun hopen => hopen.2 msg rfl) (fun hcancelled => by cases hcancelled),.inl ?_⟩
    refine ⟨⟨call,hcall,hwaiting,Table.get_set_self _ _ _⟩,?_,?_⟩
    · simp [ToMailbox,RequestDesk.setCall,pop]
    · simp [ToHandler,RequestDesk.setCall,pop]
  · exfalso
    have hmem : msg.replyTo ∈ d.pendingRequests := by
      by_contra hout
      exact hclaimed (.inr hout)
    obtain ⟨call,hcall,hopen⟩ := (h.table _).mp hmem
    have hcancelled : call.future = .cancelled := by
      have hne := hno call hcall
      cases hf : call.future with
      | waiting => exact absurd hf hne
      | resolved m => exact absurd hf (hopen.2 m)
      | cancelled => rfl
    obtain ⟨outcome,hended⟩ := hcareful.1 call hcall hcancelled
    exact hopen.1 outcome hended
  · rcases heq with heq | ⟨payload,heq⟩
    · rw [heq]
      exact ⟨⟨h.table,h.cutOff,h.named⟩,.inr (.inl ⟨not_toFuture rfl,rfl,by simp [ToHandler]⟩)⟩
    · rw [heq]
      exact ⟨⟨h.table,h.cutOff,h.named⟩,.inr (.inr ⟨not_toFuture rfl,by simp [ToMailbox],payload,rfl⟩)⟩
  · rw [hcareful.2 hun hcron] at hnot
    cases hnot

lemma step_sendEnds {id : String} {outcome : SendEnding} (hs : d.step py (.sendEnds id outcome) = some d') :
    ∃ call, d.calls.get id = some call ∧ call.stage = .sending ∧ d' = d.sendEnds id call outcome := by
  simp only [step] at hs
  cases hcall : d.calls.get id with
  | none => simp [hcall] at hs
  | some call =>
    simp only [hcall] at hs
    split_ifs at hs with hstage
    exact ⟨call,rfl,hstage,(Option.some.inj hs).symm⟩

lemma step_resume {id : String} (hs : d.step py (.resume id) = some d') :
    ∃ call, d.calls.get id = some call ∧
      ((∃ msg, call.stage = .waiting ∧ call.future = .resolved msg ∧
          d' = d.setCall id { call with stage := .ended (.returned msg) }) ∨
       (call.stage = .expired ∧ d' = d.raiseTimeout id call) ∨
       (call.stage = .cancelled ∧ d' = d.setCall id { call with stage := .ended .cancelledError })) := by
  obtain ⟨call,hcall,hs⟩ := Option.bind_eq_some_iff.mp hs
  refine ⟨call,hcall,?_⟩
  unfold resume at hs
  split at hs
  next msg hstage hfuture => exact .inl ⟨msg,hstage,hfuture,(Option.some.inj hs).symm⟩
  next hstage => exact .inr (.inl ⟨hstage,(Option.some.inj hs).symm⟩)
  next hstage => exact .inr (.inr ⟨hstage,(Option.some.inj hs).symm⟩)
  next => cases hs

/-- A call is cut off by its timer or by a cancellation. -/
lemma step_cut {id : String} (hs : d.step py (.expire id) = some d' ∨ d.step py (.cancel id) = some d') :
    ∃ call stage, d.calls.get id = some call ∧ (∀ outcome, call.stage ≠ .ended outcome) ∧
      (stage = .expired ∨ stage = .cancelled) ∧
      d' = d.setCall id { call with future := call.future.cancel, stage := stage } := by
  cases hcall : d.calls.get id with
  | none => simp [step,hcall] at hs
  | some call =>
    simp only [step,hcall] at hs
    rcases hs with hs | hs
    · split_ifs at hs with hstage
      exact ⟨call,.expired,rfl,by simp [hstage],.inl rfl,(Option.some.inj hs).symm⟩
    · split_ifs at hs with hstage
      refine ⟨call,.cancelled,rfl,fun outcome hended => ?_,.inr rfl,(Option.some.inj hs).symm⟩
      rw [hended] at hstage
      simp at hstage

lemma Tidy.step (h : d.Tidy) (hcareful : d.Careful py op) (hs : d.step py op = some d') : d'.Tidy := by
  cases op with
  | sendAndWait id toPID timeout =>
    simp only [RequestDesk.step] at hs
    split_ifs at hs with hguard
    cases hs
    rw [not_or,not_not,Option.not_isSome_iff_eq_none] at hguard
    exact h.register (ne_empty_of_isUUID hguard.2) toPID timeout
  | sendAndWaitCore connected id toPID timeout =>
    simp only [RequestDesk.step] at hs
    split_ifs at hs with hguard hconnected
    · cases hs
      rw [not_or,not_not,Option.not_isSome_iff_eq_none] at hguard
      exact h.register (ne_empty_of_isUUID hguard.2) toPID timeout
    · cases hs
      exact h
  | sendEnds id outcome =>
    obtain ⟨call,hcall,hstage,rfl⟩ := step_sendEnds hs
    cases outcome with
    | sent =>
      refine h.setCall hcall (by simp [RequestCall.Open,hstage]) (fun hcancelled => ?_)
      have hcut := h.cutOff id call hcall hcancelled
      simp [hstage] at hcut
    | timeoutError => exact h.raiseTimeout hcall
    | error text => exact h.setEnded hcall (hcareful call hcall) _
    | cancelledError => exact h.setEnded hcall (hcareful call hcall) _
  | expire id =>
    obtain ⟨call,stage,hcall,hstage,hcut,rfl⟩ := step_cut (.inl hs)
    exact h.cut hcall hstage hcut
  | cancel id =>
    obtain ⟨call,stage,hcall,hstage,hcut,rfl⟩ := step_cut (.inr hs)
    exact h.cut hcall hstage hcut
  | resume id =>
    obtain ⟨call,hcall,⟨msg,-,hmsg,rfl⟩ | ⟨-,rfl⟩ | ⟨hstage,rfl⟩⟩ := step_resume hs
    · exact h.setEnded hcall ⟨msg,hmsg⟩ _
    · exact h.raiseTimeout hcall
    · exact h.setEnded hcall (hcareful call hcall hstage) _
  | onMessage msg =>
    cases hs
    exact (h.onMessage hcareful).1
  | drainPendingResults =>
    cases hs
    exact ⟨h.table,h.cutOff,h.named⟩

/-- A call that ends and stays in the table is one whose answer had come. -/
lemma exists_resolved_of_released (h : d.Tidy) {id : String} {call : RequestCall} {outcome : CallOutcome}
    (hcall : d.calls.get id = some call) (hstage : ∀ outcome, call.stage ≠ .ended outcome)
    (hreleased : ∀ j c o, (d.setCall id { call with stage := .ended outcome }).calls.get j = some c →
      c.stage = .ended o → j ∉ (d.setCall id { call with stage := .ended outcome }).pendingRequests) :
    ∃ msg, call.future = .resolved msg := by
  have hnot : id ∉ d.pendingRequests := hreleased id _ outcome (Table.get_set_self _ _ _) rfl
  exact exists_resolved_of_not_open (fun hopen => hnot ((h.table id).mpr ⟨call,hcall,hopen⟩)) hstage

/-- A step that is not careful leaves a request behind or loses a message. -/
lemma Tidy.careful_of_hygienic (h : d.Tidy) (hs : d.step py op = some d') (hy : Hygienic ⟨d,op,d'⟩) :
    d.Careful py op := by
  cases op with
  | sendEnds id outcome =>
    obtain ⟨call,hcall,hstage,rfl⟩ := step_sendEnds hs
    cases outcome with
    | sent | timeoutError => trivial
    | error text =>
      intro c hc
      obtain rfl := Option.some.inj (hcall.symm.trans hc)
      exact exists_resolved_of_released h hcall (by simp [hstage]) hy.released
    | cancelledError =>
      intro c hc
      obtain rfl := Option.some.inj (hcall.symm.trans hc)
      exact exists_resolved_of_released h hcall (by simp [hstage]) hy.released
  | resume id =>
    intro c hc hcancelled
    obtain ⟨call,hcall,⟨msg,hstage,-,-⟩ | ⟨hstage,-⟩ | ⟨hstage,rfl⟩⟩ := step_resume hs
    all_goals obtain rfl := Option.some.inj (hcall.symm.trans hc)
    · rw [hstage] at hcancelled
      cases hcancelled
    · rw [hstage] at hcancelled
      cases hcancelled
    · exact exists_resolved_of_released h hcall (by simp [hstage]) hy.released
  | onMessage msg =>
    cases hs
    refine ⟨fun call hcall hcancelled => ?_,fun hunclaimed hcron => ?_⟩
    · by_contra hgoes
      have hopen : call.Open := ⟨fun outcome hended => hgoes ⟨outcome,hended⟩,by simp [hcancelled]⟩
      have hmem := (h.table _).mpr ⟨call,hcall,hopen⟩
      have hclaimed : ¬d.Unclaimed msg := by
        rintro (hempty | hnot)
        · exact h.named _ call hcall hempty
        · exact hnot hmem
      have hlost : d.onMessage py msg = d.pop msg.replyTo := by
        rcases onMessage_cases py d msg with ⟨c,hc,hwaiting,-⟩ | ⟨-,-,heq⟩ | ⟨hun,-⟩ | ⟨hun,-⟩
        · obtain rfl := Option.some.inj (hc.symm.trans hcall)
          rw [hcancelled] at hwaiting
          cases hwaiting
        · exact heq
        · exact absurd hun hclaimed
        · exact absurd hun hclaimed
      rcases hy.consumed msg rfl with ⟨⟨c,hc,hwaiting,-⟩,-⟩ | ⟨-,hbox,-⟩ | ⟨-,-,hhandler⟩
      · obtain rfl := Option.some.inj (hc.symm.trans hcall)
        rw [hcancelled] at hwaiting
        cases hwaiting
      · simp [ToMailbox,hlost,pop] at hbox
      · simp [ToHandler,hlost,pop] at hhandler
    · rcases onMessage_cases py d msg with ⟨-,-,-,hclaimed,-⟩ | ⟨hclaimed,-⟩ | ⟨-,hrewritable,-⟩ | ⟨-,-,-,heq⟩
      · exact absurd hunclaimed hclaimed
      · exact absurd hunclaimed hclaimed
      · exact hrewritable hcron
      · exfalso
        rcases hy.consumed msg rfl with ⟨hfuture,-⟩ | ⟨-,hbox,-⟩ | ⟨-,-,hhandler⟩
        · exact not_toFuture (congrArg calls heq) hfuture
        · simp [ToMailbox,heq] at hbox
        · simp [ToHandler,heq] at hhandler
  | sendAndWait | sendAndWaitCore | expire | cancel | drainPendingResults => trivial

/-- For every interleaving: all calls that have ended are out of the table and all messages are consumed by
exactly one receiver, exactly if every step is careful. -/
theorem hygienic_iff_careful (py : PayloadPython F) {trace : List (Transition RequestDesk DeskOp)}
    (run : Run (step py) start trace d) :
    (∀ e ∈ trace, Hygienic e) ↔ ∀ e ∈ trace, e.source.Careful py e.label := by
  refine run.good_iff_allowed_of_legal Tidy Hygienic (fun _ _ => True) (Careful py)
    (fun s op t h _ hs => ⟨⟨fun hy => h.careful_of_hygienic hs hy,fun hc => ?_⟩,fun hc => h.step hc hs⟩)
    tidy_start (fun _ _ => trivial)
  have ht := h.step hc hs
  refine ⟨fun id call outcome hcall hended => ht.released hcall hended,fun msg hmsg => ?_⟩
  obtain rfl : op = .onMessage msg := hmsg
  cases hs
  exact (h.onMessage hc).2

def answerTo (id : String) : Message := { fromPID := 3, type := "task_response", replyTo := id }

/-- What the king writes for a cron task, in ASCII. -/
def scanTask : List UInt8 := "\x7b\"description\":\"scan\",\"params\":null\x7d".toList.map Char.toUInt8

/-- What the agent makes of it. -/
def normalizedScan : List UInt8 :=
  "\x7b\"description\": \"scan\", \"params\": null, \"task\": \"scan\"\x7d".toList.map Char.toUInt8

/-- The interpreter on that payload. -/
def scanPython : PayloadPython ℕ where
  loads payload := if payload = scanTask then .ok (.object [("description",.string "scan"),("params",.null)])
    else .error .decodeError
  dumps _ := .ok normalizedScan

def cronScan : Message := { fromPID := 1, type := "cron_task", payload := scanTask }

/-- One call is answered while its send is still under way; another one waits in vain, and its answer
goes to the mailbox. A cron task is rewritten and handled. -/
def answeredAndLate : List DeskOp :=
  [.sendAndWait "123e4567-e89b-42d3-a456-426614174000" 3 "60.0",
    .onMessage (answerTo "123e4567-e89b-42d3-a456-426614174000"),
    .sendAndWaitCore true "123e4567-e89b-42d3-a456-426614174001" 3 "60.0",
    .sendEnds "123e4567-e89b-42d3-a456-426614174001" .sent,
    .sendEnds "123e4567-e89b-42d3-a456-426614174000" .sent,
    .resume "123e4567-e89b-42d3-a456-426614174000",.expire "123e4567-e89b-42d3-a456-426614174001",
    .resume "123e4567-e89b-42d3-a456-426614174001",
    .onMessage (answerTo "123e4567-e89b-42d3-a456-426614174001"),.onMessage cronScan]

theorem hygienic_iff_careful_answeredAndLate : ∃ d, exec (step scanPython) answeredAndLate start = some d ∧
    d.pendingResults = [answerTo "123e4567-e89b-42d3-a456-426614174001"] ∧
    d.handled = [{ cronScan with payload := normalizedScan }] ∧
    ∀ e ∈ transitions (step scanPython) answeredAndLate start, Hygienic e := by
  obtain ⟨d,hd,hbox,hhandled,hcareful⟩ : ∃ d, exec (step scanPython) answeredAndLate start = some d ∧
      d.pendingResults = [answerTo "123e4567-e89b-42d3-a456-426614174001"] ∧
      d.handled = [{ cronScan with payload := normalizedScan }] ∧
      ∀ e ∈ transitions (step scanPython) answeredAndLate start, e.source.Careful scanPython e.label :=
    ⟨_,rfl,rfl,rfl,by decide +kernel⟩
  exact ⟨d,hd,hbox,hhandled,(hygienic_iff_careful scanPython (.of_exec hd)).mpr hcareful⟩

/-- The send fails, and the request stays. -/
theorem failed_send_leaks : ¬∀ (py : PayloadPython ℕ) (trace : List (Transition RequestDesk DeskOp)) (d : RequestDesk),
    Run (step py) start trace d → ∀ e ∈ trace, Hygienic e := by
  intro h
  obtain ⟨d,e,hd,hcall,hmem⟩ : ∃ d e,
      exec (step scanPython) [.sendAndWait "123e4567-e89b-42d3-a456-426614174000" 3 "60.0"] start = some d ∧
      d.step scanPython (.sendEnds "123e4567-e89b-42d3-a456-426614174000" (.error "unavailable")) = some e ∧
      e.pendingRequests = ["123e4567-e89b-42d3-a456-426614174000"] := ⟨_,_,rfl,rfl,rfl⟩
  have hrun := (Run.of_exec hd).snoc hcall
  have hy := h scanPython _ e hrun _ (List.mem_append_right _ List.mem_cons_self)
  obtain ⟨call,hc,-,rfl⟩ := step_sendEnds hcall
  refine hy.released "123e4567-e89b-42d3-a456-426614174000" _ _ (Table.get_set_self _ _ _) rfl ?_
  rw [hmem]
  exact List.mem_cons_self

end RequestDesk
end HiveKernel
