import HiveKernel.Lib.Table
import HiveKernel.Process.EventLog

/-! The dashboard's copy of the process tree and what it notes of each event. Clients are sent a
delta for every event that is applied; an event that raises leaves what was written before. What
the interpreter does with numbers and JSON texts is a parameter. -/
namespace HiveKernel.Dashboard
open Lib

def maxTraces : ℕ := 100
def messageLogMax : ℕ := 500
def taskHistoryMax : ℕ := 500

inductive PyError
  | valueError | attributeError | typeError | other
  deriving DecidableEq, Repr

/-- A decoded JSON text, with `F` for the floating point numbers. -/
inductive Json (F : Type)
  | null
  | bool (b : Bool)
  | int (n : ℤ)
  | float (x : F)
  | string (s : String)
  | array (items : List (Json F))
  | object (members : List (String × Json F))

/-- The built-in functions of the interpreter; `none` is a `ValueError`. -/
structure Python (F : Type) where
  int : String → Option ℤ
  float : String → Option F
  zero : F
  add : F → F → F
  isZero : F → Bool
  str : F → String
  loads : String → Except PyError (Json F)

/-- What a condition makes of a value. -/
def Python.truth {F : Type} (py : Python F) : Json F → Bool
  | .null => false
  | .bool b => b
  | .int n => n ≠ 0
  | .float x => !py.isZero x
  | .string s => s ≠ ""
  | .array items => !items.isEmpty
  | .object members => !members.isEmpty

/-- The slice up to `n`. -/
def Json.slice {F : Type} (n : ℕ) : Json F → Except PyError (Json F)
  | .string s => .ok (.string (s.take n).toString)
  | .array items => .ok (.array (items.take n))
  | _ => .error .typeError

/-- A node of the tree, as the clients get it. -/
structure Node where
  pid : ℕ
  ppid : ℕ
  name : String
  user : String := ""
  role : String
  roleId : ℕ := 0
  cognitiveTier : String
  tierId : ℕ := 0
  model : String
  state : String
  stateId : ℕ := 0
  vps : String := ""
  tokensConsumed : ℕ := 0
  contextUsagePercent : ℕ := 0
  childCount : ℕ := 0
  startedAt : ℕ := 0
  currentTaskId : String := ""
  runtimeAddr : String := ""
  deriving DecidableEq, Repr

/-- What the dashboard and the kernel's table have to agree on. -/
structure Summary where
  ppid : ℕ
  name : String
  state : String
  deriving DecidableEq, Repr

def Node.summary (n : Node) : Summary := ⟨n.ppid,n.name,n.state⟩

def Summary.inState (state : String) (s : Summary) : Summary := { s with state := state }

/-- What a trace entry holds besides the common part. -/
inductive TraceDetail
  | plain
  | messageSent (messageType replyTo : String)
  | stateChanged (oldState newState : String)
  | logged (level message : String)
  | typed (level message : String) (fields : List (String × String))

structure TraceEntry where
  seq : ℕ
  timestampMs : ℤ
  type : EventType
  pid : ℕ
  ppid : ℕ
  name : String
  traceId : String
  traceSpan : String
  detail : TraceDetail

structure LlmUsage (F : Type) where
  tokens : ℤ
  calls : ℕ
  latencyMs : F

structure MessageEntry where
  fromPid : ℕ
  toPid : ℕ
  fromName : String
  toName : String
  type : String
  replyTo : String
  payloadPreview : String
  timestamp : ℤ
  traceId : String
  traceSpan : String
  messageId : String := ""
  state : String := ""
  deliveredAt : Option ℤ := none

structure TaskEntry (F : Type) where
  pid : ℕ
  name : String
  description : String
  result : Json F
  success : Bool
  error : Json F
  durationMs : ℕ
  timestamp : ℤ

/-- The globals that `applyEvent` writes. -/
structure Replica (F : Type) where
  treeCache : Table ℕ Node := .empty
  lastSeq : ℕ := 0
  -- in the order of insertion, the oldest trace first
  traceLog : List (String × List TraceEntry) := []
  llmUsage : Table ℕ (LlmUsage F) := .empty
  messageLog : List MessageEntry := []
  taskHistory : List (TaskEntry F) := []

/-- What the clients are told. -/
inductive Delta
  | add (node : Node)
  | update (pid : ℕ) (state : String)
  | remove (pid : ℕ)
  | log (pid : ℕ) (name level message : String) (ts : ℤ) (eventType : Option EventType)
      (fields : Option (List (String × String)))
  | messageDelivered (messageId : String) (toPid fromPid : ℕ) (ts : ℤ)
  | message (fromPid toPid : ℕ) (fromName toName type replyTo payloadPreview : String) (ts : ℤ)
      (traceId traceSpan messageId : String)

/-- The time stamp on the wire. -/
def timestampMs (evt : ProcessEvent) : ℤ := evt.timestamp/1000000

def fieldOr (evt : ProcessEvent) (key default : String) : String := (evt.fields.lookup key).getD default

def traceEntry (evt : ProcessEvent) : TraceEntry where
  seq := evt.seq
  timestampMs := timestampMs evt
  type := evt.type
  pid := evt.pid
  ppid := evt.ppid
  name := evt.name
  traceId := evt.traceID
  traceSpan := evt.traceSpan
  detail :=
    if evt.type = .messageSent then .messageSent evt.message evt.replyTo
    else if evt.type = .stateChanged then .stateChanged evt.oldState evt.newState
    else if evt.type = .logged then .logged evt.level evt.message
    else if evt.type = .llmCall ∨ evt.type = .toolCall ∨ evt.type = .cronExecuted then
      .typed evt.level evt.message evt.fields
    else .plain

/-- File an event under its trace. A new trace may push out the oldest one. -/
def recordTrace (log : List (String × List TraceEntry)) (evt : ProcessEvent) :
    List (String × List TraceEntry) :=
  if evt.traceID = "" then log
  else
    let room := if log.length < maxTraces then log else log.tail
    let log := if evt.traceID ∈ log.map Prod.fst then log else room ++ [(evt.traceID,[])]
    log.map (fun t => if t.1 = evt.traceID then (t.1,t.2 ++ [traceEntry evt]) else t)

namespace Replica
variable {F : Type}

def spawnedNode (evt : ProcessEvent) : Node where
  pid := evt.pid
  ppid := evt.ppid
  name := evt.name
  role := evt.role
  cognitiveTier := evt.tier
  model := evt.model
  state := if evt.state = "" then "idle" else evt.state

/-- Correct the number of children of a node, if the node is there. -/
def recount (tree : Table ℕ Node) (pid : ℕ) (count : ℕ → ℕ) : Table ℕ Node :=
  match tree.get pid with
  | none => tree
  | some parent => tree.set pid { parent with childCount := count parent.childCount }

def applySpawned (s : Replica F) (evt : ProcessEvent) : Option Delta × Replica F :=
  let tree := recount (s.treeCache.set evt.pid (spawnedNode evt)) evt.ppid (· + 1)
  -- the delta holds the node of the cache: its own parent counts it
  (some (.add ((tree.get evt.pid).getD (spawnedNode evt))),{ s with treeCache := tree })

def applyStateChanged (s : Replica F) (evt : ProcessEvent) : Option Delta × Replica F :=
  match s.treeCache.get evt.pid with
  | none => (none,s)
  | some node =>
    (some (.update evt.pid evt.newState),
      { s with treeCache := s.treeCache.set evt.pid { node with state := evt.newState } })

def applyRemoved (s : Replica F) (evt : ProcessEvent) : Option Delta × Replica F :=
  let tree := match s.treeCache.get evt.pid with
    | none => s.treeCache
    | some removed => recount (s.treeCache.erase evt.pid) removed.ppid (· - 1)
  (some (.remove evt.pid),{ s with treeCache := tree })

/-- The name on the event, else the one in the cache. -/
def displayName (s : Replica F) (evt : ProcessEvent) : String :=
  if evt.name = "" then ((s.treeCache.get evt.pid).map Node.name).getD "" else evt.name

def logDelta (s : Replica F) (evt : ProcessEvent) : Delta :=
  .log evt.pid (s.displayName evt) evt.level evt.message (timestampMs evt) none
    (if evt.fields = [] then none else some evt.fields)

def toolCallDelta (s : Replica F) (evt : ProcessEvent) : Delta :=
  let toolName := fieldOr evt "tool_name" ""
  let duration := fieldOr evt "duration_ms" "0"
  .log evt.pid (s.displayName evt) "info" s!"Tool: {toolName} ({duration}ms)" (timestampMs evt)
    (some .toolCall) (some evt.fields)

def cronDelta (s : Replica F) (evt : ProcessEvent) : Delta :=
  let cronName := fieldOr evt "cron_name" ""
  let exitCode := fieldOr evt "exit_code" "?"
  let duration := fieldOr evt "duration_ms" "0"
  .log evt.pid (s.displayName evt) (if evt.level = "" then "info" else evt.level)
    s!"Cron '{cronName}' exit={exitCode} ({duration}ms)" (timestampMs evt) (some .cronExecuted)
    (some evt.fields)

/-- Count a call of a model. The numbers come from the agent, as texts. -/
def applyLlmCall (py : Python F) (s : Replica F) (evt : ProcessEvent) :
    Except PyError (Option Delta) × Replica F :=
  match py.int (fieldOr evt "total_tokens" "0"),py.float (fieldOr evt "latency_ms" "0") with
  | some tokens,some latency =>
    let usage := (s.llmUsage.get evt.pid).getD ⟨0,0,py.zero⟩
    let usage := ⟨usage.tokens+tokens,usage.calls+1,py.add usage.latencyMs latency⟩
    let model := fieldOr evt "model" ""
    let spent := py.str latency
    (.ok (some (.log evt.pid (s.displayName evt) "info" s!"LLM call: {model} ({tokens} tokens, {spent}ms)"
        (timestampMs evt) (some .llmCall) (some evt.fields))),
      { s with llmUsage := s.llmUsage.set evt.pid usage })
  | _,_ => (.error .valueError,s)

/-- Mark the latest message with this id as delivered. -/
def applyMessageDelivered (now : ℤ) (s : Replica F) (evt : ProcessEvent) : Option Delta × Replica F :=
  let mark := fun (e : MessageEntry) => { e with deliveredAt := some now, state := "delivered" }
  let log := match s.messageLog.reverse.findIdx? (fun e => e.messageId = evt.messageID ∧ evt.messageID ≠ "") with
    | none => s.messageLog
    | some i => (s.messageLog.reverse.modify i mark).reverse
  (some (.messageDelivered evt.messageID evt.pid evt.ppid (timestampMs evt)),{ s with messageLog := log })

/-- Append an entry and drop the oldest ones beyond the limit. -/
def recorded {α : Type} (limit : ℕ) (log : List α) (entry : α) : List α :=
  (log ++ [entry]).drop (log.length+1-limit)

def recordMessage (now : ℤ) (s : Replica F) (evt : ProcessEvent) : Replica F :=
  let entry : MessageEntry :=
    { fromPid := evt.pid
      toPid := evt.ppid
      fromName := evt.name
      toName := evt.role
      type := evt.message
      replyTo := evt.replyTo
      payloadPreview := (evt.payloadPreview.take 2000).toString
      timestamp := now
      traceId := evt.traceID
      traceSpan := evt.traceSpan
      messageId := evt.messageID
      state := "sent" }
  { s with messageLog := recorded messageLogMax s.messageLog entry }

/-- The result and the error that a task response carries, and whether it counts as a success. -/
def taskOutcome (py : Python F) (payload : String) : Except PyError (Json F × Bool × Json F) :=
  match py.loads payload with
  | .error .valueError => .ok (.string payload,true,.string "")
  | .error e => .error e
  | .ok (.object data) =>
    let result := (data.lookup "output").getD ((data.lookup "error").getD (.string payload))
    match data.lookup "error" with
    | some error => if py.truth error then .ok (result,false,error) else .ok (result,true,.string "")
    | none => .ok (result,true,.string "")
  | .ok _ => .error .attributeError

/-- The entry for a task response, which names its sender and its receiver. -/
def taskEntry (py : Python F) (now : ℤ) (evt : ProcessEvent) : Except PyError (TaskEntry F) :=
  match taskOutcome py evt.payloadPreview with
  | .error e => .error e
  | .ok (result,success,error) => match result.slice 4000 with
    | .error e => .error e
    | .ok result =>
      let sender := if evt.name = "" then s!"PID {evt.pid}" else evt.name
      .ok
        { pid := evt.ppid
          name := if evt.role = "" then s!"PID {evt.ppid}" else evt.role
          description := s!"Async result from {sender}"
          result := result
          success := success
          error := error
          durationMs := 0
          timestamp := now }

def recordTask (s : Replica F) (entry : TaskEntry F) : Replica F :=
  { s with taskHistory := recorded taskHistoryMax s.taskHistory entry }

/-- On a message the process is the sender, the parent the receiver, and the role its name. -/
def applyMessageSent (py : Python F) (now : ℤ) (s : Replica F) (evt : ProcessEvent) :
    Except PyError (Option Delta) × Replica F :=
  let s := s.recordMessage now evt
  let delta : Delta := .message evt.pid evt.ppid evt.name evt.role evt.message evt.replyTo
    evt.payloadPreview (timestampMs evt) evt.traceID evt.traceSpan evt.messageID
  if evt.message = "task_response" ∧ evt.payloadPreview ≠ "" then
    match taskEntry py now evt with
    | .error e => (.error e,s)
    | .ok entry => (.ok (some delta),s.recordTask entry)
  else (.ok (some delta),s)

/-- The events that leave the tree alone. -/
def applyNote (py : Python F) (now : ℤ) (s : Replica F) (evt : ProcessEvent) :
    Except PyError (Option Delta) × Replica F :=
  if evt.type = .logged then (.ok (some (s.logDelta evt)),s)
  else if evt.type = .llmCall then s.applyLlmCall py evt
  else if evt.type = .toolCall then (.ok (some (s.toolCallDelta evt)),s)
  else if evt.type = .cronExecuted then (.ok (some (s.cronDelta evt)),s)
  else if evt.type = .messageDelivered then
    (.ok (s.applyMessageDelivered now evt).1,(s.applyMessageDelivered now evt).2)
  else if evt.type = .messageSent then s.applyMessageSent py now evt
  else (.ok none,s)

/-- Apply an event to the cache at the time `now`. -/
def applyEvent (py : Python F) (now : ℤ) (s : Replica F) (evt : ProcessEvent) :
    Except PyError (Option Delta) × Replica F :=
  let s := { s with lastSeq := evt.seq, traceLog := recordTrace s.traceLog evt }
  if evt.type = .spawned then (.ok (s.applySpawned evt).1,(s.applySpawned evt).2)
  else if evt.type = .stateChanged then (.ok (s.applyStateChanged evt).1,(s.applyStateChanged evt).2)
  else if evt.type = .removed then (.ok (s.applyRemoved evt).1,(s.applyRemoved evt).2)
  else s.applyNote py now evt

/-- The replica after one event of a replay; `clock` is when each event arrives. An event that
raises ends the replay. -/
def replayOne (py : Python F) (clock : ℕ → ℤ) (s : Replica F) (evt : ProcessEvent) : Option (Replica F) :=
  match s.applyEvent py (clock evt.seq) evt with
  | (.ok _,s) => some s
  | (.error _,_) => none

def replay (py : Python F) (clock : ℕ → ℤ) (s : Replica F) (events : List ProcessEvent) :
    Option (Replica F) := events.foldlM (replayOne py clock) s

/-- The nodes, as far as the kernel's table has them too. -/
def view (s : Replica F) (pid : ℕ) : Option Summary := (s.treeCache.get pid).map Node.summary

lemma view_congr {s t : Replica F} (h : t.treeCache = s.treeCache) : t.view = s.view := by
  funext k
  rw [view,view,h]

lemma view_recount (tree : Table ℕ Node) (pid : ℕ) (count : ℕ → ℕ) (k : ℕ) :
    ((recount tree pid count).get k).map Node.summary = (tree.get k).map Node.summary := by
  unfold recount
  cases h : tree.get pid with
  | none => rfl
  | some parent =>
    rw [Table.get_set]
    split_ifs with hk
    · rw [hk,h]
      rfl
    · rfl

lemma view_applySpawned (s : Replica F) (evt : ProcessEvent) :
    (s.applySpawned evt).2.view = Function.update s.view evt.pid (some (spawnedNode evt).summary) := by
  funext k
  change ((recount _ _ _).get k).map Node.summary = _
  rw [view_recount,Table.get_set,Function.update_apply]
  split_ifs
  · rfl
  · rfl

lemma view_applyStateChanged (s : Replica F) (evt : ProcessEvent) :
    (s.applyStateChanged evt).2.view =
      Function.update s.view evt.pid ((s.view evt.pid).map (Summary.inState evt.newState)) := by
  unfold applyStateChanged
  cases h : s.treeCache.get evt.pid with
  | none =>
    have hview : s.view evt.pid = none := by simp [view,h]
    rw [hview,Option.map_none,← hview,Function.update_eq_self]
  | some node =>
    have hview : s.view evt.pid = some node.summary := by simp [view,h]
    funext k
    rw [hview,Function.update_apply]
    change ((s.treeCache.set _ _).get k).map Node.summary = _
    rw [Table.get_set]
    split_ifs
    · rfl
    · rfl

lemma view_applyRemoved (s : Replica F) (evt : ProcessEvent) :
    (s.applyRemoved evt).2.view = Function.update s.view evt.pid none := by
  unfold applyRemoved
  cases h : s.treeCache.get evt.pid with
  | none =>
    have hview : s.view evt.pid = none := by simp [view,h]
    rw [← hview,Function.update_eq_self]
  | some node =>
    funext k
    change ((recount _ _ _).get k).map Node.summary = _
    rw [view_recount,Table.get_erase,Function.update_apply]
    split_ifs
    · rfl
    · rfl

/-- The tree that an event makes of a tree: three types of events change it. -/
def shown (view : ℕ → Option Summary) (evt : ProcessEvent) : ℕ → Option Summary :=
  if evt.type = .spawned then Function.update view evt.pid (some (spawnedNode evt).summary)
  else if evt.type = .stateChanged then
    Function.update view evt.pid ((view evt.pid).map (Summary.inState evt.newState))
  else if evt.type = .removed then Function.update view evt.pid none
  else view

/-- The numbers of a call of a model can be read. -/
def Readable (py : Python F) (evt : ProcessEvent) : Prop :=
  evt.type = .llmCall → (py.int (fieldOr evt "total_tokens" "0")).isSome ∧
    (py.float (fieldOr evt "latency_ms" "0")).isSome

instance (py : Python F) (evt : ProcessEvent) : Decidable (Readable py evt) :=
  inferInstanceAs (Decidable (_ → _))

lemma readable_of_ne {py : Python F} {evt : ProcessEvent} (h : evt.type ≠ .llmCall) : Readable py evt :=
  fun hcall => absurd hcall h

lemma view_applyLlmCall (py : Python F) (s : Replica F) (evt : ProcessEvent) :
    (s.applyLlmCall py evt).2.view = s.view := by
  unfold applyLlmCall
  split
  · rfl
  · rfl

lemma treeCache_recordMessage (now : ℤ) (s : Replica F) (evt : ProcessEvent) :
    (s.recordMessage now evt).treeCache = s.treeCache := by
  simp only [recordMessage]

lemma treeCache_recordTask (s : Replica F) (entry : TaskEntry F) :
    (s.recordTask entry).treeCache = s.treeCache := by
  simp only [recordTask]

lemma view_applyMessageSent (py : Python F) (now : ℤ) (s : Replica F) (evt : ProcessEvent) :
    (s.applyMessageSent py now evt).2.view = s.view := by
  apply view_congr
  unfold applyMessageSent
  dsimp only
  split_ifs
  · cases taskEntry py now evt with
    | error e => exact treeCache_recordMessage now s evt
    | ok entry => exact (treeCache_recordTask _ entry).trans (treeCache_recordMessage now s evt)
  · exact treeCache_recordMessage now s evt

/-- Without a payload there is nothing to decode. -/
lemma applyMessageSent_isOk (py : Python F) (now : ℤ) (s : Replica F) {evt : ProcessEvent}
    (hpayload : evt.payloadPreview = "") : (s.applyMessageSent py now evt).1.isOk := by
  unfold applyMessageSent
  dsimp only
  rw [if_neg (fun h => h.2 hpayload)]
  rfl

lemma applyLlmCall_isOk_iff (py : Python F) (s : Replica F) (evt : ProcessEvent) :
    (s.applyLlmCall py evt).1.isOk ↔ (py.int (fieldOr evt "total_tokens" "0")).isSome ∧
      (py.float (fieldOr evt "latency_ms" "0")).isSome := by
  unfold applyLlmCall
  cases py.int (fieldOr evt "total_tokens" "0") with
  | none => simp [Except.isOk,Except.toBool]
  | some tokens =>
    cases py.float (fieldOr evt "latency_ms" "0") with
    | none => simp [Except.isOk,Except.toBool]
    | some latency => simp [Except.isOk,Except.toBool]

lemma view_applyNote (py : Python F) (now : ℤ) (s : Replica F) (evt : ProcessEvent) :
    (s.applyNote py now evt).2.view = s.view := by
  unfold applyNote
  split
  · rfl
  split
  · exact view_applyLlmCall py s evt
  split
  · rfl
  split
  · rfl
  split
  · rfl
  split
  · exact view_applyMessageSent py now s evt
  · rfl

/-- Without a payload only the numbers of a call can raise. -/
lemma applyNote_isOk_iff (py : Python F) (now : ℤ) (s : Replica F) {evt : ProcessEvent}
    (hpayload : evt.payloadPreview = "") :
    (s.applyNote py now evt).1.isOk ↔ Readable py evt := by
  by_cases hcall : evt.type = .llmCall
  · rw [Readable,forall_prop_of_true hcall,← applyLlmCall_isOk_iff py s]
    unfold applyNote
    rw [if_neg (by rw [hcall]; decide),if_pos hcall]
  · refine iff_of_true ?_ (readable_of_ne hcall)
    unfold applyNote
    split
    · rfl
    split
    · rfl
    split
    · rfl
    split
    · rfl
    split
    · exact applyMessageSent_isOk py now s hpayload
    · rfl

/-- What an event does to the tree depends on the tree alone. -/
lemma view_applyEvent (py : Python F) (now : ℤ) (s : Replica F) (evt : ProcessEvent) :
    (s.applyEvent py now evt).2.view = shown s.view evt := by
  unfold applyEvent shown
  dsimp only
  split_ifs
  · exact view_applySpawned _ evt
  · exact view_applyStateChanged _ evt
  · exact view_applyRemoved _ evt
  · exact view_applyNote py now _ evt

lemma applyEvent_isOk_iff (py : Python F) (now : ℤ) (s : Replica F) {evt : ProcessEvent}
    (hpayload : evt.payloadPreview = "") :
    (s.applyEvent py now evt).1.isOk ↔ Readable py evt := by
  unfold applyEvent
  dsimp only
  split_ifs with hspawned hchanged hremoved
  · exact iff_of_true rfl (readable_of_ne (by rw [hspawned]; decide))
  · exact iff_of_true rfl (readable_of_ne (by rw [hchanged]; decide))
  · exact iff_of_true rfl (readable_of_ne (by rw [hremoved]; decide))
  · exact applyNote_isOk_iff py now _ hpayload

lemma replayOne_eq_some {py : Python F} {clock : ℕ → ℤ} {s t : Replica F} {evt : ProcessEvent} :
    s.replayOne py clock evt = some t ↔
      (s.applyEvent py (clock evt.seq) evt).1.isOk ∧ (s.applyEvent py (clock evt.seq) evt).2 = t := by
  unfold replayOne
  cases s.applyEvent py (clock evt.seq) evt with
  | mk result s' =>
    cases result with
    | error e => simp [Except.isOk,Except.toBool]
    | ok delta => simp [Except.isOk,Except.toBool]

/-- The replay goes on over one more event, as long as that event can be read. -/
lemma replay_snoc {py : Python F} {clock : ℕ → ℤ} {s t : Replica F} {events : List ProcessEvent}
    (h : s.replay py clock events = some t) {evt : ProcessEvent} (hpayload : evt.payloadPreview = "")
    (goal : ℕ → Option Summary) :
    (∃ u, s.replay py clock (events ++ [evt]) = some u ∧ u.view = goal) ↔
      Readable py evt ∧ shown t.view evt = goal := by
  have hsnoc : s.replay py clock (events ++ [evt]) = t.replayOne py clock evt := by
    simp only [replay,List.foldlM_append,List.foldlM_cons,List.foldlM_nil,bind_pure]
    simp only [replay] at h
    rw [h]
    rfl
  rw [hsnoc,← applyEvent_isOk_iff py (clock evt.seq) t hpayload,← view_applyEvent py (clock evt.seq)]
  constructor
  · rintro ⟨u,hu,hview⟩
    obtain ⟨hok,rfl⟩ := replayOne_eq_some.mp hu
    exact ⟨hok,hview⟩
  · rintro ⟨hok,hview⟩
    exact ⟨_,replayOne_eq_some.mpr ⟨hok,rfl⟩,hview⟩

end Replica
end HiveKernel.Dashboard
