import HiveKernel.Lib.Coroutine
import HiveKernel.Sdk.JsonCodec
import HiveKernel.Sdk.DrainedResults

/-! The tasks of the queen: messages of other agents and streams of the kernel become programs of one event loop, which
assess the task, have a worker, a lead or an architect and a lead work on it, and report. What the interpreter does
with texts, and the texts of its own exceptions, are a parameter; the clock is left out. -/
namespace HiveKernel
open Lib Dashboard

/-- How an agent is spawned. -/
structure AgentSpec where
  name : String
  role : String
  cognitiveTier : String
  model : String
  systemPrompt : String
  runtimeImage : String
  runtimeType : String := "python"
  deriving DecidableEq

/-- What `execute_task` gives, and what a task gives in its turn. -/
structure TaskAnswer where
  exitCode : ℤ
  output : String
  artifacts : List (String × String) := []
  metadata : List (String × String) := []
  deriving DecidableEq

/-- The awaits of a task. `report_progress` only puts an entry into the queue of the stream. -/
inductive QueenCall
  | getArtifact (key : String)
  | log (level message : String)
  | spawnChild (agent : AgentSpec)
  | getProcessInfo (pid : ℕ)
  | executeTask (targetPID : ℕ) (description : String) (params : List (String × String)) (timeoutSeconds : ℕ)
  | killChild (pid : ℕ)
  | storeArtifact (key : String) (content : List UInt8) (contentType : String)
  | sendMessage (toPID : ℕ) (type : String) (payload : List UInt8) (replyTo : String)
  | ask (prompt : String) (maxTokens : ℕ)
  | reportProgress (message : String) (percent : ℕ)
  deriving DecidableEq

/-- An artifact gives its content, a process its state, a spawn its PID. -/
def QueenCall.Result : QueenCall → Type
  | getArtifact _ => List UInt8
  | spawnChild _ | getProcessInfo _ => ℕ
  | executeTask .. => TaskAnswer
  | ask .. => String
  | log .. | killChild _ | storeArtifact .. | sendMessage .. | reportProgress .. => Unit

abbrev QueenAnswer (q : QueenCall) : Type := AwaitOutcome q.Result

inductive Complexity
  | simple | complex | architect
  deriving DecidableEq

def Complexity.text : Complexity → String
  | simple => "simple"
  | complex => "complex"
  | architect => "architect"

structure HistoryEntry where
  task : String
  complexity : Complexity
  exitCode : ℤ
  deriving DecidableEq

/-- What the tasks share: the idle leads without their times, the last tasks, and the setting of the last stream. -/
structure Queen where
  idleLeads : List ℕ := []
  taskHistory : List HistoryEntry := []
  maxWorkers : String := "3"
  deriving DecidableEq

def maxHistory : ℕ := 20

/-- An exception, or the cancellation of the task, which `except Exception` does not catch. -/
inductive Raised
  | error (text : String)
  | cancelled
  deriving DecidableEq

/-- The exceptions of the interpreter itself. -/
inductive PyFault (F : Type)
  | undecodable (bytes : List UInt8)
  | unreadable (text : String) (e : PyError)
  | noAttribute (name : String) (value : Json F)
  | noSlice (value : Json F)
  | badParam (value : Json F)

/-- More functions of the interpreter: `str.lower`, `json.dumps` with and without `ensure_ascii`, and the text of an
exception. -/
structure QueenPython (F : Type) extends TextPython F where
  lower : String → String
  dumps : Bool → Json F → String
  complaint : PyFault F → String

abbrev QueenProgram (α : Type) : Type := ExceptT Raised (Coro Queen QueenCall QueenAnswer) α

namespace QueenTasks
variable {F α : Type}

def encode (s : String) : List UInt8 := s.toUTF8.toList

/-- `str.split` without a separator. -/
def words (s : String) : List String :=
  ((s.toList.splitOnP pythonSpace).filter (fun word => !word.isEmpty)).map String.ofList

def simpleKeywords : List String :=
  ["translate","summarize","define","explain","convert","format","count","list","describe","what"]

def complexKeywords : List String :=
  ["research","analyze","compare","investigate","plan","design","implement","evaluate","review","create",
    "develop","build","optimize","benchmark"]

def architectKeywords : List String :=
  ["architect","architecture","blueprint","roadmap","infrastructure","framework"]

/-- `_word_similarity` reaches the threshold of one half. -/
def similar (py : QueenPython F) (a b : String) : Bool :=
  let wa := (words (py.lower a)).dedup
  let wb := (words (py.lower b)).dedup
  !wa.isEmpty && !wb.isEmpty && decide ((wa ∪ wb).length ≤ 2*(wa.filter (· ∈ wb)).length)

def hits (description : List String) (keywords : List String) : ℕ := (description.dedup.filter (· ∈ keywords)).length

/-- Keywords and length; `none` where they do not decide. -/
def heuristic (py : QueenPython F) (description : String) : Option Complexity :=
  let found := words (py.lower description)
  if 1 ≤ hits found architectKeywords then some .architect
  else if description.length < 80 ∧ 0 < hits found simpleKeywords ∧ hits found complexKeywords = 0 then some .simple
  else if 200 < description.length ∨ 2 ≤ hits found complexKeywords then some .complex
  else none

def complexityPrompt (description : String) : String :=
  "You are a task complexity assessor. Determine the execution strategy for the following task.\n\n"++
    s!"Task: {description}\n\nOptions:\n"++
    "- \"simple\": single step, one agent can handle it\n"++
    "- \"complex\": needs decomposition into multiple subtasks\n"++
    "- \"architect\": needs strategic planning/design before execution\n\n"++
    "Reply with ONLY a JSON object: \x7b\"complexity\": \"simple\"\x7d or \x7b\"complexity\": \"complex\"\x7d or "++
    "\x7b\"complexity\": \"architect\"\x7d. No other text."

/-- The model may put its answer between fences. -/
def unfenced (response : String) : String :=
  let text := strip response
  if text.startsWith "```" then
    String.intercalate "\n" ((text.splitOn "\n").filter (fun line => !(strip line).startsWith "```"))
  else text

/-- What the model says; what it says otherwise counts as complex. -/
def modelComplexity (py : QueenPython F) (response : String) : Complexity :=
  match py.loads (unfenced response) with
  | .ok (.object data) => match data.lookup "complexity" with
    | some (.string "simple") => .simple
    | some (.string "architect") => .architect
    | _ => .complex
  | _ => .complex

/-- The text of the items, joined as `str.join` does it; `none` is a `TypeError`. -/
def joinTexts : Json F → Option (List String)
  | .array items => items.mapM (fun item => match item with
    | .string s => some s
    | _ => none)
  | .string s => some (s.toList.map (fun c => String.ofList [c]))
  | .object members => some (members.map Prod.fst)
  | _ => none

/-- The anomalies of a report of the maid; a report that cannot be read has none. -/
def healthWarning (py : QueenPython F) (content : List UInt8) : String :=
  match (py.decode content).map py.loads with
  | some (.ok (.object report)) => match report.lookup "anomalies" with
    | some anomalies =>
      if py.truth anomalies then String.intercalate "; " ((joinTexts anomalies).getD []) else ""
    | none => ""
  | _ => ""

/-- A key of a dictionary keeps its place. -/
def setKey (entries : List (String × String)) (key value : String) : List (String × String) :=
  if (entries.lookup key).isSome then entries.map (fun entry => if entry.1 = key then (key,value) else entry)
  else entries++[(key,value)]

def tagged (tags : List (String × String)) (answer : TaskAnswer) : TaskAnswer :=
  { answer with metadata := tags.foldl (fun metadata tag => setKey metadata tag.1 tag.2) answer.metadata }

def failed (text : String) : TaskAnswer := { exitCode := 1,output := text }

def textObject (entries : List (String × String)) : Json F :=
  .object (entries.map (fun entry => (entry.1,.string entry.2)))

def emptyReply (py : QueenPython F) : List UInt8 := encode (py.dumps true (.object [("error",.string "empty task")]))

def errorReply (py : QueenPython F) (text : String) : List UInt8 :=
  encode (py.dumps true (.object [("error",.string text),("exit_code",.int 1)]))

def resultReply (py : QueenPython F) (answer : TaskAnswer) : List UInt8 :=
  encode (py.dumps false (.object [("output",.string answer.output),("exit_code",.int answer.exitCode),
    ("metadata",textObject answer.metadata)]))

/-- What is stored of a task. -/
def resultContent (py : QueenPython F) (description : String) (complexity : Complexity) (answer : TaskAnswer) :
    List UInt8 :=
  encode (py.dumps false (.object [("task",.string description),("complexity",.string complexity.text),
    ("output",.string (answer.output.take 4000).toString),("exit_code",.int answer.exitCode)]))

def resultKey (py : QueenPython F) (description : String) : String :=
  "queen-result-"++(((py.lower description).replace " " "-").take 40).toString

def raise : AwaitOutcome α → Except Raised α
  | .ok a => .ok a
  | .error text => .error (.error text)
  | .cancelled => .error .cancelled

def call (q : QueenCall) : QueenProgram q.Result := Coro.ask q raise

def log (level message : String) : QueenProgram Unit := call (.log level message)

def spawnChild (agent : AgentSpec) : QueenProgram ℕ := call (.spawnChild agent)

def execute (targetPID : ℕ) (description : String) (params : List (String × String)) (timeoutSeconds : ℕ) :
    QueenProgram TaskAnswer := call (.executeTask targetPID description params timeoutSeconds)

def killChild (pid : ℕ) : QueenProgram Unit := call (.killChild pid)

/-- `except Exception`. -/
def catching (c : QueenProgram α) (handle : String → QueenProgram α) : QueenProgram α :=
  Coro.attempt c (fun e => match e with
    | .error text => some (handle text)
    | .cancelled => none)

/-- `except Exception: pass`. -/
def ignoring (c : QueenProgram Unit) : QueenProgram Unit := catching c (fun _ => pure ())

def checkMaidHealth (py : QueenPython F) : QueenProgram String :=
  catching (do
    let content ← call (.getArtifact "maid/health-report")
    pure (healthWarning py content)) (fun _ => pure "")

/-- Both kinds of tasks look at the health report first. -/
def warnOfHealth (py : QueenPython F) : QueenProgram Unit := do
  let warning ← checkMaidHealth py
  if warning = "" then pure () else log "warn" s!"Maid health: {warning}"

def assessComplexityLlm (py : QueenPython F) (description : String) : QueenProgram Complexity :=
  catching (do
    let response ← call (.ask (complexityPrompt description) 64)
    pure (modelComplexity py response)) (fun _ => pure .complex)

/-- History, heuristics, model. -/
def assessComplexity (py : QueenPython F) (description : String) : QueenProgram Complexity := do
  let queen ← Coro.read
  match queen.taskHistory.find? (fun entry => similar py entry.task description) with
  | some entry => pure entry.complexity
  | none => match heuristic py description with
    | some complexity => pure complexity
    | none => assessComplexityLlm py description

def leadAgent : AgentSpec where
  name := "queen-lead"
  role := "lead"
  cognitiveTier := "tactical"
  model := "sonnet"
  systemPrompt := "You are a task orchestrator. You decompose tasks, delegate to workers, and synthesize results."
  runtimeImage := "hivekernel_sdk.orchestrator:OrchestratorAgent"

def workerAgent : AgentSpec where
  name := "queen-task"
  role := "task"
  cognitiveTier := "operational"
  model := "mini"
  systemPrompt := "You are a skilled assistant. Complete the given task thoroughly and concisely."
  runtimeImage := "hivekernel_sdk.worker:WorkerAgent"

def architectAgent : AgentSpec where
  name := "architect"
  role := "task"
  cognitiveTier := "tactical"
  model := "sonnet"
  systemPrompt := "You are a strategic architect. "++
    "Analyze tasks thoroughly, identify challenges, and produce detailed execution plans."
  runtimeImage := "hivekernel_sdk.architect:ArchitectAgent"

/-- The loop over the idle leads goes on as long as there are any; other tasks may release leads in the meantime, so
that the number of its turns has no bound. -/
def acquireLead : ℕ → QueenProgram ℕ
  | 0 => ExceptT.mk .stuck
  | fuel+1 => do
    let queen ← Coro.read
    match queen.idleLeads with
    | [] => spawnChild leadAgent
    | pid::rest => do
      Coro.write { queen with idleLeads := rest }
      let alive ← catching (do
        let state : ℕ ← call (.getProcessInfo pid)
        pure (decide (state = 0 ∨ state = 1))) (fun _ => pure false)
      if alive then pure pid else acquireLead fuel

def releaseLead (pid : ℕ) : QueenProgram Unit := do
  let queen ← Coro.read
  Coro.write { queen with idleLeads := queen.idleLeads++[pid] }

/-- A trace identity that is no text cannot be put into the parameters. -/
def executeTask (py : QueenPython F) (targetPID : ℕ) (description : String) (params : List (String × String))
    (trace : Json F) (timeoutSeconds : ℕ) : QueenProgram TaskAnswer :=
  if !py.truth trace then execute targetPID description params timeoutSeconds
  else match trace with
    | .string trace => execute targetPID description (params++[("trace_id",trace)]) timeoutSeconds
    | trace => throw (.error (py.complaint (.badParam trace)))

/-- `if worker_pid`. -/
def killWorker (worker : ℕ) : QueenProgram Unit := if worker = 0 then pure () else ignoring (killChild worker)

/-- The worker is to be killed, however the execution ends. -/
def coreHandleSimple (py : QueenPython F) (description : String) (trace : Json F) : QueenProgram TaskAnswer :=
  catching (do
    log "info" "Simple strategy: spawning task worker"
    let worker ← spawnChild workerAgent
    -- the exceptions from here on find the worker spawned
    catching (do
      let answer ← executeTask py worker description [("subtask",description)] trace 120
      ignoring (killChild worker)
      pure (tagged [("strategy","simple")] answer)) (fun text => do
        killWorker worker
        pure (failed s!"Task failed: {text}"))) (fun text => pure (failed s!"Task failed: {text}"))

def coreHandleComplex (py : QueenPython F) (fuel : ℕ) (description : String) (trace : Json F) :
    QueenProgram TaskAnswer := do
  log "info" "Complex strategy: acquiring orchestrator lead"
  let lead ← acquireLead fuel
  catching (do
    let queen ← Coro.read
    let answer ← executeTask py lead description [("task",description),("max_workers",queen.maxWorkers)] trace 300
    releaseLead lead
    pure (tagged [("strategy","complex"),("lead_pid",toString lead)] answer)) (fun text => do
      ignoring (killChild lead)
      pure (failed s!"Task failed: {text}"))

/-- An architect that fails leaves the task to a lead alone. -/
def coreHandleArchitect (py : QueenPython F) (fuel : ℕ) (description : String) (trace : Json F) :
    QueenProgram TaskAnswer := do
  log "info" "Architect strategy: spawning strategic planner"
  let architect ← spawnChild architectAgent
  log "info" s!"Architect spawned as PID {architect}"
  let planned ← catching (do
    let queen ← Coro.read
    let plan ← executeTask py architect description [("task",description),("max_workers",queen.maxWorkers)] trace 120
    pure (Except.ok plan.output)) (fun text => pure (Except.error text))
  match planned with
  | .error text => do
    log "error" s!"Architect failed: {text}, falling back to complex"
    coreHandleComplex py fuel description trace
  | .ok plan => do
    log "info" s!"Architect plan received ({plan.length} bytes)"
    let lead ← acquireLead fuel
    catching (do
      let queen ← Coro.read
      let answer ← executeTask py lead description
        [("task",description),("plan",plan),("max_workers",queen.maxWorkers)] trace 300
      releaseLead lead
      pure (tagged [("strategy","architect"),("architect_pid",toString architect)] answer)) (fun text => do
        log "error" s!"Lead execution failed: {text}"
        ignoring (killChild lead)
        pure (failed s!"Architect execution failed: {text}"))

def strategy (py : QueenPython F) (fuel : ℕ) (description : String) (trace : Json F) :
    Complexity → QueenProgram TaskAnswer
  | .simple => coreHandleSimple py description trace
  | .architect => coreHandleArchitect py fuel description trace
  | .complex => coreHandleComplex py fuel description trace

/-- The history keeps the last tasks. -/
def recordTask (entry : HistoryEntry) : QueenProgram Unit := do
  let queen ← Coro.read
  Coro.write { queen with
    taskHistory := (queen.taskHistory++[entry]).drop (queen.taskHistory.length+1-maxHistory) }

def storeResult (py : QueenPython F) (description : String) (complexity : Complexity) (answer : TaskAnswer) :
    QueenProgram Unit :=
  ignoring (call (.storeArtifact (resultKey py description) (resultContent py description complexity answer)
    "application/json"))

/-- The members of the payload. -/
def readPayload (py : QueenPython F) (bytes : List UInt8) : Except String (List (String × Json F)) :=
  match py.decode bytes with
  | none => .error (py.complaint (.undecodable bytes))
  | some text => match py.loads text with
    | .error e => .error (py.complaint (.unreadable text e))
    | .ok (.object members) => .ok members
    | .ok value => .error (py.complaint (.noAttribute "get" value))

def messageDescription (payload : List (String × Json F)) : Json F :=
  (payload.lookup "task").getD ((payload.lookup "description").getD (.string ""))

def messageTrace (py : QueenPython F) (payload : List (String × Json F)) (uuid : String) : Json F :=
  let given := (payload.lookup "trace_id").getD (.string "")
  if py.truth given then given else .string uuid

/-- What a message has the queen do, up to the payload of the reply. A description that is no text gets as far as its
type allows: a list can be cut for the log, and it has no `lower`. -/
def messageReply (py : QueenPython F) (fuel : ℕ) (message : Message) (uuid : String) :
    QueenProgram (List UInt8) :=
  match readPayload py message.payload with
  | .error text => throw (.error text)
  | .ok payload =>
    if !py.truth (messageDescription payload) then pure (emptyReply py)
    else match messageDescription payload with
      | .string description => do
        warnOfHealth py
        let complexity ← assessComplexity py description
        let answer ← strategy py fuel description (messageTrace py payload uuid) complexity
        recordTask ⟨description,complexity,answer.exitCode⟩
        storeResult py description complexity answer
        pure (resultReply py answer)
      | .array items => do
        warnOfHealth py
        throw (.error (py.complaint (.noAttribute "lower" (.array items))))
      | value => throw (.error (py.complaint (.noSlice value)))

def processMessageTask (py : QueenPython F) (fuel : ℕ) (message : Message) (uuid : String) :
    QueenProgram (Option TaskAnswer) := do
  let payload ← catching (messageReply py fuel message uuid) (fun text => pure (errorReply py text))
  if message.fromPID = 0 then pure none
  else do
    ignoring (call (.sendMessage message.fromPID "task_response" payload message.replyTo))
    pure none

/-- Whether a message becomes a task. -/
def startsTask (message : Message) : Bool := message.type ∈ ["task_request","cron_task"]

/-- The acknowledgement, which does not wait for the task, is left out. -/
def handleMessage (py : QueenPython F) (fuel : ℕ) (message : Message) (uuid : String) :
    QueenProgram (Option TaskAnswer) :=
  if startsTask message then processMessageTask py fuel message uuid else pure none

structure StreamTask where
  description : String
  params : List (String × String)

def StreamTask.text (task : StreamTask) : String := (task.params.lookup "task").getD task.description

def StreamTask.trace (task : StreamTask) (uuid : String) : String :=
  let given := (task.params.lookup "trace_id").getD ""
  if given = "" then uuid else given

def announcement : Complexity → String
  | .simple => "Spawning task worker..."
  | .architect => "Spawning architect..."
  | .complex => "Acquiring orchestrator..."

def handleTask (py : QueenPython F) (fuel : ℕ) (task : StreamTask) (uuid : String) :
    QueenProgram (Option TaskAnswer) := do
  let queen ← Coro.read
  Coro.write { queen with maxWorkers := (task.params.lookup "max_workers").getD "3" }
  if strip task.text = "" then pure (some (failed "Empty task description"))
  else do
    call (.reportProgress "Assessing task complexity..." 5)
    log "info" s!"Queen received task: {(task.text.take 100).toString}"
    warnOfHealth py
    let complexity ← assessComplexity py task.text
    log "info" s!"Task complexity: {complexity.text}"
    call (.reportProgress (announcement complexity) 15)
    let answer ← strategy py fuel task.text (.string (task.trace uuid)) complexity
    recordTask ⟨task.text,complexity,answer.exitCode⟩
    call (.reportProgress "Storing result..." 95)
    storeResult py task.text complexity answer
    log "info" s!"Queen task done (exit={answer.exitCode})"
    pure (some answer)

/-- The messages to be sent, the workers that were spawned and not yet asked to be killed, and the last execution. -/
structure Ledger where
  sent : List (ℕ × String × List UInt8 × String) := []
  workers : List ℕ := []
  executed : Option (String × AwaitOutcome TaskAnswer) := none

def Ledger.noteSpawn (l : Ledger) (agent : AgentSpec) (pid : ℕ) : Ledger :=
  if agent = workerAgent ∧ pid ≠ 0 then { l with workers := pid::l.workers } else l

def Ledger.note (l : Ledger) : Interaction QueenCall QueenAnswer → Ledger
  | ⟨.sendMessage toPID type payload replyTo,_⟩ => { l with sent := l.sent++[(toPID,type,payload,replyTo)] }
  | ⟨.spawnChild agent,.ok pid⟩ => l.noteSpawn agent pid
  | ⟨.killChild pid,_⟩ => { l with workers := l.workers.erase pid }
  | ⟨.executeTask _ description _ _,answer⟩ => { l with executed := some (description,answer) }
  | _ => l

/-- The answer is a failure, or it is what an agent gave for this description. -/
def Reports (description : String) (answer : TaskAnswer) (l : Ledger) : Prop :=
  answer.exitCode = 1 ∨ ∃ given : TaskAnswer, l.executed = some (description,.ok given) ∧
    answer.output = given.output ∧ answer.exitCode = given.exitCode

/-- Nothing was sent, and these workers are left. -/
structure Holds (pids : List ℕ) (l : Ledger) : Prop where
  sent : l.sent = []
  workers : l.workers = pids

/-- However the awaits of the program end, it ends as `post` says, raises an exception as `error` says, or is
cancelled. -/
def Does (c : QueenProgram α) (l : Ledger) (post : α → Ledger → Prop) (error : Ledger → Prop) : Prop :=
  ∀ queen, Coro.wpE (fun _ => True) Ledger.note c (fun a _ l => post a l) (fun e _ l => match e with
    | .error _ => error l
    | .cancelled => True) queen l

variable {β : Type} {c : QueenProgram α} {l : Ledger} {post : α → Ledger → Prop} {error : Ledger → Prop}

lemma does_pure {a : α} (h : post a l) : Does (pure a) l post error := fun _ => h

lemma does_throw {text : String} (h : error l) : Does (throw (.error text) : QueenProgram α) l post error := fun _ => h

lemma does_stuck : Does (ExceptT.mk .stuck : QueenProgram α) l post error := fun _ => trivial

lemma Does.mono {post' : α → Ledger → Prop} {error' : Ledger → Prop} (h : Does c l post error)
    (hpost : ∀ a l, post a l → post' a l) (herror : ∀ l, error l → error' l) : Does c l post' error' := by
  intro queen
  refine Coro.wpE_mono (fun a _ l => hpost a l) (fun e _ l => ?_) (h queen)
  cases e with
  | error text => exact herror l
  | cancelled => exact id

lemma Does.bind {f : α → QueenProgram β} {R : α → Ledger → Prop} {post : β → Ledger → Prop}
    (h : Does c l R error) (hf : ∀ a l, R a l → Does (f a) l post error) : Does (c >>= f) l post error := by
  intro queen
  rw [Coro.wpE_bind]
  exact Coro.wpE_mono (fun a queen l ha => hf a l ha queen) (fun _ _ _ he => he) (h queen)

lemma does_read {f : Queen → QueenProgram α} (h : ∀ queen, Does (f queen) l post error) :
    Does (Coro.read >>= f) l post error := by
  intro queen
  rw [Coro.wpE_bind]
  exact h queen queen

lemma does_write {queen : Queen} {f : Unit → QueenProgram α} (h : Does (f ()) l post error) :
    Does (Coro.write queen >>= f) l post error := by
  intro _
  rw [Coro.wpE_bind]
  exact h queen

lemma does_call {q : QueenCall} {post : q.Result → Ledger → Prop} (hok : ∀ a, post a (l.note ⟨q,.ok a⟩))
    (herror : ∀ text, error (l.note ⟨q,.error text⟩)) : Does (call q) l post error := by
  intro queen
  rw [call,Coro.wpE_ask]
  refine ⟨trivial,fun r _ _ => ?_⟩
  cases r with
  | ok a => exact hok a
  | error text => exact herror text
  | cancelled => trivial

lemma does_catching {handle : String → QueenProgram α} {C : Ledger → Prop} (h : Does c l post C)
    (hhandle : ∀ text l, C l → Does (handle text) l post error) : Does (catching c handle) l post error := by
  intro queen
  refine (Coro.wpE_attempt _ _).mpr (Coro.wpE_mono (fun _ _ _ ha => ha) (fun e queen l he => ?_) (h queen))
  cases e with
  | error text => exact hhandle text l he queen
  | cancelled => trivial

/-- An await that the ledger does not note. -/
def Quiet (q : QueenCall) : Prop := ∀ l r, Ledger.note l ⟨q,r⟩ = l

lemma does_quiet {q : QueenCall} (hq : Quiet q) : Does (call q) l (fun _ l' => l' = l) (fun l' => l' = l) :=
  does_call (fun _ => hq l _) (fun _ => hq l _)

lemma quiet_spawn {agent : AgentSpec} (h : agent ≠ workerAgent) : Quiet (.spawnChild agent) := by
  intro l r
  cases r with
  | ok pid => exact if_neg (fun hagent => h hagent.1)
  | error text => rfl
  | cancelled => rfl

/-- A program that leaves the ledger as it is, also when it raises. -/
def Silent (c : QueenProgram α) : Prop := ∀ l, Does c l (fun _ l' => l' = l) (fun l' => l' = l)

lemma Quiet.silent {q : QueenCall} (hq : Quiet q) : Silent (call q) := fun _ => does_quiet hq

lemma silent_log (level message : String) : Silent (log level message) := Quiet.silent (fun _ _ => rfl)

lemma silent_pure (a : α) : Silent (pure a : QueenProgram α) := fun _ => does_pure rfl

lemma Silent.bind {f : α → QueenProgram β} (h : Silent c) (hf : ∀ a, Silent (f a)) : Silent (c >>= f) := by
  intro l
  refine (h l).bind (fun a l' hl => ?_)
  subst hl
  exact hf a l'

lemma Silent.catching {handle : String → QueenProgram α} (h : Silent c) (hhandle : ∀ text, Silent (handle text)) :
    Silent (catching c handle) := by
  intro l
  refine does_catching (h l) (fun text l' hl => ?_)
  subst hl
  exact hhandle text l'

/-- After a silent program everything goes on from the same ledger. -/
lemma Silent.then {f : α → QueenProgram β} {post : β → Ledger → Prop} (h : Silent c)
    (hf : ∀ a, Does (f a) l post error) (herror : error l) : Does (c >>= f) l post error := by
  refine Does.bind (R := fun _ l' => l' = l) ((h l).mono (fun _ _ => id) (fun l' hl => hl ▸ herror)) ?_
  intro a l' hl
  subst hl
  exact hf a

lemma silent_checkMaidHealth (py : QueenPython F) : Silent (checkMaidHealth py) :=
  Silent.catching (Silent.bind (Quiet.silent (fun _ _ => rfl)) (fun _ => silent_pure _)) (fun _ => silent_pure _)

lemma silent_warnOfHealth (py : QueenPython F) : Silent (warnOfHealth py) := by
  refine (silent_checkMaidHealth py).bind (fun warning => ?_)
  split
  · exact silent_pure ()
  · exact silent_log _ _

lemma silent_assessComplexity (py : QueenPython F) (description : String) :
    Silent (assessComplexity py description) := by
  intro l
  refine does_read (fun queen => ?_)
  split
  · exact does_pure rfl
  · split
    · exact does_pure rfl
    · exact Silent.catching (Silent.bind (Quiet.silent (fun _ _ => rfl)) (fun _ => silent_pure _))
        (fun _ => silent_pure _) l

lemma silent_acquireLead (fuel : ℕ) : Silent (acquireLead fuel) := by
  induction fuel with
  | zero => exact fun _ => does_stuck
  | succ fuel ih =>
    intro l
    refine does_read (fun queen => ?_)
    split
    · exact (quiet_spawn (by decide)).silent l
    · refine does_write (Silent.then ?_ (fun alive => ?_) rfl)
      · exact Silent.catching (Silent.bind (Quiet.silent (fun _ _ => rfl)) (fun _ => silent_pure _))
          (fun _ => silent_pure _)
      · split_ifs
        · exact does_pure rfl
        · exact ih l

lemma silent_releaseLead (pid : ℕ) : Silent (releaseLead pid) := fun _ => does_read (fun _ _ => rfl)

lemma does_executeTask (py : QueenPython F) (pid : ℕ) (description : String) (params : List (String × String))
    (trace : Json F) (timeout : ℕ) {pids : List ℕ} (h : Holds pids l) :
    Does (executeTask py pid description params trace timeout) l
      (fun answer l' => Holds pids l' ∧ l'.executed = some (description,.ok answer)) (Holds pids) := by
  have hcall : ∀ params', Does (execute pid description params' timeout) l
      (fun answer l' => Holds pids l' ∧ l'.executed = some (description,.ok answer)) (Holds pids) :=
    fun params' => does_call (fun answer => ⟨⟨h.sent,h.workers⟩,rfl⟩) (fun text => ⟨h.sent,h.workers⟩)
  unfold executeTask
  split
  · exact hcall params
  · split
    · exact hcall _
    · exact does_throw h

lemma does_killChild (pid : ℕ) {pids : List ℕ} (h : Holds pids l) : Does (ignoring (killChild pid)) l
    (fun _ l' => Holds (pids.erase pid) l' ∧ l'.executed = l.executed) error := by
  have hkill : ∀ r, Holds (pids.erase pid) (l.note ⟨.killChild pid,r⟩) :=
    fun r => ⟨h.sent,congrArg (List.erase · pid) h.workers⟩
  refine does_catching (C := fun l' => Holds (pids.erase pid) l' ∧ l'.executed = l.executed) ?_
    (fun _ _ hcaught => does_pure hcaught)
  exact does_call (fun _ => ⟨hkill _,rfl⟩) (fun _ => ⟨hkill _,rfl⟩)

/-- What the ledger has of a worker. -/
def heldWorker (pid : ℕ) : List ℕ := if pid = 0 then [] else [pid]

lemma erase_heldWorker (pid : ℕ) : (heldWorker pid).erase pid = [] := by
  unfold heldWorker
  split_ifs
  · rfl
  · exact List.erase_cons_head pid []

lemma does_spawnWorker (h : Holds [] l) :
    Does (spawnChild workerAgent) l (fun pid l' => Holds (heldWorker pid) l') (Holds []) := by
  refine does_call (fun (pid : ℕ) => ?_) (fun _ => h)
  change Holds (heldWorker pid) (l.noteSpawn workerAgent pid)
  unfold Ledger.noteSpawn
  rcases eq_or_ne pid 0 with rfl | hpid
  · rw [if_neg (fun hspawn => hspawn.2 rfl)]
    exact h
  · rw [if_pos ⟨rfl,hpid⟩,heldWorker,if_neg hpid]
    exact ⟨h.sent,congrArg (pid::·) h.workers⟩

lemma does_killWorker {worker : ℕ} (h : Holds (heldWorker worker) l) :
    Does (killWorker worker) l (fun _ l' => Holds [] l') error := by
  unfold killWorker
  split_ifs with hzero
  · rw [heldWorker,if_pos hzero] at h
    exact does_pure h
  · refine (does_killChild worker h).mono (fun _ l hkilled => ?_) (fun _ => id)
    rw [erase_heldWorker] at hkilled
    exact hkilled.1

/-- A strategy ends with an answer and no worker left. -/
def Ends (description : String) (answer : TaskAnswer) (l : Ledger) : Prop := Holds [] l ∧ Reports description answer l

lemma does_failed {description text : String} (h : Holds [] l) :
    Does (pure (failed text)) l (Ends description) error := does_pure ⟨h,.inl rfl⟩

lemma does_coreHandleSimple (py : QueenPython F) (description : String) (trace : Json F) (h : Holds [] l) :
    Does (coreHandleSimple py description trace) l (Ends description) error := by
  refine does_catching (C := Holds []) ?_ (fun _ _ hcaught => does_failed hcaught)
  refine (silent_log _ _).then (fun _ => (does_spawnWorker h).bind (fun worker l hworker => ?_)) h
  refine does_catching (C := Holds (heldWorker worker)) ?_ (fun text l hcaught => ?_)
  · refine (does_executeTask py worker description _ trace 120 hworker).bind (fun answer l hanswer => ?_)
    refine (does_killChild worker hanswer.1).bind (fun _ l hkilled => does_pure ⟨?_,.inr ⟨answer,?_,rfl,rfl⟩⟩)
    · rw [erase_heldWorker] at hkilled
      exact hkilled.1
    · rw [hkilled.2,hanswer.2]
  · exact (does_killWorker hcaught).bind (fun _ _ hkilled => does_failed hkilled)

/-- A lead executes the task, goes back to the idle ones, and is to be killed if it fails. -/
lemma does_lead (py : QueenPython F) (lead : ℕ) (description : String) (params : Queen → List (String × String))
    (trace : Json F) (tags : List (String × String)) {handle : String → QueenProgram TaskAnswer} (h : Holds [] l)
    (hhandle : ∀ text l, Holds [] l → Does (handle text) l (Ends description) (Holds [])) :
    Does (catching (do
      let queen ← Coro.read
      let answer ← executeTask py lead description (params queen) trace 300
      releaseLead lead
      pure (tagged tags answer)) handle) l (Ends description) (Holds []) := by
  refine does_catching (does_read (fun queen => ?_)) hhandle
  refine (does_executeTask py lead description _ trace 300 h).bind (fun answer l hanswer => ?_)
  exact (silent_releaseLead lead).then (fun _ => does_pure ⟨hanswer.1,.inr ⟨answer,hanswer.2,rfl,rfl⟩⟩) hanswer.1

lemma does_killLead (lead : ℕ) {description text : String} (h : Holds [] l) : Does (do
    ignoring (killChild lead)
    pure (failed text)) l (Ends description) (Holds []) :=
  (does_killChild lead h).bind (fun _ _ hkilled => does_failed hkilled.1)

lemma does_coreHandleComplex (py : QueenPython F) (fuel : ℕ) (description : String) (trace : Json F)
    (h : Holds [] l) : Does (coreHandleComplex py fuel description trace) l (Ends description) (Holds []) := by
  refine (silent_log _ _).then (fun _ => (silent_acquireLead fuel).then (fun lead => ?_) h) h
  exact does_lead py lead description _ trace _ h (fun text l hcaught => does_killLead lead hcaught)

lemma does_coreHandleArchitect (py : QueenPython F) (fuel : ℕ) (description : String) (trace : Json F)
    (h : Holds [] l) : Does (coreHandleArchitect py fuel description trace) l (Ends description) (Holds []) := by
  refine (silent_log _ _).then (fun _ => ?_) h
  refine (Quiet.silent (quiet_spawn (by decide))).then (fun architect => ?_) h
  refine (silent_log _ _).then (fun _ => ?_) h
  refine Does.bind (R := fun _ => Holds []) ?_ (fun planned l hplanned => ?_)
  · refine does_catching (C := Holds []) (does_read (fun queen => ?_)) (fun _ _ hcaught => does_pure hcaught)
    exact (does_executeTask py architect description _ trace 120 h).bind (fun _ _ hplan => does_pure hplan.1)
  · cases planned with
    | error text =>
      exact (silent_log _ _).then (fun _ => does_coreHandleComplex py fuel description trace hplanned) hplanned
    | ok plan =>
      refine (silent_log _ _).then (fun _ => (silent_acquireLead fuel).then (fun lead => ?_) hplanned) hplanned
      refine does_lead py lead description _ trace _ hplanned (fun text l hcaught => ?_)
      exact (silent_log _ _).then (fun _ => does_killLead lead hcaught) hcaught

/-- Whatever the strategy, the answer is that of the last agent that worked on the task, or a failure. -/
lemma does_strategy (py : QueenPython F) (fuel : ℕ) (description : String) (trace : Json F) (complexity : Complexity)
    (h : Holds [] l) : Does (strategy py fuel description trace complexity) l (Ends description) (Holds []) := by
  cases complexity with
  | simple => exact does_coreHandleSimple py description trace h
  | complex => exact does_coreHandleComplex py fuel description trace h
  | architect => exact does_coreHandleArchitect py fuel description trace h

lemma silent_recordTask (entry : HistoryEntry) : Silent (recordTask entry) := fun _ => does_read (fun _ _ => rfl)

lemma silent_storeResult (py : QueenPython F) (description : String) (complexity : Complexity) (answer : TaskAnswer) :
    Silent (storeResult py description complexity answer) :=
  Silent.catching (Quiet.silent (fun _ _ => rfl)) (fun _ => silent_pure ())

/-- What the payload of the reply to a message says. -/
inductive Told (py : QueenPython F) (message : Message) (l : Ledger) : List UInt8 → Prop
  | empty {payload : List (String × Json F)} (hread : readPayload py message.payload = .ok payload)
      (hempty : py.truth (messageDescription payload) = false) : Told py message l (emptyReply py)
  | error (text : String) : Told py message l (errorReply py text)
  | result {payload : List (String × Json F)} {description : String} {answer : TaskAnswer}
      (hread : readPayload py message.payload = .ok payload)
      (hdescription : messageDescription payload = .string description) (hreports : Reports description answer l) :
      Told py message l (resultReply py answer)

/-- There is one reply to a task, if there is somebody to get it. -/
def Answered (py : QueenPython F) (message : Message) (l : Ledger) : Prop :=
  if startsTask message ∧ message.fromPID ≠ 0 then
    ∃ payload, l.sent = [(message.fromPID,"task_response",payload,message.replyTo)] ∧ Told py message l payload
  else l.sent = []

lemma does_messageReply (py : QueenPython F) (fuel : ℕ) (message : Message) (uuid : String) (h : Holds [] l) :
    Does (messageReply py fuel message uuid) l (fun reply l' => Holds [] l' ∧ Told py message l' reply) (Holds []) := by
  unfold messageReply
  cases hread : readPayload py message.payload with
  | error text => exact does_throw h
  | ok payload =>
    dsimp only
    split
    next hempty => exact does_pure ⟨h,.empty hread (by simpa using hempty)⟩
    next =>
      split
      next description hdescription =>
        refine (silent_warnOfHealth py).then (fun _ => ?_) h
        refine (silent_assessComplexity py description).then (fun complexity => ?_) h
        refine (does_strategy py fuel description _ complexity h).bind (fun answer l hends => ?_)
        refine (silent_recordTask _).then (fun _ => ?_) hends.1
        refine (silent_storeResult py description complexity answer).then (fun _ => ?_) hends.1
        exact does_pure ⟨hends.1,.result hread hdescription hends.2⟩
      next => exact (silent_warnOfHealth py).then (fun _ => does_throw h) h
      next => exact does_throw h

lemma does_handleMessage (py : QueenPython F) (fuel : ℕ) (message : Message) (uuid : String) (h : Holds [] l) :
    Does (handleMessage py fuel message uuid) l
      (fun result l' => l'.workers = [] ∧ result = none ∧ Answered py message l') (fun _ => False) := by
  unfold handleMessage
  split
  next hstarts =>
    refine Does.bind (R := fun reply l' => Holds [] l' ∧ Told py message l' reply) ?_ (fun reply l hreply => ?_)
    · exact does_catching (does_messageReply py fuel message uuid h) (fun text _ hcaught =>
        does_pure ⟨hcaught,.error text⟩)
    · split
      next hnobody => exact does_pure ⟨hreply.1.workers,rfl,by
        rw [Answered,if_neg (fun hsend => hsend.2 hnobody)]
        exact hreply.1.sent⟩
      next hsender =>
        have hsent : ∀ r, (l.note ⟨.sendMessage message.fromPID "task_response" reply message.replyTo,r⟩).workers = [] ∧
            Answered py message (l.note ⟨.sendMessage message.fromPID "task_response" reply message.replyTo,r⟩) := by
          intro r
          refine ⟨hreply.1.workers,?_⟩
          rw [Answered,if_pos ⟨hstarts,hsender⟩]
          refine ⟨reply,?_,?_⟩
          · exact congrArg (·++[(message.fromPID,"task_response",reply,message.replyTo)]) hreply.1.sent
          · cases hreply.2 with
            | empty hread hempty => exact .empty hread hempty
            | error text => exact .error text
            | result hread hdescription hreports => exact .result hread hdescription hreports
        refine Does.bind (R := fun _ l' => l'.workers = [] ∧ Answered py message l') ?_
          (fun _ _ hanswered => does_pure ⟨hanswered.1,rfl,hanswered.2⟩)
        exact does_catching (does_call (fun _ => hsent _) (fun _ => hsent _)) (fun _ _ hcaught => does_pure hcaught)
  next hstarts => exact does_pure ⟨h.workers,rfl,by
    rw [Answered,if_neg (fun hsend => hstarts hsend.1)]
    exact h.sent⟩

lemma silent_reportProgress (message : String) (percent : ℕ) : Silent (call (.reportProgress message percent)) :=
  Quiet.silent (fun _ _ => rfl)

lemma does_handleTask (py : QueenPython F) (fuel : ℕ) (task : StreamTask) (uuid : String) (h : Holds [] l) :
    Does (handleTask py fuel task uuid) l
      (fun result l' => Holds [] l' ∧ ∃ answer, result = some answer ∧ Reports task.text answer l') (Holds []) := by
  refine does_read (fun queen => does_write ?_)
  split
  · exact does_pure ⟨h,_,rfl,.inl rfl⟩
  · refine (silent_reportProgress _ _).then (fun _ => ?_) h
    refine (silent_log _ _).then (fun _ => ?_) h
    refine (silent_warnOfHealth py).then (fun _ => ?_) h
    refine (silent_assessComplexity py task.text).then (fun complexity => ?_) h
    refine (silent_log _ _).then (fun _ => ?_) h
    refine (silent_reportProgress _ _).then (fun _ => ?_) h
    refine (does_strategy py fuel task.text _ complexity h).bind (fun answer l hends => ?_)
    refine (silent_recordTask _).then (fun _ => ?_) hends.1
    refine (silent_reportProgress _ _).then (fun _ => ?_) hends.1
    refine (silent_storeResult py task.text complexity answer).then (fun _ => ?_) hends.1
    refine (silent_log _ _).then (fun _ => ?_) hends.1
    exact does_pure ⟨hends.1,answer,rfl,hends.2⟩

/-- What reaches the queen. -/
inductive QueenWork
  | message (message : Message)
  | stream (task : StreamTask)

abbrev QueenResult : Type := Except Raised (Option TaskAnswer)

namespace QueenWork

def program (py : QueenPython F) (fuel : ℕ) (uuid : String) : QueenWork → Coro Queen QueenCall QueenAnswer QueenResult
  | message received => (handleMessage py fuel received uuid).run
  | stream task => (handleTask py fuel task uuid).run

/-- A message is answered; a stream sends nothing, and returns what an agent gave or a failure unless it raises. -/
def Done (py : QueenPython F) (result : QueenResult) (l : Ledger) : QueenWork → Prop
  | message received => result = .ok none ∧ Answered py received l
  | stream task => l.sent = [] ∧
    ((∃ text, result = .error (.error text)) ∨ ∃ answer, result = .ok (some answer) ∧ Reports task.text answer l)

/-- What holds of a piece of work when it is over and was not cancelled. -/
def Settled (py : QueenPython F) (work : QueenWork) (result : QueenResult) (l : Ledger) : Prop :=
  result ≠ .error .cancelled → l.workers = [] ∧ work.Done py result l

lemma wp_program (py : QueenPython F) (fuel : ℕ) (uuid : String) (work : QueenWork) (queen : Queen) :
    (work.program py fuel uuid).wp (fun _ => True) Ledger.note
      (fun result _ l => True ∧ work.Settled py result l) queen ({} : Ledger) := by
  have hempty : Holds [] ({} : Ledger) := ⟨rfl,rfl⟩
  cases work with
  | message received =>
    refine Coro.wp_mono (fun result _ l h => ⟨trivial,fun hcancel => ?_⟩)
      (does_handleMessage py fuel received uuid hempty queen)
    cases result with
    | ok answer => exact ⟨h.1,congrArg Except.ok h.2.1,h.2.2⟩
    | error e =>
      cases e with
      | error text => exact h.elim
      | cancelled => exact absurd rfl hcancel
  | stream task =>
    refine Coro.wp_mono (fun result _ l h => ⟨trivial,fun hcancel => ?_⟩)
      (does_handleTask py fuel task uuid hempty queen)
    cases result with
    | ok answer =>
      obtain ⟨hholds,answer,rfl,hreports⟩ := h
      exact ⟨hholds.workers,hholds.sent,.inr ⟨answer,rfl,hreports⟩⟩
    | error e =>
      cases e with
      | error text => exact ⟨h.workers,h.sent,.inl ⟨text,rfl⟩⟩
      | cancelled => exact absurd rfl hcancel

end QueenWork

/-- However the tasks take turns, and whatever the kernel, the agents and the model answer: a task that is over and
was not cancelled has asked for the kill of every worker that it spawned; for a message it has asked once for a reply to
be sent, which may fail, and what a reply or a stream reports as the result is what an agent gave for this
description. -/
theorem work_settled (py : QueenPython F) {queen : Queen}
    {trace : List (Transition (Pool Queen QueenCall QueenAnswer QueenResult)
      (PoolOp Queen QueenCall QueenAnswer QueenResult))} {p : Pool Queen QueenCall QueenAnswer QueenResult}
    (run : Run Pool.step { shared := queen } trace p) {e : Transition _ _} (he : e ∈ trace) {i fuel : ℕ}
    {work : QueenWork} {uuid : String} (hstart : e.label = .start i (work.program py fuel uuid)) {result : QueenResult}
    (hover : p.turns.get i = some (.ended result)) (hcancel : result ≠ .error .cancelled) :
    (p.noted Ledger.note {} i).workers = [] ∧ work.Done py result (p.noted Ledger.note {} i) := by
  have hsettled : work.Settled py result (p.noted Ledger.note {} i) := by
    have hothers : ∀ e ∈ trace, ∀ j program, e.label = .start j program → ∀ queen, True →
        program.wp (fun _ => True) Ledger.note (fun _ _ _ => True) queen ({} : Ledger) :=
      fun _ _ _ program _ queen _ => Coro.wp_of_forall program (fun _ => trivial) (fun _ _ _ => trivial) queen _
    exact Pool.ended_of_run run trivial hothers he hstart (fun queen _ => work.wp_program py fuel uuid queen) hover
  exact hsettled hcancel

def definitionText : String := "\x7b\"task\": \"define entropy\"\x7d"

/-- An interpreter as far as one small request needs it. -/
def definitionPython : QueenPython ℕ where
  int _ := none
  float _ := none
  zero := 0
  add := Nat.add
  isZero x := x == 0
  str x := toString x
  loads _ := .ok (.object [("task",.string "define entropy")])
  decode _ := some definitionText
  decodeReplace _ := definitionText
  format _ := ""
  lower s := s
  dumps _ d := String.ofList (JsonCodec.dumps JsonCodec.wholeFloats d)
  complaint _ := "exception"

def definitionRequest : Message where
  fromPID := 3
  type := "task_request"
  payload := encode definitionText
  replyTo := "r1"

/-- There is no health report, and everything else goes well. -/
def helpfulAnswer : (q : QueenCall) → QueenAnswer q
  | .getArtifact _ => .error "not found"
  | .spawnChild _ | .getProcessInfo _ => .ok (7 : ℕ)
  | .executeTask .. => .ok (⟨0,"a measure of disorder",[],[]⟩ : TaskAnswer)
  | .ask .. => .ok "simple"
  | .log .. | .killChild _ | .storeArtifact .. | .sendMessage .. | .reportProgress .. => .ok ()

def definitionWork : QueenWork := .message definitionRequest

theorem work_settled_definition : ∃ p : Pool Queen QueenCall QueenAnswer QueenResult,
    p.turns.get 0 = some (.ended (.ok none)) ∧ (p.noted Ledger.note {} 0).workers = [] ∧
      definitionWork.Done definitionPython (.ok none) (p.noted Ledger.note {} 0) := by
  have hover : ((Pool.step { shared := {} } (.start 0 (definitionWork.program definitionPython 1 "u1"))).bind
      (exec Pool.step (List.replicate 7 (.answer 0 helpfulAnswer)))).bind (fun p => p.turns.get 0) =
        some (.ended (.ok none)) := rfl
  obtain ⟨p,hexec,hp⟩ := Option.bind_eq_some_iff.mp hover
  obtain ⟨started,hstart,hrest⟩ := Option.bind_eq_some_iff.mp hexec
  refine ⟨p,hp,?_⟩
  exact work_settled definitionPython (.cons hstart (.of_exec hrest)) List.mem_cons_self rfl hp (by simp)

end QueenTasks
end HiveKernel
