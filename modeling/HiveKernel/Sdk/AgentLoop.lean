import HiveKernel.Sdk.AgentMemory
import HiveKernel.Lib.Run

/-! The loop of an agent: load the memory, add the prompt, call the model and the tools it asks for until
it answers, then save the memory. A run gives up control only where it waits: for the artifact store, for
the model and for a tool. The two log calls of an iteration touch nothing that is shared, so each belongs to
the step after it. -/
namespace HiveKernel
open Lib

/-- What a run gets from outside. `toolsOverhead` is a third of the length of the tool schemas as JSON, and
`contentArg` reads the string `content` out of the arguments of a call, if it is there. -/
structure LoopConfig where
  maxIterations : ℕ
  systemPrompt : String
  toolsOverhead : ℕ
  callsLength : List ToolCall → ℕ
  registered : String → Bool
  contentArg : String → Option String

/-- What the model is called with. -/
structure ChatRequest where
  messages : List ChatMessage
  system : String
  deriving DecidableEq, Repr

/-- Where a run waits. A load waits for what the store held when it was asked, a save with the memory as it
was when the call was made; of both only the part under the key matters. -/
inductive LoopStage
  | loading (key : MemoryKey) (found : Option AgentStore)
  | calling (iteration retry : ℕ) (request : ChatRequest)
  | executing (iteration : ℕ) (content : String) (call : ToolCall) (rest : List ToolCall)
  | recording (iteration : ℕ) (content : String) (call : ToolCall) (rest : List ToolCall) (result : String)
  | summarizing (answer summaryPrompt : String) (keep : List ChatMessage)
  | saving (key : MemoryKey) (answer : String) (data : AgentMemory) (written : Bool)
  | returned (answer : String)
  | raised
  deriving DecidableEq, Repr

/-- A run of the loop. Whether a compression has cut the long-term text that it has loaded, and what
`memory_store` has last written, are recorded for the statements; no step looks at them. -/
structure LoopRun where
  prompt : String
  stage : LoopStage := .loading .memory none
  trimmed : Bool := false
  lastStored : Option String := none
  deriving DecidableEq, Repr

/-- What the runs of one agent share. -/
structure AgentData where
  memory : AgentMemory
  store : AgentStore
  deriving DecidableEq, Repr

/-- What a waiting run is given: an artifact or the failure to get it, an answer of the model, an error that
says that the context is too long, another error, what a tool writes and how it ends, a summary or the
failure to get one. -/
inductive LoopEvent
  | fetch | fetchFails | resume
  | respond (content : String) (toolCalls : List ToolCall)
  | overflow | llmFails
  | toolWrites (store : AgentStore)
  | tool (result : String)
  | toolFails (error : String)
  | record
  | summarize (summary : Option String)
  | write | storeFails
  deriving DecidableEq, Repr

namespace LoopConfig
variable (cfg : LoopConfig)

def tokens (m : AgentMemory) : ℕ := m.estimateTotalTokens cfg.callsLength

def contextBudget : ℕ := 80000

def overBudget (m : AgentMemory) : Bool :=
  decide (contextBudget < cfg.tokens m+cfg.toolsOverhead+cfg.systemPrompt.length/3)

/-- The loop of the pre-flight compression. It stops where a compression does not gain anything, so it
makes at most as many rounds as there are tokens. -/
def compressLoop : ℕ → AgentMemory → AgentMemory
  | 0,m => m
  | fuel+1,m =>
    if cfg.overBudget m then
      if cfg.tokens m.forceCompress < cfg.tokens m then compressLoop fuel m.forceCompress else m.forceCompress
    else m

def preflight (m : AgentMemory) : AgentMemory := cfg.compressLoop (cfg.tokens m+1) m

/-- Whether one of its compressions is of the last kind, which cuts the long-term text. -/
def compressLoopTrims : ℕ → AgentMemory → Bool
  | 0,_ => false
  | fuel+1,m => cfg.overBudget m &&
    (decide (m.messages.length ≤ 2) ||
      (decide (cfg.tokens m.forceCompress < cfg.tokens m) && compressLoopTrims fuel m.forceCompress))

def preflightTrims (m : AgentMemory) : Bool := cfg.compressLoopTrims (cfg.tokens m+1) m

def request (m : AgentMemory) : ChatRequest :=
  let messages := m.getContextMessages cfg.systemPrompt
  { messages := messages.tail
    system := (messages.head?.map ChatMessage.content).getD "" }

def summaryPrompt (old : List ChatMessage) : String :=
  old.foldl (fun text msg => if msg.content = "" then text else text++s!"{msg.role.text}: {msg.content}\n")
    "Summarize this conversation concisely, preserving key facts, decisions, and results:\n\n"

/-- Enter the loop of the model calls. Without any iteration the source reads a variable that it has not
set. -/
def enterLoop (m : AgentMemory) : LoopStage :=
  if cfg.maxIterations = 0 then .raised else .calling 1 0 (cfg.request m)

/-- What follows the loop of the model calls. -/
def endLoop (m : AgentMemory) (answer : String) : LoopStage :=
  if m.needsSummarization cfg.callsLength ∧ 4 < m.messages.length then
    .summarizing answer (summaryPrompt (m.messages.rdrop 4)) (m.messages.rtake 4)
  else .saving .memory answer m false

def nextIteration (m : AgentMemory) (iteration : ℕ) (content : String) : LoopStage :=
  if iteration < cfg.maxIterations then .calling (iteration+1) 0 (cfg.request m)
  else cfg.endLoop m (if content = "" then "Max iterations reached" else content)

/-- What follows the result of one tool. -/
def nextCall (m : AgentMemory) (iteration : ℕ) (content : String) : List ToolCall → LoopStage
  | [] => cfg.nextIteration m iteration content
  | call::rest => .executing iteration content call rest

/-- `AgentLoop.run` up to its first call of the model. -/
def start (agent : AgentData) (run : LoopRun) : AgentData × LoopRun :=
  let prompted := agent.memory.addMessage .user run.prompt [] ""
  ({ agent with memory := cfg.preflight prompted },
    { run with
      stage := cfg.enterLoop (cfg.preflight prompted)
      trimmed := run.trimmed || cfg.preflightTrims prompted })

/-- A load goes on with the next artifact, and after the last one with the loop. -/
def loaded (agent : AgentData) (run : LoopRun) (found : AgentStore) (key : MemoryKey) : AgentData × LoopRun :=
  let agent := { agent with memory := agent.memory.assign found key }
  match key with
  | .memory => (agent,{ run with stage := .loading .session none, trimmed := false })
  | .session => (agent,{ run with stage := .loading .summary none })
  | .summary => cfg.start agent run

lemma compressLoop_of_tokens_lt {fuel fuel' : ℕ} {m : AgentMemory} (h : cfg.tokens m < fuel)
    (h' : cfg.tokens m < fuel') : cfg.compressLoop fuel m = cfg.compressLoop fuel' m := by
  induction fuel generalizing fuel' m with
  | zero => omega
  | succ fuel ih =>
    obtain ⟨fuel',rfl⟩ : ∃ n, fuel' = n+1 := ⟨fuel'-1,by omega⟩
    rw [compressLoop,compressLoop]
    split
    · split
      · apply ih <;> omega
      · rfl
    · rfl

/-- The fuel is always enough: the compression runs as the loop of the source says. -/
theorem preflight_eq (m : AgentMemory) : cfg.preflight m =
    if cfg.overBudget m then
      if cfg.tokens m.forceCompress < cfg.tokens m then cfg.preflight m.forceCompress else m.forceCompress
    else m := by
  rw [preflight,compressLoop]
  split
  · split
    · exact cfg.compressLoop_of_tokens_lt ‹_› (by omega)
    · rfl
  · rfl

lemma preflight_of_not_overBudget {m : AgentMemory} (h : cfg.overBudget m = false) : cfg.preflight m = m := by
  rw [preflight_eq,h]
  rfl

/-- A compression keeps the end of the messages. -/
lemma preflight_messages_suffix (m : AgentMemory) : (cfg.preflight m).messages <:+ m.messages := by
  have hcompress (m : AgentMemory) : m.forceCompress.messages <:+ m.messages := by
    rw [m.forceCompress_messages]
    exact List.drop_suffix _ _
  induction h : cfg.tokens m using Nat.strong_induction_on generalizing m with
  | _ n ih =>
    rw [preflight_eq]
    split
    · split
      · exact (ih _ (h ▸ ‹_›) m.forceCompress rfl).trans (hcompress m)
      · exact hcompress m
    · exact List.suffix_rfl

lemma compressLoop_longTerm (fuel : ℕ) (m : AgentMemory) : (cfg.compressLoop fuel m).longTerm =
    if cfg.compressLoopTrims fuel m then lastChars 1000 m.longTerm else m.longTerm := by
  induction fuel generalizing m with
  | zero => rfl
  | succ fuel ih =>
    rw [compressLoop,compressLoopTrims]
    by_cases hover : cfg.overBudget m = true
    · by_cases hlt : cfg.tokens m.forceCompress < cfg.tokens m
      · rw [if_pos hover,if_pos hlt,ih,m.forceCompress_longTerm]
        by_cases hlast : m.messages.length ≤ 2
        · simp [hover,hlast,lastChars_lastChars]
        · simp [hover,hlast,hlt]
      · rw [if_pos hover,if_neg hlt,m.forceCompress_longTerm]
        simp [hover,hlt]
    · simp [hover]

lemma preflight_longTerm (m : AgentMemory) : (cfg.preflight m).longTerm =
    if cfg.preflightTrims m then lastChars 1000 m.longTerm else m.longTerm :=
  cfg.compressLoop_longTerm _ m

end LoopConfig

namespace LoopRun

def afterOverflow (cfg : LoopConfig) (run : LoopRun) (m : AgentMemory) (iteration retry : ℕ) : LoopRun :=
  { run with
    stage := if retry < 2 then .calling iteration (retry+1) (cfg.request m.forceCompress) else .raised
    trimmed := run.trimmed || decide (m.messages.length ≤ 2) }

/-- A save goes on with the next artifact. -/
def saved (run : LoopRun) (m : AgentMemory) (answer : String) : MemoryKey → LoopRun
  | .memory => { run with stage := .saving .session answer m false }
  | .session => { run with stage := .saving .summary answer m false }
  | .summary => { run with stage := .returned answer }

end LoopRun

/-- Cut the session after the summary has come or has failed. -/
def AgentMemory.summarized (m : AgentMemory) (keep : List ChatMessage) (text : Option String) : AgentMemory :=
  { m with
    messages := keep
    summary := match text with
      | none => m.summary
      | some text => if m.summary = "" then text else truncate 4000 s!"{m.summary}\n\n{text}" }

/-- One step of a run. -/
def loopStep (cfg : LoopConfig) (agent : AgentData) (run : LoopRun) (event : LoopEvent) :
    Option (AgentData × LoopRun) :=
  match run.stage,event with
  | .loading key none,.fetch => some (agent,{ run with stage := .loading key (some agent.store) })
  | .loading key none,.fetchFails => some (agent,{ run with stage := .loading key (some {}) })
  | .loading key (some found),.resume => some (cfg.loaded agent run found key)
  | .calling _ _ _,.respond content [] =>
    let memory := agent.memory.addMessage .assistant content [] ""
    some ({ agent with memory := memory },{ run with stage := cfg.endLoop memory content })
  | .calling i _ _,.respond content (call::rest) =>
    some ({ agent with memory := agent.memory.addMessage .assistant content (call::rest) "" },
      { run with stage := .executing i content call rest })
  | .calling i retry _,.overflow =>
    some ({ agent with memory := agent.memory.forceCompress },run.afterOverflow cfg agent.memory i retry)
  | .calling _ _ _,.llmFails => some (agent,{ run with stage := .raised })
  | .executing _ _ call _,.toolWrites store =>
    if cfg.registered call.name ∧ call.name ≠ "memory_store" then some ({ agent with store := store },run)
    else none
  | .executing i content call rest,.tool result =>
    if ¬cfg.registered call.name then
      some (agent,{ run with stage := .recording i content call rest s!"Unknown tool: {call.name}" })
    else if call.name ≠ "memory_store" then
      some (agent,{ run with stage := .recording i content call rest result })
    else (cfg.contentArg call.arguments).map fun text =>
      ({ agent with store := { agent.store with memory := some text } },
        { run with stage := .recording i content call rest "Memory saved", lastStored := some text })
  | .executing i content call rest,.toolFails error =>
    if cfg.registered call.name then
      some (agent,{ run with stage := .recording i content call rest s!"Tool {call.name} failed: {error}" })
    else none
  | .recording i content call rest result,.record =>
    let memory := agent.memory.addMessage .tool result [] call.id
    some ({ agent with memory := memory },{ run with stage := cfg.nextCall memory i content rest })
  | .summarizing answer _ keep,.summarize text =>
    let memory := agent.memory.summarized keep text
    some ({ agent with memory := memory },{ run with stage := .saving .memory answer memory false })
  | .saving key answer data false,.write =>
    some ({ agent with store := agent.store.put data key },{ run with stage := .saving key answer data true })
  | .saving key answer _ true,.resume => some (agent,run.saved agent.memory answer key)
  | .saving _ answer _ _,.storeFails => some (agent,{ run with stage := .returned answer })
  | _,_ => none

/-- The steps of an agent with one run. -/
def LoopConfig.step (cfg : LoopConfig) (s : AgentData × LoopRun) (event : LoopEvent) :
    Option (AgentData × LoopRun) :=
  loopStep cfg s.1 s.2 event

/-- What one step can do, by the stage it starts from. -/
inductive LoopStep (cfg : LoopConfig) (agent : AgentData) (run : LoopRun) :
    LoopEvent → AgentData → LoopRun → Prop
  | fetch {key : MemoryKey} (h : run.stage = .loading key none) :
      LoopStep cfg agent run .fetch agent { run with stage := .loading key (some agent.store) }
  | fetchFails {key : MemoryKey} (h : run.stage = .loading key none) :
      LoopStep cfg agent run .fetchFails agent { run with stage := .loading key (some {}) }
  | load {key : MemoryKey} {found : AgentStore} (h : run.stage = .loading key (some found)) :
      LoopStep cfg agent run .resume (cfg.loaded agent run found key).1 (cfg.loaded agent run found key).2
  | answer {i retry : ℕ} {request : ChatRequest} {content : String} (h : run.stage = .calling i retry request) :
      LoopStep cfg agent run (.respond content [])
        { agent with memory := agent.memory.addMessage .assistant content [] "" }
        { run with stage := cfg.endLoop (agent.memory.addMessage .assistant content [] "") content }
  | callTools {i retry : ℕ} {request : ChatRequest} {content : String} {call : ToolCall} {rest : List ToolCall}
      (h : run.stage = .calling i retry request) :
      LoopStep cfg agent run (.respond content (call::rest))
        { agent with memory := agent.memory.addMessage .assistant content (call::rest) "" }
        { run with stage := .executing i content call rest }
  | overflow {i retry : ℕ} {request : ChatRequest} (h : run.stage = .calling i retry request) :
      LoopStep cfg agent run .overflow { agent with memory := agent.memory.forceCompress }
        (run.afterOverflow cfg agent.memory i retry)
  | llmFails {i retry : ℕ} {request : ChatRequest} (h : run.stage = .calling i retry request) :
      LoopStep cfg agent run .llmFails agent { run with stage := .raised }
  | toolWrites {i : ℕ} {content : String} {call : ToolCall} {rest : List ToolCall} {store : AgentStore}
      (h : run.stage = .executing i content call rest) :
      LoopStep cfg agent run (.toolWrites store) { agent with store := store } run
  | tool {i : ℕ} {content : String} {call : ToolCall} {rest : List ToolCall} {output result : String}
      (h : run.stage = .executing i content call rest) :
      LoopStep cfg agent run (.tool output) agent { run with stage := .recording i content call rest result }
  | toolFails {i : ℕ} {content : String} {call : ToolCall} {rest : List ToolCall} {error result : String}
      (h : run.stage = .executing i content call rest) :
      LoopStep cfg agent run (.toolFails error) agent { run with stage := .recording i content call rest result }
  | memoryStore {i : ℕ} {content : String} {call : ToolCall} {rest : List ToolCall} {result text : String}
      (h : run.stage = .executing i content call rest) :
      LoopStep cfg agent run (.tool result) { agent with store := { agent.store with memory := some text } }
        { run with stage := .recording i content call rest "Memory saved", lastStored := some text }
  | record {i : ℕ} {content : String} {call : ToolCall} {rest : List ToolCall} {result : String}
      (h : run.stage = .recording i content call rest result) :
      LoopStep cfg agent run .record { agent with memory := agent.memory.addMessage .tool result [] call.id }
        { run with stage := cfg.nextCall (agent.memory.addMessage .tool result [] call.id) i content rest }
  | summarize {answer prompt : String} {keep : List ChatMessage} {text : Option String}
      (h : run.stage = .summarizing answer prompt keep) :
      LoopStep cfg agent run (.summarize text) { agent with memory := agent.memory.summarized keep text }
        { run with stage := .saving .memory answer (agent.memory.summarized keep text) false }
  | write {key : MemoryKey} {answer : String} {data : AgentMemory} (h : run.stage = .saving key answer data false) :
      LoopStep cfg agent run .write { agent with store := agent.store.put data key }
        { run with stage := .saving key answer data true }
  | save {key : MemoryKey} {answer : String} {data : AgentMemory} (h : run.stage = .saving key answer data true) :
      LoopStep cfg agent run .resume agent (run.saved agent.memory answer key)
  | storeFails {key : MemoryKey} {answer : String} {data : AgentMemory} {written : Bool}
      (h : run.stage = .saving key answer data written) :
      LoopStep cfg agent run .storeFails agent { run with stage := .returned answer }

theorem loopStep_cases {cfg : LoopConfig} {agent agent' : AgentData} {run run' : LoopRun} {event : LoopEvent}
    (h : loopStep cfg agent run event = some (agent',run')) : LoopStep cfg agent run event agent' run' := by
  unfold loopStep at h
  split at h
  case h_1 hstage => cases h; exact .fetch hstage
  case h_2 hstage => cases h; exact .fetchFails hstage
  case h_3 hstage =>
    have hloaded := Option.some.inj h
    rw [show agent' = _ from congrArg Prod.fst hloaded.symm,show run' = _ from congrArg Prod.snd hloaded.symm]
    exact .load hstage
  case h_4 hstage => cases h; exact .answer hstage
  case h_5 hstage => cases h; exact .callTools hstage
  case h_6 hstage => cases h; exact .overflow hstage
  case h_7 hstage => cases h; exact .llmFails hstage
  case h_8 hstage =>
    split at h
    · cases h; exact .toolWrites hstage
    · cases h
  case h_9 hstage =>
    split at h
    · cases h; exact .tool hstage
    · split at h
      · cases h; exact .tool hstage
      · obtain ⟨text,_,ht⟩ := Option.map_eq_some_iff.mp h
        cases ht
        exact .memoryStore hstage
  case h_10 hstage =>
    split at h
    · cases h; exact .toolFails hstage
    · cases h
  case h_11 hstage => cases h; exact .record hstage
  case h_12 hstage => cases h; exact .summarize hstage
  case h_13 hstage => cases h; exact .write hstage
  case h_14 hstage => cases h; exact .save hstage
  case h_15 hstage => cases h; exact .storeFails hstage
  case h_16 => cases h

end HiveKernel
