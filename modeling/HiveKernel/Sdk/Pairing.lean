import HiveKernel.Sdk.AgentLoop

/-! Tool calls and their results in the messages that an agent sends to the model and saves. A provider
refuses a list with a result that no call asks for, or with a call that has no result before the
conversation goes on. -/
namespace HiveKernel
open Lib

/-- A result is asked for by the messages before it: only other results stand between it and the message
of the assistant whose calls it belongs to. -/
def AskedBy (earlier : List ChatMessage) (result : ChatMessage) : Prop :=
  ∃ front a results, earlier = front++a::results ∧ a.role = .assistant ∧
    result.toolCallId ∈ a.toolCalls.map ToolCall.id ∧ ∀ m ∈ results, m.role = .tool

/-- A call has its result in the messages after it, again with only other results before that one. -/
def AnsweredIn (later : List ChatMessage) (call : ToolCall) : Prop :=
  ∃ results t back, later = results++t::back ∧ (∀ m ∈ results, m.role = .tool) ∧ t.role = .tool ∧
    t.toolCallId = call.id

lemma AnsweredIn.append {later : List ChatMessage} {call : ToolCall} (h : AnsweredIn later call)
    (more : List ChatMessage) : AnsweredIn (later++more) call := by
  obtain ⟨results,t,back,rfl,hresults,ht,hid⟩ := h
  exact ⟨results,t,back++more,by simp,hresults,ht,hid⟩

def EachAsked (l : List ChatMessage) : Prop :=
  ∀ earlier m later, l = earlier++m::later → m.role = .tool → AskedBy earlier m

/-- Every result is asked for, and every call after which the conversation went on is answered. -/
structure Paired (l : List ChatMessage) : Prop where
  asked : EachAsked l
  answered : ∀ earlier a later, l = earlier++a::later → a.role = .assistant →
    (∃ m ∈ later, m.role ≠ .tool) → ∀ call ∈ a.toolCalls, AnsweredIn later call

lemma paired_nil : Paired [] where
  asked := fun _ _ _ hl => by simp at hl
  answered := fun _ _ _ hl => by simp at hl

/-- The calls that end the list are answered too. -/
def NoOpenCalls (l : List ChatMessage) : Prop :=
  ∀ earlier a results, l = earlier++a::results → a.role = .assistant →
    (∀ m ∈ results, m.role = .tool) → ∀ call ∈ a.toolCalls, AnsweredIn results call

/-- A list that may go on with any message. -/
structure Settled (l : List ChatMessage) : Prop where
  asked : EachAsked l
  answered : ∀ earlier a later, l = earlier++a::later → a.role = .assistant →
    ∀ call ∈ a.toolCalls, AnsweredIn later call

lemma Settled.paired {l : List ChatMessage} (h : Settled l) : Paired l where
  asked := h.asked
  answered := fun earlier a later hl ha _ => h.answered earlier a later hl ha

lemma Paired.settled {l : List ChatMessage} (h : Paired l) (hopen : NoOpenCalls l) : Settled l where
  asked := h.asked
  answered := by
    intro earlier a later hl ha
    by_cases hmore : ∃ m ∈ later, m.role ≠ .tool
    · exact h.answered earlier a later hl ha hmore
    · push Not at hmore
      exact hopen earlier a later hl ha hmore

/-- A message of the list with a turn behind it stands in the list, begins the turn or is one of its
results. -/
lemma mem_turn {l results earlier later : List ChatMessage} {a m : ChatMessage}
    (h : l++a::results = earlier++m::later) :
    (∃ rest, l = earlier++m::rest ∧ later = rest++a::results) ∨ (earlier = l ∧ m = a ∧ later = results) ∨
      ∃ front, earlier = l++a::front ∧ results = front++m::later := by
  rcases List.append_eq_append_iff.mp h with ⟨mid,he,hmid⟩ | ⟨mid,hl,hmid⟩
  · cases mid with
    | nil =>
      obtain ⟨rfl,rfl⟩ := List.cons.inj hmid
      exact .inr (.inl ⟨by simpa using he,rfl,rfl⟩)
    | cons b mid =>
      obtain ⟨rfl,hresults⟩ := List.cons.inj hmid
      exact .inr (.inr ⟨mid,he,hresults⟩)
  · cases mid with
    | nil =>
      obtain ⟨rfl,rfl⟩ := List.cons.inj hmid
      exact .inr (.inl ⟨by simpa using hl.symm,rfl,rfl⟩)
    | cons b mid =>
      obtain ⟨rfl,hlater⟩ := List.cons.inj hmid
      exact .inl ⟨mid,hl,hlater⟩

/-- A turn: a message that is no result, with results for its calls behind it. -/
structure IsTurn (a : ChatMessage) (results : List ChatMessage) : Prop where
  head : a.role ≠ .tool
  isResult : ∀ m ∈ results, m.role = .tool
  asked : ∀ m ∈ results, a.role = .assistant ∧ m.toolCallId ∈ a.toolCalls.map ToolCall.id

lemma EachAsked.append_turn {l results : List ChatMessage} {a : ChatMessage} (h : EachAsked l)
    (hturn : IsTurn a results) : EachAsked (l++a::results) := by
  intro earlier m later hl hm
  rcases mem_turn hl with ⟨rest,hrest,-⟩ | ⟨-,rfl,-⟩ | ⟨front,rfl,hfront⟩
  · exact h earlier m rest hrest hm
  · exact absurd hm hturn.head
  · obtain ⟨ha,hid⟩ := hturn.asked m (by simp [hfront])
    exact ⟨l,a,front,rfl,ha,hid,fun t ht => hturn.isResult t (by simp [hfront,ht])⟩

/-- A turn with the results of all its calls may be added. -/
lemma Settled.append_turn {l results : List ChatMessage} {a : ChatMessage} (h : Settled l)
    (hturn : IsTurn a results) (hcalls : ∀ call ∈ a.toolCalls, AnsweredIn results call) :
    Settled (l++a::results) where
  asked := h.asked.append_turn hturn
  answered := by
    intro earlier b later hl hb call hcall
    rcases mem_turn hl with ⟨rest,hrest,rfl⟩ | ⟨-,rfl,rfl⟩ | ⟨front,-,hfront⟩
    · exact (h.answered earlier b rest hrest hb call hcall).append _
    · exact hcalls call hcall
    · have hrole := hturn.isResult b (by simp [hfront])
      rw [hb] at hrole
      cases hrole

lemma Settled.append_message {l : List ChatMessage} {a : ChatMessage} (h : Settled l) (ha : a.role ≠ .tool)
    (hcalls : a.toolCalls = []) : Settled (l++[a]) :=
  h.append_turn ⟨ha,by simp,by simp⟩ (by simp [hcalls])

/-- The end of the list begins with a message that is no result. -/
def BeginsTurn (l : List ChatMessage) : Prop := ∀ m ∈ l.head?, m.role ≠ .tool

instance (l : List ChatMessage) : Decidable (BeginsTurn l) :=
  inferInstanceAs (Decidable (∀ m ∈ l.head?, m.role ≠ .tool))

/-- A settled list stays so if it is cut where a turn begins. -/
lemma Settled.of_append {l l' : List ChatMessage} (h : Settled (l++l')) (hbegins : BeginsTurn l') :
    Settled l' where
  asked := by
    intro earlier m later hl hm
    obtain ⟨front,a,results,heq,ha,hid,hresults⟩ := h.asked (l++earlier) m later (by simp [hl]) hm
    rcases List.append_eq_append_iff.mp heq with ⟨mid,hfront,hmid⟩ | ⟨mid,hfront,hmid⟩
    · exact ⟨mid,a,results,hmid,ha,hid,hresults⟩
    · cases earlier with
      | nil => exact absurd hm (hbegins m (by simp [hl]))
      | cons b earlier =>
        have hb := hbegins b (by simp [hl])
        cases mid with
        | nil =>
          obtain ⟨rfl,rfl⟩ := List.cons.inj hmid
          exact ⟨[],a,results,by simp,ha,hid,hresults⟩
        | cons c mid =>
          obtain ⟨rfl,rfl⟩ := List.cons.inj hmid
          exact absurd (hresults b (by simp)) hb
  answered := fun earlier a later hl => h.answered (l++earlier) a later (by simp [hl])

lemma Settled.rtake {l : List ChatMessage} {n : ℕ} (h : Settled l) (hbegins : BeginsTurn (l.rtake n)) :
    Settled (l.rtake n) := by
  rw [← List.take_append_drop (l.length-n) l] at h
  exact h.of_append hbegins

/-- The messages end with a turn whose calls are answered up to this one. -/
def InTurn (l : List ChatMessage) (call : ToolCall) (rest : List ToolCall) : Prop :=
  ∃ before a results done, l = before++a::results ∧ Settled before ∧ a.role = .assistant ∧
    a.toolCalls = done++call::rest ∧ results.map ChatMessage.toolCallId = done.map ToolCall.id ∧
    ∀ m ∈ results, m.role = .tool

lemma Settled.inTurn {l : List ChatMessage} (h : Settled l) (content : String) (call : ToolCall)
    (rest : List ToolCall) : InTurn (l++[⟨.assistant,content,call::rest,""⟩]) call rest :=
  ⟨l,_,[],[],rfl,h,rfl,rfl,rfl,by simp⟩

lemma InTurn.record {l : List ChatMessage} {call next : ToolCall} {rest : List ToolCall}
    (h : InTurn l call (next::rest)) (result : String) : InTurn (l++[⟨.tool,result,[],call.id⟩]) next rest := by
  obtain ⟨before,a,results,done,rfl,hbefore,ha,hcalls,hids,hresults⟩ := h
  refine ⟨before,a,results++[⟨.tool,result,[],call.id⟩],done++[call],by simp,hbefore,ha,by simp [hcalls],
    by simp [hids],?_⟩
  intro m hm
  rcases List.mem_append.mp hm with hm | hm
  · exact hresults m hm
  · rw [List.mem_singleton.mp hm]

/-- The last result completes the turn. -/
lemma InTurn.settled {l : List ChatMessage} {call : ToolCall} (h : InTurn l call []) (result : String) :
    Settled (l++[⟨.tool,result,[],call.id⟩]) := by
  obtain ⟨before,a,results,done,rfl,hbefore,ha,hcalls,hids,hresults⟩ := h
  have hall : ∀ m ∈ results++[⟨.tool,result,[],call.id⟩], m.role = .tool := by
    intro m hm
    rcases List.mem_append.mp hm with hm | hm
    · exact hresults m hm
    · rw [List.mem_singleton.mp hm]
  have hmap : (results++[(⟨.tool,result,[],call.id⟩ : ChatMessage)]).map ChatMessage.toolCallId =
      a.toolCalls.map ToolCall.id := by
    simp [hids,hcalls]
  rw [List.append_assoc,List.cons_append]
  apply hbefore.append_turn
  · refine ⟨by simp [ha],hall,fun m hm => ⟨ha,?_⟩⟩
    rw [← hmap]
    exact List.mem_map_of_mem hm
  · intro c hc
    have hid := List.mem_map_of_mem (f := ToolCall.id) hc
    rw [← hmap] at hid
    obtain ⟨t,ht,hid⟩ := List.mem_map.mp hid
    obtain ⟨front,back,hsplit⟩ := List.append_of_mem ht
    rw [hsplit] at hall
    exact ⟨front,t,back,hsplit,fun m hm => hall m (by simp [hm]),hall t (by simp),hid⟩

/-- What holds of the messages while a run waits. -/
def StageSettled (m : AgentMemory) : LoopStage → Prop
  | .loading _ _ => False
  | .calling _ _ request => Settled m.messages ∧ request.messages = m.messages
  | .executing _ _ call rest => InTurn m.messages call rest
  | .recording _ _ call rest _ => InTurn m.messages call rest
  | .summarizing _ _ keep => Settled m.messages ∧ keep = m.messages.rtake 4
  | .saving key _ data _ => Settled m.messages ∧ (key = .session → Settled data.messages)
  | .returned _ => True
  | .raised => True

/-- The messages in front of the model and the session to be saved are paired. -/
def ListsPaired (run : LoopRun) : Prop :=
  (∀ iteration retry request, run.stage = .calling iteration retry request → Paired request.messages) ∧
    ∀ answer data written, run.stage = .saving .session answer data written → Paired data.messages

lemma StageSettled.listsPaired {m : AgentMemory} {run : LoopRun} (h : StageSettled m run.stage) :
    ListsPaired run := by
  constructor
  · intro iteration retry request hstage
    rw [hstage] at h
    rw [h.2]
    exact h.1.paired
  · intro answer data written hstage
    rw [hstage] at h
    exact (h.2 rfl).paired

section
variable (cfg : LoopConfig) {m : AgentMemory}

lemma enterLoop_settled (h : Settled m.messages) : StageSettled m (cfg.enterLoop m) := by
  unfold LoopConfig.enterLoop
  split
  · trivial
  · exact ⟨h,rfl⟩

lemma endLoop_settled (h : Settled m.messages) (answer : String) : StageSettled m (cfg.endLoop m answer) := by
  unfold LoopConfig.endLoop
  split
  · exact ⟨h,rfl⟩
  · exact ⟨h,fun hkey => by cases hkey⟩

lemma nextIteration_settled (h : Settled m.messages) (iteration : ℕ) (content : String) :
    StageSettled m (cfg.nextIteration m iteration content) := by
  unfold LoopConfig.nextIteration
  split
  · exact ⟨h,rfl⟩
  · exact endLoop_settled cfg h _

lemma nextCall_settled {call : ToolCall} {rest : List ToolCall} (h : InTurn m.messages call rest)
    (result : String) (iteration : ℕ) (content : String) :
    StageSettled (m.addMessage .tool result [] call.id)
      (cfg.nextCall (m.addMessage .tool result [] call.id) iteration content rest) := by
  cases rest with
  | nil => exact nextIteration_settled cfg (h.settled result) iteration content
  | cons next rest => exact h.record result

end

/-- The end of the messages with which a run goes on after a step that cuts them: a compression before
another try, or a summary. -/
def keptEnd (agent : AgentData) (run : LoopRun) (event : LoopEvent) : Option (List ChatMessage) :=
  match run.stage,event with
  | .calling _ retry _,.overflow =>
    if retry < 2 then some (agent.memory.messages.rtake (AgentMemory.keptMessages agent.memory.messages.length))
    else none
  | .summarizing _ _ _,.summarize _ => some (agent.memory.messages.rtake 4)
  | _,_ => none

/-- The step does not cut between a call and its results. -/
def CutsAtTurn (agent : AgentData) (run : LoopRun) (event : LoopEvent) : Prop :=
  ∀ l ∈ keptEnd agent run event, BeginsTurn l

instance (agent : AgentData) (run : LoopRun) (event : LoopEvent) : Decidable (CutsAtTurn agent run event) :=
  inferInstanceAs (Decidable (∀ l ∈ keptEnd agent run event, BeginsTurn l))

lemma stageSettled_step {cfg : LoopConfig} {agent agent' : AgentData} {run run' : LoopRun} {event : LoopEvent}
    (h : StageSettled agent.memory run.stage) (hcut : CutsAtTurn agent run event)
    (hstep : loopStep cfg agent run event = some (agent',run')) : StageSettled agent'.memory run'.stage := by
  cases loopStep_cases hstep with
  | fetch hstage => rw [hstage] at h; exact h.elim
  | fetchFails hstage => rw [hstage] at h; exact h.elim
  | load hstage => rw [hstage] at h; exact h.elim
  | answer hstage =>
    rw [hstage] at h
    exact endLoop_settled cfg (h.1.append_message (by simp) rfl) _
  | callTools hstage =>
    rw [hstage] at h
    exact h.1.inTurn _ _ _
  | @overflow i retry request hstage =>
    rw [hstage] at h
    simp only [CutsAtTurn,keptEnd,hstage] at hcut
    unfold LoopRun.afterOverflow
    by_cases hretry : retry < 2
    · rw [if_pos hretry] at hcut ⊢
      refine ⟨?_,rfl⟩
      rw [AgentMemory.forceCompress_messages]
      exact h.1.rtake (hcut _ rfl)
    · rw [if_neg hretry]
      trivial
  | llmFails hstage => trivial
  | toolWrites hstage => exact h
  | tool hstage => rw [hstage] at h; exact h
  | toolFails hstage => rw [hstage] at h; exact h
  | memoryStore hstage => rw [hstage] at h; exact h
  | record hstage =>
    rw [hstage] at h
    exact nextCall_settled cfg h _ _ _
  | summarize hstage =>
    rw [hstage] at h
    simp only [CutsAtTurn,keptEnd,hstage] at hcut
    obtain ⟨hsettled,rfl⟩ := h
    exact ⟨hsettled.rtake (hcut _ rfl),fun hkey => by cases hkey⟩
  | write hstage => rw [hstage] at h; exact h
  | @save key answer data hstage =>
    rw [hstage] at h
    cases key with
    | memory => exact ⟨h.1,fun _ => h.1⟩
    | session => exact ⟨h.1,fun hkey => by cases hkey⟩
    | summary => trivial
  | storeFails hstage => trivial

/-- How many messages the pre-flight compression keeps. -/
def LoopConfig.preflightKept (cfg : LoopConfig) (m : AgentMemory) : ℕ := (cfg.preflight m).messages.length

/-- The pre-flight compression does not cut between a call and its results. -/
def StartsAtTurn (cfg : LoopConfig) (m : AgentMemory) : Prop :=
  BeginsTurn (m.messages.rtake (cfg.preflightKept m))

instance (cfg : LoopConfig) (m : AgentMemory) : Decidable (StartsAtTurn cfg m) :=
  inferInstanceAs (Decidable (BeginsTurn (m.messages.rtake (cfg.preflightKept m))))

lemma stageSettled_start (cfg : LoopConfig) {agent : AgentData} {run : LoopRun}
    (h : Settled agent.memory.messages)
    (hcut : StartsAtTurn cfg (agent.memory.addMessage .user run.prompt [] "")) :
    StageSettled (cfg.start agent run).1.memory (cfg.start agent run).2.stage := by
  apply enterLoop_settled
  have hprompted := h.append_message (a := ⟨.user,run.prompt,[],""⟩) (by simp) rfl
  have hsuffix := cfg.preflight_messages_suffix (agent.memory.addMessage .user run.prompt [] "")
  change Settled (cfg.preflight (agent.memory.addMessage .user run.prompt [] "")).messages
  rw [List.suffix_iff_eq_drop.mp hsuffix]
  exact hprompted.rtake hcut

/-- From a paired session without open calls, a run whose cuts all fall between turns calls the model with
paired messages only and saves a paired session. -/
theorem listsPaired_of_cutsAtTurn (cfg : LoopConfig) {agent : AgentData} {run : LoopRun}
    {trace : List (Transition (AgentData × LoopRun) LoopEvent)} {t : AgentData × LoopRun}
    (hpaired : Paired agent.memory.messages) (hopen : NoOpenCalls agent.memory.messages)
    (hstart : StartsAtTurn cfg (agent.memory.addMessage .user run.prompt [] ""))
    (hrun : Run cfg.step (cfg.start agent run) trace t)
    (hcuts : ∀ e ∈ trace, CutsAtTurn e.source.1 e.source.2 e.label) :
    ListsPaired (cfg.start agent run).2 ∧ ∀ e ∈ trace, ListsPaired e.target.2 := by
  have hsettled := stageSettled_start cfg (hpaired.settled hopen) hstart
  have hstep : ∀ (s : AgentData × LoopRun) event s', StageSettled s.1.memory s.2.stage →
      CutsAtTurn s.1 s.2 event → cfg.step s event = some s' → StageSettled s'.1.memory s'.2.stage :=
    fun s event s' h hcut hnext => stageSettled_step h hcut hnext
  obtain ⟨hsteps,-⟩ := hrun.invariant_of_allowed hstep hsettled hcuts
  refine ⟨hsettled.listsPaired,fun e he => ?_⟩
  obtain ⟨hsource,hnext⟩ := hsteps e he
  exact (hstep e.source e.label e.target hsource (hcuts e he) hnext).listsPaired

/-- An agent with the one tool `list_siblings`. -/
def siblingsLoop : LoopConfig where
  maxIterations := 15
  systemPrompt := ""
  toolsOverhead := 60
  callsLength := fun calls => 91*calls.length
  registered := fun name => decide (name = "list_siblings")
  contentArg := fun _ => none

def siblingsCall (id : String) : ToolCall := ⟨id,"list_siblings","\x7b\x7d"⟩

/-- A compression before the first answer, then one call and the first artifact of the save. -/
def siblingsEvents : List LoopEvent :=
  [.overflow,.respond "" [siblingsCall "a"],.tool "[]",.record,.respond "Nobody." [],.write]

theorem listsPaired_of_cutsAtTurn_siblings : ∃ s t,
    exec siblingsLoop.step siblingsEvents (siblingsLoop.start ⟨{},{}⟩ { prompt := "Who is there?" }) = some s ∧
    siblingsLoop.step s .resume = some t ∧ ∃ data, t.2.stage = .saving .session "Nobody." data false ∧
    data.messages.map ChatMessage.role = [.user,.assistant,.tool,.assistant] ∧ Paired data.messages := by
  obtain ⟨s,t,hs,ht,hcuts,hcut,data,hstage,hroles⟩ : ∃ s t,
      exec siblingsLoop.step siblingsEvents (siblingsLoop.start ⟨{},{}⟩ { prompt := "Who is there?" }) = some s ∧
      siblingsLoop.step s .resume = some t ∧
      (∀ e ∈ transitions siblingsLoop.step siblingsEvents
        (siblingsLoop.start ⟨{},{}⟩ { prompt := "Who is there?" }), CutsAtTurn e.source.1 e.source.2 e.label) ∧
      CutsAtTurn s.1 s.2 .resume ∧ ∃ data, t.2.stage = .saving .session "Nobody." data false ∧
      data.messages.map ChatMessage.role = [.user,.assistant,.tool,.assistant] :=
    ⟨_,_,rfl,rfl,by decide +kernel,by decide +kernel,_,rfl,rfl⟩
  have hall : ∀ e ∈ transitions siblingsLoop.step siblingsEvents
      (siblingsLoop.start ⟨{},{}⟩ { prompt := "Who is there?" })++[⟨s,.resume,t⟩],
      CutsAtTurn e.source.1 e.source.2 e.label := by
    intro e he
    rcases List.mem_append.mp he with he | he
    · exact hcuts e he
    · rw [List.mem_singleton.mp he]
      exact hcut
  have hpaired := listsPaired_of_cutsAtTurn siblingsLoop paired_nil (fun _ _ _ hl => by simp at hl)
    (by decide +kernel) ((Run.of_exec hs).snoc ht) hall
  exact ⟨s,t,hs,ht,data,hstage,hroles,(hpaired.2 ⟨s,.resume,t⟩ (by simp)).2 _ _ _ hstage⟩

/-- Four results, a context that is too long, and the next try begins with the results. -/
theorem overflow_leaves_results_without_call : ¬∀ (cfg : LoopConfig) (agent : AgentData) (run : LoopRun)
    (trace : List (Transition (AgentData × LoopRun) LoopEvent)) (t : AgentData × LoopRun),
    Paired agent.memory.messages → Run cfg.step (cfg.start agent run) trace t →
    ∀ e ∈ trace, ListsPaired e.target.2 := by
  intro h
  obtain ⟨s,t,hs,ht,hstage⟩ : ∃ s t, exec siblingsLoop.step
      [.respond "" [siblingsCall "a",siblingsCall "b",siblingsCall "c",siblingsCall "d"],.tool "[]",.record,
        .tool "[]",.record,.tool "[]",.record,.tool "[]",.record]
      (siblingsLoop.start ⟨{},{}⟩ { prompt := "go" }) = some s ∧ siblingsLoop.step s .overflow = some t ∧
      t.2.stage = .calling 2 1 ⟨[⟨.tool,"[]",[],"a"⟩,⟨.tool,"[]",[],"b"⟩,⟨.tool,"[]",[],"c"⟩,
        ⟨.tool,"[]",[],"d"⟩],""⟩ := ⟨_,_,rfl,rfl,rfl⟩
  have hpaired := h siblingsLoop ⟨{},{}⟩ { prompt := "go" } _ t paired_nil ((Run.of_exec hs).snoc ht) ⟨s,.overflow,t⟩
    (by simp)
  obtain ⟨front,a,results,hfront,-⟩ := (hpaired.1 2 1 _ hstage).asked [] _ _ rfl rfl
  simp at hfront

end HiveKernel
