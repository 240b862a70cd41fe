import HiveKernel.Sdk.AgentLoop
import Mathlib.Algebra.Order.Group.Multiset

/-! Two runs of one agent at the same time. Each loads the session over the messages that both of them add
to, and each saves the messages as they are when its turn comes. -/
namespace HiveKernel
open Lib

/-- The messages as a provider would show them: who says what. -/
def uttered (messages : List ChatMessage) : Multiset (ChatRole × String) :=
  (messages.map fun m => (m.role,m.content) : List (ChatRole × String))

lemma uttered_append (l l' : List ChatMessage) : uttered (l++l') = uttered l+uttered l' := by
  simp [uttered]

namespace LoopRun

/-- The part of a run that the session has to show: the prompt once it is added, and then what the model
has answered last. -/
def said (run : LoopRun) : Multiset (ChatRole × String) :=
  match run.stage with
  | .loading _ _ => 0
  | .calling _ _ _ => {(.user,run.prompt)}
  | .executing _ content _ _ => {(.user,run.prompt),(.assistant,content)}
  | .recording _ content _ _ _ => {(.user,run.prompt),(.assistant,content)}
  | .summarizing answer _ _ => {(.user,run.prompt),(.assistant,answer)}
  | .saving _ answer _ _ => {(.user,run.prompt),(.assistant,answer)}
  | .returned answer => {(.user,run.prompt),(.assistant,answer)}
  | .raised => 0

/-- A run that still loads, or has failed. -/
def silent (run : LoopRun) : Bool :=
  match run.stage with
  | .loading _ _ => true
  | .raised => true
  | _ => false

/-- The final answer is among the messages. -/
def hasAnswered (run : LoopRun) : Bool :=
  match run.stage with
  | .summarizing _ _ _ => true
  | .saving _ _ _ _ => true
  | .returned _ => true
  | _ => false

/-- The session has been written. -/
def hasSaved (run : LoopRun) : Bool :=
  match run.stage with
  | .saving .session _ _ written => written
  | .saving .summary _ _ _ => true
  | .returned _ => true
  | _ => false

lemma said_of_saving {run : LoopRun} {key : MemoryKey} {answer : String} {data : AgentMemory} {written : Bool}
    (h : run.stage = .saving key answer data written) :
    run.said = {(.user,run.prompt),(.assistant,answer)} := by
  rw [said,h]

lemma hasAnswered_of_hasSaved {run : LoopRun} (h : run.hasSaved = true) : run.hasAnswered = true := by
  unfold hasSaved at h
  split at h
  case h_1 hstage => rw [hasAnswered,hstage]
  case h_2 hstage => rw [hasAnswered,hstage]
  case h_3 hstage => rw [hasAnswered,hstage]
  case h_4 => cases h

lemma said_of_silent {run : LoopRun} (h : run.silent = true) : run.said = 0 := by
  unfold silent at h
  split at h
  case h_1 hstage => rw [said,hstage]
  case h_2 hstage => rw [said,hstage]
  case h_3 => cases h

/-- A run that neither has an answer of the store about the session nor has begun to save it. -/
structure Between (run : LoopRun) : Prop where
  loading : ∀ found, run.stage ≠ .loading .session (some found)
  saving : ∀ answer data written, run.stage ≠ .saving .session answer data written
  saved : run.hasSaved = false

end LoopRun

/-- The agent with both runs. Whether the other run had written its session when a run was last given an
artifact, and whether it had answered when the run last went on, is recorded for the statements. -/
structure Conversations where
  agent : AgentData
  run : Bool → LoopRun
  fresh : Bool → Bool
  heard : Bool → Bool

namespace Conversations

def start (agent : AgentData) (prompt : Bool → String) : Conversations where
  agent := agent
  run := fun i => { prompt := prompt i }
  fresh := fun _ => false
  heard := fun _ => false

def step (cfg : LoopConfig) (s : Conversations) (l : Bool × LoopEvent) : Option Conversations :=
  (loopStep cfg s.agent (s.run l.1) l.2).map fun next =>
    { agent := next.1
      run := Function.update s.run l.1 next.2
      fresh := if l.2 = .fetch then Function.update s.fresh l.1 (s.run !l.1).hasSaved else s.fresh
      heard := if l.2 = .resume then Function.update s.heard l.1 (s.run !l.1).hasAnswered else s.heard }

end Conversations

/-- The stores succeed, and nothing is compressed or summarised. -/
def Quiet (cfg : LoopConfig) (agent : AgentData) (run : LoopRun) (event : LoopEvent) : Prop :=
  match run.stage,event with
  | .loading .summary (some found),.resume =>
    cfg.overBudget ((agent.memory.assign found .summary).addMessage .user run.prompt [] "") = false
  | _,.overflow => False
  | _,.summarize _ => False
  | _,.storeFails => False
  | _,_ => True

/-- No tool writes the session, and the answer that a run returns is one that it has recorded. -/
def KeepsAnswer (cfg : LoopConfig) (agent : AgentData) (run : LoopRun) (event : LoopEvent) : Prop :=
  match run.stage,event with
  | .executing _ _ _ _,.toolWrites store => store.session = agent.store.session
  | .recording i content _ [] _,.record => i < cfg.maxIterations ∨ content ≠ ""
  | _,_ => True

instance (cfg : LoopConfig) (agent : AgentData) (run : LoopRun) (event : LoopEvent) :
    Decidable (Quiet cfg agent run event) := by
  unfold Quiet
  split
  all_goals infer_instance

instance (cfg : LoopConfig) (agent : AgentData) (run : LoopRun) (event : LoopEvent) :
    Decidable (KeepsAnswer cfg agent run event) := by
  unfold KeepsAnswer
  split
  all_goals infer_instance

/-- What a step of a quiet run can do to the messages and to the session in the store. -/
inductive TalkStep (agent : AgentData) (run : LoopRun) :
    LoopEvent → AgentData → LoopRun → Prop
  | fetches {key : MemoryKey} {found : AgentStore} {event : LoopEvent} (h : run.stage = .loading key none)
      (hfound : found.session = none ∨ event = .fetch ∧ found = agent.store) :
      TalkStep agent run event agent { run with stage := .loading key (some found) }
  | assigns {found : AgentStore} (h : run.stage = .loading .session (some found)) :
      TalkStep agent run .resume { agent with memory := agent.memory.assign found .session }
        { run with stage := .loading .summary none }
  | speaks {event : LoopEvent} {agent' : AgentData} {run' : LoopRun} (new : List ChatMessage)
      (hmessages : agent'.memory.messages = agent.memory.messages++new)
      (hsession : agent'.store.session = agent.store.session) (hprompt : run'.prompt = run.prompt)
      (hsaid : run'.said ≤ run.said+uttered new) (hanswered : run.hasAnswered = false)
      (hbetween : run'.Between) : TalkStep agent run event agent' run'
  | dumps {answer : String} {data : AgentMemory} (h : run.stage = .saving .memory answer data true) :
      TalkStep agent run .resume agent { run with stage := .saving .session answer agent.memory false }
  | writes {answer : String} {data : AgentMemory} (h : run.stage = .saving .session answer data false) :
      TalkStep agent run .write { agent with store := agent.store.put data .session }
        { run with stage := .saving .session answer data true }
  | goesOn {event : LoopEvent} {agent' : AgentData} {run' : LoopRun}
      (hmessages : agent'.memory.messages = agent.memory.messages)
      (hsession : agent'.store.session = agent.store.session) (hprompt : run'.prompt = run.prompt)
      (hsaid : run'.said = run.said) (hanswered : run'.hasAnswered = true)
      (hsaving : ∀ answer data written, run'.stage ≠ .saving .session answer data written)
      (hsaved : run'.hasSaved = run.hasSaved) : TalkStep agent run event agent' run'

section
variable (cfg : LoopConfig) (m : AgentMemory) (run : LoopRun)

lemma endLoop_between (answer : String) : LoopRun.Between { run with stage := cfg.endLoop m answer } ∧
    LoopRun.said { run with stage := cfg.endLoop m answer } = {(.user,run.prompt),(.assistant,answer)} := by
  unfold LoopConfig.endLoop
  split
  · exact ⟨⟨by simp,by simp,rfl⟩,rfl⟩
  · exact ⟨⟨by simp,by simp,rfl⟩,rfl⟩

lemma nextCall_between (i : ℕ) (content : String) (rest : List ToolCall)
    (h : rest = [] → i < cfg.maxIterations ∨ content ≠ "") :
    LoopRun.Between { run with stage := cfg.nextCall m i content rest } ∧
      LoopRun.said { run with stage := cfg.nextCall m i content rest } ≤
        {(.user,run.prompt),(.assistant,content)} := by
  cases rest with
  | cons call rest => exact ⟨⟨by simp [LoopConfig.nextCall],by simp [LoopConfig.nextCall],rfl⟩,le_refl _⟩
  | nil =>
    rw [LoopConfig.nextCall,LoopConfig.nextIteration]
    by_cases hi : i < cfg.maxIterations
    · rw [if_pos hi]
      exact ⟨⟨by simp,by simp,rfl⟩,Multiset.singleton_le.mpr (by simp)⟩
    · rw [if_neg hi,if_neg ((h rfl).resolve_left hi)]
      obtain ⟨hbetween,hsaid⟩ := endLoop_between cfg m run content
      exact ⟨hbetween,hsaid.le⟩

lemma enterLoop_between : LoopRun.Between { run with stage := cfg.enterLoop m } ∧
    LoopRun.said { run with stage := cfg.enterLoop m } ≤ {(.user,run.prompt)} := by
  unfold LoopConfig.enterLoop
  split
  · exact ⟨⟨by simp,by simp,rfl⟩,Multiset.zero_le _⟩
  · exact ⟨⟨by simp,by simp,rfl⟩,le_refl _⟩

end

lemma loaded_talks {cfg : LoopConfig} {agent : AgentData} {run : LoopRun} {found : AgentStore} {key : MemoryKey}
    (hstage : run.stage = .loading key (some found)) (hquiet : Quiet cfg agent run .resume) :
    TalkStep agent run .resume (cfg.loaded agent run found key).1 (cfg.loaded agent run found key).2 := by
  have hanswered : run.hasAnswered = false := by rw [LoopRun.hasAnswered,hstage]
  cases key with
  | memory =>
    exact .speaks [] (by simp [LoopConfig.loaded,AgentMemory.assign]) rfl rfl (Multiset.zero_le _) hanswered
      ⟨by simp [LoopConfig.loaded],by simp [LoopConfig.loaded],rfl⟩
  | session => exact .assigns hstage
  | summary =>
    simp only [Quiet,hstage] at hquiet
    have hpreflight := cfg.preflight_of_not_overBudget hquiet
    obtain ⟨hbetween,hsaid⟩ := enterLoop_between cfg
      (cfg.preflight ((agent.memory.assign found .summary).addMessage .user run.prompt [] ""))
      (cfg.loaded agent run found .summary).2
    refine .speaks [⟨.user,run.prompt,[],""⟩] ?_ rfl rfl (hsaid.trans (Multiset.le_add_left _ _)) hanswered hbetween
    change (cfg.preflight ((agent.memory.assign found .summary).addMessage .user run.prompt [] "")).messages = _
    rw [hpreflight]
    rfl

lemma recording_talks {agent agent' : AgentData} {run run' : LoopRun} {event : LoopEvent} {i : ℕ}
    {content result : String} {call : ToolCall} {rest : List ToolCall}
    (hstage : run.stage = .executing i content call rest)
    (hstage' : run'.stage = .recording i content call rest result) (hmemory : agent'.memory = agent.memory)
    (hsession : agent'.store.session = agent.store.session) (hprompt : run'.prompt = run.prompt) :
    TalkStep agent run event agent' run' := by
  refine .speaks [] (by simp [hmemory]) hsession hprompt ?_ (by rw [LoopRun.hasAnswered,hstage])
    ⟨by simp [hstage'],by simp [hstage'],by rw [LoopRun.hasSaved,hstage']⟩
  rw [LoopRun.said,LoopRun.said,hstage,hstage',hprompt]
  exact Multiset.le_add_right _ _

lemma talkStep_of_quiet {cfg : LoopConfig} {agent agent' : AgentData} {run run' : LoopRun} {event : LoopEvent}
    (hstep : loopStep cfg agent run event = some (agent',run')) (hquiet : Quiet cfg agent run event)
    (hkeeps : KeepsAnswer cfg agent run event) : TalkStep agent run event agent' run' := by
  cases loopStep_cases hstep with
  | fetch hstage => exact .fetches hstage (.inr ⟨rfl,rfl⟩)
  | fetchFails hstage => exact .fetches hstage (.inl rfl)
  | load hstage => exact loaded_talks hstage hquiet
  | @answer i retry request content hstage =>
    obtain ⟨hbetween,hsaid⟩ := endLoop_between cfg (agent.memory.addMessage .assistant content [] "") run content
    refine .speaks [⟨.assistant,content,[],""⟩] rfl rfl rfl ?_ (by rw [LoopRun.hasAnswered,hstage]) hbetween
    rw [hsaid,show run.said = {(.user,run.prompt)} by rw [LoopRun.said,hstage]]
    exact le_refl _
  | @callTools i retry request content call rest hstage =>
    refine .speaks [⟨.assistant,content,call::rest,""⟩] rfl rfl rfl ?_ (by rw [LoopRun.hasAnswered,hstage])
      ⟨by simp,by simp,rfl⟩
    rw [show run.said = {(.user,run.prompt)} by rw [LoopRun.said,hstage]]
    exact le_refl _
  | overflow hstage => simp [Quiet,hstage] at hquiet
  | llmFails hstage =>
    exact .speaks [] (by simp) rfl rfl (Multiset.zero_le _) (by rw [LoopRun.hasAnswered,hstage])
      ⟨by simp,by simp,rfl⟩
  | toolWrites hstage =>
    simp only [KeepsAnswer,hstage] at hkeeps
    exact .speaks [] (by simp) hkeeps rfl (by simp [uttered]) (by rw [LoopRun.hasAnswered,hstage])
      ⟨by simp [hstage],by simp [hstage],by rw [LoopRun.hasSaved,hstage]⟩
  | tool hstage => exact recording_talks hstage rfl rfl rfl rfl
  | toolFails hstage => exact recording_talks hstage rfl rfl rfl rfl
  | memoryStore hstage => exact recording_talks hstage rfl rfl rfl rfl
  | @record i content call rest result hstage =>
    obtain ⟨hbetween,hsaid⟩ := nextCall_between cfg (agent.memory.addMessage .tool result [] call.id) run i content
      rest (by
        intro hrest
        simpa only [KeepsAnswer,hstage,hrest] using hkeeps)
    refine .speaks [⟨.tool,result,[],call.id⟩] rfl rfl rfl ?_ (by rw [LoopRun.hasAnswered,hstage]) hbetween
    rw [show run.said = {(.user,run.prompt),(.assistant,content)} by rw [LoopRun.said,hstage]]
    exact hsaid.trans (Multiset.le_add_right _ _)
  | summarize hstage => simp [Quiet,hstage] at hquiet
  | @write key answer data hstage =>
    cases key with
    | session => exact .writes hstage
    | memory | summary =>
      refine .goesOn rfl rfl rfl ?_ rfl ?_ ?_
      · exact (LoopRun.said_of_saving hstage).symm
      · simp
      · rw [LoopRun.hasSaved,LoopRun.hasSaved,hstage]
  | @save key answer data hstage =>
    cases key with
    | memory => exact .dumps hstage
    | session | summary =>
      refine .goesOn rfl rfl rfl ?_ rfl ?_ ?_
      · exact (LoopRun.said_of_saving hstage).symm
      · simp [LoopRun.saved]
      · rw [LoopRun.hasSaved,LoopRun.hasSaved,hstage]
        rfl
  | storeFails hstage => simp [Quiet,hstage] at hquiet

namespace TalkStep
variable {agent agent' : AgentData} {run run' : LoopRun} {event : LoopEvent}

/-- An answer stays what it is. -/
lemma answered (h : TalkStep agent run event agent' run') (hanswered : run.hasAnswered = true) :
    run'.hasAnswered = true ∧ run'.said = run.said := by
  cases h with
  | fetches hstage => simp [LoopRun.hasAnswered,hstage] at hanswered
  | assigns hstage => simp [LoopRun.hasAnswered,hstage] at hanswered
  | speaks _ _ _ _ _ hnot => simp [hnot] at hanswered
  | dumps hstage => exact ⟨rfl,(LoopRun.said_of_saving hstage).symm⟩
  | writes hstage => exact ⟨rfl,(LoopRun.said_of_saving hstage).symm⟩
  | goesOn _ _ _ hsaid hanswered' => exact ⟨hanswered',hsaid⟩

lemma saved (h : TalkStep agent run event agent' run') (hsaved : run.hasSaved = true) : run'.hasSaved = true := by
  cases h with
  | fetches hstage => simp [LoopRun.hasSaved,hstage] at hsaved
  | assigns hstage => simp [LoopRun.hasSaved,hstage] at hsaved
  | speaks _ _ _ _ _ hnot =>
    rw [LoopRun.hasAnswered_of_hasSaved hsaved] at hnot
    cases hnot
  | dumps hstage => simp [LoopRun.hasSaved,hstage] at hsaved
  | writes hstage => rfl
  | goesOn _ _ _ _ _ _ hsame => rw [hsame,hsaved]

/-- Only the write of a dump changes the session in the store, and it makes the run a saved one. -/
lemma session (h : TalkStep agent run event agent' run') :
    (agent'.store.session = agent.store.session ∧ (run'.hasSaved = true → run.hasSaved = true)) ∨
      ∃ answer data, run.stage = .saving .session answer data false ∧ event = .write ∧
        agent'.store.session = some data.messages := by
  cases h with
  | fetches hstage => exact .inl ⟨rfl,fun hsaved => by cases hsaved⟩
  | assigns hstage => exact .inl ⟨rfl,fun hsaved => by cases hsaved⟩
  | speaks _ _ hsession _ _ _ hbetween =>
    refine .inl ⟨hsession,fun hsaved => ?_⟩
    rw [hbetween.saved] at hsaved
    cases hsaved
  | dumps hstage => exact .inl ⟨rfl,fun hsaved => by cases hsaved⟩
  | writes hstage => exact .inr ⟨_,_,hstage,rfl,rfl⟩
  | goesOn _ hsession _ _ _ _ hsame => exact .inl ⟨hsession,fun hsaved => hsame ▸ hsaved⟩

lemma prompt (h : TalkStep agent run event agent' run') : run'.prompt = run.prompt := by
  cases h with
  | speaks _ _ _ hprompt => exact hprompt
  | goesOn _ _ hprompt => exact hprompt
  | _ => rfl

end TalkStep

/-- A session with these utterances in it. -/
def Shows (session : Option (List ChatMessage)) (said : Multiset (ChatRole × String)) : Prop :=
  ∃ l, session = some l ∧ said ≤ uttered l

/-- What a run holds of the other one: in a session that it got after the other was saved, in a dump that it
made after the other had answered, and in the store of what it has saved itself. -/
structure RunKept (agent : AgentData) (run other : LoopRun) (fresh heard : Bool) : Prop where
  fetched : ∀ found l, run.stage = .loading .session (some found) → fresh = true → found.session = some l →
    other.hasSaved = true ∧ other.said ≤ uttered l
  dumped : ∀ answer data written, run.stage = .saving .session answer data written →
    run.said ≤ uttered data.messages ∧
      (heard = true → other.hasAnswered = true ∧ run.said+other.said ≤ uttered data.messages)
  stored : run.hasSaved = true → Shows agent.store.session run.said

structure BothKept (agent : AgentData) (run other : LoopRun) (fresh heard fresh' heard' : Bool) : Prop where
  messages : run.said+other.said ≤ uttered agent.memory.messages
  mine : RunKept agent run other fresh heard
  others : RunKept agent other run fresh' heard'
  saved : run.hasSaved = true → other.hasSaved = true → Shows agent.store.session (run.said+other.said)

namespace BothKept
variable {agent agent' : AgentData} {run run' other : LoopRun} {event : LoopEvent}
  {fresh heard fresh' heard' : Bool}

lemma symm (h : BothKept agent run other fresh heard fresh' heard') :
    BothKept agent other run fresh' heard' fresh heard where
  messages := add_comm run.said other.said ▸ h.messages
  mine := h.others
  others := h.mine
  saved := fun hother hrun => add_comm run.said other.said ▸ h.saved hrun hother

/-- The write of a dump shows what the run has said, and the other run too if it had answered before. -/
lemma session_step (h : BothKept agent run other fresh heard fresh' heard')
    (hstep : TalkStep agent run event agent' run')
    (hwrite : ∀ answer data, run.stage = .saving .session answer data false → event = .write →
      other.hasSaved = true → heard = true) :
    (run'.hasSaved = true → Shows agent'.store.session run'.said) ∧
      (other.hasSaved = true → Shows agent'.store.session other.said) ∧
      (run'.hasSaved = true → other.hasSaved = true → Shows agent'.store.session (run'.said+other.said)) := by
  rcases hstep.session with ⟨hsession,hback⟩ | ⟨answer,data,hstage,hevent,hsession⟩
  · rw [hsession]
    refine ⟨fun hsaved => ?_,h.others.stored,fun hsaved hother => ?_⟩
    · have hrun := hback hsaved
      rw [(hstep.answered (LoopRun.hasAnswered_of_hasSaved hrun)).2]
      exact h.mine.stored hrun
    · have hrun := hback hsaved
      rw [(hstep.answered (LoopRun.hasAnswered_of_hasSaved hrun)).2]
      exact h.saved hrun hother
  · obtain ⟨hdump,hheard⟩ := h.mine.dumped answer data false hstage
    have hanswered : run.hasAnswered = true := by rw [LoopRun.hasAnswered,hstage]
    rw [(hstep.answered hanswered).2,hsession]
    have hboth (hother : other.hasSaved = true) : run.said+other.said ≤ uttered data.messages :=
      (hheard (hwrite answer data hstage hevent hother)).2
    refine ⟨fun _ => ⟨_,rfl,hdump⟩,fun hother => ⟨_,rfl,?_⟩,fun _ hother => ⟨_,rfl,hboth hother⟩⟩
    exact (Multiset.le_add_left _ _).trans (hboth hother)

lemma messages_step (h : BothKept agent run other fresh heard fresh' heard')
    (hstep : TalkStep agent run event agent' run')
    (hload : ∀ found, run.stage = .loading .session (some found) → event = .resume → found.session.isSome →
      other.silent = true ∨ fresh = true) : run'.said+other.said ≤ uttered agent'.memory.messages := by
  have hother : other.said ≤ uttered agent.memory.messages := (Multiset.le_add_left _ _).trans h.messages
  have hanswered := hstep.answered
  cases hstep with
  | fetches hstage => simpa [LoopRun.said] using hother
  | @assigns found hstage =>
    rw [show LoopRun.said { run with stage := .loading .summary none } = 0 from rfl,zero_add]
    change other.said ≤ uttered (found.session.getD agent.memory.messages)
    cases hfound : found.session with
    | none => exact hother
    | some l =>
      rcases hload found hstage rfl (by simp [hfound]) with hsilent | hfresh
      · rw [LoopRun.said_of_silent hsilent]
        exact Multiset.zero_le _
      · exact (h.mine.fetched found l hstage hfresh hfound).2
  | speaks new hmessages _ _ hsaid =>
    rw [hmessages,uttered_append]
    calc run'.said+other.said ≤ run.said+uttered new+other.said := add_le_add_left hsaid _
      _ = run.said+other.said+uttered new := add_right_comm _ _ _
      _ ≤ uttered agent.memory.messages+uttered new := add_le_add_left h.messages _
  | dumps hstage =>
    rw [(hanswered (by rw [LoopRun.hasAnswered,hstage])).2]
    exact h.messages
  | writes hstage =>
    rw [(hanswered (by rw [LoopRun.hasAnswered,hstage])).2]
    exact h.messages
  | goesOn hmessages _ _ hsaid =>
    rw [hmessages,hsaid]
    exact h.messages

/-- A session that the run gets now is that of the other run, if that one is saved. -/
lemma fetched_step (h : BothKept agent run other fresh heard fresh' heard')
    (hstep : TalkStep agent run event agent' run') (found : AgentStore) (l : List ChatMessage)
    (hstage' : run'.stage = .loading .session (some found))
    (hfresh : (if event = .fetch then other.hasSaved else fresh) = true) (hfound : found.session = some l) :
    other.hasSaved = true ∧ other.said ≤ uttered l := by
  cases hstep with
  | @fetches key found' event hstage hfound' =>
    obtain ⟨rfl,hsome⟩ := LoopStage.loading.inj hstage'
    obtain rfl := Option.some.inj hsome
    rcases hfound' with hnone | ⟨rfl,rfl⟩
    · rw [hnone] at hfound
      cases hfound
    · rw [if_pos rfl] at hfresh
      obtain ⟨l',hl',hsaid⟩ := h.others.stored hfresh
      obtain rfl := Option.some.inj (hfound.symm.trans hl')
      exact ⟨hfresh,hsaid⟩
  | assigns hstage => cases hstage'
  | speaks _ _ _ _ _ _ hbetween => exact absurd hstage' (hbetween.loading found)
  | dumps hstage => cases hstage'
  | writes hstage => cases hstage'
  | goesOn _ _ _ _ hanswered => simp [LoopRun.hasAnswered,hstage'] at hanswered

/-- A dump that the run makes now shows all that both have said so far. -/
lemma dumped_step (h : BothKept agent run other fresh heard fresh' heard')
    (hstep : TalkStep agent run event agent' run') (answer : String) (data : AgentMemory) (written : Bool)
    (hstage' : run'.stage = .saving .session answer data written) :
    run'.said ≤ uttered data.messages ∧ ((if event = .resume then other.hasAnswered else heard) = true →
      other.hasAnswered = true ∧ run'.said+other.said ≤ uttered data.messages) := by
  have hanswered := hstep.answered
  cases hstep with
  | fetches hstage => cases hstage'
  | assigns hstage => cases hstage'
  | speaks _ _ _ _ _ _ hbetween => exact absurd hstage' (hbetween.saving answer data written)
  | dumps hstage =>
    cases hstage'
    rw [(hanswered (by rw [LoopRun.hasAnswered,hstage])).2,if_pos rfl]
    exact ⟨(Multiset.le_add_right _ _).trans h.messages,fun hother => ⟨hother,h.messages⟩⟩
  | writes hstage =>
    cases hstage'
    rw [(hanswered (by rw [LoopRun.hasAnswered,hstage])).2,if_neg (by simp)]
    exact h.mine.dumped answer data false hstage
  | goesOn _ _ _ _ _ hsaving => exact absurd hstage' (hsaving answer data written)

theorem talk (h : BothKept agent run other fresh heard fresh' heard')
    (hstep : TalkStep agent run event agent' run')
    (hload : ∀ found, run.stage = .loading .session (some found) → event = .resume → found.session.isSome →
      other.silent = true ∨ fresh = true)
    (hwrite : ∀ answer data, run.stage = .saving .session answer data false → event = .write →
      other.hasSaved = true → heard = true) :
    BothKept agent' run' other (if event = .fetch then other.hasSaved else fresh)
      (if event = .resume then other.hasAnswered else heard) fresh' heard' := by
  obtain ⟨hrun,hother,hboth⟩ := h.session_step hstep hwrite
  refine ⟨h.messages_step hstep hload,⟨h.fetched_step hstep,h.dumped_step hstep,hrun⟩,⟨?_,?_,hother⟩,hboth⟩
  · intro found l hstage hfresh hfound
    obtain ⟨hsaved,hsaid⟩ := h.others.fetched found l hstage hfresh hfound
    rw [(hstep.answered (LoopRun.hasAnswered_of_hasSaved hsaved)).2]
    exact ⟨hstep.saved hsaved,hsaid⟩
  · intro answer data written hstage
    obtain ⟨hdump,hheard⟩ := h.others.dumped answer data written hstage
    refine ⟨hdump,fun hheard' => ?_⟩
    obtain ⟨hanswered,hsaid⟩ := hheard hheard'
    rw [(hstep.answered hanswered).2]
    exact ⟨(hstep.answered hanswered).1,hsaid⟩

end BothKept

namespace Conversations

/-- The order in which the runs may load and save: a run does not take over a session that was read before
the other one, which had begun, wrote its own; and it does not write a session over that of the other one
that was dumped before the other one had answered. -/
def Ordered (s : Conversations) (l : Bool × LoopEvent) : Prop :=
  match (s.run l.1).stage,l.2 with
  | .loading .session (some found),.resume => found.session.isSome →
      (s.run !l.1).silent = true ∨ s.fresh l.1 = true
  | .saving .session _ _ _,.write => (s.run !l.1).hasSaved = true → s.heard l.1 = true
  | _,_ => True

instance (s : Conversations) (l : Bool × LoopEvent) : Decidable (s.Ordered l) := by
  unfold Ordered
  split
  all_goals infer_instance

structure Kept (prompt : Bool → String) (s : Conversations) : Prop where
  prompts : ∀ i, (s.run i).prompt = prompt i
  runs : ∀ i, BothKept s.agent (s.run i) (s.run !i) (s.fresh i) (s.heard i) (s.fresh !i) (s.heard !i)

lemma kept_start (agent : AgentData) (prompt : Bool → String) : (start agent prompt).Kept prompt where
  prompts := fun _ => rfl
  runs := fun i => {
    messages := Multiset.zero_le _
    mine := ⟨by simp [start],by simp [start],fun h => by cases h⟩
    others := ⟨by simp [start],by simp [start],fun h => by cases h⟩
    saved := fun h => by cases h }

/-- What a run records changes its own entry only. -/
lemma recorded_self {c : Prop} [Decidable c] (f : Bool → Bool) (i b : Bool) :
    (if c then Function.update f i b else f) i = if c then b else f i := by
  split
  · exact Function.update_self i b f
  · rfl

lemma recorded_other {c : Prop} [Decidable c] (f : Bool → Bool) (i b : Bool) :
    (if c then Function.update f i b else f) (!i) = f !i := by
  split
  · exact Function.update_of_ne (Bool.not_ne_self i) b f
  · rfl

lemma kept_step {cfg : LoopConfig} {prompt : Bool → String} {s t : Conversations} {l : Bool × LoopEvent}
    (h : s.Kept prompt) (hquiet : Quiet cfg s.agent (s.run l.1) l.2)
    (hkeeps : KeepsAnswer cfg s.agent (s.run l.1) l.2) (hordered : s.Ordered l) (hstep : s.step cfg l = some t) :
    t.Kept prompt := by
  obtain ⟨i,event⟩ := l
  obtain ⟨⟨agent',run'⟩,hloop,rfl⟩ := Option.map_eq_some_iff.mp hstep
  have htalk := talkStep_of_quiet hloop hquiet hkeeps
  have hload : ∀ found, (s.run i).stage = .loading .session (some found) → event = .resume →
      found.session.isSome → (s.run !i).silent = true ∨ s.fresh i = true := by
    intro found hstage hevent
    subst hevent
    simpa only [Ordered,hstage] using hordered
  have hwrite : ∀ answer data, (s.run i).stage = .saving .session answer data false → event = .write →
      (s.run !i).hasSaved = true → s.heard i = true := by
    intro answer data hstage hevent
    subst hevent
    simpa only [Ordered,hstage] using hordered
  have hkept := (h.runs i).talk htalk hload hwrite
  have hne : (!i) ≠ i := Bool.not_ne_self i
  refine ⟨fun j => ?_,fun j => ?_⟩
  · by_cases hj : j = i
    · subst hj
      exact (congrArg LoopRun.prompt (Function.update_self j run' s.run)).trans (htalk.prompt.trans (h.prompts j))
    · exact (congrArg LoopRun.prompt (Function.update_of_ne hj run' s.run)).trans (h.prompts j)
  · by_cases hj : j = i
    · subst hj
      simpa only [Function.update_self,Function.update_of_ne hne,recorded_self,recorded_other] using hkept
    · obtain rfl : j = !i := Bool.eq_not_of_ne hj
      simpa only [Bool.not_not,Function.update_self,Function.update_of_ne hne,recorded_self,recorded_other]
        using hkept.symm

/-- Two runs that load and save in this order, with answers that they record, leave a session with the
prompt and the answer of both. -/
theorem shows_both_of_ordered (cfg : LoopConfig) {agent : AgentData} {prompt answer : Bool → String}
    {trace : List (Transition Conversations (Bool × LoopEvent))} {t : Conversations}
    (hrun : Run (step cfg) (start agent prompt) trace t) (hreturned : ∀ i, (t.run i).stage = .returned (answer i))
    (hquiet : ∀ e ∈ trace, Quiet cfg e.source.agent (e.source.run e.label.1) e.label.2)
    (hkeeps : ∀ e ∈ trace, KeepsAnswer cfg e.source.agent (e.source.run e.label.1) e.label.2)
    (hordered : ∀ e ∈ trace, e.source.Ordered e.label) :
    ∃ session, t.agent.store.session = some session ∧
      {(.user,prompt false),(.assistant,answer false)}+{(.user,prompt true),(.assistant,answer true)} ≤
        uttered session := by
  have hstep : ∀ (s : Conversations) l t, s.Kept prompt → (Quiet cfg s.agent (s.run l.1) l.2 ∧
      KeepsAnswer cfg s.agent (s.run l.1) l.2 ∧ s.Ordered l) → s.step cfg l = some t → t.Kept prompt :=
    fun s l t h hall hstep => kept_step h hall.1 hall.2.1 hall.2.2 hstep
  have hkept := (hrun.invariant_of_allowed hstep (kept_start agent prompt)
    (fun e he => ⟨hquiet e he,hkeeps e he,hordered e he⟩)).2
  have hsaid (i : Bool) : (t.run i).said = {(.user,prompt i),(.assistant,answer i)} := by
    rw [LoopRun.said,hreturned i,hkept.prompts i]
  have hsaved (i : Bool) : (t.run i).hasSaved = true := by rw [LoopRun.hasSaved,hreturned i]
  rw [← hsaid false,← hsaid true]
  exact (hkept.runs false).saved (hsaved false) (hsaved true)

/-- An agent without tools. -/
def plainLoop : LoopConfig where
  maxIterations := 15
  systemPrompt := ""
  toolsOverhead := 0
  callsLength := fun _ => 0
  registered := fun _ => false
  contentArg := fun _ => none

/-- What the agent is asked and what it answers. -/
def greeting (i : Bool) : String := if i then "Good evening." else "Good morning."

def reply (i : Bool) : String := if i then "Sleep well." else "Nice day."

def saves (i : Bool) : List (Bool × LoopEvent) := [(i,.write),(i,.resume),(i,.write),(i,.resume),(i,.write),(i,.resume)]

/-- Both load before anything is saved, both answer, and then they save one after the other. -/
def overlap : List (Bool × LoopEvent) :=
  [(false,.fetch),(false,.resume),(false,.fetch),(true,.fetch),(true,.resume),(true,.fetch),(false,.resume),
    (false,.fetch),(false,.resume),(true,.resume),(true,.fetch),(true,.resume),(false,.respond (reply false) []),
    (true,.respond (reply true) [])]++saves false++saves true

theorem shows_both_of_ordered_overlap : ∃ t, exec (step plainLoop) overlap (start ⟨{},{}⟩ greeting) = some t ∧
    ∃ session, t.agent.store.session = some session ∧
      {(.user,greeting false),(.assistant,reply false)}+{(.user,greeting true),(.assistant,reply true)} ≤
        uttered session := by
  obtain ⟨t,ht,hreturned⟩ : ∃ t, exec (step plainLoop) overlap (start ⟨{},{}⟩ greeting) = some t ∧
      (t.run false).stage = .returned (reply false) ∧ (t.run true).stage = .returned (reply true) :=
    ⟨_,rfl,rfl,rfl⟩
  refine ⟨t,ht,shows_both_of_ordered plainLoop (Run.of_exec ht) ?_ ?_ ?_ ?_⟩
  · intro i
    cases i with
    | false => exact hreturned.1
    | true => exact hreturned.2
  · decide +kernel
  · decide +kernel
  · decide +kernel

/-- If a session is there already, the second run puts the one that it has read over the prompt of the
first. -/
theorem load_drops_prompt : ¬∀ (cfg : LoopConfig) (agent : AgentData) (prompt answer : Bool → String)
    (trace : List (Transition Conversations (Bool × LoopEvent))) (t : Conversations),
    Run (step cfg) (start agent prompt) trace t → (∀ i, (t.run i).stage = .returned (answer i)) →
    (∀ e ∈ trace, Quiet cfg e.source.agent (e.source.run e.label.1) e.label.2) →
    ∃ session, t.agent.store.session = some session ∧
      {(.user,prompt false),(.assistant,answer false)}+{(.user,prompt true),(.assistant,answer true)} ≤
        uttered session := by
  intro h
  obtain ⟨t,ht,hfalse,htrue,hsession⟩ : ∃ t,
      exec (step plainLoop) overlap (start ⟨{},{ session := some [] }⟩ greeting) = some t ∧
      (t.run false).stage = .returned (reply false) ∧ (t.run true).stage = .returned (reply true) ∧
      t.agent.store.session = some [⟨.user,greeting true,[],""⟩,⟨.assistant,reply false,[],""⟩,
        ⟨.assistant,reply true,[],""⟩] := ⟨_,rfl,rfl,rfl,rfl⟩
  have hreturned : ∀ i, (t.run i).stage = .returned (reply i) := by
    intro i
    cases i with
    | false => exact hfalse
    | true => exact htrue
  obtain ⟨session,hs,hle⟩ := h plainLoop _ _ reply _ t (Run.of_exec ht) hreturned (by decide +kernel)
  obtain rfl := Option.some.inj (hsession.symm.trans hs)
  have hmem := Multiset.mem_of_le hle (show (.user,greeting false) ∈ _ by simp)
  revert hmem
  decide

end Conversations
end HiveKernel
