import HiveKernel.Sdk.AgentLoop

/-! The long-term text over a run. `memory_store` writes it to the artifact, the run keeps the text that it
has loaded, and the save at the end writes that one. -/
namespace HiveKernel
open Lib

/-- What a run has in place of the text that it has loaded: its end, if a compression was of the last kind. -/
def LoopRun.keptText (run : LoopRun) (text : String) : String := if run.trimmed then lastChars 1000 text else text

lemma LoopRun.keptText_trim (run : LoopRun) (stage : LoopStage) (trims : Bool) (text : String) :
    { run with stage := stage, trimmed := run.trimmed || trims }.keptText text =
      if trims then lastChars 1000 (run.keptText text) else run.keptText text := by
  unfold keptText
  cases run.trimmed with
  | false => cases trims <;> simp
  | true => cases trims <;> simp [lastChars_lastChars]

/-- Where the text stands while a run waits: in the memory after it is loaded, and in the store after the
save of the first artifact. -/
def StageKeeps (text kept : String) (agent : AgentData) : LoopStage → Prop
  | .loading .memory none => False
  | .loading .memory (some found) => found.memory.getD agent.memory.longTerm = text
  | .saving .memory _ data written => agent.memory.longTerm = kept ∧ data.longTerm = kept ∧
      (written = true → agent.store.memory = some kept)
  | .saving _ _ _ _ => agent.memory.longTerm = kept ∧ agent.store.memory = some kept
  | .returned _ => agent.store.memory = some kept
  | _ => agent.memory.longTerm = kept

section
variable (cfg : LoopConfig) {text kept : String} (agent : AgentData)

lemma enterLoop_keeps (h : agent.memory.longTerm = kept) :
    StageKeeps text kept agent (cfg.enterLoop agent.memory) := by
  unfold LoopConfig.enterLoop
  split
  · exact h
  · exact h

lemma endLoop_keeps (h : agent.memory.longTerm = kept) (answer : String) :
    StageKeeps text kept agent (cfg.endLoop agent.memory answer) := by
  unfold LoopConfig.endLoop
  split
  · exact h
  · exact ⟨h,h,fun hwritten => by cases hwritten⟩

lemma nextIteration_keeps (h : agent.memory.longTerm = kept) (iteration : ℕ) (content : String) :
    StageKeeps text kept agent (cfg.nextIteration agent.memory iteration content) := by
  unfold LoopConfig.nextIteration
  split
  · exact h
  · exact endLoop_keeps cfg agent h _

lemma nextCall_keeps (h : agent.memory.longTerm = kept) (iteration : ℕ) (content : String)
    (rest : List ToolCall) : StageKeeps text kept agent (cfg.nextCall agent.memory iteration content rest) := by
  cases rest with
  | nil => exact nextIteration_keeps cfg agent h iteration content
  | cons call rest => exact h

lemma start_keeps {run : LoopRun} (h : agent.memory.longTerm = run.keptText text) :
    StageKeeps text ((cfg.start agent run).2.keptText text) (cfg.start agent run).1
      (cfg.start agent run).2.stage := by
  apply enterLoop_keeps
  change (cfg.preflight _).longTerm = LoopRun.keptText { run with stage := _, trimmed := run.trimmed || _ } text
  rw [run.keptText_trim,cfg.preflight_longTerm,← h]
  rfl

lemma loaded_keeps {run : LoopRun} {found : AgentStore} {key : MemoryKey}
    (h : StageKeeps text (run.keptText text) agent (.loading key (some found))) :
    StageKeeps text ((cfg.loaded agent run found key).2.keptText text) (cfg.loaded agent run found key).1
      (cfg.loaded agent run found key).2.stage := by
  cases key with
  | memory => exact h
  | session => exact h
  | summary => exact start_keeps cfg ⟨agent.memory.assign found .summary,agent.store⟩ h

end

lemma stageKeeps_step {cfg : LoopConfig} {agent agent' : AgentData} {run run' : LoopRun} {event : LoopEvent}
    {text : String} (h : StageKeeps text (run.keptText text) agent run.stage) (hstore : event ≠ .storeFails)
    (hstep : loopStep cfg agent run event = some (agent',run')) :
    StageKeeps text (run'.keptText text) agent' run'.stage := by
  cases loopStep_cases hstep with
  | @fetch key hstage =>
    rw [hstage] at h
    cases key with
    | memory => exact h.elim
    | session => exact h
    | summary => exact h
  | @fetchFails key hstage =>
    rw [hstage] at h
    cases key with
    | memory => exact h.elim
    | session => exact h
    | summary => exact h
  | load hstage =>
    rw [hstage] at h
    exact loaded_keeps cfg agent h
  | answer hstage =>
    rw [hstage] at h
    exact endLoop_keeps cfg ⟨agent.memory.addMessage _ _ _ _,_⟩ h _
  | callTools hstage => rw [hstage] at h; exact h
  | @overflow i retry request hstage =>
    rw [hstage] at h
    have hcut : agent.memory.forceCompress.longTerm = (run.afterOverflow cfg agent.memory i retry).keptText text := by
      rw [LoopRun.afterOverflow,run.keptText_trim,agent.memory.forceCompress_longTerm]
      rw [show agent.memory.longTerm = run.keptText text from h]
      simp
    unfold LoopRun.afterOverflow
    split
    · exact hcut
    · exact hcut
  | llmFails hstage => rw [hstage] at h; exact h
  | toolWrites hstage => rw [hstage] at h ⊢; exact h
  | tool hstage => rw [hstage] at h; exact h
  | toolFails hstage => rw [hstage] at h; exact h
  | memoryStore hstage => rw [hstage] at h; exact h
  | record hstage =>
    rw [hstage] at h
    exact nextCall_keeps cfg ⟨agent.memory.addMessage _ _ _ _,_⟩ h _ _ _
  | summarize hstage =>
    rw [hstage] at h
    exact ⟨h,h,fun hwritten => by cases hwritten⟩
  | @write key answer data hstage =>
    rw [hstage] at h
    cases key with
    | memory => exact ⟨h.1,h.2.1,fun _ => congrArg some h.2.1⟩
    | session => exact h
    | summary => exact h
  | @save key answer data hstage =>
    rw [hstage] at h
    cases key with
    | memory => exact ⟨h.1,h.2.2 rfl⟩
    | session => exact h
    | summary => exact h.2
  | storeFails hstage => exact absurd rfl hstore

/-- The long-term text that a run loads: what the store holds at its start, or what the agent has if nothing
is there or the read fails. -/
def loadedText (agent : AgentData) (trace : List (Transition (AgentData × LoopRun) LoopEvent)) : String :=
  if trace.head?.map Transition.label = some .fetchFails then agent.memory.longTerm
  else agent.store.memory.getD agent.memory.longTerm

lemma start_loading {cfg : LoopConfig} {agent agent' : AgentData} {prompt : String} {run : LoopRun} {event : LoopEvent}
    (h : loopStep cfg agent { prompt := prompt } event = some (agent',run)) : agent' = agent ∧
    ∃ found, run.stage = .loading .memory (some found) ∧
      found.memory = if event = .fetchFails then none else agent.store.memory := by
  cases loopStep_cases h with
  | fetch hstage => cases hstage; exact ⟨rfl,_,rfl,rfl⟩
  | fetchFails hstage => cases hstage; exact ⟨rfl,_,rfl,rfl⟩
  | _ hstage => cases hstage

/-- At the end of a run whose saves succeed, the store has the text that was loaded at its start. -/
lemma store_memory_of_returned {cfg : LoopConfig} {agent : AgentData} {prompt answer : String}
    {trace : List (Transition (AgentData × LoopRun) LoopEvent)} {t : AgentData × LoopRun}
    (hrun : Run cfg.step (agent,{ prompt := prompt }) trace t) (hreturned : t.2.stage = .returned answer)
    (hstores : ∀ e ∈ trace, e.label ≠ .storeFails) :
    t.1.store.memory = some (t.2.keptText (loadedText agent trace)) := by
  cases hrun with
  | nil => cases hreturned
  | @cons _ s _ event trace first rest =>
    obtain ⟨hagent,found,hstage,hfound⟩ := start_loading first
    have hloading : StageKeeps (loadedText agent (⟨(agent,{ prompt := prompt }),event,s⟩::trace))
        (s.2.keptText (loadedText agent (⟨(agent,{ prompt := prompt }),event,s⟩::trace))) s.1 s.2.stage := by
      rw [hstage]
      change found.memory.getD s.1.memory.longTerm = _
      rw [hfound,hagent,loadedText]
      by_cases hfails : event = .fetchFails
      · simp [hfails]
      · simp [hfails]
    have hend := (rest.invariant_of_allowed (fun s event s' h hstore hnext => stageKeeps_step h hstore hnext)
      hloading (fun e he => hstores e (by simp [he]))).2
    rw [hreturned] at hend
    exact hend

/-- After the run, a new load finds what `memory_store` has last written exactly if that is the text that the
run had loaded at its start. -/
theorem recalls_iff_loaded (cfg : LoopConfig) {agent : AgentData} {prompt answer : String}
    {trace : List (Transition (AgentData × LoopRun) LoopEvent)} {t : AgentData × LoopRun}
    (hrun : Run cfg.step (agent,{ prompt := prompt }) trace t) (hreturned : t.2.stage = .returned answer)
    (hstores : ∀ e ∈ trace, e.label ≠ .storeFails) :
    t.2.lastStored = some (({} : AgentMemory).load t.1.store).longTerm ↔
      t.2.lastStored = some (t.2.keptText (loadedText agent trace)) := by
  rw [AgentMemory.load_longTerm,store_memory_of_returned hrun hreturned hstores,Option.getD_some]

/-- An agent with the one tool `memory_store`, and what its arguments hold in the example. -/
def memoryLoop : LoopConfig where
  maxIterations := 15
  systemPrompt := ""
  toolsOverhead := 95
  callsLength := fun calls => 112*calls.length
  registered := fun name => decide (name = "memory_store")
  contentArg := fun raw => if raw = "\x7b\"content\": \"likes tea\"\x7d" then some "likes tea" else none

/-- The first artifacts are read, the text is stored, and the run saves everything. -/
def memoryEvents : List LoopEvent :=
  [.fetch,.resume,.fetch,.resume,.fetch,.resume,
    .respond "" [⟨"a","memory_store","\x7b\"content\": \"likes tea\"\x7d"⟩],.tool "",.record,.respond "Done." [],
    .write,.resume,.write,.resume,.write,.resume]

theorem recalls_iff_loaded_again : ∃ t, exec memoryLoop.step memoryEvents
    (⟨{},{ memory := some "likes tea" }⟩,{ prompt := "Remember tea." }) = some t ∧
    t.2.lastStored = some "likes tea" ∧ (({} : AgentMemory).load t.1.store).longTerm = "likes tea" := by
  obtain ⟨t,ht,hstage,hstores,hlast,hkept⟩ : ∃ t, exec memoryLoop.step memoryEvents
      (⟨{},{ memory := some "likes tea" }⟩,{ prompt := "Remember tea." }) = some t ∧
      t.2.stage = .returned "Done." ∧ (∀ label ∈ memoryEvents, label ≠ .storeFails) ∧
      t.2.lastStored = some "likes tea" ∧ t.2.trimmed = false := ⟨_,rfl,rfl,by decide +kernel,rfl,rfl⟩
  have hrecalls := recalls_iff_loaded memoryLoop (Run.of_exec ht) hstage
    (fun e he => hstores e.label (label_mem_of_mem_transitions he))
  refine ⟨t,ht,hlast,?_⟩
  have hfound := hrecalls.mpr (by rw [hlast,LoopRun.keptText,hkept]; rfl)
  rw [hlast] at hfound
  exact (Option.some.inj hfound).symm

/-- The save of the run puts back the empty text that it had loaded. -/
theorem save_overwrites_memory_store : ¬∀ (cfg : LoopConfig) (agent : AgentData) (prompt answer : String)
    (trace : List (Transition (AgentData × LoopRun) LoopEvent)) (t : AgentData × LoopRun) (content : String),
    Run cfg.step (agent,{ prompt := prompt }) trace t → t.2.stage = .returned answer →
    (∀ e ∈ trace, e.label ≠ .storeFails) → t.2.lastStored = some content →
    (({} : AgentMemory).load t.1.store).longTerm = content := by
  intro h
  obtain ⟨t,ht,hstage,hstores,hlast,hload⟩ : ∃ t, exec memoryLoop.step memoryEvents
      (⟨{},{}⟩,{ prompt := "Remember tea." }) = some t ∧
      t.2.stage = .returned "Done." ∧ (∀ label ∈ memoryEvents, label ≠ .storeFails) ∧
      t.2.lastStored = some "likes tea" ∧ (({} : AgentMemory).load t.1.store).longTerm = "" :=
    ⟨_,rfl,rfl,by decide +kernel,rfl,rfl⟩
  have hcontent := h memoryLoop _ _ _ _ t "likes tea" (Run.of_exec ht) hstage
    (fun e he => hstores e.label (label_mem_of_mem_transitions he)) hlast
  rw [hload] at hcontent
  exact absurd hcontent (by decide)

end HiveKernel
