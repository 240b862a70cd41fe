import HiveKernel.Sdk.AgentLoop
import HiveKernel.Sdk.DrainedResults

/-! The summary of old messages at the end of a loop. If the model cannot be reached, the old messages are dropped
nevertheless, and the memory is saved without them. -/
namespace HiveKernel
open Lib

/-- What `_summarize` leaves behind, the text that it has given to the model, and whether it has raised. -/
structure Summarization where
  memory : AgentMemory
  given : Option String
  raised : Bool

namespace AgentMemory

/-- `_summarize` for a model that may do anything with the text that it gets. A cancellation is no `Exception` and
leaves `_summarize`. -/
def summarize (m : AgentMemory) (chat : String → AwaitOutcome String) : Summarization :=
  if m.messages.length ≤ 4 then ⟨m,none,false⟩
  else
    let summaryPrompt := LoopConfig.summaryPrompt (m.messages.rdrop 4)
    match chat summaryPrompt with
    | .ok text => ⟨m.summarized (m.messages.rtake 4) (some text),some summaryPrompt,false⟩
    | .error _ => ⟨m.summarized (m.messages.rtake 4) none,some summaryPrompt,false⟩
    | .cancelled => ⟨m,some summaryPrompt,true⟩

/-- How a message is shown to the model. -/
def shown (msg : ChatMessage) : String := s!"{msg.role.text}: {msg.content}\n"

/-- If the call of the model raises, the memory is as before; if it returns, every message that is dropped and has
a content was part of the text. -/
def LosesNothing (m : AgentMemory) (chat : String → AwaitOutcome String) : Prop :=
  ∀ text, (m.summarize chat).given = some text →
    ((∀ answer, chat text ≠ .ok answer) → (m.summarize chat).memory.messages = m.messages ∧
      (m.summarize chat).memory.summary = m.summary) ∧
    ∀ answer, chat text = .ok answer → ∀ dropped, m.messages = dropped++(m.summarize chat).memory.messages →
      ∀ msg ∈ dropped, msg.content ≠ "" → (shown msg).toList <:+: text.toList

variable {m : AgentMemory} {chat : String → AwaitOutcome String}

/-- The text begins with what was there before and goes on with the message. -/
lemma shown_infix {old : List ChatMessage} {msg : ChatMessage} (hmem : msg ∈ old) (hne : msg.content ≠ "") :
    (shown msg).toList <:+: (LoopConfig.summaryPrompt old).toList := by
  have hfold : ∀ (old : List ChatMessage) (text : String),
      text.toList <+: (old.foldl (fun text msg => if msg.content = "" then text else text++shown msg) text).toList ∧
      (msg ∈ old → (shown msg).toList <:+:
        (old.foldl (fun text msg => if msg.content = "" then text else text++shown msg) text).toList) := by
    intro old
    induction old with
    | nil => exact fun text => ⟨List.prefix_rfl,fun h => absurd h List.not_mem_nil⟩
    | cons first old ih =>
      intro text
      rw [List.foldl_cons]
      obtain ⟨hbegins,hrest⟩ := ih (if first.content = "" then text else text++shown first)
      refine ⟨List.IsPrefix.trans ?_ hbegins,fun hmem => ?_⟩
      · split_ifs
        · exact List.prefix_rfl
        · rw [String.toList_append]
          exact List.prefix_append _ _
      · rcases List.mem_cons.mp hmem with rfl | hmem
        · rw [if_neg hne,String.toList_append] at hbegins
          rw [if_neg hne]
          exact (List.suffix_append _ _).isInfix.trans hbegins.isInfix
        · exact hrest hmem
  exact (hfold old _).2 hmem

/-- The outcomes of a summary of more than four messages. -/
lemma summarize_of_four_lt (h : 4 < m.messages.length) (chat : String → AwaitOutcome String) :
    (m.summarize chat).given = some (LoopConfig.summaryPrompt (m.messages.rdrop 4)) ∧
    ((∀ answer, chat (LoopConfig.summaryPrompt (m.messages.rdrop 4)) = .ok answer →
        (m.summarize chat).memory = m.summarized (m.messages.rtake 4) (some answer)) ∧
      (∀ e, chat (LoopConfig.summaryPrompt (m.messages.rdrop 4)) = .error e →
        (m.summarize chat).memory = m.summarized (m.messages.rtake 4) none) ∧
      (chat (LoopConfig.summaryPrompt (m.messages.rdrop 4)) = .cancelled → (m.summarize chat).memory = m)) := by
  unfold summarize
  rw [if_neg (by omega)]
  simp only
  cases chat (LoopConfig.summaryPrompt (m.messages.rdrop 4)) with
  | ok text => exact ⟨rfl,by rintro _ ⟨⟩; rfl,by rintro _ ⟨⟩,by rintro ⟨⟩⟩
  | error e => exact ⟨rfl,by rintro _ ⟨⟩,fun _ _ => rfl,by rintro ⟨⟩⟩
  | cancelled => exact ⟨rfl,by rintro _ ⟨⟩,by rintro _ ⟨⟩,fun _ => rfl⟩

/-- Only a call that raises an `Exception` loses anything, and then it always does. -/
theorem losesNothing_iff (m : AgentMemory) (chat : String → AwaitOutcome String) : m.LosesNothing chat ↔
    (4 < m.messages.length → ∀ e, chat (LoopConfig.summaryPrompt (m.messages.rdrop 4)) ≠ .error e) := by
  by_cases hshort : m.messages.length ≤ 4
  · refine iff_of_true (fun text htext => ?_) (fun h => absurd h (by omega))
    rw [summarize,if_pos hshort] at htext
    cases htext
  have hlong : 4 < m.messages.length := by omega
  obtain ⟨hgiven,hok,herror,hcancelled⟩ := summarize_of_four_lt hlong chat
  have hkept : (m.messages.rtake 4).length = 4 := by
    rw [length_rtake]
    omega
  constructor
  · intro h _ e he
    obtain ⟨hsame,-⟩ := (h _ hgiven).1 (fun answer hanswer => by rw [he] at hanswer; cases hanswer)
    rw [herror e he] at hsame
    have hlength := congrArg List.length hsame
    change (m.messages.rtake 4).length = _ at hlength
    omega
  · intro h text htext
    obtain rfl : _ = text := Option.some.inj (hgiven.symm.trans htext)
    constructor
    · intro hraises
      cases hchat : chat (LoopConfig.summaryPrompt (m.messages.rdrop 4)) with
      | ok answer => exact absurd hchat (hraises answer)
      | error e => exact absurd hchat (h hlong e)
      | cancelled =>
        rw [hcancelled hchat]
        exact ⟨rfl,rfl⟩
    · intro answer hanswer dropped hdropped msg hmsg hne
      rw [hok answer hanswer] at hdropped
      have hsplit : m.messages.rdrop 4++m.messages.rtake 4 = m.messages := by
        rw [List.rdrop,List.rtake,List.take_append_drop]
      obtain rfl : dropped = m.messages.rdrop 4 := List.append_cancel_right (hdropped.symm.trans hsplit.symm)
      exact shown_infix hmsg hne

/-- Five messages are enough: the model cannot be reached, and the first of them is gone. -/
theorem failed_summary_drops_messages :
    ¬∀ (m : AgentMemory) (chat : String → AwaitOutcome String), m.LosesNothing chat := by
  intro h
  let said := ["My name is Ada.","Hello Ada.","What is due?","Nothing.","Who am I?"]
  let m : AgentMemory := { messages := said.map (⟨.user,·,[],""⟩) }
  obtain ⟨hsame,-⟩ := (h m (fun _ => .error "model not reachable") _ rfl).1 (fun _ hanswer => by cases hanswer)
  exact absurd (congrArg List.length hsame) (by decide)

end AgentMemory

variable {cfg : LoopConfig} {agent : AgentData} {run : LoopRun}

end HiveKernel
