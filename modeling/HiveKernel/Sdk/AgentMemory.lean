import Mathlib.Data.List.DropRight

/-! The memory of an agent: a long-term text, the messages of the session and the summary of older ones.
All three are kept as artifacts of the agent and cut when they grow too large. -/
namespace HiveKernel

inductive ChatRole
  | system | user | assistant | tool
  deriving DecidableEq, Repr

def ChatRole.text : ChatRole → String
  | .system => "system"
  | .user => "user"
  | .assistant => "assistant"
  | .tool => "tool"

/-- A call that the model asks for. The arguments are JSON text; a missing field is empty. -/
structure ToolCall where
  id : String
  name : String
  arguments : String
  deriving DecidableEq, Repr

structure ChatMessage where
  role : ChatRole
  content : String
  toolCalls : List ToolCall := []
  toolCallId : String := ""
  deriving DecidableEq, Repr

/-- What Python writes as `s[-n:]`. -/
def lastChars (n : ℕ) (s : String) : String := String.ofList (s.toList.rtake n)

lemma rtake_of_length_le {α : Type} {l : List α} {n : ℕ} (h : l.length ≤ n) : l.rtake n = l := by
  rw [List.rtake,Nat.sub_eq_zero_of_le h,List.drop_zero]

lemma length_rtake {α : Type} (l : List α) (n : ℕ) : (l.rtake n).length = min n l.length := by
  rw [List.rtake,List.length_drop]
  omega

lemma lastChars_of_length_le {n : ℕ} {s : String} (h : s.length ≤ n) : lastChars n s = s := by
  rw [lastChars,rtake_of_length_le (String.length_toList ▸ h),String.ofList_toList]

/-- `if len(s) > n: s = s[-n:]`. -/
def truncate (n : ℕ) (s : String) : String := if n < s.length then lastChars n s else s

lemma truncate_eq_lastChars (n : ℕ) (s : String) : truncate n s = lastChars n s := by
  unfold truncate
  split
  · rfl
  · exact (lastChars_of_length_le (by omega)).symm

lemma lastChars_lastChars (n : ℕ) (s : String) : lastChars n (lastChars n s) = lastChars n s := by
  apply lastChars_of_length_le
  rw [lastChars,String.length_ofList,length_rtake]
  omega

/-- The artifacts of the agent, under the last part of their keys. A session that does not decode counts as
missing. -/
inductive MemoryKey
  | memory | session | summary
  deriving DecidableEq, Repr

structure AgentStore where
  memory : Option String := none
  session : Option (List ChatMessage) := none
  summary : Option String := none
  deriving DecidableEq, Repr

structure AgentMemory where
  longTerm : String := ""
  messages : List ChatMessage := []
  summary : String := ""
  deriving DecidableEq, Repr

namespace AgentMemory

/-- Take over one artifact, if it was found. -/
def assign (m : AgentMemory) (found : AgentStore) : MemoryKey → AgentMemory
  | .memory => { m with longTerm := found.memory.getD m.longTerm }
  | .session => { m with messages := found.session.getD m.messages }
  | .summary => { m with summary := found.summary.getD m.summary }

/-- A load that nothing interrupts. -/
def load (m : AgentMemory) (store : AgentStore) : AgentMemory :=
  ((m.assign store .memory).assign store .session).assign store .summary

lemma load_longTerm (m : AgentMemory) (store : AgentStore) :
    (m.load store).longTerm = store.memory.getD m.longTerm := rfl

def addMessage (m : AgentMemory) (role : ChatRole) (content : String) (toolCalls : List ToolCall)
    (toolCallId : String) : AgentMemory :=
  { m with messages := m.messages++[⟨role,content,toolCalls,toolCallId⟩] }

def getContextMessages (m : AgentMemory) (systemPrompt : String) : List ChatMessage :=
  let parts := [systemPrompt]
    ++(if m.longTerm = "" then [] else [s!"\n## Long-term Memory\n{m.longTerm}"])
    ++(if m.summary = "" then [] else [s!"\n## Conversation Summary\n{m.summary}"])
  ⟨.system,"\n".intercalate parts,[],""⟩::m.messages

/-- Two fifths of the characters. How long the tool calls of a message are as text is a parameter: the text has
fields of the provider that nothing else reads. -/
def estimateTotalTokens (callsLength : List ToolCall → ℕ) (m : AgentMemory) : ℕ :=
  let length (msg : ChatMessage) := msg.content.length+
    (if msg.toolCalls.isEmpty then 0 else callsLength msg.toolCalls)*2
  m.messages.foldl (fun total msg => total+length msg) (m.longTerm.length+m.summary.length)*2/5

def needsSummarization (callsLength : List ToolCall → ℕ) (m : AgentMemory) : Bool :=
  decide (10 < m.messages.length) || decide (30000 < m.estimateTotalTokens callsLength)

/-- How many of so many messages a compression keeps. -/
def keptMessages (n : ℕ) : ℕ := if 4 < n then 4 else if 2 < n then 2 else 1

def forceCompress (m : AgentMemory) : AgentMemory :=
  if 4 < m.messages.length then
    { m with
      messages := m.messages.rtake 4
      summary := truncate 2000 m.summary }
  else if 2 < m.messages.length then { m with messages := m.messages.rtake 2, summary := "" }
  else
    { messages := if 1 < m.messages.length then m.messages.rtake 1 else m.messages
      summary := ""
      longTerm := truncate 1000 m.longTerm }

lemma forceCompress_messages (m : AgentMemory) :
    m.forceCompress.messages = m.messages.rtake (keptMessages m.messages.length) := by
  by_cases h4 : 4 < m.messages.length
  · rw [forceCompress,if_pos h4,keptMessages,if_pos h4]
  · by_cases h2 : 2 < m.messages.length
    · rw [forceCompress,if_neg h4,if_pos h2,keptMessages,if_neg h4,if_pos h2]
    · rw [forceCompress,if_neg h4,if_neg h2,keptMessages,if_neg h4,if_neg h2]
      by_cases h1 : 1 < m.messages.length
      · exact if_pos h1
      · exact (if_neg h1).trans (rtake_of_length_le (by omega)).symm

/-- Only the last phase, for two messages at most, cuts the long-term text. -/
lemma forceCompress_longTerm (m : AgentMemory) : m.forceCompress.longTerm =
    if m.messages.length ≤ 2 then lastChars 1000 m.longTerm else m.longTerm := by
  by_cases h4 : 4 < m.messages.length
  · rw [forceCompress,if_pos h4,if_neg (by omega)]
  · by_cases h2 : 2 < m.messages.length
    · rw [forceCompress,if_neg h4,if_pos h2,if_neg (by omega)]
    · have hle : m.messages.length ≤ 2 := by omega
      rw [forceCompress,if_neg h4,if_neg h2,if_pos hle]
      exact truncate_eq_lastChars 1000 m.longTerm

end AgentMemory

/-- Write one artifact from the memory. -/
def AgentStore.put (store : AgentStore) (m : AgentMemory) : MemoryKey → AgentStore
  | .memory => { store with memory := some m.longTerm }
  | .session => { store with session := some m.messages }
  | .summary => { store with summary := some m.summary }

end HiveKernel
