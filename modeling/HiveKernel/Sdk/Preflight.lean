import HiveKernel.Lib.Loop
import HiveKernel.Sdk.AgentLoop
import Mathlib.Algebra.BigOperators.Group.List.Basic
import Mathlib.Algebra.GroupWithZero.Nat

/-! The compression before a loop begins. It stops within the budget or with a memory that is fully compressed,
unless one of its first phases takes away too little for the estimate to see. -/
namespace HiveKernel
open Lib

namespace AgentMemory

/-- Nothing is left that a compression could take away. -/
structure FullyCompressed (m : AgentMemory) : Prop where
  messages : m.messages.length ≤ 1
  summary : m.summary = ""
  longTerm : m.longTerm.length ≤ 1000

/-- How much the estimate counts of a message. -/
def messageChars (callsLength : List ToolCall → ℕ) (msg : ChatMessage) : ℕ :=
  msg.content.length+(if msg.toolCalls.isEmpty then 0 else callsLength msg.toolCalls)*2

/-- The characters that the estimate counts, with so many messages and so many characters of the summary. -/
def charsLeft (callsLength : List ToolCall → ℕ) (m : AgentMemory) (messages summary : ℕ) : ℕ :=
  m.longTerm.length+min summary m.summary.length+((m.messages.rtake messages).map (messageChars callsLength)).sum

def chars (callsLength : List ToolCall → ℕ) (m : AgentMemory) : ℕ :=
  m.longTerm.length+m.summary.length+(m.messages.map (messageChars callsLength)).sum

variable {callsLength : List ToolCall → ℕ} {m : AgentMemory}

lemma estimateTotalTokens_eq (callsLength : List ToolCall → ℕ) (m : AgentMemory) :
    m.estimateTotalTokens callsLength = m.chars callsLength*2/5 := by
  have hfold : ∀ (messages : List ChatMessage) (n : ℕ),
      messages.foldl (fun total msg => total+messageChars callsLength msg) n =
        n+(messages.map (messageChars callsLength)).sum := by
    intro messages
    induction messages with
    | nil => exact fun n => rfl
    | cons msg messages ih =>
      intro n
      rw [List.foldl_cons,ih,List.map_cons,List.sum_cons,Nat.add_assoc]
  exact congrArg (·*2/5) (hfold m.messages _)

lemma rtake_rtake {α : Type} {n k : ℕ} (h : k ≤ n) (l : List α) : (l.rtake n).rtake k = l.rtake k := by
  simp only [List.rtake,List.drop_drop,List.length_drop]
  congr 1
  omega

lemma length_lastChars (n : ℕ) (s : String) : (lastChars n s).length = min n s.length := by
  rw [lastChars,String.length_ofList,length_rtake,String.length_toList]

/-- The first phase. -/
lemma forceCompress_of_four_lt (h : 4 < m.messages.length) : m.forceCompress.messages.length = 4 ∧
    m.forceCompress.chars callsLength = m.charsLeft callsLength 4 2000 ∧
    m.forceCompress.charsLeft callsLength 2 0 = m.charsLeft callsLength 2 0 := by
  have hstep : m.forceCompress = { m with messages := m.messages.rtake 4, summary := truncate 2000 m.summary } :=
    if_pos h
  refine ⟨?_,?_,?_⟩
  · rw [hstep,length_rtake]
    omega
  · rw [hstep,chars,charsLeft,truncate_eq_lastChars,length_lastChars]
  · rw [hstep,charsLeft,charsLeft,rtake_rtake (by omega)]
    simp

/-- The second phase. -/
lemma forceCompress_of_two_lt (h : 2 < m.messages.length) (h' : m.messages.length ≤ 4) :
    m.forceCompress.messages.length = 2 ∧ m.forceCompress.chars callsLength = m.charsLeft callsLength 2 0 := by
  have hstep : m.forceCompress = { m with messages := m.messages.rtake 2, summary := "" } := by
    rw [forceCompress,if_neg (by omega),if_pos h]
  refine ⟨?_,?_⟩
  · rw [hstep,length_rtake]
    omega
  · rw [hstep,chars,charsLeft]
    simp

/-- The last phase. -/
lemma forceCompress_of_le_two (h : m.messages.length ≤ 2) : m.forceCompress.FullyCompressed := by
  refine ⟨?_,?_,?_⟩
  · rw [forceCompress_messages,length_rtake,keptMessages,if_neg (by omega),if_neg (by omega)]
    omega
  · rw [forceCompress,if_neg (by omega),if_neg (by omega)]
  · rw [forceCompress_longTerm,if_pos h,length_lastChars]
    omega

end AgentMemory

namespace LoopConfig
variable (cfg : LoopConfig) {m : AgentMemory}
open AgentMemory

/-- One turn of the loop of the pre-flight compression. -/
def compressBody (m : AgentMemory) : AgentMemory ⊕ AgentMemory :=
  if cfg.overBudget m then
    if cfg.tokens m.forceCompress < cfg.tokens m then .inl m.forceCompress else .inr m.forceCompress
  else .inr m

/-- A compression from so many characters to so many is made over the budget and gains nothing. -/
def Stalls (chars left : ℕ) : Prop :=
  contextBudget < chars*2/5+cfg.toolsOverhead+cfg.systemPrompt.length/3 ∧ chars*2/5 ≤ left*2/5

/-- Neither of the first two phases stalls. -/
def NeverStalls (m : AgentMemory) : Prop :=
  (4 < m.messages.length → ¬cfg.Stalls (m.chars cfg.callsLength) (m.charsLeft cfg.callsLength 4 2000) ∧
    ¬cfg.Stalls (m.charsLeft cfg.callsLength 4 2000) (m.charsLeft cfg.callsLength 2 0)) ∧
  (2 < m.messages.length → m.messages.length ≤ 4 →
    ¬cfg.Stalls (m.chars cfg.callsLength) (m.charsLeft cfg.callsLength 2 0))

lemma tokens_eq (m : AgentMemory) : cfg.tokens m = m.chars cfg.callsLength*2/5 :=
  estimateTotalTokens_eq cfg.callsLength m

lemma stalls_iff (m : AgentMemory) : cfg.Stalls (m.chars cfg.callsLength) (m.forceCompress.chars cfg.callsLength) ↔
    cfg.overBudget m = true ∧ ¬cfg.tokens m.forceCompress < cfg.tokens m := by
  rw [Stalls,overBudget,decide_eq_true_eq,tokens_eq,tokens_eq,not_lt]

/-- The memory with which the loop should stop. -/
def Done (m : AgentMemory) : Prop := cfg.overBudget m = false ∨ m.FullyCompressed

lemma loop_compressBody (n : ℕ) (m : AgentMemory) : loop cfg.compressBody (n+1) m =
    if cfg.overBudget m then
      if cfg.tokens m.forceCompress < cfg.tokens m then loop cfg.compressBody n m.forceCompress
      else some m.forceCompress
    else some m := by
  rw [loop,compressBody]
  split_ifs <;> rfl

/-- What the loop returns does not depend on the bound. -/
lemma eq_preflight_of_loop {n : ℕ} {m t : AgentMemory} (h : loop cfg.compressBody n m = some t) :
    t = cfg.preflight m := by
  induction n generalizing m with
  | zero => cases h
  | succ n ih =>
    rw [loop_compressBody] at h
    rw [preflight_eq]
    split_ifs at h ⊢
    · exact ih h
    · exact (Option.some.inj h).symm
    · exact (Option.some.inj h).symm

lemma forceCompress_of_fullyCompressed (h : m.FullyCompressed) : m.forceCompress = m := by
  obtain ⟨hmessages,hsummary,hlong⟩ := h
  rw [forceCompress,if_neg (by omega),if_neg (by omega),if_neg (by omega),truncate,if_neg (by omega)]
  cases m
  simp only at hsummary
  rw [hsummary]

lemma preflight_of_fullyCompressed (h : m.FullyCompressed) : cfg.preflight m = m := by
  rw [preflight_eq,forceCompress_of_fullyCompressed h,if_neg (Nat.lt_irrefl _),ite_self]

/-- Each phase is reached at most once, so four turns are always enough. -/
lemma loop_four (m : AgentMemory) : loop cfg.compressBody 4 m = some (cfg.preflight m) := by
  have hfull : ∀ {n : ℕ} {m : AgentMemory}, m.FullyCompressed → loop cfg.compressBody (n+1) m = some m := by
    intro n m h
    rw [loop_compressBody,forceCompress_of_fullyCompressed h,if_neg (Nat.lt_irrefl _),ite_self]
  have htwo : ∀ {n : ℕ} {m : AgentMemory}, m.messages.length ≤ 2 → (loop cfg.compressBody (n+2) m).isSome := by
    intro n m h
    rw [loop_compressBody,hfull (forceCompress_of_le_two h)]
    split_ifs <;> rfl
  have hfour : ∀ {n : ℕ} {m : AgentMemory}, m.messages.length ≤ 4 → (loop cfg.compressBody (n+3) m).isSome := by
    intro n m h
    by_cases hle : m.messages.length ≤ 2
    · exact htwo hle
    · rw [loop_compressBody]
      split_ifs
      · exact htwo (@forceCompress_of_two_lt cfg.callsLength m (by omega) h).1.le
      · rfl
      · rfl
  have hall : (loop cfg.compressBody 4 m).isSome := by
    by_cases hle : m.messages.length ≤ 4
    · exact hfour hle
    · rw [loop_compressBody]
      split_ifs
      · exact hfour (@forceCompress_of_four_lt cfg.callsLength m (by omega)).1.le
      · rfl
      · rfl
  obtain ⟨t,ht⟩ := Option.isSome_iff_exists.mp hall
  rw [ht,cfg.eq_preflight_of_loop ht]

/-- A loop that stops because a compression gains nothing stops over the budget. -/
lemma not_done_of_stuck (hover : cfg.overBudget m = true) (hstuck : ¬cfg.tokens m.forceCompress < cfg.tokens m)
    (hmessages : 1 < m.forceCompress.messages.length) : ¬cfg.Done m.forceCompress := by
  rintro (hwithin | hfull)
  · rw [overBudget,decide_eq_true_eq] at hover
    rw [overBudget,decide_eq_false_iff_not] at hwithin
    omega
  · exact absurd hfull.messages (by omega)

lemma done_of_le_two (h : m.messages.length ≤ 2) : cfg.Done (cfg.preflight m) := by
  have hfull := forceCompress_of_le_two h
  rw [preflight_eq]
  split_ifs with hover
  · rw [cfg.preflight_of_fullyCompressed hfull]
    exact .inr hfull
  · exact .inr hfull
  · exact .inl (by simpa using hover)

/-- What a compression leaves undecided is decided by the memory after it. -/
lemma done_preflight_iff (hmessages : 1 < m.forceCompress.messages.length) : cfg.Done (cfg.preflight m) ↔
    ¬cfg.Stalls (m.chars cfg.callsLength) (m.forceCompress.chars cfg.callsLength) ∧
      (cfg.overBudget m = true → cfg.Done (cfg.preflight m.forceCompress)) := by
  rw [stalls_iff,preflight_eq]
  split_ifs with hover hgain
  · simp [hover,hgain]
  · simp [hover,hgain,cfg.not_done_of_stuck hover hgain hmessages]
  · have hwithin : cfg.overBudget m = false := by simpa using hover
    simp [hwithin,Done]

lemma done_iff_of_two_lt (h : 2 < m.messages.length) (h' : m.messages.length ≤ 4) :
    cfg.Done (cfg.preflight m) ↔ ¬cfg.Stalls (m.chars cfg.callsLength) (m.charsLeft cfg.callsLength 2 0) := by
  obtain ⟨hlength,hchars⟩ := @forceCompress_of_two_lt cfg.callsLength m h h'
  rw [cfg.done_preflight_iff (by omega),hchars]
  exact and_iff_left (fun _ => cfg.done_of_le_two hlength.le)

lemma stalls_mono {chars chars' left : ℕ} (h : chars ≤ chars') (hstalls : cfg.Stalls chars left) :
    contextBudget < chars'*2/5+cfg.toolsOverhead+cfg.systemPrompt.length/3 := by
  have hmono : chars*2/5 ≤ chars'*2/5 := Nat.div_le_div_right (Nat.mul_le_mul_right 2 h)
  exact hstalls.1.trans_le (by omega)

lemma charsLeft_le (callsLength : List ToolCall → ℕ) (m : AgentMemory) (messages summary : ℕ) :
    m.charsLeft callsLength messages summary ≤ m.chars callsLength := by
  have hsum : ((m.messages.rtake messages).map (messageChars callsLength)).sum ≤
      (m.messages.map (messageChars callsLength)).sum := by
    have hsplit := List.take_append_drop (m.messages.length-messages) m.messages
    have hsum := congrArg (fun l => (l.map (messageChars callsLength)).sum) hsplit
    simp only [List.map_append,List.sum_append] at hsum
    rw [← hsum,List.rtake]
    exact Nat.le_add_left _ _
  unfold charsLeft chars
  omega

lemma done_iff_of_four_lt (h : 4 < m.messages.length) : cfg.Done (cfg.preflight m) ↔
    ¬cfg.Stalls (m.chars cfg.callsLength) (m.charsLeft cfg.callsLength 4 2000) ∧
      ¬cfg.Stalls (m.charsLeft cfg.callsLength 4 2000) (m.charsLeft cfg.callsLength 2 0) := by
  obtain ⟨hlength,hchars,hleft⟩ := @forceCompress_of_four_lt cfg.callsLength m h
  rw [cfg.done_preflight_iff (by omega),cfg.done_iff_of_two_lt (by omega) hlength.le,hchars,hleft]
  refine and_congr_right (fun _ => ⟨fun hrest hstalls => hrest ?_ hstalls,fun hnot _ => hnot⟩)
  rw [overBudget,decide_eq_true_eq,tokens_eq]
  exact cfg.stalls_mono (charsLeft_le _ m 4 2000) hstalls

/-- The loop stops after at most four turns. It stops within the budget or fully compressed exactly if none of its
first two phases, made over the budget, takes away too little to lower the estimate. -/
theorem preflight_done_iff (m : AgentMemory) :
    loop cfg.compressBody 4 m = some (cfg.preflight m) ∧ (cfg.Done (cfg.preflight m) ↔ cfg.NeverStalls m) := by
  refine ⟨cfg.loop_four m,?_⟩
  unfold NeverStalls
  by_cases h2 : m.messages.length ≤ 2
  · exact iff_of_true (cfg.done_of_le_two h2) ⟨fun h => absurd h (by omega),fun h => absurd h (by omega)⟩
  by_cases h4 : m.messages.length ≤ 4
  · rw [cfg.done_iff_of_two_lt (by omega) h4]
    exact ⟨fun h => ⟨fun hlt => absurd hlt (by omega),fun _ _ => h⟩,fun h => h.2 (by omega) h4⟩
  · rw [cfg.done_iff_of_four_lt (by omega)]
    exact ⟨fun h => ⟨fun _ => h,fun _ hle => absurd hle h4⟩,fun h => h.1 (by omega)⟩

def plainConfig : LoopConfig where
  maxIterations := 15
  systemPrompt := ""
  toolsOverhead := 0
  callsLength _ := 0
  registered _ := false
  contentArg _ := none

def longMessage (n : ℕ) (role : ChatRole) : ChatMessage where
  role := role
  content := String.ofList (List.replicate n 'a')

lemma messageChars_longMessage (callsLength : List ToolCall → ℕ) (n : ℕ) (role : ChatRole) :
    messageChars callsLength (longMessage n role) = n := by
  rw [messageChars,longMessage,String.length_ofList,List.length_replicate]
  rfl

/-- An empty answer of the model and four long messages. -/
def emptyAnswerFirst (n : ℕ) : AgentMemory where
  messages := { role := .assistant, content := "" }::
    [longMessage n .user,longMessage n .assistant,longMessage n .user,longMessage n .assistant]

lemma chars_emptyAnswerFirst (n : ℕ) :
    (emptyAnswerFirst n).chars plainConfig.callsLength = 4*n ∧
      (emptyAnswerFirst n).charsLeft plainConfig.callsLength 4 2000 = 4*n := by
  have hempty : messageChars plainConfig.callsLength { role := .assistant, content := "" } = 0 := rfl
  constructor
  · simp only [chars,emptyAnswerFirst,List.map_cons,List.map_nil,List.sum_cons,List.sum_nil,
      messageChars_longMessage,hempty,String.length_empty]
    omega
  · simp only [charsLeft,emptyAnswerFirst,List.rtake,List.length_cons,List.length_nil,List.drop_succ_cons,
      List.drop_zero,List.map_cons,List.map_nil,List.sum_cons,List.sum_nil,messageChars_longMessage,String.length_empty]
    omega

/-- The first phase drops the empty answer, which the estimate does not see, and the loop gives up with four
messages. -/
theorem empty_answer_stops_compression :
    ¬∀ (cfg : LoopConfig) (m : AgentMemory), ∃ n t, loop cfg.compressBody n m = some t ∧ cfg.Done t := by
  intro h
  obtain ⟨n,t,hloop,hdone⟩ := h plainConfig (emptyAnswerFirst 60000)
  have hfive : 4 < (emptyAnswerFirst 60000).messages.length := by simp [emptyAnswerFirst]
  obtain ⟨hchars,hleft⟩ := chars_emptyAnswerFirst 60000
  rw [plainConfig.eq_preflight_of_loop hloop,plainConfig.done_iff_of_four_lt hfive,hchars,hleft] at hdone
  exact hdone.1 ⟨by decide,Nat.le_refl _⟩

end LoopConfig
end HiveKernel
