import Mathlib.Data.List.Infix
import HiveKernel.Process.Types

/-! The log of process events: a buffer of the latest events, cut to half when it overflows.
Sequence numbers come from a counter that starts at one and are natural numbers here, as PIDs are.
The copy on disk is left out; nothing reads it back. -/
namespace HiveKernel

/-- What happened. An agent may log under any type, so a type is a text. -/
structure EventType where
  string : String
  deriving DecidableEq, Repr

namespace EventType

def spawned : EventType := ⟨"spawned"⟩
def stateChanged : EventType := ⟨"state_changed"⟩
def removed : EventType := ⟨"removed"⟩
def logged : EventType := ⟨"log"⟩
def messageSent : EventType := ⟨"message_sent"⟩
def messageDelivered : EventType := ⟨"message_delivered"⟩
def llmCall : EventType := ⟨"llm_call"⟩
def toolCall : EventType := ⟨"tool_call"⟩
def cronExecuted : EventType := ⟨"cron_executed"⟩

end EventType

structure ProcessEvent where
  seq : ℕ := 0
  timestamp : ℤ := 0
  type : EventType
  pid : ℕ
  ppid : ℕ := 0
  name : String := ""
  role : String := ""
  tier : String := ""
  model : String := ""
  state : String := ""
  oldState : String := ""
  newState : String := ""
  level : String := ""
  message : String := ""
  replyTo : String := ""
  payloadPreview : String := ""
  traceID : String := ""
  traceSpan : String := ""
  messageID : String := ""
  fields : List (String × String) := []
  deriving DecidableEq, Repr

/-- The trace context of a process, if a lookup is installed. -/
abbrev TraceLookup := Option (ℕ → String × String)

structure EventLog where
  events : List ProcessEvent
  seq : ℕ
  maxSize : ℕ

namespace EventLog

def new (maxSize : ℕ) : EventLog := ⟨[],0,maxSize⟩

/-- Number and date an event. An event without a trace gets the one of its process. -/
def stamp (seq : ℕ) (now : ℤ) (lookup : TraceLookup) (evt : ProcessEvent) : ProcessEvent :=
  let evt := { evt with seq := seq, timestamp := now }
  if evt.traceID = "" then
    match lookup with
    | none => evt
    | some trace => { evt with traceID := (trace evt.pid).1, traceSpan := (trace evt.pid).2 }
  else evt

/-- Append an event; an overfull buffer loses its older half. -/
def append (el : EventLog) (evt : ProcessEvent) : EventLog :=
  let events := el.events ++ [evt]
  { el with events := if el.maxSize < events.length then events.drop (events.length/2) else events }

/-- One `Emit` from beginning to end, without subscribers. -/
def emit (el : EventLog) (now : ℤ) (lookup : TraceLookup) (evt : ProcessEvent) : EventLog :=
  { el with seq := el.seq+1 }.append (stamp (el.seq+1) now lookup evt)

/-- The buffered events after a sequence number. -/
def since (el : EventLog) (sinceSeq : ℕ) : List ProcessEvent :=
  el.events.filter (fun e => sinceSeq < e.seq)

/-- A call of `Emit`, with the time and the traces at that moment. -/
structure Emission where
  now : ℤ
  lookup : TraceLookup
  event : ProcessEvent

def emitAll (el : EventLog) (calls : List Emission) : EventLog :=
  calls.foldl (fun el call => el.emit call.now call.lookup call.event) el

/-- The events of a series of calls, numbered after `seq`. -/
def emitted (seq : ℕ) : List Emission → List ProcessEvent
  | [] => []
  | call::calls => stamp (seq+1) call.now call.lookup call.event::emitted (seq+1) calls

@[simp] lemma seq_stamp (seq : ℕ) (now : ℤ) (lookup : TraceLookup) (evt : ProcessEvent) :
    (stamp seq now lookup evt).seq = seq := by
  unfold stamp
  dsimp only
  split_ifs
  · cases lookup <;> rfl
  · rfl

/-- The number, the date and the trace are all that is filled in. -/
lemma stamp_eq (seq : ℕ) (now : ℤ) (lookup : TraceLookup) (evt : ProcessEvent) :
    ∃ id span, stamp seq now lookup evt =
      { evt with seq := seq, timestamp := now, traceID := id, traceSpan := span } := by
  unfold stamp
  dsimp only
  split_ifs
  · cases lookup with
    | none => exact ⟨_,_,rfl⟩
    | some trace => exact ⟨_,_,rfl⟩
  · exact ⟨_,_,rfl⟩

lemma lt_seq_of_mem_emitted {seq : ℕ} {calls : List Emission} {e : ProcessEvent}
    (h : e ∈ emitted seq calls) : seq < e.seq := by
  induction calls generalizing seq with
  | nil => cases h
  | cons call calls ih =>
    rcases List.mem_cons.mp h with rfl | h
    · simp
    · have hlt := ih h
      omega

lemma pairwise_emitted (seq : ℕ) (calls : List Emission) :
    (emitted seq calls).Pairwise (fun e e' => e.seq < e'.seq) := by
  induction calls generalizing seq with
  | nil => exact .nil
  | cons call calls ih =>
    refine .cons (fun e he => ?_) (ih (seq+1))
    rw [seq_stamp]
    exact lt_seq_of_mem_emitted he

lemma length_emitted (seq : ℕ) (calls : List Emission) : (emitted seq calls).length = calls.length := by
  induction calls generalizing seq with
  | nil => rfl
  | cons call calls ih => simp [emitted,ih]

lemma emitted_snoc (seq : ℕ) (calls : List Emission) (call : Emission) :
    emitted seq (calls ++ [call]) =
      emitted seq calls ++ [stamp (seq+calls.length+1) call.now call.lookup call.event] := by
  induction calls generalizing seq with
  | nil => rfl
  | cons first calls ih =>
    rw [List.cons_append,emitted,ih,emitted,List.cons_append,List.length_cons]
    congr 5
    omega

/-- The buffer as the end of everything emitted so far. -/
structure Ring (el : EventLog) (all : List ProcessEvent) : Prop where
  suffix : el.events <:+ all
  nonempty : all ≠ [] → el.events ≠ []
  short : el.events.length ≤ el.maxSize
  -- before the first cut nothing is missing, afterwards at least half of the buffer is there
  whole : all.length ≤ el.maxSize → el.events = all
  long : el.maxSize < all.length → (el.maxSize+2)/2 ≤ el.events.length

lemma ring_new (maxSize : ℕ) : (new maxSize).Ring [] :=
  ⟨List.suffix_rfl,fun h => absurd rfl h,Nat.zero_le _,fun _ => rfl,fun h => absurd h (Nat.not_lt_zero _)⟩

lemma maxSize_append (el : EventLog) (evt : ProcessEvent) : (el.append evt).maxSize = el.maxSize := rfl

lemma Ring.append {el : EventLog} {all : List ProcessEvent} (h : el.Ring all) (hsize : 1 ≤ el.maxSize)
    (evt : ProcessEvent) : (el.append evt).Ring (all ++ [evt]) := by
  have hshort := h.short
  have hsuffix : el.events ++ [evt] <:+ all ++ [evt] := by
    obtain ⟨old,rfl⟩ := h.suffix
    exact ⟨old,by simp⟩
  by_cases hover : el.maxSize < (el.events ++ [evt]).length
  · have hevents : (el.append evt).events = (el.events ++ [evt]).drop ((el.events ++ [evt]).length/2) :=
      if_pos hover
    have hfull : el.events.length = el.maxSize := by
      simp only [List.length_append,List.length_cons,List.length_nil] at hover
      omega
    have hlength : (el.append evt).events.length = el.maxSize+1-(el.maxSize+1)/2 := by
      rw [hevents]
      simp [hfull]
    refine ⟨?_,fun _ hnil => ?_,?_,fun hall => ?_,fun _ => ?_⟩
    · rw [hevents]
      exact (List.drop_suffix _ _).trans hsuffix
    · rw [hnil,List.length_nil] at hlength
      omega
    · rw [hlength,maxSize_append]
      omega
    · have hle := h.suffix.length_le
      simp only [List.length_append,List.length_cons,List.length_nil,maxSize_append] at hall
      omega
    · rw [hlength,maxSize_append]
      omega
  · have hevents : (el.append evt).events = el.events ++ [evt] := if_neg hover
    simp only [List.length_append,List.length_cons,List.length_nil,not_lt] at hover
    refine ⟨hevents ▸ hsuffix,fun _ => by simp [hevents],?_,fun hall => ?_,fun hall => ?_⟩
    · rw [hevents,maxSize_append]
      simpa using hover
    · simp only [List.length_append,List.length_cons,List.length_nil,maxSize_append] at hall
      rw [hevents,h.whole (by omega)]
    · simp only [List.length_append,List.length_cons,List.length_nil,maxSize_append] at hall
      have hcut : el.maxSize < all.length := by
        by_contra hnot
        have hwhole := congrArg List.length (h.whole (by omega))
        omega
      have hlong := h.long hcut
      rw [hevents,maxSize_append]
      simp only [List.length_append,List.length_cons,List.length_nil]
      omega

lemma Ring.emitAll {el : EventLog} {all : List ProcessEvent} (h : el.Ring all) (hsize : 1 ≤ el.maxSize)
    (calls : List Emission) :
    (el.emitAll calls).Ring (all ++ emitted el.seq calls) ∧ (el.emitAll calls).maxSize = el.maxSize := by
  induction calls generalizing el all with
  | nil => exact ⟨by simpa [EventLog.emitAll,emitted] using h,rfl⟩
  | cons call calls ih =>
    have hone : ({ el with seq := el.seq+1 } : EventLog).Ring all := ⟨h.1,h.2,h.3,h.4,h.5⟩
    have hnext := hone.append hsize (stamp (el.seq+1) call.now call.lookup call.event)
    have hrest := ih hnext hsize
    simp only [List.append_assoc,List.singleton_append] at hrest
    exact hrest

/-- A suffix that begins right after a sequence number holds everything that comes later. -/
lemma filter_suffix {events all : List ProcessEvent} (hsuffix : events <:+ all)
    (hsorted : all.Pairwise (fun e e' => e.seq < e'.seq)) {s : ℕ} {first : ProcessEvent}
    (hfirst : first ∈ events.head?) (hs : first.seq ≤ s+1) :
    all.filter (fun e => s < e.seq) = events.filter (fun e => s < e.seq) := by
  obtain ⟨old,rfl⟩ := hsuffix
  have hold : old.filter (fun e => decide (s < e.seq)) = [] := by
    refine List.filter_eq_nil_iff.mpr (fun e he => ?_)
    have hlt := (List.pairwise_append.mp hsorted).2.2 e he first (List.mem_of_mem_head? hfirst)
    simp only [decide_eq_true_eq]
    omega
  rw [List.filter_append,hold,List.nil_append]

/-- After any series of events the buffer is the end of the series, neither longer than the size
nor, once it overflowed, shorter than half of it; and `since` finds in it whatever is asked for. -/
theorem ring_of_emitAll (maxSize : ℕ) (hsize : 1 ≤ maxSize) (calls : List Emission) :
    ((new maxSize).emitAll calls).events <:+ emitted 0 calls ∧
    ((new maxSize).emitAll calls).events.getLast? = (emitted 0 calls).getLast? ∧
    ((new maxSize).emitAll calls).events.length ≤ maxSize ∧
    (maxSize < calls.length → (maxSize+2)/2 ≤ ((new maxSize).emitAll calls).events.length) ∧
    ∀ s, (((new maxSize).emitAll calls).since s).Sublist (emitted 0 calls) ∧
      (∀ e, e ∈ ((new maxSize).emitAll calls).since s ↔
        e ∈ ((new maxSize).emitAll calls).events ∧ s < e.seq) ∧
      ((∀ first ∈ ((new maxSize).emitAll calls).events.head?, first.seq-1 ≤ s) →
        ((new maxSize).emitAll calls).since s = (emitted 0 calls).filter (fun e => s < e.seq)) := by
  obtain ⟨hring,hmax⟩ := (ring_new maxSize).emitAll hsize calls
  rw [List.nil_append] at hring
  change ((new maxSize).emitAll calls).maxSize = maxSize at hmax
  have hlength := length_emitted 0 calls
  refine ⟨hring.suffix,?_,hring.short.trans hmax.le,fun hcalls => ?_,fun s => ⟨?_,fun e => ?_,fun hs => ?_⟩⟩
  · obtain ⟨old,hold⟩ := hring.suffix
    change old ++ _ = emitted 0 calls at hold
    cases hcalls : calls with
    | nil => rfl
    | cons call rest =>
      have hne : ((new maxSize).emitAll calls).events ≠ [] :=
        hring.nonempty (by simp [hcalls,emitted])
      rw [← hcalls,← hold,List.getLast?_append_of_ne_nil _ hne]
  · have hlong := hring.long (by rw [hmax]; exact hlength.symm ▸ hcalls)
    rwa [hmax] at hlong
  · exact List.filter_sublist.trans hring.suffix.sublist
  · simp [since]
  · cases hfirst : ((new maxSize).emitAll calls).events.head? with
    | none =>
      have hnil := List.head?_eq_none_iff.mp hfirst
      have hall : emitted 0 calls = [] := by
        by_contra hne
        exact hring.nonempty hne hnil
      rw [since,hnil,hall]
    | some first =>
      have hle := hs first (by rw [hfirst]; rfl)
      exact (filter_suffix hring.suffix (pairwise_emitted 0 calls) hfirst (by omega)).symm

/-- Twelve events in a buffer of ten: the cut after the eleventh leaves six, one more follows. -/
theorem ring_of_emitAll_twelve :
    ((new 10).emitAll (List.replicate 12 ⟨0,none,{ type := .spawned, pid := 1 }⟩)).events.length ≤ 10 ∧
    ((new 10).emitAll (List.replicate 12 ⟨0,none,{ type := .spawned, pid := 1 }⟩)).events.map
      ProcessEvent.seq = [6,7,8,9,10,11,12] :=
  ⟨(ring_of_emitAll 10 (by decide) _).2.2.1,by decide⟩

end EventLog
end HiveKernel
