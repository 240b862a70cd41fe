import HiveKernel.Lib.Run
import HiveKernel.Lib.Table
import HiveKernel.Process.EventLog

/-! Concurrent emitters and subscribers of the event log. An emitter takes its number before it
holds the lock and sends to the subscribers after it has released it, so both the order of the
events and the life of the channels depend on the schedule. -/
namespace HiveKernel
open Lib

/-- The channel of a subscriber. Where it began and what was received from it are recorded for
the statements. -/
structure EventChannel where
  sinceSeq : ℕ
  capacity : ℕ
  buffer : List ProcessEvent := []
  received : List ProcessEvent := []
  closed : Bool := false

namespace EventChannel

/-- A send that does not block succeeds: a receiver is waiting, or there is room. -/
def Takes (ch : EventChannel) (waiting : Bool) : Prop :=
  (waiting = true ∧ ch.buffer = []) ∨ ch.buffer.length < ch.capacity

instance (ch : EventChannel) (waiting : Bool) : Decidable (ch.Takes waiting) :=
  inferInstanceAs (Decidable (_ ∨ _))

/-- Send an event unless that would block; then it is dropped. -/
def offer (waiting : Bool) (ch : EventChannel) (evt : ProcessEvent) : EventChannel :=
  if waiting = true ∧ ch.buffer = [] then { ch with received := ch.received ++ [evt] }
  else if ch.buffer.length < ch.capacity then { ch with buffer := ch.buffer ++ [evt] }
  else ch

/-- A new channel with the buffered events replayed into it. Nobody receives yet. -/
def replay (events : List ProcessEvent) (sinceSeq bufSize : ℕ) : EventChannel :=
  (events.filter (fun e => sinceSeq < e.seq)).foldl (offer false)
    { sinceSeq := sinceSeq, capacity := bufSize }

/-- Everything that was sent on the channel, received or not. -/
def content (ch : EventChannel) : List ProcessEvent := ch.received ++ ch.buffer

/-- The number a client would reconnect with. -/
def lastSeq (ch : EventChannel) : ℕ := (ch.received.getLast?.map ProcessEvent.seq).getD ch.sinceSeq

def close (ch : EventChannel) : EventChannel := { ch with closed := true }

end EventChannel

/-- A call of `Emit` in progress: it has its number and waits for the lock, or it has appended
its event and still has to send it to some channels of its snapshot. -/
inductive Emitter
  | numbered (evt : ProcessEvent)
  | sending (evt : ProcessEvent) (subs : List ℕ)

namespace Emitter

def event : Emitter → ProcessEvent
  | numbered evt => evt
  | sending evt _ => evt

def targets : Emitter → List ℕ
  | numbered _ => []
  | sending _ subs => subs

/-- The event is not appended yet. -/
def waits : Emitter → Bool
  | numbered _ => true
  | sending _ _ => false

end Emitter

structure EventStream where
  log : EventLog
  channels : Table ℕ EventChannel
  subs : List ℕ
  emitters : Table ℕ Emitter
  /-- Someone has sent on a closed channel. -/
  crashed : Bool

/-- A step: one of the three parts of `Emit`, a call of the other operations, or a receive. -/
inductive StreamOp
  | begin (i : ℕ) (now : ℤ) (lookup : TraceLookup) (evt : ProcessEvent)
  | append (i : ℕ)
  | send (i : ℕ) (waiting : Bool)
  | subscribeSince (c sinceSeq bufSize : ℕ)
  | receive (c : ℕ)
  | unsubscribe (c : ℕ)
  | close

namespace EventStream

def start (maxSize : ℕ) : EventStream := ⟨.new maxSize,.empty,[],.empty,false⟩

def closeChannel (channels : Table ℕ EventChannel) (c : ℕ) : Table ℕ EventChannel :=
  match channels.get c with
  | none => channels
  | some ch => channels.set c ch.close

/-- The send to the next channel of a snapshot. On a closed channel it is a panic. -/
def sendTo (s : EventStream) (i : ℕ) (waiting : Bool) (evt : ProcessEvent) (c : ℕ) (cs : List ℕ) :
    Option EventStream :=
  match s.channels.get c with
  | none => none
  | some ch =>
    if ch.closed then some { s with crashed := true }
    else some { s with
      channels := s.channels.set c (ch.offer waiting evt)
      emitters := s.emitters.set i (.sending evt cs) }

def step (s : EventStream) (op : StreamOp) : Option EventStream :=
  if s.crashed then none else
  match op with
  | .begin i now lookup evt => match s.emitters.get i with
    | some _ => none
    | none => some { s with
        log := { s.log with seq := s.log.seq+1 }
        emitters := s.emitters.set i (.numbered (EventLog.stamp (s.log.seq+1) now lookup evt)) }
  | .append i => match s.emitters.get i with
    | some (.numbered evt) => some { s with
        log := s.log.append evt
        emitters := s.emitters.set i (.sending evt s.subs) }
    | _ => none
  | .send i waiting => match s.emitters.get i with
    | some (.sending evt (c::cs)) => s.sendTo i waiting evt c cs
    | some (.sending _ []) => some { s with emitters := s.emitters.erase i }
    | _ => none
  | .subscribeSince c sinceSeq bufSize => match s.channels.get c with
    | some _ => none
    | none => some { s with
        channels := s.channels.set c (.replay s.log.events sinceSeq bufSize)
        subs := s.subs ++ [c] }
  | .receive c => match s.channels.get c with
    | none => none
    | some ch => match ch.buffer with
      | [] => none
      | e::rest => some { s with
          channels := s.channels.set c { ch with received := ch.received ++ [e], buffer := rest } }
  | .unsubscribe c =>
    if c ∈ s.subs then some { s with
      channels := closeChannel s.channels c
      subs := s.subs.erase c }
    else some s
  | .close => some { s with
      channels := s.subs.foldl closeChannel s.channels
      subs := [] }

variable {s t : EventStream}

lemma step_begin {i : ℕ} {now : ℤ} {lookup : TraceLookup} {evt : ProcessEvent}
    (h : s.step (.begin i now lookup evt) = some t) : s.emitters.get i = none ∧ t = { s with
      log := { s.log with seq := s.log.seq+1 }
      emitters := s.emitters.set i (.numbered (EventLog.stamp (s.log.seq+1) now lookup evt)) } := by
  simp only [step] at h
  split_ifs at h
  cases hi : s.emitters.get i with
  | some em => simp [hi] at h
  | none =>
    simp only [hi,Option.some.injEq] at h
    exact ⟨rfl,h.symm⟩

lemma step_append {i : ℕ} (h : s.step (.append i) = some t) :
    ∃ evt, s.emitters.get i = some (.numbered evt) ∧ t = { s with
      log := s.log.append evt
      emitters := s.emitters.set i (.sending evt s.subs) } := by
  simp only [step] at h
  split_ifs at h
  cases hi : s.emitters.get i with
  | none => simp [hi] at h
  | some em =>
    cases em with
    | sending evt subs => simp [hi] at h
    | numbered evt =>
      simp only [hi,Option.some.injEq] at h
      exact ⟨evt,rfl,h.symm⟩

/-- A send ends the call, fails on a closed channel, or offers the event to an open one. -/
lemma step_send {i : ℕ} {waiting : Bool} (h : s.step (.send i waiting) = some t) :
    (∃ evt, s.emitters.get i = some (.sending evt []) ∧ t = { s with emitters := s.emitters.erase i }) ∨
    ∃ evt c cs ch, s.emitters.get i = some (.sending evt (c::cs)) ∧ s.channels.get c = some ch ∧
      ((ch.closed = true ∧ t = { s with crashed := true }) ∨
       (ch.closed = false ∧ t = { s with
          channels := s.channels.set c (ch.offer waiting evt)
          emitters := s.emitters.set i (.sending evt cs) })) := by
  simp only [step] at h
  split_ifs at h
  cases hi : s.emitters.get i with
  | none => simp [hi] at h
  | some em =>
    cases em with
    | numbered evt => simp [hi] at h
    | sending evt subs =>
      cases subs with
      | nil =>
        simp only [hi,Option.some.injEq] at h
        exact .inl ⟨evt,rfl,h.symm⟩
      | cons c cs =>
        simp only [hi,sendTo] at h
        cases hc : s.channels.get c with
        | none => simp [hc] at h
        | some ch =>
          simp only [hc] at h
          refine .inr ⟨evt,c,cs,ch,rfl,hc,?_⟩
          split_ifs at h with hclosed
          · exact .inl ⟨hclosed,(Option.some.inj h).symm⟩
          · exact .inr ⟨by simpa using hclosed,(Option.some.inj h).symm⟩

lemma step_subscribeSince {c sinceSeq bufSize : ℕ}
    (h : s.step (.subscribeSince c sinceSeq bufSize) = some t) : s.channels.get c = none ∧ t = { s with
      channels := s.channels.set c (.replay s.log.events sinceSeq bufSize)
      subs := s.subs ++ [c] } := by
  simp only [step] at h
  split_ifs at h
  cases hc : s.channels.get c with
  | some ch => simp [hc] at h
  | none =>
    simp only [hc,Option.some.injEq] at h
    exact ⟨rfl,h.symm⟩

lemma step_receive {c : ℕ} (h : s.step (.receive c) = some t) :
    ∃ ch e rest, s.channels.get c = some ch ∧ ch.buffer = e::rest ∧ t = { s with
      channels := s.channels.set c { ch with received := ch.received ++ [e], buffer := rest } } := by
  simp only [step] at h
  split_ifs at h
  cases hc : s.channels.get c with
  | none => simp [hc] at h
  | some ch =>
    simp only [hc] at h
    cases hb : ch.buffer with
    | nil => simp [hb] at h
    | cons e rest =>
      simp only [hb,Option.some.injEq] at h
      exact ⟨ch,e,rest,rfl,hb,h.symm⟩

lemma step_unsubscribe {c : ℕ} (h : s.step (.unsubscribe c) = some t) : t = s ∨
    c ∈ s.subs ∧ t = { s with channels := closeChannel s.channels c, subs := s.subs.erase c } := by
  simp only [step] at h
  split_ifs at h with hcrash hc
  · exact .inr ⟨hc,(Option.some.inj h).symm⟩
  · exact .inl (Option.some.inj h).symm

lemma step_close (h : s.step .close = some t) : t = { s with
    channels := s.subs.foldl closeChannel s.channels
    subs := [] } := by
  simp only [step] at h
  split_ifs at h
  exact (Option.some.inj h).symm

lemma get_closeChannel (channels : Table ℕ EventChannel) (c j : ℕ) :
    (closeChannel channels c).get j =
      (channels.get j).map (fun ch => if j = c then ch.close else ch) := by
  unfold closeChannel
  cases hc : channels.get c with
  | none =>
    by_cases hj : j = c
    · simp [hj,hc]
    · simp [hj]
  | some ch =>
    simp only [Table.get_set]
    split_ifs with hj
    · simp [hj,hc]
    · simp

lemma get_foldl_closeChannel (channels : Table ℕ EventChannel) (cs : List ℕ) (j : ℕ) :
    (cs.foldl closeChannel channels).get j =
      (channels.get j).map (fun ch => if j ∈ cs then ch.close else ch) := by
  induction cs generalizing channels with
  | nil => simp
  | cons c cs ih =>
    rw [List.foldl_cons,ih,get_closeChannel,Option.map_map]
    congr 1
    funext ch
    by_cases hj : j = c
    · by_cases hmem : j ∈ cs <;> simp [hj,EventChannel.close]
    · simp [hj]

def IsOpen (channels : Table ℕ EventChannel) (c : ℕ) : Prop :=
  ∃ ch, channels.get c = some ch ∧ ch.closed = false

@[simp] lemma closed_offer (waiting : Bool) (ch : EventChannel) (evt : ProcessEvent) :
    (ch.offer waiting evt).closed = ch.closed := by
  unfold EventChannel.offer
  split_ifs <;> rfl

@[simp] lemma closed_replay (events : List ProcessEvent) (sinceSeq bufSize : ℕ) :
    (EventChannel.replay events sinceSeq bufSize).closed = false := by
  have h : ∀ (l : List ProcessEvent) (ch : EventChannel),
      (l.foldl (EventChannel.offer false) ch).closed = ch.closed := by
    intro l
    induction l with
    | nil => exact fun _ => rfl
    | cons e l ih => exact fun ch => (ih _).trans (closed_offer false ch e)
  exact h _ _

lemma IsOpen.set {channels : Table ℕ EventChannel} {c j : ℕ} {ch : EventChannel}
    (h : IsOpen channels j) (hch : ch.closed = false) : IsOpen (channels.set c ch) j := by
  obtain ⟨old,hold,hopen⟩ := h
  by_cases hj : j = c
  · exact ⟨ch,by rw [Table.get_set,if_pos hj],hch⟩
  · exact ⟨old,by rw [Table.get_set_of_ne hj,hold],hopen⟩

lemma IsOpen.foldl_closeChannel {channels : Table ℕ EventChannel} {j : ℕ}
    (h : IsOpen channels j) (cs : List ℕ) (hj : j ∉ cs) : IsOpen (cs.foldl closeChannel channels) j := by
  obtain ⟨ch,hch,hopen⟩ := h
  exact ⟨ch,by simp [get_foldl_closeChannel,hch,hj],hopen⟩

/-- No emitter still has a send to the channel before it. -/
def Unused (s : EventStream) (c : ℕ) : Prop := ∀ i em, s.emitters.get i = some em → c ∉ em.targets

/-- Only unused channels are closed. -/
def ClosesUnused (s : EventStream) : StreamOp → Prop
  | .unsubscribe c => c ∈ s.subs → s.Unused c
  | .close => ∀ c ∈ s.subs, s.Unused c
  | _ => True

instance (s : EventStream) (c : ℕ) : Decidable (s.Unused c) :=
  Table.decidableForallGet s.emitters (fun _ em => c ∉ em.targets)

instance (s : EventStream) (op : StreamOp) : Decidable (s.ClosesUnused op) :=
  match op with
  | .unsubscribe c => inferInstanceAs (Decidable (c ∈ s.subs → s.Unused c))
  | .close => inferInstanceAs (Decidable (∀ c ∈ s.subs, s.Unused c))
  | .begin .. | .append _ | .send .. | .subscribeSince .. | .receive _ => .isTrue trivial

/-- Nobody has crashed, and every channel that is subscribed or about to be sent to is open. -/
structure Live (s : EventStream) : Prop where
  crashed : s.crashed = false
  nodup : s.subs.Nodup
  subs : ∀ c ∈ s.subs, IsOpen s.channels c
  targets : ∀ i em, s.emitters.get i = some em → ∀ c ∈ em.targets, IsOpen s.channels c

lemma live_start (maxSize : ℕ) : (start maxSize).Live where
  crashed := rfl
  nodup := List.nodup_nil
  subs := by simp [start]
  targets := by simp [start]

theorem Live.step {op : StreamOp} (h : s.Live) (hop : s.ClosesUnused op) (hs : s.step op = some t) :
    t.Live := by
  cases op with
  | begin i now lookup evt =>
    obtain ⟨-,rfl⟩ := step_begin hs
    refine ⟨h.crashed,h.nodup,h.subs,fun j em hem c hc => ?_⟩
    simp only [Table.get_set] at hem
    split_ifs at hem with hj
    · cases hem
      cases hc
    · exact h.targets j em hem c hc
  | append i =>
    obtain ⟨evt,-,rfl⟩ := step_append hs
    refine ⟨h.crashed,h.nodup,h.subs,fun j em hem c hc => ?_⟩
    simp only [Table.get_set] at hem
    split_ifs at hem with hj
    · cases hem
      exact h.subs c hc
    · exact h.targets j em hem c hc
  | send i waiting =>
    rcases step_send hs with ⟨evt,-,rfl⟩ | ⟨evt,c,cs,ch,hi,hch,hres⟩
    · refine ⟨h.crashed,h.nodup,h.subs,fun j em hem c hc => ?_⟩
      simp only [Table.get_erase] at hem
      split_ifs at hem
      exact h.targets j em hem c hc
    · obtain ⟨ch',hch',hopen⟩ := h.targets i _ hi c (by simp [Emitter.targets])
      obtain rfl : ch = ch' := Option.some.inj (hch.symm.trans hch')
      obtain ⟨hclosed,rfl⟩ | ⟨-,rfl⟩ := hres
      · rw [hopen] at hclosed
        cases hclosed
      have hoffer : (ch.offer waiting evt).closed = false := by rw [closed_offer,hopen]
      refine ⟨h.crashed,h.nodup,fun j hj => (h.subs j hj).set hoffer,fun j em hem d hd => ?_⟩
      simp only [Table.get_set] at hem
      split_ifs at hem with hj
      · cases hem
        exact (h.targets i _ hi d (List.mem_cons_of_mem c hd)).set hoffer
      · exact (h.targets j em hem d hd).set hoffer
  | subscribeSince c sinceSeq bufSize =>
    obtain ⟨hc,rfl⟩ := step_subscribeSince hs
    have hnew : c ∉ s.subs := by
      intro hmem
      obtain ⟨ch,hch,-⟩ := h.subs c hmem
      simp [hc] at hch
    refine ⟨h.crashed,?_,fun j hj => ?_,fun j em hem d hd => (h.targets j em hem d hd).set (closed_replay _ _ _)⟩
    · exact List.Nodup.append h.nodup (List.nodup_singleton c) (by simpa using hnew)
    · rcases List.mem_append.mp hj with hj | hj
      · exact (h.subs j hj).set (closed_replay _ _ _)
      · exact ⟨_,by rw [List.mem_singleton.mp hj]; exact Table.get_set_self _ _ _,closed_replay _ _ _⟩
  | receive c =>
    obtain ⟨ch,e,rest,hch,-,rfl⟩ := step_receive hs
    have hkeep : ∀ j, IsOpen s.channels j → IsOpen (s.channels.set c
        { ch with received := ch.received ++ [e], buffer := rest }) j := by
      rintro j ⟨ch',hch',hopen⟩
      by_cases hj : j = c
      · subst hj
        obtain rfl : ch = ch' := Option.some.inj (hch.symm.trans hch')
        exact ⟨_,Table.get_set_self _ _ _,hopen⟩
      · exact ⟨ch',by rw [Table.get_set_of_ne hj,hch'],hopen⟩
    exact ⟨h.crashed,h.nodup,fun j hj => hkeep j (h.subs j hj),
      fun j em hem d hd => hkeep d (h.targets j em hem d hd)⟩
  | unsubscribe c =>
    obtain rfl | ⟨hc,rfl⟩ := step_unsubscribe hs
    · exact h
    refine ⟨h.crashed,h.nodup.erase c,fun j hj => ?_,fun j em hem d hd => ?_⟩
    · obtain ⟨hne,hj⟩ := h.nodup.mem_erase_iff.mp hj
      exact (h.subs j hj).foldl_closeChannel [c] (by simpa using hne)
    · refine (h.targets j em hem d hd).foldl_closeChannel [c] ?_
      rw [List.mem_singleton]
      rintro rfl
      exact hop hc j em hem hd
  | close =>
    rw [step_close hs]
    refine ⟨h.crashed,List.nodup_nil,by simp,fun j em hem d hd => ?_⟩
    exact (h.targets j em hem d hd).foldl_closeChannel s.subs (fun hmem => hop d hmem j em hem hd)

/-- In a run that closes only unused channels nobody sends on a closed one. -/
theorem not_crashed_of_run {maxSize : ℕ} {trace : List (Transition EventStream StreamOp)}
    (run : Run step (start maxSize) trace s) (hops : ∀ e ∈ trace, e.source.ClosesUnused e.label) :
    (∀ e ∈ trace, e.source.crashed = false ∧ e.target.crashed = false) ∧ s.crashed = false := by
  obtain ⟨hall,hlast⟩ := run.invariant_of_allowed
    (fun s op t (h : s.Live) hop hs => h.step hop hs) (live_start maxSize) hops
  refine ⟨fun e he => ?_,hlast.crashed⟩
  obtain ⟨hlive,hstep⟩ := hall e he
  exact ⟨hlive.crashed,(hlive.step (hops e he) hstep).crashed⟩

/-- An event for examples. -/
def exampleEvent : ProcessEvent := { type := .spawned, pid := 1 }

/-- An emitter serves its only subscriber, which then leaves. -/
def orderlyLeave : List StreamOp :=
  [.subscribeSince 0 0 256,.begin 0 0 none exampleEvent,.append 0,.send 0 false,.send 0 false,
    .unsubscribe 0]

theorem not_crashed_of_run_orderlyLeave : ∃ s, exec step orderlyLeave (start 4096) = some s ∧
    s.crashed = false := by
  obtain ⟨s,hs⟩ : ∃ s, exec step orderlyLeave (start 4096) = some s := ⟨_,rfl⟩
  exact ⟨s,hs,(not_crashed_of_run (.of_exec hs) (by decide)).2⟩

/-- A subscriber leaves while an emitter still has it in its snapshot. -/
theorem send_on_closed_channel : ¬ ∀ (maxSize : ℕ) (trace : List (Transition EventStream StreamOp))
    (s : EventStream), Run step (start maxSize) trace s → s.crashed = false := by
  intro h
  obtain ⟨s,hs,hcrash⟩ : ∃ s, exec step [.subscribeSince 0 0 256,.begin 0 0 none exampleEvent,.append 0,
      .unsubscribe 0,.send 0 false] (start 4096) = some s ∧ s.crashed = true := ⟨_,rfl,rfl⟩
  have hok := h 4096 _ s (.of_exec hs)
  rw [hcrash] at hok
  cases hok

end EventStream
end HiveKernel
