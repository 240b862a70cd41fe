import HiveKernel.Process.EventOrder

/-! A subscriber that keeps up. It asks for the events after a number, empties its channel before
every later event, and the events are emitted one after the other. -/
namespace HiveKernel
open Lib
namespace EventChannel

/-- Receive whatever is there. -/
def drain (ch : EventChannel) : EventChannel :=
  { ch with received := ch.received ++ ch.buffer, buffer := [] }

lemma content_drain (ch : EventChannel) : ch.drain.content = ch.content := List.append_nil _

end EventChannel

namespace EventStream
variable {s t : EventStream} {c : ℕ}

def subscribed (s : EventStream) (c sinceSeq bufSize : ℕ) : EventStream :=
  { s with
    channels := s.channels.set c (.replay s.log.events sinceSeq bufSize)
    subs := s.subs ++ [c] }

/-- Empty the channel of a subscriber. -/
def drained (s : EventStream) (c : ℕ) : EventStream :=
  match s.channels.get c with
  | none => s
  | some ch => match ch.buffer with
    | [] => s
    | _::_ => { s with channels := s.channels.set c ch.drain }

def offerTo (evt : ProcessEvent) (waits : ℕ → Bool) (channels : Table ℕ EventChannel) (c : ℕ) :
    Table ℕ EventChannel :=
  match channels.get c with
  | none => channels
  | some ch => channels.set c (ch.offer (waits c) evt)

/-- One `Emit` from beginning to end; `waits` are the subscribers that wait in a receive. -/
def emitOne (s : EventStream) (call : EventLog.Emission) (waits : ℕ → Bool) : EventStream :=
  { s with
    log := s.log.emit call.now call.lookup call.event
    channels := s.subs.foldl (offerTo (EventLog.stamp (s.log.seq+1) call.now call.lookup call.event) waits)
      s.channels }

/-- The subscriber drains before each call, and once more at the end. -/
def session (c : ℕ) : List (EventLog.Emission × (ℕ → Bool)) → EventStream → EventStream
  | [],s => s.drained c
  | (call,waits)::calls,s => session c calls ((s.drained c).emitOne call waits)

/-- Nobody emits, and every subscriber's channel is open. -/
structure Idle (s : EventStream) : Prop where
  crashed : s.crashed = false
  emitters : s.emitters.get 0 = none
  subs : ∀ c ∈ s.subs, IsOpen s.channels c

lemma drained_cases (s : EventStream) (c : ℕ) : (s.drained c = s ∧ ∀ ch ∈ s.channels.get c, ch.drain = ch) ∨
    ∃ ch, s.channels.get c = some ch ∧ ch.buffer ≠ [] ∧
      s.drained c = { s with channels := s.channels.set c ch.drain } := by
  unfold drained
  cases hc : s.channels.get c with
  | none => exact .inl ⟨rfl,by simp⟩
  | some ch =>
    cases hb : ch.buffer with
    | nil =>
      refine .inl ⟨by simp only [hb],?_⟩
      simp only [Option.mem_def,Option.some.injEq,forall_eq']
      cases ch
      simp_all [EventChannel.drain]
    | cons e rest => exact .inr ⟨ch,rfl,by simp [hb],by simp only [hb]⟩

lemma get_drained (s : EventStream) (c j : ℕ) : (s.drained c).channels.get j =
    if j = c then (s.channels.get c).map EventChannel.drain else s.channels.get j := by
  rcases drained_cases s c with ⟨hs,hch⟩ | ⟨ch,hch,-,hs⟩
  · rw [hs]
    split_ifs with hj
    · subst hj
      cases hc : s.channels.get j with
      | none => rfl
      | some ch => rw [Option.map_some,hch ch hc]
    · rfl
  · rw [hs,Table.get_set,hch]
    rfl

lemma subs_drained (s : EventStream) (c : ℕ) : (s.drained c).subs = s.subs ∧ (s.drained c).log = s.log := by
  rcases drained_cases s c with ⟨hs,-⟩ | ⟨ch,-,-,hs⟩ <;> rw [hs] <;> exact ⟨rfl,rfl⟩

lemma Idle.subscribed (h : s.Idle) (c sinceSeq bufSize : ℕ) : (s.subscribed c sinceSeq bufSize).Idle where
  crashed := h.crashed
  emitters := h.emitters
  subs j hj := by
    rcases List.mem_append.mp hj with hj | hj
    · exact (h.subs j hj).set (closed_replay _ _ _)
    · rw [List.mem_singleton.mp hj]
      exact ⟨_,Table.get_set_self _ _ _,closed_replay _ _ _⟩

lemma Idle.drained (h : s.Idle) (c : ℕ) : (s.drained c).Idle := by
  rcases drained_cases s c with ⟨hs,-⟩ | ⟨ch,hch,-,hs⟩
  · rw [hs]
    exact h
  · rw [hs]
    refine ⟨h.crashed,h.emitters,fun j hj => ?_⟩
    obtain ⟨old,hold,hopen⟩ := h.subs j hj
    by_cases hjc : j = c
    · subst hjc
      obtain rfl := Option.some.inj (hch.symm.trans hold)
      exact ⟨_,Table.get_set_self _ _ _,hopen⟩
    · exact ⟨old,by rw [Table.get_set_of_ne hjc,hold],hopen⟩

lemma run_subscribed (h : s.Idle) (hc : s.channels.get c = none) (sinceSeq bufSize : ℕ) :
    ∃ trace, Run step s trace (s.subscribed c sinceSeq bufSize) := by
  have hstep : s.step (.subscribeSince c sinceSeq bufSize) = some (s.subscribed c sinceSeq bufSize) := by
    simp [step,h.crashed,hc,subscribed]
  exact ⟨_,.cons hstep (.nil _)⟩

/-- Receives, one event at a time. -/
lemma run_drained (h : s.Idle) (c : ℕ) : ∃ trace, Run step s trace (s.drained c) := by
  rcases drained_cases s c with ⟨hs,-⟩ | ⟨ch,hch,hne,hs⟩
  · rw [hs]
    exact ⟨[],.nil s⟩
  · rw [hs]
    have hcrashed := h.crashed
    clear hs h
    generalize hb : ch.buffer = buffer at hne
    induction buffer generalizing s ch with
    | nil => exact absurd rfl hne
    | cons e rest ih =>
      have hstep : s.step (.receive c) = some { s with
          channels := s.channels.set c { ch with received := ch.received ++ [e], buffer := rest } } := by
        simp [step,hcrashed,hch,hb]
      have hdrain : ({ ch with received := ch.received ++ [e], buffer := rest } : EventChannel).drain =
          ch.drain := by simp [EventChannel.drain,hb]
      cases rest with
      | nil =>
        have hlast : ({ ch with received := ch.received ++ [e], buffer := [] } : EventChannel) = ch.drain := by
          simp [EventChannel.drain,hb]
        rw [hlast] at hstep
        exact ⟨_,.cons hstep (.nil _)⟩
      | cons e' rest' =>
        obtain ⟨trace,hrun⟩ := ih (s := { s with
          channels := s.channels.set c { ch with received := ch.received ++ [e], buffer := e'::rest' } })
          { ch with received := ch.received ++ [e], buffer := e'::rest' }
          (Table.get_set_self _ _ _) hcrashed rfl (by simp)
        rw [Table.set_set,hdrain] at hrun
        exact ⟨_,.cons hstep hrun⟩

lemma isOpen_offerTo {channels : Table ℕ EventChannel} {j : ℕ} (h : IsOpen channels j) (evt : ProcessEvent)
    (waits : ℕ → Bool) (c : ℕ) : IsOpen (offerTo evt waits channels c) j := by
  unfold offerTo
  cases hc : channels.get c with
  | none => exact h
  | some ch =>
    by_cases hj : j = c
    · obtain ⟨old,hold,hopen⟩ := h
      subst hj
      obtain rfl := Option.some.inj (hc.symm.trans hold)
      exact ⟨_,Table.get_set_self _ _ _,by rw [closed_offer,hopen]⟩
    · obtain ⟨old,hold,hopen⟩ := h
      exact ⟨old,by rw [Table.get_set_of_ne hj,hold],hopen⟩

lemma isOpen_foldl_offerTo {channels : Table ℕ EventChannel} {j : ℕ} (h : IsOpen channels j)
    (evt : ProcessEvent) (waits : ℕ → Bool) (cs : List ℕ) :
    IsOpen (cs.foldl (offerTo evt waits) channels) j := by
  induction cs generalizing channels with
  | nil => exact h
  | cons c cs ih => exact ih (isOpen_offerTo h evt waits c)

lemma Idle.emitOne (h : s.Idle) (call : EventLog.Emission) (waits : ℕ → Bool) :
    (s.emitOne call waits).Idle :=
  ⟨h.crashed,h.emitters,fun j hj => isOpen_foldl_offerTo (h.subs j hj) _ _ _⟩

/-- The sends to the channels of a snapshot, and the end of the call. -/
lemma run_offers {evt : ProcessEvent} {cs : List ℕ} (waits : ℕ → Bool) (hcrashed : s.crashed = false)
    (hem : s.emitters.get 0 = some (.sending evt cs)) (hopen : ∀ c ∈ cs, IsOpen s.channels c) :
    ∃ trace, Run step s trace { s with
      channels := cs.foldl (offerTo evt waits) s.channels
      emitters := s.emitters.erase 0 } := by
  induction cs generalizing s with
  | nil =>
    have hstep : s.step (.send 0 false) = some { s with emitters := s.emitters.erase 0 } := by
      simp [step,hcrashed,hem]
    exact ⟨_,.cons hstep (.nil _)⟩
  | cons c cs ih =>
    obtain ⟨ch,hch,hclosed⟩ := hopen c List.mem_cons_self
    have hoffer : offerTo evt waits s.channels c = s.channels.set c (ch.offer (waits c) evt) := by
      simp only [offerTo,hch]
    have hstep : s.step (.send 0 (waits c)) = some { s with
        channels := offerTo evt waits s.channels c
        emitters := s.emitters.set 0 (.sending evt cs) } := by
      simp [step,hcrashed,hem,sendTo,hch,hclosed,hoffer]
    obtain ⟨trace,hrun⟩ := ih (s := { s with
      channels := offerTo evt waits s.channels c
      emitters := s.emitters.set 0 (.sending evt cs) }) hcrashed (Table.get_set_self _ _ _)
      (fun j hj => isOpen_offerTo (hopen j (List.mem_cons_of_mem c hj)) evt waits c)
    rw [Table.erase_set] at hrun
    exact ⟨_,.cons hstep hrun⟩

lemma run_emitOne (h : s.Idle) (call : EventLog.Emission) (waits : ℕ → Bool) :
    ∃ trace, Run step s trace (s.emitOne call waits) := by
  let evt := EventLog.stamp (s.log.seq+1) call.now call.lookup call.event
  have hbegin : s.step (.begin 0 call.now call.lookup call.event) = some { s with
      log := { s.log with seq := s.log.seq+1 }
      emitters := s.emitters.set 0 (.numbered evt) } := by
    simp [step,h.crashed,h.emitters,evt]
  have happend : step { s with
      log := { s.log with seq := s.log.seq+1 }
      emitters := s.emitters.set 0 (.numbered evt) } (.append 0) = some { s with
      log := s.log.emit call.now call.lookup call.event
      emitters := s.emitters.set 0 (.sending evt s.subs) } := by
    simp [step,h.crashed,EventLog.emit,Table.set_set,evt]
  obtain ⟨trace,hrun⟩ := run_offers (s := { s with
      log := s.log.emit call.now call.lookup call.event
      emitters := s.emitters.set 0 (.sending evt s.subs) }) waits h.crashed (Table.get_set_self _ _ _) h.subs
  rw [Table.erase_set,Table.erase_of_get_none h.emitters] at hrun
  exact ⟨_,.cons hbegin (.cons happend hrun)⟩

lemma run_session (h : s.Idle) (c : ℕ) (calls : List (EventLog.Emission × (ℕ → Bool))) :
    ∃ trace, Run step s trace (session c calls s) := by
  induction calls generalizing s with
  | nil => exact run_drained h c
  | cons call calls ih =>
    obtain ⟨received,hreceived⟩ := run_drained h c
    obtain ⟨emitted,hemitted⟩ := run_emitOne (h.drained c) call.1 call.2
    obtain ⟨later,hlater⟩ := ih ((h.drained c).emitOne call.1 call.2)
    exact ⟨_,hreceived.append (hemitted.append hlater)⟩

lemma get_offerTo_of_ne {evt : ProcessEvent} {waits : ℕ → Bool} {channels : Table ℕ EventChannel} {c j : ℕ}
    (h : j ≠ c) : (offerTo evt waits channels c).get j = channels.get j := by
  unfold offerTo
  cases channels.get c with
  | none => rfl
  | some ch => exact Table.get_set_of_ne h

lemma get_foldl_offerTo_of_notMem {cs : List ℕ} {j : ℕ} (h : j ∉ cs) (evt : ProcessEvent) (waits : ℕ → Bool)
    (channels : Table ℕ EventChannel) : (cs.foldl (offerTo evt waits) channels).get j = channels.get j := by
  induction cs generalizing channels with
  | nil => rfl
  | cons c cs ih =>
    rw [List.foldl_cons,ih (fun hj => h (List.mem_cons_of_mem c hj))]
    exact get_offerTo_of_ne (fun hj => h (hj ▸ List.mem_cons_self))

/-- The subscriber that came last is offered the event once. -/
lemma get_emitOne {subs : List ℕ} {ch : EventChannel} (hsubs : s.subs = subs ++ [c]) (hc : c ∉ subs)
    (hch : s.channels.get c = some ch) (call : EventLog.Emission) (waits : ℕ → Bool) :
    (s.emitOne call waits).channels.get c =
      some (ch.offer (waits c) (EventLog.stamp (s.log.seq+1) call.now call.lookup call.event)) := by
  have hget := get_foldl_offerTo_of_notMem hc
    (EventLog.stamp (s.log.seq+1) call.now call.lookup call.event) waits s.channels
  unfold emitOne
  rw [hsubs,List.foldl_append]
  simp only [List.foldl_cons,List.foldl_nil]
  unfold offerTo at hget ⊢
  rw [hget,hch]
  exact Table.get_set_self _ _ _

@[simp] lemma capacity_offer (waiting : Bool) (ch : EventChannel) (evt : ProcessEvent) :
    (ch.offer waiting evt).capacity = ch.capacity := by
  unfold EventChannel.offer
  split_ifs <;> rfl

lemma capacity_replay (events : List ProcessEvent) (sinceSeq bufSize : ℕ) :
    (EventChannel.replay events sinceSeq bufSize).capacity = bufSize := by
  have h : ∀ (l : List ProcessEvent) (ch : EventChannel),
      (l.foldl (EventChannel.offer false) ch).capacity = ch.capacity := by
    intro l
    induction l with
    | nil => exact fun _ => rfl
    | cons e l ih => exact fun ch => (ih _).trans (capacity_offer false ch e)
  exact h _ _

/-- Whatever is on the channel at first, all later events follow. -/
lemma received_session {subs : List ℕ} {ch : EventChannel} (hsubs : s.subs = subs ++ [c]) (hc : c ∉ subs)
    (hch : s.channels.get c = some ch) (hcap : 1 ≤ ch.capacity)
    (calls : List (EventLog.Emission × (ℕ → Bool))) :
    ((session c calls s).channels.get c).map EventChannel.received =
      some (ch.content ++ EventLog.emitted s.log.seq (calls.map Prod.fst)) := by
  induction calls generalizing s ch with
  | nil =>
    rw [session,get_drained,if_pos rfl,hch]
    simp [EventChannel.drain,EventChannel.content,EventLog.emitted]
  | cons call calls ih =>
    obtain ⟨call,waits⟩ := call
    obtain ⟨hsubs',hlog⟩ := subs_drained s c
    have hdrained : (s.drained c).channels.get c = some ch.drain := by
      rw [get_drained,if_pos rfl,hch]
      rfl
    have hnext := get_emitOne (hsubs'.trans hsubs) hc hdrained call waits
    rw [hlog] at hnext
    have hcontent : (ch.drain.offer (waits c)
        (EventLog.stamp (s.log.seq+1) call.now call.lookup call.event)).content =
        ch.content ++ [EventLog.stamp (s.log.seq+1) call.now call.lookup call.event] := by
      rcases content_offer ch.drain (waits c)
        (EventLog.stamp (s.log.seq+1) call.now call.lookup call.event) with ⟨-,heq⟩ | ⟨hfull,-⟩
      · rw [heq,EventChannel.content_drain]
      · exact absurd (.inr hcap) hfull
    have hrest := ih (s := (s.drained c).emitOne call waits) (hsubs'.trans hsubs) hnext
      ((capacity_offer _ _ _).symm ▸ hcap)
    rw [hcontent] at hrest
    rw [session,hrest]
    have hseq : ((s.drained c).emitOne call waits).log.seq = s.log.seq+1 := by
      rw [← hlog]
      rfl
    simp [EventLog.emitted,hseq]

/-- A subscriber that keeps up receives the buffered events after its number and all that are
emitted later exactly if the buffered ones fit into its channel. All of this is a run of the stream. -/
theorem received_replay_iff (s : EventStream) {c : ℕ} (hsubs : c ∉ s.subs) (sinceSeq : ℕ) {bufSize : ℕ}
    (hsize : 1 ≤ bufSize) (calls : List (EventLog.Emission × (ℕ → Bool))) :
    (((session c calls (s.subscribed c sinceSeq bufSize)).channels.get c).map EventChannel.received =
      some (s.log.since sinceSeq ++ EventLog.emitted s.log.seq (calls.map Prod.fst)) ↔
    (s.log.since sinceSeq).length ≤ bufSize) ∧
    (s.Idle → s.channels.get c = none →
      ∃ trace, Run step s trace (session c calls (s.subscribed c sinceSeq bufSize))) := by
  constructor
  · have hget : (s.subscribed c sinceSeq bufSize).channels.get c =
        some (.replay s.log.events sinceSeq bufSize) := Table.get_set_self _ _ _
    have hreceived := received_session (s := s.subscribed c sinceSeq bufSize) rfl hsubs hget
      ((capacity_replay _ _ _).symm ▸ hsize) calls
    rw [hreceived,content_replay,Option.some.injEq]
    change (s.log.since sinceSeq).take bufSize ++ _ = _ ↔ _
    rw [subscribed,List.append_left_inj,List.take_eq_self_iff]
  · intro hidle hc
    obtain ⟨first,hfirst⟩ := run_subscribed hidle hc sinceSeq bufSize
    obtain ⟨later,hlater⟩ := run_session (hidle.subscribed c sinceSeq bufSize) c calls
    exact ⟨_,hfirst.append hlater⟩

/-- Three buffered events, asked for from the second on, and one more. -/
def threeEvents : EventStream :=
  { start 4096 with log := (EventLog.new 4096).emitAll (List.replicate 3 ⟨0,none,exampleEvent⟩) }

theorem received_replay_iff_threeEvents :
    ((session 0 [(⟨0,none,exampleEvent⟩,fun _ => false)] (threeEvents.subscribed 0 1 2)).channels.get 0).map
      EventChannel.received = some (threeEvents.log.since 1 ++
        EventLog.emitted threeEvents.log.seq [⟨0,none,exampleEvent⟩]) := by
  have hfits : (threeEvents.log.since 1).length ≤ 2 := by decide
  exact (received_replay_iff threeEvents (by decide) 1 (by decide)
    [(⟨0,none,exampleEvent⟩,fun _ => false)]).1.mpr hfits

/-- A buffer that was never cut has everything. -/
lemma since_zero_emitAll {maxSize : ℕ} (hsize : 1 ≤ maxSize) {calls : List EventLog.Emission}
    (hfits : calls.length ≤ maxSize) :
    ((EventLog.new maxSize).emitAll calls).since 0 = EventLog.emitted 0 calls := by
  obtain ⟨hring,hmax⟩ := (EventLog.ring_new maxSize).emitAll hsize calls
  rw [List.nil_append] at hring
  have hwhole : ((EventLog.new maxSize).emitAll calls).events = EventLog.emitted 0 calls := by
    apply hring.whole
    rw [hmax,EventLog.length_emitted]
    exact hfits
  rw [EventLog.since,hwhole]
  exact List.filter_eq_self.mpr (fun e he => by simpa using EventLog.lt_seq_of_mem_emitted he)

/-- With the sizes of the kernel: of 257 buffered events the last one is missing, and the next one follows. -/
theorem replay_drops : ¬∀ (s : EventStream) (c sinceSeq bufSize : ℕ)
    (calls : List (EventLog.Emission × (ℕ → Bool))), s.channels.get c = none → c ∉ s.subs → 1 ≤ bufSize →
    ((session c calls (s.subscribed c sinceSeq bufSize)).channels.get c).map EventChannel.received =
      some (s.log.since sinceSeq ++ EventLog.emitted s.log.seq (calls.map Prod.fst)) := by
  intro h
  obtain ⟨before,hbefore⟩ : ∃ before : List EventLog.Emission, before.length = 257 :=
    ⟨List.replicate 257 ⟨0,none,exampleEvent⟩,List.length_replicate⟩
  let s : EventStream := { start 4096 with log := (EventLog.new 4096).emitAll before }
  have hall := h s 0 0 256 [(⟨0,none,exampleEvent⟩,fun _ => false)] rfl List.not_mem_nil (by decide)
  have hreceived := received_session (s := s.subscribed 0 0 256) rfl List.not_mem_nil
    (Table.get_set_self _ _ _) (by rw [capacity_replay]; decide) [(⟨0,none,exampleEvent⟩,fun _ => false)]
  rw [hreceived,content_replay] at hall
  have hbuffered : (s.log.since 0).take 256 = s.log.since 0 := List.append_cancel_right (Option.some.inj hall)
  have hle := (List.take_eq_self_iff _).mp hbuffered
  have hsince : s.log.since 0 = EventLog.emitted 0 before := since_zero_emitAll (by decide) (by omega)
  rw [hsince,EventLog.length_emitted] at hle
  omega

end EventStream
end HiveKernel
