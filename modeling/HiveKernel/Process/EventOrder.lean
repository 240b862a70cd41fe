import HiveKernel.Process.EventStream

/-! The order of the events, in the buffer and on the channels, and what a client that reconnects
with the last number it received is given. All of it depends on emitters keeping the order of
their numbers at the lock and at every channel. -/
namespace HiveKernel
open Lib
namespace EventStream

/-- Nobody overtakes: an event is appended before all that wait with larger numbers, and sent to a
channel before all with larger numbers that have this channel ahead of them. -/
def InOrder (s : EventStream) : StreamOp → Prop
  | .append i => ∀ em ∈ s.emitters.get i, ∀ j em', s.emitters.get j = some em' →
      em'.waits = true → em.event.seq ≤ em'.event.seq
  | .send i _ => ∀ em ∈ s.emitters.get i, ∀ c ∈ em.targets.head?, ∀ j em',
      s.emitters.get j = some em' → c ∈ em'.targets → em.event.seq ≤ em'.event.seq
  | _ => True

/-- Nothing is dropped: there is room for the event, or for everything that is replayed. -/
def Fits (s : EventStream) : StreamOp → Prop
  | .send i waiting => ∀ em ∈ s.emitters.get i, ∀ c ∈ em.targets.head?, ∀ ch ∈ s.channels.get c,
      ch.Takes waiting
  | .subscribeSince _ sinceSeq bufSize => (s.log.since sinceSeq).length ≤ bufSize
  | _ => True

instance (s : EventStream) (op : StreamOp) : Decidable (s.InOrder op) :=
  match op with
  | .append i => inferInstanceAs (Decidable (∀ em ∈ s.emitters.get i, ∀ j em',
      s.emitters.get j = some em' → em'.waits = true → em.event.seq ≤ em'.event.seq))
  | .send i _ => inferInstanceAs (Decidable (∀ em ∈ s.emitters.get i, ∀ c ∈ em.targets.head?, ∀ j em',
      s.emitters.get j = some em' → c ∈ em'.targets → em.event.seq ≤ em'.event.seq))
  | .begin .. | .subscribeSince .. | .receive _ | .unsubscribe _ | .close => .isTrue trivial

instance (s : EventStream) (op : StreamOp) : Decidable (s.Fits op) :=
  match op with
  | .send i waiting => inferInstanceAs (Decidable (∀ em ∈ s.emitters.get i, ∀ c ∈ em.targets.head?,
      ∀ ch ∈ s.channels.get c, ch.Takes waiting))
  | .subscribeSince _ sinceSeq bufSize => inferInstanceAs (Decidable ((s.log.since sinceSeq).length ≤ bufSize))
  | .begin .. | .append _ | .receive _ | .unsubscribe _ | .close => .isTrue trivial

abbrev Increasing (events : List ProcessEvent) : Prop :=
  events.Pairwise (fun e e' => e.seq < e'.seq)

/-- The event has been through the lock and is still somewhere: in the buffer, on its way to the
subscribers, or on a channel. -/
def Appended (s : EventStream) (e : ProcessEvent) : Prop :=
  e ∈ s.log.events ∨ (∃ i cs, s.emitters.get i = some (.sending e cs)) ∨
    ∃ c ch, s.channels.get c = some ch ∧ e ∈ ch.content

/-- The events are in order wherever they are, and smaller than whatever comes next there. -/
structure Sequenced (s : EventStream) : Prop where
  numbers : ∀ i em, s.emitters.get i = some em → em.event.seq ≤ s.log.seq
  distinct : ∀ i j em em', s.emitters.get i = some em → s.emitters.get j = some em' →
    em.event.seq = em'.event.seq → i = j
  once : ∀ i em, s.emitters.get i = some em → em.targets.Nodup
  subs_once : s.subs.Nodup
  subs_known : ∀ c ∈ s.subs, (s.channels.get c).isSome
  known : ∀ i em, s.emitters.get i = some em → ∀ c ∈ em.targets, (s.channels.get c).isSome
  bound : ∀ e, s.Appended e → e.seq ≤ s.log.seq
  waiting : ∀ i evt, s.emitters.get i = some (.numbered evt) → ∀ e, s.Appended e → e.seq < evt.seq
  events : Increasing s.log.events
  content : ∀ c ch, s.channels.get c = some ch → Increasing ch.content
  ahead : ∀ i em, s.emitters.get i = some em → ∀ c ∈ em.targets, ∀ ch, s.channels.get c = some ch →
    ∀ x ∈ ch.content, x.seq < em.event.seq

variable {s t : EventStream} {op : StreamOp}

lemma content_offer (ch : EventChannel) (waiting : Bool) (evt : ProcessEvent) :
    (ch.Takes waiting ∧ (ch.offer waiting evt).content = ch.content ++ [evt]) ∨
      (¬ch.Takes waiting ∧ ch.offer waiting evt = ch) := by
  unfold EventChannel.offer EventChannel.Takes EventChannel.content
  split_ifs with hwait hroom
  · exact .inl ⟨.inl hwait,by simp [hwait.2]⟩
  · exact .inl ⟨.inr hroom,by simp⟩
  · exact .inr ⟨by tauto,rfl⟩

lemma mem_content_offer {ch : EventChannel} {waiting : Bool} {evt x : ProcessEvent}
    (h : x ∈ (ch.offer waiting evt).content) : x ∈ ch.content ∨ x = evt := by
  rcases content_offer ch waiting evt with ⟨-,hc⟩ | ⟨-,hc⟩
  · rw [hc] at h
    simpa using h
  · rw [hc] at h
    exact .inl h

/-- A replay puts in what fits. -/
lemma content_foldl_offer (events : List ProcessEvent) (ch : EventChannel)
    (hroom : ch.buffer.length ≤ ch.capacity) :
    (events.foldl (EventChannel.offer false) ch).content =
      ch.content ++ events.take (ch.capacity-ch.buffer.length) := by
  induction events generalizing ch with
  | nil => simp
  | cons e events ih =>
    rw [List.foldl_cons]
    by_cases hlt : ch.buffer.length < ch.capacity
    · have hoffer : ch.offer false e = { ch with buffer := ch.buffer ++ [e] } := by
        simp [EventChannel.offer,hlt]
      obtain ⟨n,hn⟩ : ∃ n, ch.capacity-ch.buffer.length = n+1 := ⟨ch.capacity-ch.buffer.length-1,by omega⟩
      have hrest : ch.capacity-(ch.buffer.length+1) = n := by omega
      rw [hoffer,ih _ (by simpa using Nat.succ_le_of_lt hlt),hn]
      simp [EventChannel.content,hrest]
    · have hoffer : ch.offer false e = ch := by
        simp [EventChannel.offer,hlt]
      have hzero : ch.capacity-ch.buffer.length = 0 := by omega
      rw [hoffer,ih ch hroom,hzero]
      simp

lemma content_replay (events : List ProcessEvent) (sinceSeq bufSize : ℕ) :
    (EventChannel.replay events sinceSeq bufSize).content =
      (events.filter (fun e => sinceSeq < e.seq)).take bufSize := by
  rw [EventChannel.replay,content_foldl_offer _ _ (Nat.zero_le _)]
  rfl

/-- Closing and receiving leave the events of every channel where they are. -/
def SameContent (channels channels' : Table ℕ EventChannel) : Prop :=
  ∀ c, (channels'.get c).map EventChannel.content = (channels.get c).map EventChannel.content

lemma sameContent_receive {c : ℕ} {ch : EventChannel} {e : ProcessEvent} {rest : List ProcessEvent}
    (hch : s.channels.get c = some ch) (hb : ch.buffer = e::rest) : SameContent s.channels
      (s.channels.set c { ch with received := ch.received ++ [e], buffer := rest }) := by
  intro j
  rw [Table.get_set]
  split_ifs with hj
  · simp [hj,hch,EventChannel.content,hb]
  · rfl

lemma sameContent_foldl_closeChannel (channels : Table ℕ EventChannel) (cs : List ℕ) :
    SameContent channels (cs.foldl closeChannel channels) := by
  intro j
  rw [get_foldl_closeChannel,Option.map_map]
  congr 1
  funext ch
  simp only [Function.comp]
  split_ifs <;> rfl

lemma SameContent.exists_of_get {channels channels' : Table ℕ EventChannel}
    (h : SameContent channels channels') {c : ℕ} {ch : EventChannel} (hch : channels'.get c = some ch) :
    ∃ old, channels.get c = some old ∧ old.content = ch.content := by
  have hc := h c
  rw [hch] at hc
  exact Option.map_eq_some_iff.mp hc.symm

lemma SameContent.isSome {channels channels' : Table ℕ EventChannel}
    (h : SameContent channels channels') (c : ℕ) : (channels'.get c).isSome = (channels.get c).isSome := by
  rw [← Option.isSome_map (f := EventChannel.content),h c,Option.isSome_map]

/-- A step that only receives or closes keeps the order. -/
lemma Sequenced.of_sameContent {channels : Table ℕ EventChannel} {subs : List ℕ} {crashed : Bool}
    (h : s.Sequenced) (hsame : SameContent s.channels channels) (hnodup : subs.Nodup)
    (hsubs : ∀ c ∈ subs, c ∈ s.subs) :
    ({ s with channels := channels, subs := subs, crashed := crashed } : EventStream).Sequenced := by
  have happended : ∀ e, Appended { s with channels := channels, subs := subs, crashed := crashed } e →
      s.Appended e := by
    rintro e (he | he | ⟨c,ch,hch,he⟩)
    · exact .inl he
    · exact .inr (.inl he)
    · obtain ⟨old,hold,hcontent⟩ := hsame.exists_of_get hch
      exact .inr (.inr ⟨c,old,hold,hcontent ▸ he⟩)
  refine ⟨h.numbers,h.distinct,h.once,hnodup,fun c hc => ?_,fun i em hem c hc => ?_,
    fun e he => h.bound e (happended e he),fun i evt hi e he => h.waiting i evt hi e (happended e he),
    h.events,fun c ch hch => ?_,fun i em hem c hc ch hch x hx => ?_⟩
  · exact (hsame.isSome c).trans (h.subs_known c (hsubs c hc))
  · exact (hsame.isSome c).trans (h.known i em hem c hc)
  · obtain ⟨old,hold,hcontent⟩ := hsame.exists_of_get hch
    exact hcontent ▸ h.content c old hold
  · obtain ⟨old,hold,hcontent⟩ := hsame.exists_of_get hch
    exact h.ahead i em hem c hc old hold x (hcontent ▸ hx)

lemma sequenced_start (maxSize : ℕ) : (start maxSize).Sequenced := by
  constructor <;> simp [start,Appended,EventLog.new]

lemma Sequenced.begin (h : s.Sequenced) {i : ℕ} (hi : s.emitters.get i = none) {evt : ProcessEvent}
    (hseq : evt.seq = s.log.seq+1) :
    ({ s with
      log := { s.log with seq := s.log.seq+1 }
      emitters := s.emitters.set i (.numbered evt) } : EventStream).Sequenced := by
  have happended : ∀ e, Appended { s with
      log := { s.log with seq := s.log.seq+1 }
      emitters := s.emitters.set i (.numbered evt) } e → s.Appended e := by
    rintro e (he | ⟨j,cs,hj⟩ | he)
    · exact .inl he
    · simp only [Table.get_set] at hj
      split_ifs at hj
      · cases hj
      · exact .inr (.inl ⟨j,cs,hj⟩)
    · exact .inr (.inr he)
  refine ⟨fun j em hem => ?_,fun j k em em' hem hem' heq => ?_,fun j em hem => ?_,h.subs_once,h.subs_known,
    fun j em hem c hc => ?_,fun e he => (h.bound e (happended e he)).trans (Nat.le_succ _),
    fun j evt' hj e he => ?_,h.events,h.content,fun j em hem c hc => ?_⟩
  · rcases Table.get_set_some hem with ⟨-,rfl⟩ | ⟨-,hem⟩
    · exact hseq.le
    · exact (h.numbers j em hem).trans (Nat.le_succ _)
  · rcases Table.get_set_some hem with ⟨rfl,rfl⟩ | ⟨-,hem⟩
    · rcases Table.get_set_some hem' with ⟨rfl,-⟩ | ⟨-,hem'⟩
      · rfl
      · have hle := h.numbers k em' hem'
        simp only [Emitter.event] at heq hle
        omega
    · have hle := h.numbers j em hem
      rcases Table.get_set_some hem' with ⟨rfl,rfl⟩ | ⟨-,hem'⟩
      · simp only [Emitter.event] at heq hle
        omega
      · exact h.distinct j k em em' hem hem' heq
  · rcases Table.get_set_some hem with ⟨-,rfl⟩ | ⟨-,hem⟩
    · exact List.nodup_nil
    · exact h.once j em hem
  · rcases Table.get_set_some hem with ⟨-,rfl⟩ | ⟨-,hem⟩
    · cases hc
    · exact h.known j em hem c hc
  · rcases Table.get_set_some hj with ⟨-,hevt⟩ | ⟨-,hj⟩
    · cases hevt
      have hle := h.bound e (happended e he)
      omega
    · exact h.waiting j evt' hj e (happended e he)
  · rcases Table.get_set_some hem with ⟨-,rfl⟩ | ⟨-,hem⟩
    · cases hc
    · exact h.ahead j em hem c hc

lemma mem_append_events {el : EventLog} {evt e : ProcessEvent} (h : e ∈ (el.append evt).events) :
    e ∈ el.events ∨ e = evt := by
  have hsub : (el.append evt).events.Sublist (el.events ++ [evt]) := by
    unfold EventLog.append
    dsimp only
    split_ifs
    · exact List.drop_sublist _ _
    · exact .refl _
  simpa using hsub.subset h

lemma increasing_append {el : EventLog} {evt : ProcessEvent} (h : Increasing el.events)
    (hevt : ∀ e ∈ el.events, e.seq < evt.seq) : Increasing (el.append evt).events := by
  have hall : Increasing (el.events ++ [evt]) :=
    List.pairwise_append.mpr ⟨h,List.pairwise_singleton _ _,by simpa using hevt⟩
  unfold EventLog.append
  dsimp only
  split_ifs
  · exact hall.sublist (List.drop_sublist _ _)
  · exact hall

lemma Sequenced.append (h : s.Sequenced) {i : ℕ} {evt : ProcessEvent}
    (hi : s.emitters.get i = some (.numbered evt)) (hop : s.InOrder (.append i)) :
    ({ s with
      log := s.log.append evt
      emitters := s.emitters.set i (.sending evt s.subs) } : EventStream).Sequenced := by
  have happended : ∀ e, Appended { s with
      log := s.log.append evt
      emitters := s.emitters.set i (.sending evt s.subs) } e → s.Appended e ∨ e = evt := by
    rintro e (he | ⟨j,cs,hj⟩ | he)
    · rcases mem_append_events he with he | he
      · exact .inl (.inl he)
      · exact .inr he
    · rcases Table.get_set_some hj with ⟨-,hem⟩ | ⟨-,hj⟩
      · cases hem
        exact .inr rfl
      · exact .inl (.inr (.inl ⟨j,cs,hj⟩))
    · exact .inl (.inr (.inr he))
  refine ⟨fun j em hem => ?_,fun j k em em' hem hem' heq => ?_,fun j em hem => ?_,h.subs_once,h.subs_known,
    fun j em hem c hc => ?_,fun e he => ?_,fun j evt' hj e he => ?_,?_,h.content,
    fun j em hem c hc ch hch x hx => ?_⟩
  · rcases Table.get_set_some hem with ⟨-,rfl⟩ | ⟨-,hem⟩
    · exact h.numbers i (.numbered evt) hi
    · exact h.numbers j em hem
  · have hold : ∀ l em, (s.emitters.set i (.sending evt s.subs)).get l = some em →
        ∃ old, s.emitters.get l = some old ∧ old.event = em.event := by
      intro l em hem
      rcases Table.get_set_some hem with ⟨rfl,rfl⟩ | ⟨-,hem⟩
      · exact ⟨_,hi,rfl⟩
      · exact ⟨em,hem,rfl⟩
    obtain ⟨old,hj,hev⟩ := hold j em hem
    obtain ⟨old',hk,hev'⟩ := hold k em' hem'
    exact h.distinct j k old old' hj hk (by rw [hev,hev',heq])
  · rcases Table.get_set_some hem with ⟨-,rfl⟩ | ⟨-,hem⟩
    · exact h.subs_once
    · exact h.once j em hem
  · rcases Table.get_set_some hem with ⟨-,rfl⟩ | ⟨-,hem⟩
    · exact h.subs_known c hc
    · exact h.known j em hem c hc
  · rcases happended e he with he | rfl
    · exact h.bound e he
    · exact h.numbers i _ hi
  · rcases Table.get_set_some hj with ⟨-,hem⟩ | ⟨hne,hold⟩
    · cases hem
    · rcases happended e he with he | rfl
      · exact h.waiting j evt' hold e he
      · have hle := hop (.numbered e) hi j (.numbered evt') hold rfl
        exact lt_of_le_of_ne hle (fun heq => hne (h.distinct j i _ _ hold hi heq.symm))
  · exact increasing_append h.events (fun e he => h.waiting i evt hi e (.inl he))
  · rcases Table.get_set_some hem with ⟨-,rfl⟩ | ⟨-,hem⟩
    · exact h.waiting i evt hi x (.inr (.inr ⟨c,ch,hch,hx⟩))
    · exact h.ahead j em hem c hc ch hch x hx

lemma Sequenced.finish (h : s.Sequenced) (i : ℕ) :
    ({ s with emitters := s.emitters.erase i } : EventStream).Sequenced := by
  have hget : ∀ j em, (s.emitters.erase i).get j = some em → s.emitters.get j = some em :=
    fun j em hem => (Table.get_erase_some hem).2
  have happended : ∀ e, Appended { s with emitters := s.emitters.erase i } e → s.Appended e := by
    rintro e (he | ⟨j,cs,hj⟩ | he)
    · exact .inl he
    · exact .inr (.inl ⟨j,cs,hget j _ hj⟩)
    · exact .inr (.inr he)
  exact ⟨fun j em hem => h.numbers j em (hget j em hem),
    fun j k em em' hem hem' => h.distinct j k em em' (hget j em hem) (hget k em' hem'),
    fun j em hem => h.once j em (hget j em hem),h.subs_once,h.subs_known,
    fun j em hem => h.known j em (hget j em hem),fun e he => h.bound e (happended e he),
    fun j evt hj e he => h.waiting j evt (hget j _ hj) e (happended e he),h.events,h.content,
    fun j em hem => h.ahead j em (hget j em hem)⟩

lemma Sequenced.sendTo (h : s.Sequenced) {i c : ℕ} {waiting : Bool} {evt : ProcessEvent} {cs : List ℕ}
    {ch : EventChannel} (hi : s.emitters.get i = some (.sending evt (c::cs)))
    (hch : s.channels.get c = some ch) (hop : s.InOrder (.send i waiting)) :
    ({ s with
      channels := s.channels.set c (ch.offer waiting evt)
      emitters := s.emitters.set i (.sending evt cs) } : EventStream).Sequenced := by
  have hold : ∀ l em, (s.emitters.set i (.sending evt cs)).get l = some em →
      ∃ old, s.emitters.get l = some old ∧ old.event = em.event ∧ em.targets.Sublist old.targets := by
    intro l em hem
    rcases Table.get_set_some hem with ⟨rfl,rfl⟩ | ⟨-,hem⟩
    · exact ⟨_,hi,rfl,List.sublist_cons_self c cs⟩
    · exact ⟨em,hem,rfl,.refl _⟩
  have hahead : ∀ x ∈ ch.content, x.seq < evt.seq := h.ahead i _ hi c List.mem_cons_self ch hch
  have happended : ∀ e, Appended { s with
      channels := s.channels.set c (ch.offer waiting evt)
      emitters := s.emitters.set i (.sending evt cs) } e → s.Appended e := by
    rintro e (he | ⟨j,cs',hj⟩ | ⟨d,ch',hch',he⟩)
    · exact .inl he
    · rcases Table.get_set_some hj with ⟨-,hem⟩ | ⟨-,hj⟩
      · cases hem
        exact .inr (.inl ⟨i,_,hi⟩)
      · exact .inr (.inl ⟨j,cs',hj⟩)
    · rcases Table.get_set_some hch' with ⟨-,rfl⟩ | ⟨-,hch'⟩
      · rcases mem_content_offer he with he | rfl
        · exact .inr (.inr ⟨c,ch,hch,he⟩)
        · exact .inr (.inl ⟨i,_,hi⟩)
      · exact .inr (.inr ⟨d,ch',hch',he⟩)
  refine ⟨fun j em hem => ?_,fun j k em em' hem hem' heq => ?_,fun j em hem => ?_,h.subs_once,
    fun d hd => Table.isSome_get_set _ _ (h.subs_known d hd),fun j em hem d hd => ?_,
    fun e he => h.bound e (happended e he),
    fun j evt' hj e he => ?_,h.events,fun d ch' hch' => ?_,fun j em hem d hd ch' hch' x hx => ?_⟩
  · obtain ⟨old,hj,hev,-⟩ := hold j em hem
    exact hev ▸ h.numbers j old hj
  · obtain ⟨old,hj,hev,-⟩ := hold j em hem
    obtain ⟨old',hk,hev',-⟩ := hold k em' hem'
    exact h.distinct j k old old' hj hk (by rw [hev,hev',heq])
  · obtain ⟨old,hj,-,hsub⟩ := hold j em hem
    exact (h.once j old hj).sublist hsub
  · obtain ⟨old,hj,-,hsub⟩ := hold j em hem
    exact Table.isSome_get_set _ _ (h.known j old hj d (hsub.subset hd))
  · rcases Table.get_set_some hj with ⟨-,hem⟩ | ⟨-,hj⟩
    · cases hem
    · exact h.waiting j evt' hj e (happended e he)
  · rcases Table.get_set_some hch' with ⟨-,rfl⟩ | ⟨-,hch'⟩
    · have hcontent := h.content c ch hch
      rcases content_offer ch waiting evt with ⟨-,heq⟩ | ⟨-,heq⟩
      · rw [heq]
        exact List.pairwise_append.mpr ⟨hcontent,List.pairwise_singleton _ _,by simpa using hahead⟩
      · rw [heq]
        exact hcontent
    · exact h.content d ch' hch'
  · obtain ⟨old,hj,hev,hsub⟩ := hold j em hem
    rcases Table.get_set_some hch' with ⟨rfl,rfl⟩ | ⟨-,hch'⟩
    · rcases mem_content_offer hx with hx | rfl
      · exact hev ▸ h.ahead j old hj d (hsub.subset hd) ch hch x hx
      · have hne : j ≠ i := by
          rintro rfl
          rcases Table.get_set_some hem with ⟨-,rfl⟩ | ⟨hne,-⟩
          · exact (List.nodup_cons.mp (h.once j _ hi)).1 hd
          · exact hne rfl
        have hle := hop _ hi d rfl j old hj (hsub.subset hd)
        rw [hev] at hle
        exact lt_of_le_of_ne hle (fun heq => hne (h.distinct j i old _ hj hi (hev ▸ heq.symm)))
    · exact hev ▸ h.ahead j old hj d (hsub.subset hd) ch' hch' x hx

lemma Sequenced.subscribeSince (h : s.Sequenced) {c : ℕ} (hc : s.channels.get c = none)
    (sinceSeq bufSize : ℕ) :
    ({ s with
      channels := s.channels.set c (.replay s.log.events sinceSeq bufSize)
      subs := s.subs ++ [c] } : EventStream).Sequenced := by
  have hsub : (EventChannel.replay s.log.events sinceSeq bufSize).content.Sublist s.log.events := by
    rw [content_replay]
    exact (List.take_sublist _ _).trans List.filter_sublist
  have happended : ∀ e, Appended { s with
      channels := s.channels.set c (.replay s.log.events sinceSeq bufSize)
      subs := s.subs ++ [c] } e → s.Appended e := by
    rintro e (he | he | ⟨d,ch,hch,he⟩)
    · exact .inl he
    · exact .inr (.inl he)
    · rcases Table.get_set_some hch with ⟨-,rfl⟩ | ⟨-,hch⟩
      · exact .inl (hsub.subset he)
      · exact .inr (.inr ⟨d,ch,hch,he⟩)
  have hnew : c ∉ s.subs := fun hmem => by simpa [hc] using h.subs_known c hmem
  refine ⟨h.numbers,h.distinct,h.once,?_,fun d hd => ?_,
    fun j em hem d hd => Table.isSome_get_set _ _ (h.known j em hem d hd),
    fun e he => h.bound e (happended e he),fun j evt hj e he => h.waiting j evt hj e (happended e he),
    h.events,fun d ch hch => ?_,fun j em hem d hd ch hch x hx => ?_⟩
  · exact h.subs_once.append (List.nodup_singleton c) (by simpa using hnew)
  · rcases List.mem_append.mp hd with hd | hd
    · exact Table.isSome_get_set _ _ (h.subs_known d hd)
    · rw [List.mem_singleton.mp hd,Table.get_set_self]
      rfl
  · rcases Table.get_set_some hch with ⟨-,rfl⟩ | ⟨-,hch⟩
    · exact h.events.sublist hsub
    · exact h.content d ch hch
  · rcases Table.get_set_some hch with ⟨rfl,-⟩ | ⟨-,hch⟩
    · have hknown := h.known j em hem d hd
      simp [hc] at hknown
    · exact h.ahead j em hem d hd ch hch x hx

theorem Sequenced.step (h : s.Sequenced) (hop : s.InOrder op) (hs : s.step op = some t) : t.Sequenced := by
  cases op with
  | begin i now lookup evt =>
    obtain ⟨hi,rfl⟩ := step_begin hs
    exact h.begin hi (EventLog.seq_stamp _ _ _ _)
  | append i =>
    obtain ⟨evt,hi,rfl⟩ := step_append hs
    exact h.append hi hop
  | send i waiting =>
    rcases step_send hs with ⟨evt,-,rfl⟩ | ⟨evt,c,cs,ch,hi,hch,⟨-,rfl⟩ | ⟨-,rfl⟩⟩
    · exact h.finish i
    · exact h.of_sameContent (fun _ => rfl) h.subs_once (fun _ hc => hc)
    · exact h.sendTo hi hch hop
  | subscribeSince c sinceSeq bufSize =>
    obtain ⟨hc,rfl⟩ := step_subscribeSince hs
    exact h.subscribeSince hc sinceSeq bufSize
  | receive c =>
    obtain ⟨ch,e,rest,hch,hb,rfl⟩ := step_receive hs
    exact h.of_sameContent (sameContent_receive hch hb) h.subs_once (fun _ hc => hc)
  | unsubscribe c =>
    obtain rfl | ⟨-,rfl⟩ := step_unsubscribe hs
    · exact h
    · exact h.of_sameContent (sameContent_foldl_closeChannel s.channels [c]) (h.subs_once.erase c)
        (fun _ hd => List.mem_of_mem_erase hd)
  | close =>
    rw [step_close hs]
    exact h.of_sameContent (sameContent_foldl_closeChannel s.channels s.subs) List.nodup_nil (by simp)

/-- Every buffered event after the number a channel began with is on the channel or on its way to
it, unless the channel was closed before. -/
structure Covered (s : EventStream) : Prop where
  left : ∀ c ch, s.channels.get c = some ch → c ∉ s.subs → ch.closed = true
  events : ∀ c ch, s.channels.get c = some ch → ∀ e ∈ s.log.events, ch.sinceSeq < e.seq →
    e ∈ ch.content ∨ (∃ i em, s.emitters.get i = some em ∧ em.event = e ∧ c ∈ em.targets) ∨
      (ch.closed = true ∧ ∀ x ∈ ch.content, x.seq < e.seq)

lemma covered_start (maxSize : ℕ) : (start maxSize).Covered := by
  constructor <;> simp [start]

lemma sinceSeq_offer (waiting : Bool) (ch : EventChannel) (evt : ProcessEvent) :
    (ch.offer waiting evt).sinceSeq = ch.sinceSeq := by
  unfold EventChannel.offer
  split_ifs <;> rfl

lemma sinceSeq_replay (events : List ProcessEvent) (sinceSeq bufSize : ℕ) :
    (EventChannel.replay events sinceSeq bufSize).sinceSeq = sinceSeq := by
  have h : ∀ (l : List ProcessEvent) (ch : EventChannel),
      (l.foldl (EventChannel.offer false) ch).sinceSeq = ch.sinceSeq := by
    intro l
    induction l with
    | nil => exact fun _ => rfl
    | cons e l ih => exact fun ch => (ih _).trans (sinceSeq_offer false ch e)
  exact h _ _

/-- A replay that fits is complete. -/
lemma mem_content_replay {bufSize sinceSeq : ℕ} (hfits : (s.log.since sinceSeq).length ≤ bufSize)
    {e : ProcessEvent} (he : e ∈ s.log.events) (hlt : sinceSeq < e.seq) :
    e ∈ (EventChannel.replay s.log.events sinceSeq bufSize).content := by
  unfold EventLog.since at hfits
  rw [content_replay,List.take_of_length_le hfits]
  simp [he,hlt]

/-- What is on its way stays so, whatever becomes of the emitters that have nothing to send. -/
lemma Covered.of_emitters (h : s.Covered) {log : EventLog} {emitters : Table ℕ Emitter}
    (hlog : log.events = s.log.events)
    (hkeep : ∀ j em c, s.emitters.get j = some em → c ∈ em.targets → emitters.get j = some em) :
    ({ s with log := log, emitters := emitters } : EventStream).Covered := by
  refine ⟨h.left,fun c ch hch e he hlt => ?_⟩
  rcases h.events c ch hch e (hlog ▸ he) hlt with hin | ⟨j,em,hj,hev,hc⟩ | hclosed
  · exact .inl hin
  · exact .inr (.inl ⟨j,em,hkeep j em c hj hc,hev,hc⟩)
  · exact .inr (.inr hclosed)

lemma Covered.append (h : s.Covered) (hseq : s.Sequenced) {i : ℕ} {evt : ProcessEvent}
    (hi : s.emitters.get i = some (.numbered evt)) :
    ({ s with
      log := s.log.append evt
      emitters := s.emitters.set i (.sending evt s.subs) } : EventStream).Covered := by
  have hsame : ({ s with emitters := s.emitters.set i (.sending evt s.subs) } : EventStream).Covered := by
    refine h.of_emitters rfl (fun j em c hj hc => ?_)
    have hne : j ≠ i := by
      rintro rfl
      obtain rfl : em = .numbered evt := Option.some.inj (hj.symm.trans hi)
      cases hc
    exact (Table.get_set_of_ne hne).trans hj
  refine ⟨h.left,fun c ch hch e he hlt => ?_⟩
  rcases mem_append_events he with he | rfl
  · exact hsame.events c ch hch e he hlt
  · by_cases hc : c ∈ s.subs
    · exact .inr (.inl ⟨i,_,Table.get_set_self _ _ _,rfl,hc⟩)
    · exact .inr (.inr ⟨h.left c ch hch hc,
        fun x hx => hseq.waiting i e hi x (.inr (.inr ⟨c,ch,hch,hx⟩))⟩)

lemma Covered.sendTo (h : s.Covered) {i c : ℕ} {waiting : Bool} {evt : ProcessEvent} {cs : List ℕ}
    {ch : EventChannel} (hi : s.emitters.get i = some (.sending evt (c::cs)))
    (hch : s.channels.get c = some ch) (hopen : ch.closed = false) (htakes : ch.Takes waiting) :
    ({ s with
      channels := s.channels.set c (ch.offer waiting evt)
      emitters := s.emitters.set i (.sending evt cs) } : EventStream).Covered := by
  obtain ⟨-,hcontent⟩ | ⟨hnot,-⟩ := content_offer ch waiting evt
  swap
  · exact absurd htakes hnot
  refine ⟨fun d ch' hch' hd => ?_,fun d ch' hch' e he hlt => ?_⟩
  · rcases Table.get_set_some hch' with ⟨rfl,rfl⟩ | ⟨-,hch'⟩
    · rw [closed_offer]
      exact h.left d ch hch hd
    · exact h.left d ch' hch' hd
  · rcases Table.get_set_some hch' with ⟨rfl,rfl⟩ | ⟨hdc,hch'⟩
    · rw [sinceSeq_offer] at hlt
      rw [hcontent]
      rcases h.events d ch hch e he hlt with hin | ⟨j,em,hj,hev,hd⟩ | ⟨hclosed,-⟩
      · exact .inl (List.mem_append_left _ hin)
      · by_cases hji : j = i
        · subst hji
          obtain rfl : em = .sending evt (d::cs) := Option.some.inj (hj.symm.trans hi)
          exact .inl (by simp [← hev,Emitter.event])
        · exact .inr (.inl ⟨j,em,(Table.get_set_of_ne hji).trans hj,hev,hd⟩)
      · rw [hopen] at hclosed
        cases hclosed
    · rcases h.events d ch' hch' e he hlt with hin | ⟨j,em,hj,hev,hd⟩ | hclosed
      · exact .inl hin
      · by_cases hji : j = i
        · subst hji
          obtain rfl : em = .sending evt (c::cs) := Option.some.inj (hj.symm.trans hi)
          refine .inr (.inl ⟨j,_,Table.get_set_self _ _ _,hev,?_⟩)
          exact (List.mem_cons.mp hd).resolve_left hdc
        · exact .inr (.inl ⟨j,em,(Table.get_set_of_ne hji).trans hj,hev,hd⟩)
      · exact .inr (.inr hclosed)

lemma Covered.closeAll (h : s.Covered) (cs subs : List ℕ) (hsubs : ∀ c ∈ s.subs, c ∉ cs → c ∈ subs) :
    ({ s with channels := cs.foldl closeChannel s.channels, subs := subs } : EventStream).Covered := by
  have hold : ∀ c ch', (cs.foldl closeChannel s.channels).get c = some ch' → ∃ ch,
      s.channels.get c = some ch ∧ ch' = if c ∈ cs then ch.close else ch := by
    intro c ch' hch'
    rw [get_foldl_closeChannel] at hch'
    obtain ⟨ch,hch,heq⟩ := Option.map_eq_some_iff.mp hch'
    exact ⟨ch,hch,heq.symm⟩
  refine ⟨fun c ch' hch' hc => ?_,fun c ch' hch' e he hlt => ?_⟩
  · obtain ⟨ch,hch,rfl⟩ := hold c ch' hch'
    split_ifs with hmem
    · rfl
    · exact h.left c ch hch (fun hin => hc (hsubs c hin hmem))
  · obtain ⟨ch,hch,rfl⟩ := hold c ch' hch'
    have hcontent : (if c ∈ cs then ch.close else ch).content = ch.content := by split_ifs <;> rfl
    have hsince : (if c ∈ cs then ch.close else ch).sinceSeq = ch.sinceSeq := by split_ifs <;> rfl
    rw [hcontent]
    rcases h.events c ch hch e he (hsince ▸ hlt) with hin | hflight | ⟨hclosed,hx⟩
    · exact .inl hin
    · exact .inr (.inl hflight)
    · refine .inr (.inr ⟨?_,hx⟩)
      split_ifs
      · rfl
      · exact hclosed

theorem Covered.step (h : s.Covered) (hseq : s.Sequenced) (hfits : s.Fits op) (hs : s.step op = some t) :
    t.Covered := by
  cases op with
  | begin i now lookup evt =>
    obtain ⟨hi,rfl⟩ := step_begin hs
    refine h.of_emitters rfl (fun j em c hj _ => ?_)
    have hne : j ≠ i := by
      rintro rfl
      rw [hi] at hj
      cases hj
    exact (Table.get_set_of_ne hne).trans hj
  | append i =>
    obtain ⟨evt,hi,rfl⟩ := step_append hs
    exact h.append hseq hi
  | send i waiting =>
    rcases step_send hs with ⟨evt,hi,rfl⟩ | ⟨evt,c,cs,ch,hi,hch,⟨-,rfl⟩ | ⟨hopen,rfl⟩⟩
    · refine h.of_emitters rfl (fun j em c hj hc => ?_)
      have hne : j ≠ i := by
        rintro rfl
        obtain rfl : em = .sending evt [] := Option.some.inj (hj.symm.trans hi)
        cases hc
      exact (Table.get_erase_of_ne hne).trans hj
    · exact ⟨h.left,h.events⟩
    · exact h.sendTo hi hch hopen (hfits _ hi c rfl ch hch)
  | subscribeSince c sinceSeq bufSize =>
    obtain ⟨hc,rfl⟩ := step_subscribeSince hs
    refine ⟨fun d ch hch hd => ?_,fun d ch hch e he hlt => ?_⟩
    · rcases Table.get_set_some hch with ⟨rfl,-⟩ | ⟨-,hch⟩
      · exact absurd (by simp) hd
      · exact h.left d ch hch (fun hin => hd (List.mem_append_left _ hin))
    · rcases Table.get_set_some hch with ⟨-,rfl⟩ | ⟨-,hch⟩
      · rw [sinceSeq_replay] at hlt
        exact .inl (mem_content_replay hfits he hlt)
      · exact h.events d ch hch e he hlt
  | receive c =>
    obtain ⟨ch,e',rest,hch,hb,rfl⟩ := step_receive hs
    have hcontent : ({ ch with received := ch.received ++ [e'], buffer := rest } : EventChannel).content =
        ch.content := by simp [EventChannel.content,hb]
    refine ⟨fun d ch' hch' hd => ?_,fun d ch' hch' e he hlt => ?_⟩
    · rcases Table.get_set_some hch' with ⟨rfl,rfl⟩ | ⟨-,hch'⟩
      · exact h.left d ch hch hd
      · exact h.left d ch' hch' hd
    · rcases Table.get_set_some hch' with ⟨rfl,rfl⟩ | ⟨-,hch'⟩
      · rw [hcontent]
        exact h.events d ch hch e he hlt
      · exact h.events d ch' hch' e he hlt
  | unsubscribe c =>
    obtain rfl | ⟨-,rfl⟩ := step_unsubscribe hs
    · exact h
    · refine h.closeAll [c] _ (fun d hd hdc => ?_)
      exact (List.mem_erase_of_ne (by simpa using hdc)).mpr hd
  | close =>
    rw [step_close hs]
    exact h.closeAll s.subs [] (fun c hc hnot => absurd hc hnot)

/-- A client that was on channel `ch` asks for everything after the last number it received. -/
lemma Covered.reconnect (h : s.Covered) (hseq : s.Sequenced) {c bufSize : ℕ} {ch : EventChannel}
    (hch : s.channels.get c = some ch) (hfits : (s.log.since ch.lastSeq).length ≤ bufSize)
    {e : ProcessEvent} (he : e ∈ s.log.events) (hlt : ch.sinceSeq < e.seq) :
    e ∈ ch.received ∨ e ∈ (EventChannel.replay s.log.events ch.lastSeq bufSize).content := by
  by_cases hlast : ch.lastSeq < e.seq
  · exact .inr (mem_content_replay hfits he hlast)
  left
  obtain ⟨x,hx,hle⟩ : ∃ x ∈ ch.received, e.seq ≤ x.seq := by
    cases hr : ch.received.getLast? with
    | none =>
      rw [EventChannel.lastSeq,hr] at hlast
      exact absurd hlt hlast
    | some x =>
      rw [EventChannel.lastSeq,hr] at hlast
      exact ⟨x,List.mem_of_getLast? hr,Nat.not_lt.mp hlast⟩
  have hxc : x ∈ ch.content := List.mem_append_left _ hx
  rcases h.events c ch hch e he hlt with hin | ⟨j,em,hj,rfl,hc⟩ | ⟨-,hsmall⟩
  · rcases List.mem_append.mp hin with hin | hin
    · exact hin
    · have hless := (List.pairwise_append.mp (hseq.content c ch hch)).2.2 x hx e hin
      omega
  · have hless := hseq.ahead j em hj c hc ch hch x hxc
    omega
  · have hless := hsmall x hxc
    omega

/-- Where nobody overtakes, the buffer and every channel hold their events in order; where nothing
is dropped either, a client that reconnects with the last number it received has every buffered
event after the number it began with, or is given it now. -/
theorem increasing_of_run {maxSize : ℕ} {trace : List (Transition EventStream StreamOp)}
    (run : Run step (start maxSize) trace s) (hops : ∀ e ∈ trace, e.source.InOrder e.label) :
    Increasing s.log.events ∧ (∀ c ch, s.channels.get c = some ch → Increasing ch.content) ∧
    ((∀ e ∈ trace, e.source.Fits e.label) →
      ∀ c ch c' bufSize t, s.channels.get c = some ch →
        s.Fits (.subscribeSince c' ch.lastSeq bufSize) →
        s.step (.subscribeSince c' ch.lastSeq bufSize) = some t →
        ∀ e ∈ s.log.events, ch.sinceSeq < e.seq →
          e ∈ ch.received ∨ ∃ ch', t.channels.get c' = some ch' ∧ e ∈ ch'.content) := by
  obtain ⟨-,hseq⟩ := run.invariant_of_allowed
    (fun s op t (h : s.Sequenced) hop hs => h.step hop hs) (sequenced_start maxSize) hops
  refine ⟨hseq.events,hseq.content,fun hfits c ch c' bufSize t hch hroom hs e he hlt => ?_⟩
  obtain ⟨-,-,hcov⟩ := run.invariant_of_allowed
    (fun s op t (h : s.Sequenced ∧ s.Covered) (hop : s.InOrder op ∧ s.Fits op) hs =>
      ⟨h.1.step hop.1 hs,h.2.step h.1 hop.2 hs⟩)
    ⟨sequenced_start maxSize,covered_start maxSize⟩ (fun e he => ⟨hops e he,hfits e he⟩)
  obtain ⟨-,rfl⟩ := step_subscribeSince hs
  rcases hcov.reconnect hseq hch hroom he hlt with hin | hin
  · exact .inl hin
  · exact .inr ⟨_,Table.get_set_self _ _ _,hin⟩

/-- Two events one after the other; the subscriber receives the first of them. -/
def oneReceived : List StreamOp :=
  [.subscribeSince 0 0 256,.begin 0 0 none exampleEvent,.append 0,.begin 1 0 none exampleEvent,
    .send 0 false,.append 1,.send 1 false,.receive 0]

theorem increasing_of_run_oneReceived : ∃ s t ch, exec step oneReceived (start 4096) = some s ∧
    s.channels.get 0 = some ch ∧ s.step (.subscribeSince 1 ch.lastSeq 256) = some t ∧
    Increasing s.log.events ∧
    ∀ e ∈ s.log.events, e ∈ ch.received ∨ ∃ ch', t.channels.get 1 = some ch' ∧ e ∈ ch'.content := by
  obtain ⟨s,hs⟩ : ∃ s, exec step oneReceived (start 4096) = some s := ⟨_,rfl⟩
  obtain ⟨ch,hch,hsince⟩ : ∃ ch, s.channels.get 0 = some ch ∧ ch.sinceSeq = 0 := by
    cases hs
    exact ⟨_,rfl,rfl⟩
  obtain ⟨t,ht⟩ : ∃ t, s.step (.subscribeSince 1 ch.lastSeq 256) = some t := by
    cases hs
    cases hch
    exact ⟨_,rfl⟩
  have hroom : s.Fits (.subscribeSince 1 ch.lastSeq 256) := by
    cases hs
    cases hch
    decide
  have hpos : ∀ e ∈ s.log.events, 0 < e.seq := by
    cases hs
    decide
  obtain ⟨hevents,-,hreconnect⟩ := increasing_of_run (.of_exec hs) (by decide)
  refine ⟨s,t,ch,hs,hch,ht,hevents,fun e he => ?_⟩
  exact hreconnect (by decide) 0 ch 1 256 t hch hroom ht e he (hsince ▸ hpos e he)

/-- The emitter with the second number is first at the lock. -/
theorem emitters_overtake : ¬ ∀ (maxSize : ℕ) (trace : List (Transition EventStream StreamOp))
    (s : EventStream), Run step (start maxSize) trace s → Increasing s.log.events := by
  intro h
  obtain ⟨s,hs,hevents⟩ : ∃ s, exec step [.begin 0 0 none exampleEvent,.begin 1 0 none exampleEvent,
      .append 1,.append 0] (start 4096) = some s ∧ s.log.events.map ProcessEvent.seq = [2,1] :=
    ⟨_,rfl,by decide⟩
  have hsorted := List.pairwise_map.mpr (h 4096 _ s (.of_exec hs))
  rw [hevents] at hsorted
  exact absurd hsorted (by decide)

end EventStream
end HiveKernel
