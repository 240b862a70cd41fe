import HiveKernel.Lib.Channel
import HiveKernel.Lib.Run
import HiveKernel.Lib.Slice
import Mathlib.Data.List.Nodup

/-! Events of one topic. A publisher takes the slice of the subscribers under the lock and goes through it
afterwards, while others append to its array or shift it. -/
namespace HiveKernel
open Lib

/-- An event, with the call that published it. -/
structure BusEvent where
  call : ℕ
  source : ℕ
  payload : List UInt8
  timestamp : ℤ
  deriving DecidableEq, Repr

/-- A call of `Publish`: the slice that it has read, the next cell of it, and the channel that it is about to
send to. Who was subscribed at its start and whom it has served are recorded. -/
structure Publishing where
  event : BusEvent
  subs : Slice
  next : ℕ := 0
  hand : Option ℕ := none
  snapshot : List ℕ
  delivered : List ℕ := []
  dropped : List ℕ := []
  /-- at the end, those of the snapshot that are still subscribed -/
  stayed : List ℕ := []

structure EventBus where
  arrays : Arrays ℕ
  subs : Slice
  channels : Table ℕ (Channel BusEvent)
  /-- an `Unsubscribe` has removed this channel and is about to close it, with the lock -/
  closing : Option ℕ
  publishing : Table ℕ Publishing
  finished : Table ℕ Publishing
  /-- someone has sent on a closed channel -/
  crashed : Bool

inductive BusOp
  | subscribe (ch : ℕ) (bufSize : ℤ) (capacity : ℕ)
  | unsubscribe (ch : ℕ)
  | close
  | publish (call source : ℕ) (payload : List UInt8) (now : ℤ)
  | next (call : ℕ)
  | send (call : ℕ)
  | finish (call : ℕ)
  | receive (ch : ℕ)

namespace EventBus

def new : EventBus := ⟨.empty,⟨0,0⟩,.empty,none,.empty,.empty,false⟩

def subscribers (s : EventBus) : List ℕ := s.arrays.read s.subs

/-- A call of `Publish` when it has read the slice. -/
def begin (s : EventBus) (event : BusEvent) : Publishing :=
  { event := event, subs := s.subs, snapshot := s.subscribers }

/-- Send to the channel in hand, or drop the event. -/
def sendTo (s : EventBus) (call : ℕ) (p : Publishing) (ch : ℕ) (c : Channel BusEvent) : EventBus :=
  match c.trySend p.event with
  | .panic => { s with crashed := true }
  | .full =>
    { s with publishing := s.publishing.set call { p with hand := none, dropped := p.dropped++[ch] } }
  | .sent c =>
    { s with
      channels := s.channels.set ch c
      publishing := s.publishing.set call { p with hand := none, delivered := p.delivered++[ch] } }

/-- The first part of `Unsubscribe`, for a channel that is found. -/
def leave (s : EventBus) (ch : ℕ) : EventBus :=
  let (arrays,subs) := s.arrays.removeAt s.subs (s.subscribers.idxOf ch)
  { s with arrays := arrays, subs := subs, closing := some ch }

/-- Steps that need the lock wait for an `Unsubscribe` that has it. -/
def step (s : EventBus) (op : BusOp) : Option EventBus :=
  if s.crashed then none
  else match op with
    | .subscribe ch bufSize capacity =>
      if s.closing.isSome ∨ (s.channels.get ch).isSome then none
      else
        let (arrays,subs) := s.arrays.append s.subs ch capacity
        some { s with
          arrays := arrays
          subs := subs
          channels := s.channels.set ch (.make _ (if bufSize ≤ 0 then 32 else bufSize.toNat)) }
    | .unsubscribe ch =>
      if s.closing.isSome then none
      else if ch ∈ s.subscribers then some (s.leave ch)
      else some s
    | .close => match s.closing with
      | none => none
      | some ch => match s.channels.get ch with
        | none => none
        | some c => some { s with channels := s.channels.set ch c.close, closing := none }
    | .publish call source payload now =>
      if s.closing.isSome ∨ (s.publishing.get call).isSome ∨ (s.finished.get call).isSome then none
      else
        some { s with publishing := s.publishing.set call (s.begin ⟨call,source,payload,now⟩) }
    | .next call => match s.publishing.get call with
      | none => none
      | some p =>
        if p.hand.isSome ∨ p.subs.len ≤ p.next then none
        else match (s.arrays.cells p.subs.array)[p.next]? with
          | none => none
          | some ch => some { s with publishing := s.publishing.set call { p with hand := some ch, next := p.next+1 } }
    | .send call => match s.publishing.get call with
      | none => none
      | some p => match p.hand with
        | none => none
        | some ch => (s.channels.get ch).map (s.sendTo call p ch)
    | .finish call => match s.publishing.get call with
      | none => none
      | some p =>
        if p.hand.isSome ∨ p.next < p.subs.len then none
        else some { s with
          publishing := s.publishing.erase call
          finished := s.finished.set call { p with stayed := p.snapshot.filter (· ∈ s.subscribers) } }
    | .receive ch => match s.channels.get ch with
      | none => none
      | some c => c.receive.map fun c => { s with channels := s.channels.set ch c }

/-- Nobody has sent on a closed channel, and a call that has ended has sent its event once to every channel that was
subscribed all the time and that it has not found full. -/
structure Serves (s : EventBus) : Prop where
  safe : s.crashed = false
  once : ∀ call p, s.finished.get call = some p → ∀ ch ∈ p.stayed, ch ∉ p.dropped →
    ∃ c, s.channels.get ch = some c ∧ c.sent.filter (fun evt => evt.call = call) = [p.event]

/-- An `Unsubscribe` of the channel gets in the way of a publisher: it has the channel in hand or still comes to it,
or cells that it still has to read are in the array that is shifted, behind the channel. -/
def Disturbs (s : EventBus) (ch : ℕ) (p : Publishing) : Prop :=
  p.hand = some ch ∨ p.next < p.subs.len ∧
    (ch ∈ (s.arrays.read p.subs).drop p.next ∨
      p.subs.array = s.subs.array ∧ s.subscribers.idxOf ch < p.subs.len)

/-- A subscriber leaves without getting in the way of any publisher. -/
def LeavesQuietly (s : EventBus) : BusOp → Prop
  | .unsubscribe ch => ch ∈ s.subscribers → ∀ call p, s.publishing.get call = some p → ¬s.Disturbs ch p
  | _ => True

variable {s t : EventBus} {op : BusOp} {call : ℕ} {p : Publishing}

/-- The channel is open and nobody is about to close it. -/
def Live (s : EventBus) (ch : ℕ) : Prop :=
  s.closing ≠ some ch ∧ ∃ c, s.channels.get ch = some c ∧ c.closed = false

/-- A call of `Publish`, in progress or ended. -/
def record (s : EventBus) (call : ℕ) : Option Publishing :=
  match s.publishing.get call with
  | some p => some p
  | none => s.finished.get call

/-- What a channel has to hold of a call. -/
def due (s : EventBus) (call ch : ℕ) : List BusEvent :=
  match s.record call with
  | none => []
  | some p => if ch ∈ p.delivered then [p.event] else []

/-- The cells that a publisher still has to read are as they were at its start. -/
structure SeesSnapshot (s : EventBus) (p : Publishing) : Prop where
  valid : s.arrays.Valid p.subs
  read : s.arrays.read p.subs = p.snapshot
  inside : p.subs.array = s.subs.array → p.subs.len ≤ s.subs.len

structure Tracks (s : EventBus) (call : ℕ) (p : Publishing) : Prop where
  event : p.event.call = call
  nodup : p.snapshot.Nodup
  length : p.snapshot.length = p.subs.len
  sees : p.next < p.subs.len → s.SeesSnapshot p
  served : (p.delivered++p.dropped++p.hand.toList).Perm (p.snapshot.take p.next)
  live : ∀ ch, p.hand = some ch ∨ ch ∈ p.snapshot.drop p.next → s.Live ch
  known : ∀ ch ∈ p.snapshot, (s.channels.get ch).isSome

structure Ended (s : EventBus) (p : Publishing) : Prop where
  served : (p.delivered++p.dropped).Perm p.snapshot
  stayed : ∀ ch ∈ p.stayed, ch ∈ p.snapshot
  known : ∀ ch ∈ p.snapshot, (s.channels.get ch).isSome

structure Sound (s : EventBus) : Prop where
  safe : s.crashed = false
  valid : s.arrays.Valid s.subs
  nodup : s.subscribers.Nodup
  live : ∀ ch ∈ s.subscribers, s.Live ch
  publishing : ∀ call p, s.publishing.get call = some p → s.finished.get call = none ∧ s.Tracks call p
  finished : ∀ call p, s.finished.get call = some p → s.Ended p
  sent : ∀ call ch c, s.channels.get ch = some c → c.sent.filter (fun evt => evt.call = call) = s.due call ch

lemma sound_new : new.Sound where
  safe := rfl
  valid := Nat.zero_le _
  nodup := List.nodup_nil
  live _ h := by cases h
  publishing _ _ h := by cases h
  finished _ _ h := by cases h
  sent _ _ _ h := by cases h

lemma Sound.serves (h : s.Sound) : s.Serves := by
  refine ⟨h.safe,fun call p hp ch hch hdrop => ?_⟩
  obtain ⟨hserved,hstayed,hknown⟩ := h.finished call p hp
  have hin := hstayed ch hch
  obtain ⟨c,hc⟩ := Option.isSome_iff_exists.mp (hknown ch hin)
  refine ⟨c,hc,(h.sent call ch c hc).trans ?_⟩
  have hdelivered : ch ∈ p.delivered :=
    (List.mem_append.mp (hserved.mem_iff.mpr hin)).resolve_right hdrop
  have hrecord : s.record call = some p := by
    unfold record
    cases hrun : s.publishing.get call with
    | none => exact hp
    | some q => exact absurd ((h.publishing call q hrun).1.symm.trans hp) (by simp)
  simp only [due,hrecord]
  exact if_pos hdelivered

lemma Tracks.mono (h : s.Tracks call p) (hsees : p.next < p.subs.len → s.SeesSnapshot p → t.SeesSnapshot p)
    (hlive : ∀ ch, p.hand = some ch ∨ ch ∈ p.snapshot.drop p.next → s.Live ch → t.Live ch)
    (hknown : ∀ ch, (s.channels.get ch).isSome → (t.channels.get ch).isSome) : t.Tracks call p where
  event := h.event
  nodup := h.nodup
  length := h.length
  sees hnext := hsees hnext (h.sees hnext)
  served := h.served
  live ch hch := hlive ch hch (h.live ch hch)
  known ch hch := hknown ch (h.known ch hch)

lemma Ended.mono (h : s.Ended p) (hknown : ∀ ch, (s.channels.get ch).isSome → (t.channels.get ch).isSome) :
    t.Ended p :=
  ⟨h.served,h.stayed,fun ch hch => hknown ch (h.known ch hch)⟩

/-- Only known channels were served. -/
lemma Sound.known_of_delivered (h : s.Sound) (hp : s.record call = some p) {ch : ℕ} (hch : ch ∈ p.delivered) :
    (s.channels.get ch).isSome := by
  unfold record at hp
  cases hrun : s.publishing.get call with
  | none =>
    simp only [hrun] at hp
    have hended := h.finished call p hp
    exact hended.known ch (hended.served.mem_iff.mp (by simp [hch]))
  | some q =>
    simp only [hrun,Option.some.injEq] at hp
    subst hp
    have htracks := (h.publishing call q hrun).2
    exact htracks.known ch (List.mem_of_mem_take (htracks.served.mem_iff.mp (by simp [hch])))

lemma Sound.subscribe (h : s.Sound) (hfree : s.closing = none) {ch : ℕ} (hnew : s.channels.get ch = none)
    (size capacity : ℕ) :
    Sound { s with
      arrays := (s.arrays.append s.subs ch capacity).1
      subs := (s.arrays.append s.subs ch capacity).2
      channels := s.channels.set ch (.make _ size) } := by
  have hne : ∀ {k : ℕ}, (s.channels.get k).isSome → k ≠ ch := by
    rintro k hk rfl
    rw [hnew] at hk
    cases hk
  have hlive : ∀ k, s.Live k → Live { s with
      arrays := (s.arrays.append s.subs ch capacity).1
      subs := (s.arrays.append s.subs ch capacity).2
      channels := s.channels.set ch (.make _ size) } k := by
    rintro k ⟨hclosing,c,hc,hopen⟩
    exact ⟨hclosing,c,(Table.get_set_of_ne (hne (by simp [hc]))).trans hc,hopen⟩
  have hknown : ∀ k, (s.channels.get k).isSome → ((s.channels.set ch (.make _ size)).get k).isSome :=
    fun k hk => Table.isSome_get_set ch _ hk
  have hread := Arrays.read_append h.valid ch capacity
  have hout : ch ∉ s.subscribers := by
    intro hin
    obtain ⟨-,c,hc,-⟩ := h.live ch hin
    cases hnew.symm.trans hc
  refine ⟨h.safe,Arrays.valid_append h.valid ch capacity,?_,?_,?_,?_,?_⟩
  · unfold subscribers
    rw [hread]
    refine List.nodup_append.mpr ⟨h.nodup,List.nodup_singleton ch,?_⟩
    rintro a ha b hb rfl
    exact hout (List.mem_singleton.mp hb ▸ ha)
  · intro k hk
    unfold subscribers at hk
    rw [hread] at hk
    rcases List.mem_append.mp hk with hk | hk
    · exact hlive k (h.live k hk)
    · rw [List.mem_singleton.mp hk]
      exact ⟨by simp [hfree],_,Table.get_set_self _ _ _,rfl⟩
  · intro call p hp
    obtain ⟨hfin,htracks⟩ := h.publishing call p hp
    refine ⟨hfin,htracks.mono ?_ (fun k _ => hlive k) hknown⟩
    intro hnext hsees
    refine ⟨hsees.valid.append h.valid ch capacity,?_,?_⟩
    · exact (Arrays.read_append_other ch capacity hsees.inside h.valid hsees.valid).trans hsees.read
    · intro harray
      rcases Arrays.append_cases s.arrays s.subs ch capacity with ⟨b,hb,he,-⟩ | ⟨c,he⟩
      · rw [he] at harray ⊢
        exact (hsees.inside harray).trans (Nat.le_succ _)
      · rw [he] at harray
        have hlen := hsees.valid
        rw [Arrays.Valid,harray,Arrays.cells_of_le le_rfl] at hlen
        exact absurd (hnext.trans_le hlen) (Nat.not_lt_zero _)
  · exact fun call p hp => (h.finished call p hp).mono hknown
  · intro call k c hc
    rcases Table.get_set_some hc with ⟨rfl,rfl⟩ | ⟨-,hc⟩
    · symm
      change s.due call k = []
      unfold due
      cases hrec : s.record call with
      | none => rfl
      | some p =>
        simp only
        rw [if_neg]
        intro hin
        exact hne (h.known_of_delivered hrec hin) rfl
    · exact h.sent call k c hc

lemma subscribers_leave (h : s.arrays.Valid s.subs) {ch : ℕ} (hin : ch ∈ s.subscribers) :
    (s.leave ch).subscribers = s.subscribers.erase ch := by
  have hidx : s.subscribers.idxOf ch < s.subs.len := by
    rw [← Arrays.length_read h]
    exact List.idxOf_lt_length_of_mem hin
  rw [List.erase_eq_eraseIdx_of_idxOf rfl]
  exact Arrays.read_removeAt h hidx

lemma Sound.leave (h : s.Sound) {ch : ℕ} (hin : ch ∈ s.subscribers)
    (hquiet : ∀ call p, s.publishing.get call = some p → ¬s.Disturbs ch p) : (s.leave ch).Sound := by
  have hidx : s.subscribers.idxOf ch < s.subs.len := by
    rw [← Arrays.length_read h.valid]
    exact List.idxOf_lt_length_of_mem hin
  have hlive : ∀ k, k ≠ ch → s.Live k → (s.leave ch).Live k := by
    rintro k hk ⟨-,hopen⟩
    exact ⟨fun he => hk (Option.some.inj he).symm,hopen⟩
  refine ⟨h.safe,?_,?_,?_,?_,fun call p hp => (h.finished call p hp).mono (fun _ hk => hk),h.sent⟩
  · have hvalid := Arrays.Valid.removeAt h.valid h.valid hidx
    obtain ⟨b,hb,he,-⟩ := Arrays.removeAt_eq h.valid hidx
    unfold EventBus.leave
    rw [he] at hvalid ⊢
    exact (Nat.sub_le _ _).trans hvalid
  · rw [subscribers_leave h.valid hin]
    exact h.nodup.erase ch
  · intro k hk
    rw [subscribers_leave h.valid hin,h.nodup.mem_erase_iff] at hk
    exact hlive k hk.1 (h.live k hk.2)
  · intro call p hp
    obtain ⟨hfin,htracks⟩ := h.publishing call p hp
    have hno := hquiet call p hp
    unfold Disturbs at hno
    push Not at hno
    refine ⟨hfin,htracks.mono ?_ ?_ (fun _ hk => hk)⟩
    · intro hnext hsees
      obtain ⟨-,hbefore⟩ := hno.2 hnext
      refine ⟨hsees.valid.removeAt h.valid hidx,?_,?_⟩
      · exact (Arrays.read_removeAt_other h.valid hidx hbefore).trans hsees.read
      · obtain ⟨b,hb,he,-⟩ := Arrays.removeAt_eq h.valid hidx
        unfold EventBus.leave
        rw [he]
        intro harray
        have hle := hbefore harray
        change p.subs.len ≤ s.subs.len-1
        omega
    · intro k hk
      apply hlive
      rintro rfl
      rcases hk with hk | hk
      · exact hno.1 hk
      · have hpos := List.length_pos_of_mem hk
        rw [List.length_drop,htracks.length] at hpos
        have hnext : p.next < p.subs.len := by omega
        obtain ⟨hleft,-⟩ := hno.2 hnext
        rw [(htracks.sees hnext).read] at hleft
        exact hleft hk

lemma Sound.close (h : s.Sound) {ch : ℕ} {c : Channel BusEvent} (hclosing : s.closing = some ch)
    (hc : s.channels.get ch = some c) : Sound { s with channels := s.channels.set ch c.close, closing := none } := by
  have hlive : ∀ k, s.Live k → Live { s with channels := s.channels.set ch c.close, closing := none } k := by
    rintro k ⟨hk,hopen⟩
    refine ⟨by simp,?_⟩
    have hne : k ≠ ch := by
      rintro rfl
      exact hk hclosing
    obtain ⟨d,hd,hopen⟩ := hopen
    exact ⟨d,(Table.get_set_of_ne hne).trans hd,hopen⟩
  have hknown : ∀ k, (s.channels.get k).isSome → ((s.channels.set ch c.close).get k).isSome :=
    fun k hk => Table.isSome_get_set ch _ hk
  refine ⟨h.safe,h.valid,h.nodup,fun k hk => hlive k (h.live k hk),?_,?_,?_⟩
  · intro call p hp
    obtain ⟨hfin,htracks⟩ := h.publishing call p hp
    exact ⟨hfin,htracks.mono (fun _ hsees => ⟨hsees.valid,hsees.read,hsees.inside⟩) (fun k _ => hlive k) hknown⟩
  · exact fun call p hp => (h.finished call p hp).mono hknown
  · intro call k d hd
    rcases Table.get_set_some hd with ⟨rfl,rfl⟩ | ⟨-,hd⟩
    · exact h.sent call k c hc
    · exact h.sent call k d hd

lemma record_set (s : EventBus) (call : ℕ) (p : Publishing) (call' : ℕ) :
    ({ s with publishing := s.publishing.set call p } : EventBus).record call' =
      if call' = call then some p else s.record call' := by
  unfold record
  simp only [Table.get_set]
  split_ifs <;> rfl

lemma due_set (s : EventBus) (call : ℕ) (p : Publishing) (call' ch : ℕ) :
    ({ s with publishing := s.publishing.set call p } : EventBus).due call' ch =
      if call' = call then if ch ∈ p.delivered then [p.event] else [] else s.due call' ch := by
  rw [due,record_set]
  by_cases hc : call' = call
  · rw [if_pos hc,if_pos hc]
  · rw [if_neg hc,if_neg hc]
    rfl

/-- A publisher that has served the same channels as before. -/
lemma Sound.setPublishing (h : s.Sound) (hfin : s.finished.get call = none) (htracks : s.Tracks call p)
    (hdue : ∀ ch, s.due call ch = if ch ∈ p.delivered then [p.event] else []) :
    Sound { s with publishing := s.publishing.set call p } := by
  refine ⟨h.safe,h.valid,h.nodup,h.live,?_,fun c q hq => (h.finished c q hq).mono (fun _ hk => hk),?_⟩
  · intro c q hq
    rcases Table.get_set_some hq with ⟨rfl,rfl⟩ | ⟨-,hq⟩
    · refine ⟨hfin,htracks.mono ?_ (fun _ _ hlive => hlive) (fun _ hk => hk)⟩
      exact fun _ hsees => ⟨hsees.valid,hsees.read,hsees.inside⟩
    · obtain ⟨hfin',htracks'⟩ := h.publishing c q hq
      refine ⟨hfin',htracks'.mono ?_ (fun _ _ hlive => hlive) (fun _ hk => hk)⟩
      exact fun _ hsees => ⟨hsees.valid,hsees.read,hsees.inside⟩
  · intro c ch d hd
    rw [h.sent c ch d hd,due_set]
    by_cases hc : c = call
    · rw [if_pos hc,hc,hdue ch]
    · rw [if_neg hc]

lemma due_of_publishing (hp : s.publishing.get call = some p) (ch : ℕ) :
    s.due call ch = if ch ∈ p.delivered then [p.event] else [] := by
  simp only [due,record,hp]

lemma Sound.publish (h : s.Sound) (hrun : s.publishing.get call = none)
    (hfin : s.finished.get call = none) (source : ℕ) (payload : List UInt8) (now : ℤ) :
    Sound { s with publishing := s.publishing.set call (s.begin ⟨call,source,payload,now⟩) } := by
  apply h.setPublishing hfin
  · refine ⟨rfl,h.nodup,Arrays.length_read h.valid,fun _ => ⟨h.valid,rfl,fun _ => le_rfl⟩,?_,?_,?_⟩
    · simp [begin]
    · intro ch hch
      rcases hch with hch | hch
      · cases hch
      · exact h.live ch hch
    · intro ch hch
      obtain ⟨-,c,hc,-⟩ := h.live ch hch
      simp [hc]
  · intro ch
    simp [due,record,hrun,hfin,begin]

/-- The cell that is read is the one of the snapshot. -/
lemma Sound.next (h : s.Sound) (hp : s.publishing.get call = some p) (hhand : p.hand = none)
    (hnext : p.next < p.subs.len) {ch : ℕ} (hcell : (s.arrays.cells p.subs.array)[p.next]? = some ch) :
    Sound { s with publishing := s.publishing.set call { p with hand := some ch, next := p.next+1 } } := by
  obtain ⟨hfin,htracks⟩ := h.publishing call p hp
  have hsees := htracks.sees hnext
  have hget : p.snapshot[p.next]? = some ch := by
    rw [← hsees.read,Arrays.read,List.getElem?_take_of_lt hnext]
    exact hcell
  have hdrop : p.snapshot.drop p.next = ch::p.snapshot.drop (p.next+1) := by
    obtain ⟨hlt,he⟩ := List.getElem?_eq_some_iff.mp hget
    rw [← he]
    exact List.drop_eq_getElem_cons hlt
  apply h.setPublishing hfin
  · refine ⟨htracks.event,htracks.nodup,htracks.length,?_,?_,?_,htracks.known⟩
    · exact fun _ => ⟨hsees.valid,hsees.read,hsees.inside⟩
    · have hserved := htracks.served
      rw [hhand] at hserved
      simp only [Option.toList_none,List.append_nil] at hserved
      rw [List.take_add_one,hget]
      exact hserved.append_right [ch]
    · intro k hk
      apply htracks.live k
      rw [hdrop]
      rcases hk with hk | hk
      · cases hk
        exact .inr List.mem_cons_self
      · exact .inr (List.mem_cons_of_mem ch hk)
  · exact fun k => (due_of_publishing hp k).trans rfl

/-- The channel in hand was not served before. -/
lemma Tracks.hand_fresh (h : s.Tracks call p) {ch : ℕ} (hhand : p.hand = some ch) : ch ∉ p.delivered := by
  have hnodup : (p.delivered++p.dropped++p.hand.toList).Nodup :=
    h.served.nodup_iff.mpr (h.nodup.sublist (List.take_sublist _ _))
  rw [hhand] at hnodup
  intro hin
  exact (List.nodup_append.mp hnodup).2.2 ch (by simp [hin]) ch (by simp) rfl

lemma Sound.drop (h : s.Sound) (hp : s.publishing.get call = some p) {ch : ℕ} (hhand : p.hand = some ch) :
    Sound { s with publishing := s.publishing.set call { p with hand := none, dropped := p.dropped++[ch] } } := by
  obtain ⟨hfin,htracks⟩ := h.publishing call p hp
  apply h.setPublishing hfin
  · refine ⟨htracks.event,htracks.nodup,htracks.length,?_,?_,?_,htracks.known⟩
    · intro hnext
      have hsees := htracks.sees hnext
      exact ⟨hsees.valid,hsees.read,hsees.inside⟩
    · have hserved := htracks.served
      rw [hhand] at hserved
      simpa using hserved
    · intro k hk
      rcases hk with hk | hk
      · cases hk
      · exact htracks.live k (.inr hk)
  · exact fun k => (due_of_publishing hp k).trans rfl

/-- The event is in the channel, and nobody else is affected. -/
lemma Sound.deliver (h : s.Sound) (hp : s.publishing.get call = some p) {ch : ℕ} (hhand : p.hand = some ch)
    {c : Channel BusEvent} (hc : s.channels.get ch = some c) :
    Sound { s with
      channels := s.channels.set ch (c.push p.event)
      publishing := s.publishing.set call { p with hand := none, delivered := p.delivered++[ch] } } := by
  obtain ⟨hfin,htracks⟩ := h.publishing call p hp
  have hlive : ∀ k, s.Live k → Live { s with
      channels := s.channels.set ch (c.push p.event)
      publishing := s.publishing.set call { p with hand := none, delivered := p.delivered++[ch] } } k := by
    rintro k ⟨hclosing,d,hd,hopen⟩
    refine ⟨hclosing,?_⟩
    by_cases hk : k = ch
    · subst hk
      obtain rfl := Option.some.inj (hc.symm.trans hd)
      exact ⟨_,Table.get_set_self _ _ _,hopen⟩
    · exact ⟨d,(Table.get_set_of_ne hk).trans hd,hopen⟩
  have hknown : ∀ k, (s.channels.get k).isSome → ((s.channels.set ch (c.push p.event)).get k).isSome :=
    fun k hk => Table.isSome_get_set ch _ hk
  refine ⟨h.safe,h.valid,h.nodup,fun k hk => hlive k (h.live k hk),?_,fun c q hq => (h.finished c q hq).mono hknown,?_⟩
  · intro i q hq
    rcases Table.get_set_some hq with ⟨rfl,rfl⟩ | ⟨-,hq⟩
    · refine ⟨hfin,htracks.event,htracks.nodup,htracks.length,?_,?_,?_,fun k hk => hknown k (htracks.known k hk)⟩
      · intro hnext
        have hsees := htracks.sees hnext
        exact ⟨hsees.valid,hsees.read,hsees.inside⟩
      · have hserved := htracks.served
        rw [hhand] at hserved
        simp only [Option.toList_none,List.append_nil,List.append_assoc]
        simp only [Option.toList_some,List.append_assoc] at hserved
        exact (List.Perm.append_left _ List.perm_append_comm).trans hserved
      · intro k hk
        rcases hk with hk | hk
        · cases hk
        · exact hlive k (htracks.live k (.inr hk))
    · obtain ⟨hfin',htracks'⟩ := h.publishing i q hq
      refine ⟨hfin',htracks'.mono ?_ (fun k _ => hlive k) hknown⟩
      exact fun _ hsees => ⟨hsees.valid,hsees.read,hsees.inside⟩
  · intro i k d hd
    have hnew : ({ s with
        channels := s.channels.set ch (c.push p.event)
        publishing := s.publishing.set call { p with hand := none, delivered := p.delivered++[ch] } } :
          EventBus).due i k =
        if i = call then if k ∈ p.delivered++[ch] then [p.event] else [] else s.due i k :=
      due_set s call { p with hand := none, delivered := p.delivered++[ch] } i k
    rw [hnew]
    by_cases hi : i = call
    · subst hi
      rw [if_pos rfl]
      have hold := due_of_publishing hp k
      rcases Table.get_set_some hd with ⟨rfl,rfl⟩ | ⟨hne,hd⟩
      · rw [if_neg (htracks.hand_fresh hhand)] at hold
        rw [Channel.sent_push,List.filter_append,h.sent i k c hc,hold]
        simp [htracks.event]
      · rw [h.sent i k d hd,hold]
        simp [hne]
    · rw [if_neg hi]
      rcases Table.get_set_some hd with ⟨rfl,rfl⟩ | ⟨-,hd⟩
      · rw [Channel.sent_push,List.filter_append,h.sent i k c hc]
        have hother : ¬p.event.call = i := by
          rw [htracks.event]
          exact Ne.symm hi
        simp [hother]
      · exact h.sent i k d hd

lemma Sound.finish (h : s.Sound) (hp : s.publishing.get call = some p) (hhand : p.hand = none)
    (hend : p.subs.len ≤ p.next) :
    Sound { s with
      publishing := s.publishing.erase call
      finished := s.finished.set call { p with stayed := p.snapshot.filter (· ∈ s.subscribers) } } := by
  obtain ⟨hfin,htracks⟩ := h.publishing call p hp
  refine ⟨h.safe,h.valid,h.nodup,h.live,?_,?_,?_⟩
  · intro i q hq
    obtain ⟨hne,hq⟩ := Table.get_erase_some hq
    obtain ⟨hfin',htracks'⟩ := h.publishing i q hq
    refine ⟨(Table.get_set_of_ne hne).trans hfin',htracks'.mono ?_ (fun _ _ hlive => hlive) (fun _ hk => hk)⟩
    exact fun _ hsees => ⟨hsees.valid,hsees.read,hsees.inside⟩
  · intro i q hq
    rcases Table.get_set_some hq with ⟨rfl,rfl⟩ | ⟨-,hq⟩
    · refine ⟨?_,fun ch hch => (List.mem_filter.mp hch).1,htracks.known⟩
      have hserved := htracks.served
      rw [hhand,List.take_of_length_le (by rw [htracks.length]; exact hend)] at hserved
      simpa using hserved
    · exact (h.finished i q hq).mono (fun _ hk => hk)
  · intro i ch c hc
    rw [h.sent i ch c hc]
    by_cases hi : i = call
    · subst hi
      rw [due_of_publishing hp]
      simp [due,record,Table.get_erase]
    · simp [due,record,Table.get_erase,hi,Table.get_set_of_ne hi]

lemma Sound.receive (h : s.Sound) {ch : ℕ} {c c' : Channel BusEvent} (hc : s.channels.get ch = some c)
    (hrec : c.receive = some c') : Sound { s with channels := s.channels.set ch c' } := by
  obtain ⟨hsent,hclosed,-⟩ := Channel.receive_some hrec
  have hlive : ∀ k, s.Live k → Live { s with channels := s.channels.set ch c' } k := by
    rintro k ⟨hclosing,d,hd,hopen⟩
    refine ⟨hclosing,?_⟩
    by_cases hk : k = ch
    · subst hk
      obtain rfl := Option.some.inj (hc.symm.trans hd)
      exact ⟨_,Table.get_set_self _ _ _,hclosed.trans hopen⟩
    · exact ⟨d,(Table.get_set_of_ne hk).trans hd,hopen⟩
  have hknown : ∀ k, (s.channels.get k).isSome → ((s.channels.set ch c').get k).isSome :=
    fun k hk => Table.isSome_get_set ch _ hk
  refine ⟨h.safe,h.valid,h.nodup,fun k hk => hlive k (h.live k hk),?_,fun i p hp => (h.finished i p hp).mono hknown,?_⟩
  · intro i p hp
    obtain ⟨hfin,htracks⟩ := h.publishing i p hp
    exact ⟨hfin,htracks.mono (fun _ hsees => ⟨hsees.valid,hsees.read,hsees.inside⟩) (fun k _ => hlive k) hknown⟩
  · intro i k d hd
    rcases Table.get_set_some hd with ⟨rfl,rfl⟩ | ⟨-,hd⟩
    · rw [hsent]
      exact h.sent i k c hc
    · exact h.sent i k d hd

/-- One step, as long as nobody leaves in the way of a publisher. -/
lemma Sound.step (h : s.Sound) (hquiet : s.LeavesQuietly op) (hs : s.step op = some t) : t.Sound := by
  unfold EventBus.step at hs
  rw [if_neg (by simp [h.safe])] at hs
  cases op with
  | subscribe ch bufSize capacity =>
    simp only at hs
    by_cases hlock : s.closing.isSome ∨ (s.channels.get ch).isSome
    · rw [if_pos hlock] at hs
      cases hs
    rw [if_neg hlock] at hs
    rw [not_or] at hlock
    cases hs
    exact h.subscribe (by simpa using hlock.1) (by simpa using hlock.2) _ capacity
  | unsubscribe ch =>
    simp only at hs
    split_ifs at hs with hlock hin
    · cases hs
      exact h.leave hin (hquiet hin)
    · cases hs
      exact h
  | close =>
    simp only at hs
    split at hs
    next => cases hs
    next ch hclosing =>
      split at hs
      next => cases hs
      next c hc =>
        cases hs
        exact h.close hclosing hc
  | publish call source payload now =>
    simp only at hs
    split_ifs at hs with hlock
    rw [not_or,not_or] at hlock
    cases hs
    exact h.publish (by simpa using hlock.2.1) (by simpa using hlock.2.2) source payload now
  | next call =>
    simp only at hs
    split at hs
    next => cases hs
    next p hp =>
      split_ifs at hs with hready
      rw [not_or] at hready
      split at hs
      next => cases hs
      next ch hcell =>
        cases hs
        exact h.next hp (by simpa using hready.1) (not_le.mp hready.2) hcell
  | send call =>
    simp only at hs
    split at hs
    next => cases hs
    next p hp =>
      split at hs
      next => cases hs
      next ch hhand =>
        obtain ⟨c,hc,rfl⟩ := Option.map_eq_some_iff.mp hs
        obtain ⟨-,d,hd,hopen⟩ := (h.publishing call p hp).2.live ch (.inl hhand)
        obtain rfl := Option.some.inj (hc.symm.trans hd)
        unfold sendTo
        split
        next hpanic =>
          rw [Channel.trySend_panic_iff,hopen] at hpanic
          cases hpanic
        next => exact h.drop hp hhand
        next c' hsent =>
          obtain ⟨-,rfl⟩ := Channel.trySend_sent hsent
          exact h.deliver hp hhand hc
  | finish call =>
    simp only at hs
    split at hs
    next => cases hs
    next p hp =>
      split_ifs at hs with hready
      rw [not_or] at hready
      cases hs
      exact h.finish hp (by simpa using hready.1) (not_lt.mp hready.2)
  | receive ch =>
    simp only at hs
    split at hs
    next => cases hs
    next c hc =>
      obtain ⟨c',hrec,rfl⟩ := Option.map_eq_some_iff.mp hs
      exact h.receive hc hrec

/-- In a run in which every subscriber that leaves does so without getting in the way of a publisher, nobody sends on a
closed channel, and every call reaches everyone who stays once. -/
theorem serves_of_leavesQuietly {trace : List (Transition EventBus BusOp)} (run : Run step new trace t)
    (hquiet : ∀ e ∈ trace, e.source.LeavesQuietly e.label) : t.Serves ∧ ∀ e ∈ trace, e.source.Serves := by
  obtain ⟨hsources,hend⟩ := run.invariant_of_allowed
    (fun s op t (hsound : s.Sound) (hallowed : s.LeavesQuietly op) hs => hsound.step hallowed hs) sound_new hquiet
  exact ⟨hend.serves,fun e he => (hsources e he).1.serves⟩

/-- Two subscribers, and a call that is about to read the first cell. -/
def twoSubscribers : List BusOp := [.subscribe 10 0 2,.subscribe 11 0 2,.publish 0 1 [1] 5]

def visit : List BusOp := [.next 0,.send 0]

/-- The second subscriber leaves after it was served, the first stays. -/
theorem serves_of_leavesQuietly_second : ∃ trace s, Run step new trace s ∧
    (s.finished.get 0).map Publishing.stayed = some [10] ∧ s.Serves := by
  obtain ⟨s,t,u,q,hs,hpub,hhand,hend,ht,hu,hstayed⟩ : ∃ s t u q,
      exec step (twoSubscribers++(visit++visit)) new = some s ∧ s.publishing = Table.empty.set 0 q ∧
      q.hand = none ∧ q.subs.len ≤ q.next ∧
      s.step (.unsubscribe 11) = some t ∧ exec step [.close,.finish 0] t = some u ∧
      (u.finished.get 0).map Publishing.stayed = some [10] :=
    ⟨_,_,_,_,rfl,rfl,rfl,by decide,rfl,rfl,rfl⟩
  have hrun := ((Run.of_exec hs).snoc ht).append (Run.of_exec hu)
  refine ⟨_,u,hrun,hstayed,(serves_of_leavesQuietly hrun ?_).1⟩
  have hbefore : ∀ e : Transition EventBus BusOp, ∀ l ∈ twoSubscribers++(visit++visit), e.source.LeavesQuietly l := by
    simp [twoSubscribers,visit,LeavesQuietly]
  have hafter : ∀ e : Transition EventBus BusOp, ∀ l ∈ [BusOp.close,.finish 0], e.source.LeavesQuietly l := by
    simp [LeavesQuietly]
  intro e he
  rcases List.mem_append.mp he with he | he
  · rcases List.mem_append.mp he with he | he
    · exact hbefore e _ (label_mem_of_mem_transitions he)
    · rw [List.mem_singleton.mp he]
      intro _ call p hp hdisturbs
      rw [hpub] at hp
      rcases Table.get_set_some hp with ⟨-,rfl⟩ | ⟨-,hp⟩
      · rcases hdisturbs with hch | ⟨hleft,-⟩
        · cases hhand.symm.trans hch
        · omega
      · cases hp
  · exact hafter e _ (label_mem_of_mem_transitions he)

/-- The first subscriber leaves after its cell was read. -/
theorem publish_sends_on_closed_channel : ¬∀ trace t, Run step new trace t → t.Serves := by
  intro h
  obtain ⟨t,ht,hcrashed⟩ : ∃ t,
      exec step (twoSubscribers++[.next 0,.unsubscribe 10,.close,.send 0]) new = some t ∧ t.crashed = true :=
    ⟨_,rfl,rfl⟩
  have hsafe := (h _ t (Run.of_exec ht)).safe
  rw [hcrashed] at hsafe
  cases hsafe

end EventBus
end HiveKernel
