import HiveKernel.Lib.Channel
import HiveKernel.Lib.Run
import HiveKernel.Lib.Table
import Mathlib.Data.List.Count

/-! Pipes between a parent and its child. A write looks under the lock whether the pipe is closed and
sends after it has given up the lock. -/
namespace HiveKernel
open Lib

inductive Direction
  | toChild | toParent
  deriving DecidableEq, Repr

/-- What stands in a channel: the data, with the call that wrote it. -/
structure PipeData where
  call : ℕ
  data : List UInt8
  deriving DecidableEq, Repr

/-- Both channels are closed together with the pipe. -/
structure Pipe where
  parentPID : ℕ
  childPID : ℕ
  parentToChild : Channel PipeData
  childToParent : Channel PipeData
  closed : Bool
  child_closed : parentToChild.closed = closed
  parent_closed : childToParent.closed = closed

namespace Pipe

def new (parentPID childPID : ℕ) (bufferSize : ℤ) : Pipe :=
  let size := if bufferSize ≤ 0 then 64 else bufferSize.toNat
  { parentPID := parentPID
    childPID := childPID
    parentToChild := .make _ size
    childToParent := .make _ size
    closed := false
    child_closed := rfl
    parent_closed := rfl }

def channel (p : Pipe) : Direction → Channel PipeData
  | .toChild => p.parentToChild
  | .toParent => p.childToParent

lemma channel_closed (p : Pipe) (d : Direction) : (p.channel d).closed = p.closed := by
  cases d with
  | toChild => exact p.child_closed
  | toParent => exact p.parent_closed

/-- The pipe with another state of one channel. -/
def setChannel (p : Pipe) (d : Direction) (ch : Channel PipeData) (h : ch.closed = p.closed) : Pipe :=
  match d with
  | .toChild => { p with parentToChild := ch, child_closed := h }
  | .toParent => { p with childToParent := ch, parent_closed := h }

lemma channel_setChannel (p : Pipe) (d d' : Direction) (ch : Channel PipeData) (h : ch.closed = p.closed) :
    (p.setChannel d ch h).channel d' = if d' = d then ch else p.channel d' := by
  cases d <;> cases d' <;> rfl

@[simp] lemma closed_setChannel (p : Pipe) (d : Direction) (ch : Channel PipeData) (h : ch.closed = p.closed) :
    (p.setChannel d ch h).closed = p.closed := by
  cases d <;> rfl

def fullMessage (p : Pipe) : Direction → String
  | .toChild => s!"pipe to child full (PID {p.parentPID} -> {p.childPID})"
  | .toParent => s!"pipe to parent full (PID {p.childPID} -> {p.parentPID})"

def close (p : Pipe) : Pipe :=
  if p.closed then p
  else
    { p with
      closed := true
      parentToChild := p.parentToChild.close
      childToParent := p.childToParent.close
      child_closed := rfl
      parent_closed := rfl }

@[simp] lemma sent_close (p : Pipe) (d : Direction) : (p.close.channel d).sent = (p.channel d).sent := by
  unfold close
  split_ifs
  · rfl
  · cases d <;> rfl

end Pipe

/-- A call of `WriteToChild` or `WriteToParent`. -/
structure WriteCall where
  pipe : ℕ
  direction : Direction
  data : List UInt8
  deriving DecidableEq, Repr

/-- The pipes that were made, the registry of those in use, and the writes between their two parts. What
finished writes have returned is recorded, `none` for nil. -/
structure PipeSystem where
  pipes : Table ℕ Pipe
  registry : Table (ℕ × ℕ) ℕ
  next : ℕ
  writers : Table ℕ WriteCall
  returned : Table ℕ (WriteCall × Option String)
  /-- Someone has sent on a closed channel. -/
  crashed : Bool

inductive PipeOp
  | create (parentPID childPID : ℕ) (bufferSize : ℤ)
  | check (call : ℕ) (w : WriteCall)
  | send (call : ℕ)
  | close (pipe : ℕ)
  | remove (parentPID childPID : ℕ)
  | read (pipe : ℕ) (direction : Direction)

namespace PipeSystem

def start : PipeSystem := ⟨.empty,.empty,0,.empty,.empty,false⟩

def closePipe (s : PipeSystem) (pipe : ℕ) : PipeSystem :=
  match s.pipes.get pipe with
  | none => s
  | some p => { s with pipes := s.pipes.set pipe p.close }

/-- The second part of a write. -/
def sendTo (s : PipeSystem) (call : ℕ) (w : WriteCall) (p : Pipe) : PipeSystem :=
  match h : (p.channel w.direction).trySend ⟨call,w.data⟩ with
  | .panic => { s with crashed := true }
  | .full =>
    { s with
      writers := s.writers.erase call
      returned := s.returned.set call (w,some (p.fullMessage w.direction)) }
  | .sent ch =>
    { s with
      pipes := s.pipes.set w.pipe (p.setChannel w.direction ch (by
        obtain ⟨-,rfl⟩ := Channel.trySend_sent h
        exact p.channel_closed w.direction))
      writers := s.writers.erase call
      returned := s.returned.set call (w,none) }

def step (s : PipeSystem) (op : PipeOp) : Option PipeSystem :=
  if s.crashed then none
  else match op with
    | .create parentPID childPID bufferSize => match s.registry.get (parentPID,childPID) with
      | some _ => some s
      | none => some
        { s with
          pipes := s.pipes.set s.next (.new parentPID childPID bufferSize)
          registry := s.registry.set (parentPID,childPID) s.next
          next := s.next+1 }
    | .check call w =>
      if (s.writers.get call).isSome ∨ (s.returned.get call).isSome then none
      else match s.pipes.get w.pipe with
        | none => none
        | some p =>
          if p.closed then some { s with returned := s.returned.set call (w,some "pipe closed") }
          else some { s with writers := s.writers.set call w }
    | .send call => match s.writers.get call with
      | none => none
      | some w => (s.pipes.get w.pipe).map (s.sendTo call w)
    | .close pipe => some (s.closePipe pipe)
    | .remove parentPID childPID => match s.registry.get (parentPID,childPID) with
      | none => some s
      | some pipe => some { s.closePipe pipe with registry := s.registry.erase (parentPID,childPID) }
    | .read pipe direction => match s.pipes.get pipe with
      | none => none
      | some p => match h : (p.channel direction).receive with
        | none => none
        | some ch => some
          { s with pipes := s.pipes.set pipe (p.setChannel direction ch (by
              rw [(Channel.receive_some h).2.1]
              exact p.channel_closed direction)) }

/-- What a write has to have left in a channel: its data if it returned nil and was for that channel. -/
def due (s : PipeSystem) (call pipe : ℕ) (d : Direction) : List PipeData :=
  match s.returned.get call with
  | some (w,none) => if w.pipe = pipe ∧ w.direction = d then [⟨call,w.data⟩] else []
  | _ => []

/-- Nobody has sent on a closed channel; of every write there is in every channel exactly what is due; and whoever
reads a channel to its end has read what was sent, in that order. -/
structure Delivers (s : PipeSystem) : Prop where
  safe : s.crashed = false
  once : ∀ pipe p d call, s.pipes.get pipe = some p →
    (p.channel d).sent.filter (fun m => m.call = call) = s.due call pipe d
  read : ∀ pipe p d, s.pipes.get pipe = some p → ∃ t p',
    exec step (List.replicate (p.channel d).buffer.length (.read pipe d)) s = some t ∧
      t.pipes.get pipe = some p' ∧ (p'.channel d).received = (p.channel d).sent

/-- The pipe that a step closes. -/
def closes (s : PipeSystem) : PipeOp → Option ℕ
  | .close pipe => some pipe
  | .remove parentPID childPID => s.registry.get (parentPID,childPID)
  | _ => none

/-- No write on an open pipe is between its two parts when the pipe is closed. -/
def ClosesIdle (s : PipeSystem) (op : PipeOp) : Prop :=
  ∀ pipe p, s.closes op = some pipe → s.pipes.get pipe = some p → p.closed = false →
    ∀ call w, s.writers.get call = some w → w.pipe ≠ pipe

variable {s t : PipeSystem} {op : PipeOp}

lemma step_read {pipe : ℕ} {p : Pipe} {d : Direction} (hsafe : s.crashed = false) (hp : s.pipes.get pipe = some p)
    (hbuffer : (p.channel d).buffer ≠ []) : ∃ p', s.step (.read pipe d) = some { s with pipes := s.pipes.set pipe p' } ∧
      (p'.channel d).sent = (p.channel d).sent ∧
      (p.channel d).buffer.length = (p'.channel d).buffer.length+1 := by
  obtain ⟨ch,hch⟩ := Channel.receive_isSome hbuffer
  obtain ⟨hsent,hclosed,hlength⟩ := Channel.receive_some hch
  refine ⟨p.setChannel d ch (hclosed.trans (p.channel_closed d)),?_,?_,?_⟩
  · simp only [step,hsafe,hp,Bool.false_eq_true,if_false]
    split
    next h => cases h.symm.trans hch
    next ch' h =>
      cases h.symm.trans hch
      rfl
  · rw [Pipe.channel_setChannel,if_pos rfl]
    exact hsent
  · rw [Pipe.channel_setChannel,if_pos rfl]
    exact hlength

/-- A channel can be read to its end, whether it is closed or not. -/
lemma exec_reads {pipe : ℕ} {p : Pipe} {d : Direction} (hsafe : s.crashed = false) (hp : s.pipes.get pipe = some p) :
    ∃ t p', exec step (List.replicate (p.channel d).buffer.length (.read pipe d)) s = some t ∧
      t.pipes.get pipe = some p' ∧ (p'.channel d).received = (p.channel d).sent := by
  generalize hn : (p.channel d).buffer.length = n
  induction n generalizing s p with
  | zero =>
    refine ⟨s,p,rfl,hp,?_⟩
    exact Channel.received_eq_sent (List.length_eq_zero_iff.mp hn)
  | succ n ih =>
    have hbuffer : (p.channel d).buffer ≠ [] := by
      intro h
      rw [h] at hn
      cases hn
    obtain ⟨p',hstep,hsent,hlength⟩ := step_read hsafe hp hbuffer
    have hp' : (s.pipes.set pipe p').get pipe = some p' := Table.get_set_self _ _ _
    obtain ⟨t,q,ht,hq,hreceived⟩ := ih (s := { s with pipes := s.pipes.set pipe p' }) hsafe hp' (by omega)
    refine ⟨t,q,?_,hq,hreceived.trans hsent⟩
    rw [List.replicate_succ,exec_cons hstep]
    exact ht

structure Sound (s : PipeSystem) : Prop where
  safe : s.crashed = false
  bound : ∀ pipe p, s.pipes.get pipe = some p → pipe < s.next
  written : ∀ call w, s.returned.get call = some (w,none) → w.pipe < s.next
  writing : ∀ call w, s.writers.get call = some w → s.returned.get call = none ∧
    ∃ p, s.pipes.get w.pipe = some p ∧ p.closed = false
  once : ∀ pipe p d call, s.pipes.get pipe = some p →
    (p.channel d).sent.filter (fun m => m.call = call) = s.due call pipe d

lemma Sound.delivers (h : s.Sound) : s.Delivers :=
  ⟨h.safe,h.once,fun _ _ _ hp => exec_reads h.safe hp⟩

lemma sound_start : start.Sound where
  safe := rfl
  bound _ _ h := by cases h
  written _ _ h := by cases h
  writing _ _ h := by cases h
  once _ _ _ _ h := by cases h

lemma due_of_none {call : ℕ} (h : s.returned.get call = none) (pipe : ℕ) (d : Direction) :
    s.due call pipe d = [] := by
  unfold due
  rw [h]

/-- A write that returns an error has nothing due. -/
lemma due_error {call : ℕ} (h : s.returned.get call = none) (w : WriteCall) (e : String) (writers : Table ℕ WriteCall)
    (call' pipe : ℕ) (d : Direction) :
    ({ s with writers := writers, returned := s.returned.set call (w,some e) } : PipeSystem).due call' pipe d =
      s.due call' pipe d := by
  by_cases hc : call' = call
  · subst hc
    rw [due_of_none h]
    simp [due]
  · simp [due,Table.get_set_of_ne hc]

/-- A pipe whose channels keep what was sent. -/
lemma Sound.setPipe (h : s.Sound) {pipe : ℕ} {p p' : Pipe} (hp : s.pipes.get pipe = some p)
    (hsent : ∀ d, (p'.channel d).sent = (p.channel d).sent)
    (hclosed : p'.closed = true → p.closed = false → ∀ call w, s.writers.get call = some w → w.pipe ≠ pipe) :
    Sound { s with pipes := s.pipes.set pipe p' } := by
  refine ⟨h.safe,?_,h.written,?_,?_⟩
  · intro k q hq
    rcases Table.get_set_some hq with ⟨rfl,-⟩ | ⟨-,hq⟩
    · exact h.bound k p hp
    · exact h.bound k q hq
  · intro call w hw
    obtain ⟨hret,q,hq,hopen⟩ := h.writing call w hw
    refine ⟨hret,?_⟩
    by_cases hk : w.pipe = pipe
    · rw [hk] at hq ⊢
      obtain rfl := Option.some.inj (hp.symm.trans hq)
      refine ⟨p',Table.get_set_self _ _ _,?_⟩
      cases hc : p'.closed with
      | false => rfl
      | true => exact absurd hk (hclosed hc hopen call w hw)
    · exact ⟨q,(Table.get_set_of_ne hk).trans hq,hopen⟩
  · intro k q d call hq
    rcases Table.get_set_some hq with ⟨rfl,rfl⟩ | ⟨-,hq⟩
    · rw [hsent d]
      exact h.once k p d call hp
    · exact h.once k q d call hq

lemma Sound.closePipe (h : s.Sound) {pipe : ℕ} (hidle : ∀ p, s.pipes.get pipe = some p → p.closed = false →
    ∀ call w, s.writers.get call = some w → w.pipe ≠ pipe) : (s.closePipe pipe).Sound := by
  unfold PipeSystem.closePipe
  cases hp : s.pipes.get pipe with
  | none => exact h
  | some p => exact h.setPipe hp p.sent_close (fun _ => hidle p hp)

lemma Sound.create (h : s.Sound) (parentPID childPID : ℕ) (bufferSize : ℤ) :
    Sound { s with
      pipes := s.pipes.set s.next (.new parentPID childPID bufferSize)
      registry := s.registry.set (parentPID,childPID) s.next
      next := s.next+1 } := by
  have hne : ∀ {k : ℕ} {p : Pipe}, s.pipes.get k = some p → k ≠ s.next := fun hk => (h.bound _ _ hk).ne
  refine ⟨h.safe,?_,fun call w hw => Nat.lt_succ_of_lt (h.written call w hw),?_,?_⟩
  · intro k p hp
    rcases Table.get_set_some hp with ⟨rfl,-⟩ | ⟨-,hp⟩
    · exact Nat.lt_succ_self _
    · exact Nat.lt_succ_of_lt (h.bound k p hp)
  · intro call w hw
    obtain ⟨hret,p,hp,hopen⟩ := h.writing call w hw
    exact ⟨hret,p,(Table.get_set_of_ne (hne hp)).trans hp,hopen⟩
  · intro k p d call hp
    rcases Table.get_set_some hp with ⟨rfl,rfl⟩ | ⟨-,hp⟩
    · have hdue : s.due call s.next d = [] := by
        unfold due
        split
        next w hw => rw [if_neg (fun he => (h.written call w hw).ne he.1)]
        next => rfl
      change _ = s.due call s.next d
      rw [hdue]
      cases d <;> rfl
    · exact h.once k p d call hp

/-- A write that returns an error. -/
lemma Sound.fails (h : s.Sound) {call : ℕ} (hret : s.returned.get call = none) (w : WriteCall) (e : String)
    {writers : Table ℕ WriteCall} (hwriters : ∀ c v, writers.get c = some v → c ≠ call ∧ s.writers.get c = some v) :
    Sound { s with writers := writers, returned := s.returned.set call (w,some e) } := by
  refine ⟨h.safe,h.bound,?_,?_,?_⟩
  · intro c v hv
    rcases Table.get_set_some hv with ⟨-,he⟩ | ⟨-,hv⟩
    · cases he
    · exact h.written c v hv
  · intro c v hv
    obtain ⟨hne,hv⟩ := hwriters c v hv
    obtain ⟨hret',hp⟩ := h.writing c v hv
    exact ⟨(Table.get_set_of_ne hne).trans hret',hp⟩
  · intro k p d c hp
    rw [due_error hret]
    exact h.once k p d c hp

lemma Sound.checks (h : s.Sound) {call : ℕ} (hret : s.returned.get call = none) {w : WriteCall} {p : Pipe}
    (hp : s.pipes.get w.pipe = some p) (hopen : p.closed = false) :
    Sound { s with writers := s.writers.set call w } := by
  refine ⟨h.safe,h.bound,h.written,?_,h.once⟩
  intro c v hv
  rcases Table.get_set_some hv with ⟨rfl,rfl⟩ | ⟨-,hv⟩
  · exact ⟨hret,p,hp,hopen⟩
  · exact h.writing c v hv

/-- A write that returns nil. -/
lemma Sound.sends (h : s.Sound) {call : ℕ} {w : WriteCall} {p : Pipe} (hw : s.writers.get call = some w)
    (hp : s.pipes.get w.pipe = some p) (hclosed : ((p.channel w.direction).push ⟨call,w.data⟩).closed = p.closed) :
    Sound { s with
      pipes := s.pipes.set w.pipe (p.setChannel w.direction ((p.channel w.direction).push ⟨call,w.data⟩) hclosed)
      writers := s.writers.erase call
      returned := s.returned.set call (w,none) } := by
  obtain ⟨hret,-⟩ := h.writing call w hw
  refine ⟨h.safe,?_,?_,?_,?_⟩
  · intro k q hq
    rcases Table.get_set_some hq with ⟨rfl,-⟩ | ⟨-,hq⟩
    · exact h.bound _ p hp
    · exact h.bound k q hq
  · intro c v hv
    rcases Table.get_set_some hv with ⟨-,he⟩ | ⟨-,hv⟩
    · cases he
      exact h.bound _ p hp
    · exact h.written c v hv
  · intro c v hv
    obtain ⟨hne,hv⟩ := Table.get_erase_some hv
    obtain ⟨hret',q,hq,hopen⟩ := h.writing c v hv
    refine ⟨(Table.get_set_of_ne hne).trans hret',?_⟩
    by_cases hk : v.pipe = w.pipe
    · rw [hk] at hq ⊢
      obtain rfl := Option.some.inj (hp.symm.trans hq)
      exact ⟨_,Table.get_set_self _ _ _,(Pipe.closed_setChannel ..).trans hopen⟩
    · exact ⟨q,(Table.get_set_of_ne hk).trans hq,hopen⟩
  · intro k q d c hq
    have hdue : ∀ k d, ({ s with returned := s.returned.set call (w,none) } : PipeSystem).due c k d =
        s.due c k d++if c = call ∧ k = w.pipe ∧ d = w.direction then [⟨call,w.data⟩] else [] := by
      intro k d
      by_cases hc : c = call
      · subst hc
        rw [due_of_none hret]
        simp [due,eq_comm]
      · simp [due,Table.get_set_of_ne hc,hc]
    change _ = ({ s with returned := s.returned.set call (w,none) } : PipeSystem).due c k d
    rw [hdue]
    rcases Table.get_set_some hq with ⟨rfl,rfl⟩ | ⟨hne,hq⟩
    · rw [← h.once _ p d c hp,Pipe.channel_setChannel]
      by_cases hd : d = w.direction
      · subst hd
        by_cases hc : c = call
        · subst hc
          simp
        · simp [hc,Ne.symm hc]
      · simp [hd]
    · rw [h.once k q d c hq]
      simp [hne]

/-- One step, as long as no pipe is closed under a write. -/
lemma Sound.step (h : s.Sound) (hidle : s.ClosesIdle op) (hs : s.step op = some t) : t.Sound := by
  unfold PipeSystem.step at hs
  rw [if_neg (by simp [h.safe])] at hs
  cases op with
  | create parentPID childPID bufferSize =>
    simp only at hs
    split at hs
    next => cases hs; exact h
    next => cases hs; exact h.create parentPID childPID bufferSize
  | check call w =>
    simp only at hs
    split_ifs at hs with hnew
    rw [not_or] at hnew
    have hret : s.returned.get call = none := by simpa using hnew.2
    split at hs
    next => cases hs
    next p hp =>
      split_ifs at hs with hclosed
      · cases hs
        apply h.fails hret w "pipe closed"
        intro c v hv
        refine ⟨?_,hv⟩
        rintro rfl
        exact hnew.1 (by simp [hv])
      · cases hs
        exact h.checks hret hp (by simpa using hclosed)
  | send call =>
    simp only at hs
    split at hs
    next => cases hs
    next w hw =>
      obtain ⟨p,hp,rfl⟩ := Option.map_eq_some_iff.mp hs
      obtain ⟨hret,q,hq,hopen⟩ := h.writing call w hw
      obtain rfl := Option.some.inj (hp.symm.trans hq)
      unfold sendTo
      split
      next hpanic =>
        rw [Channel.trySend_panic_iff,p.channel_closed,hopen] at hpanic
        cases hpanic
      next => exact h.fails hret w _ (fun _ _ hv => Table.get_erase_some hv)
      next ch hsent =>
        obtain ⟨-,rfl⟩ := Channel.trySend_sent hsent
        exact h.sends hw hp _
  | close pipe =>
    cases hs
    exact h.closePipe (fun p hp => hidle pipe p rfl hp)
  | remove parentPID childPID =>
    simp only at hs
    split at hs
    next => cases hs; exact h
    next pipe hpipe =>
      cases hs
      have hclosed := h.closePipe (fun p hp => hidle pipe p hpipe hp)
      exact ⟨hclosed.safe,hclosed.bound,hclosed.written,hclosed.writing,hclosed.once⟩
  | read pipe d =>
    simp only at hs
    split at hs
    next => cases hs
    next p hp =>
      split at hs
      next => cases hs
      next ch hch =>
        cases hs
        obtain ⟨hsent,hclosed,-⟩ := Channel.receive_some hch
        apply h.setPipe hp
        · intro d'
          rw [Pipe.channel_setChannel]
          split_ifs with hd
          · rw [hd]
            exact hsent
          · rfl
        · intro hc hopen
          rw [Pipe.closed_setChannel,hopen] at hc
          cases hc

/-- In a run that closes no open pipe while a write on it is between its check and its send, no write panics, every
write that returned nil is in its channel once, every other write nowhere, and what is read is what was sent. -/
theorem delivers_of_closesIdle {trace : List (Transition PipeSystem PipeOp)} (run : Run step start trace t)
    (hidle : ∀ e ∈ trace, e.source.ClosesIdle e.label) : t.Delivers ∧ ∀ e ∈ trace, e.source.Delivers := by
  obtain ⟨hsources,hend⟩ := run.invariant_of_allowed
    (fun s op t (hsound : s.Sound) (hallowed : s.ClosesIdle op) hs => hsound.step hallowed hs) sound_start hidle
  exact ⟨hend.delivers,fun e he => (hsources e he).1.delivers⟩

def hello : WriteCall := ⟨0,.toChild,[104,105]⟩

/-- A write, then the pipe is closed, then another write. -/
theorem delivers_of_closesIdle_hello : ∃ trace s, Run step start trace s ∧ s.returned.get 0 = some (hello,none) ∧
    s.returned.get 1 = some (hello,some "pipe closed") ∧ s.Delivers := by
  obtain ⟨s,t,u,hs,hnone,ht,hu,hfirst,hsecond⟩ : ∃ s t u,
      exec step [.create 1 2 0,.check 0 hello,.send 0] start = some s ∧ s.writers = .empty ∧
      s.step (.close 0) = some t ∧ t.step (.check 1 hello) = some u ∧
      u.returned.get 0 = some (hello,none) ∧ u.returned.get 1 = some (hello,some "pipe closed") :=
    ⟨_,_,_,rfl,rfl,rfl,rfl,rfl,rfl⟩
  have hrun := ((Run.of_exec hs).snoc ht).snoc hu
  refine ⟨_,u,hrun,hfirst,hsecond,(delivers_of_closesIdle hrun ?_).1⟩
  intro e he
  rcases List.mem_append.mp he with he | he
  · rcases List.mem_append.mp he with he | he
    · have hlabel := label_mem_of_mem_transitions he
      intro pipe p hclose
      simp only [List.mem_cons,List.not_mem_nil,or_false] at hlabel
      rcases hlabel with hl | hl | hl <;> simp [hl,closes] at hclose
    · rw [List.mem_singleton.mp he]
      intro pipe p _ _ _ call w hw
      rw [hnone] at hw
      cases hw
  · rw [List.mem_singleton.mp he]
    intro pipe p hclose
    cases hclose

/-- The pipe is closed after the check of a write. -/
theorem write_sends_on_closed_channel :
    ¬∀ trace t, Run step start trace t → t.Delivers := by
  intro h
  obtain ⟨t,ht,hcrashed⟩ : ∃ t,
      exec step [.create 1 2 0,.check 0 hello,.close 0,.send 0] start = some t ∧ t.crashed = true := ⟨_,rfl,rfl⟩
  have hsafe := (h _ t (Run.of_exec ht)).safe
  rw [hcrashed] at hsafe
  cases hsafe

end PipeSystem
end HiveKernel
